import FleetInventory.Api.Service
import FleetInventory.CommandLine
import FleetInventory.Doctor

/-!
The command line of the inventory server. No database client belongs to this library, so the
commands end with the report that the database can not be reached.
-/
namespace FleetInventory.Main

def connection : Connection := .unreachable ["no database client is linked"]

def usage : String :=
  "Hardware inventory API server\n\nUsage: inventory-server <COMMAND>\n\nCommands:\n"
    ++ "  serve    Apply migrations and start the API server\n"
    ++ "  migrate  Apply migrations and exit\n"
    ++ "  doctor   Check database connectivity and schema state\n"
    ++ "  help     Print this message or the help of the given subcommand(s)\n"

def complaint : Usage → String
  | .help | .commandMissing => usage
  | .unknownCommand word => "error: unrecognized subcommand '" ++ word ++ "'\n\n" ++ usage
  | .unknownArgument word => "error: unexpected argument '" ++ word ++ "' found\n\n" ++ usage
  | .unneededValue word => "error: unexpected value for '" ++ word ++ "' found\n\n" ++ usage

def exitCode : Usage → UInt32
  | .help => 0
  | _ => 2

def run (settings : Settings) : Command → Option String × List LogEvent
  | .doctor =>
    let diagnosis := Doctor.examine connection ⟨[], []⟩
    (diagnosis.failure, diagnosis.log)
  | .serve | .migrate =>
    match connection.start settings.pool with
    | (.error text, log) => (some text, log)
    | (.ok _, log) => (none, log)

def names : List String :=
  ["DB_MAX_OPEN_CONNS", "DB_MAX_IDLE_CONNS", "DB_IDLE_TIMEOUT_SECS", "DATABASE_URL"]

def environment : IO Environment := do
  let values ← names.mapM fun name => return (name, ← IO.getEnv name)
  return fun name => (values.lookup name).join

end FleetInventory.Main

open FleetInventory in
def main (args : List String) : IO UInt32 := do
  match Command.parse args with
  | .error usage =>
    if Main.exitCode usage = 0 then IO.print (Main.complaint usage)
    else IO.eprint (Main.complaint usage)
    return Main.exitCode usage
  | .ok command =>
    let (settings, warnings) := Settings.read (← Main.environment)
    let (failure, log) := Main.run settings command
    for event in warnings ++ log do
      IO.eprintln (event.level.name ++ " " ++ event.message)
    match failure with
    | some text =>
      IO.eprintln ("Error: " ++ text)
      return 1
    | none => return 0
