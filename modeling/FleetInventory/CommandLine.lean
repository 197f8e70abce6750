/-!
The command line: one command without arguments of its own, or a request for help. The first word
that does not fit decides what is reported.
-/
namespace FleetInventory

inductive Command where
  /-- Apply migrations and start the server. -/
  | serve
  /-- Apply migrations and exit. -/
  | migrate
  /-- Check database connectivity and schema state. -/
  | doctor
  deriving DecidableEq

inductive Usage where
  | help
  | commandMissing
  | unknownCommand (word : String)
  | unknownArgument (word : String)
  | unneededValue (word : String)
  deriving DecidableEq

namespace Command

def ofWord? (word : String) : Option Command :=
  if word = "serve" then some serve
  else if word = "migrate" then some migrate
  else if word = "doctor" then some doctor
  else none

/-- What an option leads to, if the word is one: a hyphen with something after it. -/
def option? (word : String) : Option Usage :=
  match word.toList with
  | '-' :: '-' :: 'h' :: 'e' :: 'l' :: 'p' :: rest =>
    match rest with
    | [] => some .help
    | '=' :: _ => some (.unneededValue word)
    | _ => some (.unknownArgument word)
  | '-' :: 'h' :: _ => some .help
  | '-' :: _ :: _ => some (.unknownArgument word)
  | _ => none

/-- The words after a command. After two hyphens every word is an argument. -/
def arguments (command : Command) : List String → Except Usage Command
  | [] => .ok command
  | [word] =>
    if word = "--" then .ok command else .error ((option? word).getD (.unknownArgument word))
  | word :: next :: _ =>
    if word = "--" then .error (.unknownArgument next)
    else .error ((option? word).getD (.unknownArgument word))

def helpTopic : List String → Usage
  | [] => .help
  | [word] =>
    if word = "help" ∨ (ofWord? word).isSome then .help else .unknownCommand word
  | word :: next :: _ =>
    if word = "help" ∨ (ofWord? word).isSome then .unknownCommand next else .unknownCommand word

def parse : List String → Except Usage Command
  | [] => .error .commandMissing
  | word :: rest =>
    if word = "--" then
      match rest with
      | [] => .error .commandMissing
      | next :: _ =>
        if next = "help" ∨ (ofWord? next).isSome then .error (.unknownArgument next)
        else .error (.unknownCommand next)
    else if word = "help" then .error (helpTopic rest)
    else
      match option? word with
      | some usage => .error usage
      | none =>
        match ofWord? word with
        | some command => arguments command rest
        | none => .error (.unknownCommand word)

end Command
end FleetInventory
