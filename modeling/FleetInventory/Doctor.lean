import FleetInventory.Settings
import FleetInventory.Store.Program

/-!
The check of the database: whether it can be reached and has the inventory's tables.
-/
namespace FleetInventory

/-- What the check found: a text if it failed. -/
structure Diagnosis where
  failure : Option String
  statements : List Statement
  log : List LogEvent

namespace Doctor

def schemaExists : StoreProgram Bool := Store.fetchOne (·.bool? "exists") .schemaExists

def reached : LogEvent := ⟨.info, "Database reachable", []⟩

def schemaEvent (applied : Bool) : LogEvent :=
  if applied then ⟨.info, "Inventory schema is applied", []⟩
  else ⟨.warn, "Inventory schema is missing, run `inventory-server migrate`", []⟩

def examine (connection : Connection) (script : Script) : Diagnosis :=
  match connection with
  | .unreachable causes =>
    ⟨some ("Database unreachable: " ++ Connection.failureChain causes), [], []⟩
  | .ready =>
    match schemaExists.run script with
    | (.ok applied, statements) => ⟨none, statements, [reached, schemaEvent applied]⟩
    | (.error fault, statements) =>
      ⟨some ("Schema check failed: " ++ Connection.chain fault.causes), statements, [reached]⟩

end Doctor
end FleetInventory
