import FleetInventory.Proofs.Record.Shown
import FleetInventory.Proofs.Sql.Operation
import FleetInventory.Store.Statement

/-!
What statements say: the operation that is read off their text, and the values that are bound to it.
-/
namespace FleetInventory.Statement

open Sql (Operation)

structure Says (s : Statement) (operation : Operation) (values : List Binding) : Prop where
  reads : Operation.parse? s.sql = some operation
  bound : s.bindings = values

theorem Says.unique {s : Statement} {operation other : Operation} {values others : List Binding}
    (wrote : s.Says operation values) (told : s.Says other others) :
    operation = other ∧ values = others :=
  ⟨Option.some.inj (wrote.reads.symm.trans told.reads), wrote.bound.symm.trans told.bound⟩

def attributeFields : List String := ["namespace", "data", "created_at", "updated_at"]

def versionFields : List String := ["id", "namespace", "data", "tally", "created_at"]

/-- The operation of a statement on one table that looks for rows by their columns, puts one in, or
counts one up. -/
def operation? : Statement → Option Operation
  | begin => some .begin
  | commit => some .commit
  | lockVersions _ _ => some .lock
  | findServer _ => some (.select "servers" ["id"] none (Server.columns.map (·.1)))
  | putAttribute owner _ =>
    some (.insert "attributes" ["id", owner.column, "namespace", "data"]
      [owner.column, "namespace"] attributeFields)
  | newestVersion owner _ =>
    some (.select "versioned_attributes" [owner.column, "namespace"] (some "created_at")
      versionFields)
  | raiseTally _ => some (.increment "versioned_attributes" "tally" ["id"] versionFields)
  | addVersion owner _ =>
    some (.insert "versioned_attributes" ["id", owner.column, "namespace", "data"] []
      versionFields)
  | findKind _ => some (.select "server_component_types" ["slug"] none ["id"])
  | addComponent _ _ _ =>
    some (.insert "server_components" ["id", "server_id", "server_component_type_id", "name",
      "vendor", "model", "serial"] [] (Component.columns.map (·.1)))
  | _ => none

theorem parse?_sql {s : Statement} {operation : Operation} (told : s.operation? = some operation) :
    Operation.parse? s.sql = some operation := by
  cases s <;> cases told
  -- the text names the column of the owner, so it is closed only once the owner is known
  case' putAttribute owner _ | newestVersion owner _ | addVersion owner _ =>
    cases owner <;> dsimp only [AttributeOwner.column]
  all_goals
    apply Operation.parse?_of_letters
    · repeat' first | apply Operation.letters_append | rfl
    · decide +kernel

theorem says_of_operation {s : Statement} {operation : Operation}
    (told : s.operation? = some operation) : s.Says operation s.bindings :=
  ⟨parse?_sql told, rfl⟩

theorem says_addComponent (server kind : Uuid) (input : ComponentInput) :
    (addComponent server kind input).Says
      (.insert "server_components" ["id", "server_id", "server_component_type_id", "name", "vendor",
        "model", "serial"] [] (Component.columns.map (·.1)))
      [.fresh, .uuid server, .uuid kind, input.name.elim .null .text,
        input.vendor.elim .null .text, input.model.elim .null .text,
        input.serial.elim .null .text] := by
  have given (text : Option String) : Binding.optionalText text = text.elim .null .text := by
    cases text <;> rfl
  refine ⟨parse?_sql rfl, ?_⟩
  simp only [bindings, given]

end FleetInventory.Statement
