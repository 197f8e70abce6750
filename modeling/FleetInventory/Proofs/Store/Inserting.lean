import FleetInventory.Proofs.Store.Placing

/-!
The tables that statements insert into, as their texts say, and the namespaces under which documents
go into the three tables that hold them.
-/
namespace FleetInventory.Statement

def insertion? : Statement → Option String
  | addServer _ => some "INSERT INTO servers ("
  | putAttribute _ _ => some "INSERT INTO attributes ("
  | addVersion _ _ => some "INSERT INTO versioned_attributes ("
  | addKind _ => some "INSERT INTO server_component_types ("
  | addComponent _ _ _ => some "INSERT INTO server_components ("
  | addFirmware _ => some "INSERT INTO component_firmware_version ("
  | addSet _ => some "INSERT INTO component_firmware_set ("
  | addToSet _ _ => some "INSERT INTO component_firmware_set_map ("
  | putSetAttribute _ _ => some "INSERT INTO attributes_firmware_set ("
  | _ => none

theorem sql_startsWith_insertion {s : Statement} {stem : String}
    (into : s.insertion? = some stem) : Text.startsWith stem s.sql = true := by
  cases s <;> cases into <;> dsimp only [sql]
  case addFirmware =>
    apply Text.startsWith_append
    apply Text.startsWith_append
    decide +kernel
  all_goals
    repeat with_reducible apply Text.startsWith_append
    apply Text.startsWith_ofList
    rfl

def documentInsertions : List String :=
  ["INSERT INTO attributes (", "INSERT INTO versioned_attributes (",
    "INSERT INTO attributes_firmware_set ("]

def otherInsertions : List String :=
  ["INSERT INTO servers (", "INSERT INTO server_component_types (",
    "INSERT INTO server_components (", "INSERT INTO component_firmware_version (",
    "INSERT INTO component_firmware_set (", "INSERT INTO component_firmware_set_map ("]

theorem mem_of_insertion? {s : Statement} {stem : String} (into : s.insertion? = some stem) :
    stem ∈ documentInsertions ++ otherInsertions := by
  cases s <;> cases into <;> decide

/-- No insertion begins like one into another table. -/
theorem insertions_apart : ∀ a ∈ documentInsertions ++ otherInsertions,
    ∀ b ∈ documentInsertions ++ otherInsertions, Text.startsWith a b = true → a = b := by
  decide +kernel

/-- Inserts into a table that holds documents, as the text says. -/
def StoresDocument (s : Statement) : Prop :=
  ∃ stem ∈ documentInsertions, Text.startsWith stem s.sql = true

theorem StoresDocument.verb {s : Statement} (stores : s.StoresDocument) : s.verb = .insert := by
  obtain ⟨stem, member, begins⟩ := stores
  have inserts : ∀ stem ∈ documentInsertions, Text.startsWith Verb.insert.word stem = true := by
    decide +kernel
  exact startsWith_iff_verb.mp (Text.startsWith_trans (inserts stem member) begins)

theorem storesDocument_iff {s : Statement} {own : String} (into : s.insertion? = some own) :
    s.StoresDocument ↔ own ∈ documentInsertions := by
  constructor
  · rintro ⟨stem, member, begins⟩
    have same : stem = own := by
      have listed := List.mem_append_left otherInsertions member
      rcases Text.startsWith_or_of_both begins (sql_startsWith_insertion into) with front | front
      · exact insertions_apart _ listed _ (mem_of_insertion? into) front
      · exact (insertions_apart _ (mem_of_insertion? into) _ listed front).symm
    exact same ▸ member
  · exact fun member => ⟨own, member, sql_startsWith_insertion into⟩

/-- The namespace of a stored document is the third value of its statement. -/
theorem StoresDocument.scope {s : Statement} (stores : s.StoresDocument) :
    ∃ scope, s.scope? = some scope ∧ s.bindings[2]? = some (.text scope) := by
  cases s with
  | putAttribute owner input => exact ⟨_, rfl, rfl⟩
  | addVersion owner input => exact ⟨_, rfl, rfl⟩
  | putSetAttribute set input => exact ⟨_, rfl, rfl⟩
  | addServer | addKind | addComponent | addFirmware | addSet | addToSet =>
    have listed := (storesDocument_iff rfl).mp stores
    exact absurd listed (by decide)
  | _ => cases stores.verb

end FleetInventory.Statement
