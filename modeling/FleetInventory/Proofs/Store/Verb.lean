import FleetInventory.Proofs.Text.Split
import FleetInventory.Store.Statement

/-!
What statements do, as the first word of their text says: begin or end a transaction, read rows, or
write them.
-/
namespace FleetInventory

inductive Verb where
  | begin
  | commit
  | select
  | insert
  | update
  | delete
  deriving DecidableEq

namespace Verb

def word : Verb → String
  | begin => "BEGIN"
  | commit => "COMMIT"
  | select => "SELECT "
  | insert => "INSERT "
  | update => "UPDATE "
  | delete => "DELETE "

theorem head_inj {a b : Verb} (same : a.word.toList.head? = b.word.toList.head?) : a = b := by
  revert same
  cases a <;> cases b <;> decide

end Verb

namespace Statement

def verb : Statement → Verb
  | begin => .begin
  | commit => .commit
  | lockVersions _ _ | countRows _ _ | pageRows _ _ _ _ _ | findServer _ | attributesOf _
  | versionsOf _ | newestVersion _ _ | allKinds | knownKinds _ | findKind _ | findFirmware _
  | knownFirmware _ | findSet _ | firmwareOfSet _ | attributesOfSet _ | schemaExists => .select
  | addServer _ | putAttribute _ _ | addVersion _ _ | addKind _ | addComponent _ _ _
  | addFirmware _ | addSet _ | addToSet _ _ | putSetAttribute _ _ => .insert
  | changeServer _ _ | raiseTally _ => .update
  | dropServer _ | dropAttribute _ _ => .delete

/-- One case for each statement: its verb stands in the first literal of its text. -/
theorem sql_startsWith (s : Statement) : Text.startsWith s.verb.word s.sql = true := by
  cases s <;> unfold verb sql <;>
    (try unfold Sql.Selection.countSql) <;> (try unfold Sql.Selection.pageSql) <;>
    dsimp only [Verb.word] <;>
    (repeat with_reducible apply Text.startsWith_append) <;> apply Text.startsWith_ofList <;> rfl

theorem startsWith_iff_verb {s : Statement} {v : Verb} :
    Text.startsWith v.word s.sql = true ↔ s.verb = v := by
  constructor
  · intro begins
    obtain ⟨rest, chars⟩ := Text.startsWith_iff.mp begins
    obtain ⟨others, same⟩ := Text.startsWith_iff.mp s.sql_startsWith
    apply Verb.head_inj
    have filled : ∀ w : Verb, ∀ tail, (w.word.toList ++ tail).head? = w.word.toList.head? := by
      intro w tail
      cases w <;> rfl
    rw [← filled s.verb others, ← same, chars, filled]
  · rintro rfl
    exact s.sql_startsWith

def Writes (s : Statement) : Prop :=
  ∃ v ∈ [Verb.insert, .update, .delete], Text.startsWith v.word s.sql = true

theorem writes_iff {s : Statement} : s.Writes ↔ s.verb ∈ [Verb.insert, .update, .delete] := by
  simp only [Writes, startsWith_iff_verb]
  simp

@[simp] theorem verb_begin : Statement.begin.verb = .begin := rfl

@[simp] theorem verb_commit : Statement.commit.verb = .commit := rfl

end Statement
end FleetInventory
