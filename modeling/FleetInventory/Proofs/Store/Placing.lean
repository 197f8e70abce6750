import FleetInventory.Proofs.Store.Fault
import FleetInventory.Proofs.Store.Transaction

/-!
Where statements stand in a request. A request first only looks up; what it then works on several
rows stands in one transaction, and after that has been committed nothing is sent but what reads the
new firmware set again.
-/
namespace FleetInventory

def Looked (t : Trace) : Prop := ∀ sent ∈ t, sent.1.Reads

def Committed (t : Trace) : Prop := .commit ∈ t.map (·.1)

def InTransaction (t : Trace) : Prop := .begin ∈ t.map (·.1) ∧ ¬ Committed t

namespace Statement

def scope? : Statement → Option String
  | putAttribute _ input | addVersion _ input | putSetAttribute _ input => some input.scope
  | _ => none

/-- Stores no document, and does not look for the kind of a component. -/
def isPlain : Statement → Bool
  | putAttribute _ _ | addVersion _ _ | putSetAttribute _ _ | findKind _ => false
  | _ => true

theorem scope?_of_isPlain {s : Statement} (plain : s.isPlain = true) : s.scope? = none := by
  cases s with
  | putAttribute | addVersion | putSetAttribute => cases plain
  | _ => rfl

def RereadsSet (s : Statement) : Prop :=
  ∃ id, s = .findSet id ∨ s = .firmwareOfSet id ∨ s = .attributesOfSet id

end Statement

/-- A statement may stand after the past: a kind is looked for inside a transaction only, documents
are stored under allowed namespaces only, and after a commit only a set is read. -/
structure Placed (allowed : String → Prop) (past : Trace) (s : Statement) : Prop where
  inside : ∀ slug, s = .findKind slug → InTransaction past
  named : ∀ scope, s.scope? = some scope → allowed scope
  after : Committed past → s.RereadsSet

def Added (set : FirmwareSet) (t : Trace) : Prop :=
  ∃ name reply, (.addSet name, reply) ∈ t ∧ reply.Gives FirmwareSet.ofRow? (some set)

section Past

variable {past : Trace} {s : Statement} {reply : Reply} {allowed : String → Prop}

theorem looked_nil : Looked [] := nofun

theorem Looked.snoc (looked : Looked past) (reads : s.Reads) : Looked (past ++ [(s, reply)]) := by
  intro sent member
  rcases List.mem_append.mp member with member | member
  · exact looked sent member
  · cases List.mem_singleton.mp member
    exact reads

theorem Looked.not_committed (looked : Looked past) : ¬ Committed past := by
  intro committed
  obtain ⟨sent, member, same⟩ := List.mem_map.mp committed
  have reads := looked sent member
  rw [same] at reads
  cases reads

theorem Committed.append (committed : Committed past) (more : Trace) :
    Committed (past ++ more) := by
  simp only [Committed, List.map_append, List.mem_append]
  exact .inl committed

theorem committed_snoc : Committed (past ++ [(s, reply)]) ↔ Committed past ∨ s = .commit := by
  simp [Committed, eq_comm]

theorem Looked.begin (looked : Looked past) : InTransaction (past ++ [(.begin, reply)]) := by
  refine ⟨by simp, fun committed => ?_⟩
  rcases committed_snoc.mp committed with committed | same
  · exact looked.not_committed committed
  · cases same

theorem InTransaction.snoc (opened : InTransaction past) (work : s.IsWork) :
    InTransaction (past ++ [(s, reply)]) := by
  refine ⟨by simp [opened.1], fun committed => ?_⟩
  rcases committed_snoc.mp committed with committed | rfl
  · exact opened.2 committed
  · exact work (by simp)

theorem placed_of_plain (open? : ¬ Committed past) (plain : s.isPlain = true) :
    Placed allowed past s where
  inside slug same := by
    rw [same] at plain
    cases plain
  named scope named := by
    rw [Statement.scope?_of_isPlain plain] at named
    cases named
  after committed := absurd committed open?

theorem placed_of_scope {scope : String} (open? : ¬ Committed past) (named : s.scope? = some scope)
    (fits : allowed scope) : Placed allowed past s where
  inside slug same := by
    rw [same] at named
    cases named
  named scope' named' := by
    rw [named] at named'
    cases named'
    exact fits
  after committed := absurd committed open?

theorem placed_of_reread (reread : s.RereadsSet) : Placed allowed past s where
  inside slug same := by
    rw [same] at reread
    rcases reread with ⟨id, same | same | same⟩ <;> cases same
  named scope named := by
    rcases reread with ⟨id, rfl | rfl | rfl⟩ <;> cases named
  after _ := reread

end Past

namespace Store

open Statement

variable {α : Type} {s : Statement} {read : Row → Option α} {allowed : String → Prop}
  {R : Trace → StoreFault → Prop} {past : Trace}

section Looking

variable (looked : Looked past) (plain : s.isPlain = true) (reads : s.verb = .select)

include looked plain reads

theorem looks_fetchOptional (reading : s.reading = .optional read) :
    Behaves (Placed allowed) R (fun t _ => Looked t) (fetchOptional read s) past :=
  (behaves_fetchOptional reading (placed_of_plain looked.not_committed plain)).ends
    fun _ _ ⟨_, same, _⟩ => same ▸ looked.snoc reads

theorem looks_fetchAll (reading : s.reading = .every read) :
    Behaves (Placed allowed) R (fun t _ => Looked t) (fetchAll read s) past :=
  (behaves_fetchAll reading (placed_of_plain looked.not_committed plain)).ends
    fun _ _ ⟨_, same, _⟩ => same ▸ looked.snoc reads

end Looking

section Working

variable (opened : InTransaction past) (placed : Placed allowed past s) (work : s.IsWork)

include opened placed work

theorem works_perform (reading : s.reading = .nothing) :
    Behaves (Placed allowed) R (fun t _ => InTransaction t) (perform s) past :=
  (behaves_perform reading placed).ends fun _ _ ⟨_, same⟩ => same ▸ opened.snoc work

theorem works_fetchOptional (reading : s.reading = .optional read) :
    Behaves (Placed allowed) R (fun t _ => InTransaction t) (fetchOptional read s) past :=
  (behaves_fetchOptional reading placed).ends fun _ _ ⟨_, same, _⟩ => same ▸ opened.snoc work

theorem works_fetchOne (reading : s.reading = .one read) :
    Behaves (Placed allowed) R (fun t _ => InTransaction t) (fetchOne read s) past :=
  (behaves_fetchOne reading placed).ends fun _ _ ⟨_, same, _⟩ => same ▸ opened.snoc work

end Working

/-- What is true at the end of the work is true before the commit. -/
theorem behaves_transaction {work : StoreProgram α} {Q : Trace → α → Prop} (looked : Looked past)
    (inside : ∀ t, InTransaction t → Behaves (Placed allowed) R Q work t)
    (opened : ∀ t a, Q t a → InTransaction t) :
    Behaves (Placed allowed) R
      (fun t a => ∃ before reply, t = before ++ [(.commit, reply)] ∧ Q before a)
      (transaction work) past := by
  refine (behaves_perform rfl (placed_of_plain looked.not_committed rfl)).bind ?_
  rintro _ _ ⟨reply, rfl⟩
  refine (inside _ looked.begin).bind fun t a done => ?_
  refine (behaves_perform rfl (placed_of_plain (opened t a done).2 rfl)).bind ?_
  rintro _ _ ⟨reply, rfl⟩
  exact ⟨t, reply, rfl, done⟩

end Store
end FleetInventory
