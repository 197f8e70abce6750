import FleetInventory.Proofs.Store.Running
import FleetInventory.Proofs.Store.Verb
import FleetInventory.Store.Records

/-!
Statements in and around one transaction. A program that first only reads, and then does everything
else in one transaction, keeps all that it writes or nothing: it commits if and only if it has a
result, as the very last thing it does.
-/
namespace FleetInventory

namespace Statement

def Reads (s : Statement) : Prop := s.verb = .select

def IsWork (s : Statement) : Prop := s.verb ∉ [Verb.begin, .commit]

theorem Reads.isWork {s : Statement} (reads : s.Reads) : s.IsWork := by
  simp [IsWork, show s.verb = .select from reads]

theorem Writes.isWork {s : Statement} (writes : s.Writes) : s.IsWork ∧ ¬ s.Reads := by
  have verb := writes_iff.mp writes
  simp only [List.mem_cons, List.not_mem_nil, or_false] at verb
  rcases verb with verb | verb | verb <;> simp [IsWork, Reads, verb]

end Statement

/-- What a record of statements says if all is kept or nothing: a commit stands for the grant and
for the end, and every write stands after the only beginning and before any commit. -/
structure AllOrNothing (granted : Prop) (sent : List Statement) : Prop where
  commit_mem_iff : .commit ∈ sent ↔ granted
  commit_last : ∀ before after, sent = before ++ .commit :: after → after = []
  begin_once : sent.countP (fun s => s.verb = .begin) ≤ 1
  writes_inside : ∀ before s after, sent = before ++ s :: after → s.Writes →
    .begin ∈ before ∧ .commit ∉ before

theorem allOrNothing_reads {sent : List Statement} (reads : ∀ s ∈ sent, s.Reads) :
    AllOrNothing False sent := by
  have absent : Statement.commit ∉ sent := fun member => by cases reads _ member
  exact {
    commit_mem_iff := by simp [absent]
    commit_last := fun before after split => absurd (by simp [split]) absent
    begin_once := by
      rw [List.countP_eq_zero.mpr fun s member => by simp [show s.verb = _ from reads s member]]
      exact Nat.zero_le 1
    writes_inside := fun before s after split writes =>
      absurd (reads s (by simp [split])) writes.isWork.2 }

/-- Reads, then one transaction, which is committed if it is granted. -/
def transacted (granted : Bool) (before inside : List Statement) : List Statement :=
  before ++ .begin :: (inside ++ if granted then [.commit] else [])

section Transacted

variable {granted : Bool} {before inside front back : List Statement} {s : Statement}
  (reads : ∀ s ∈ before, s.Reads) (works : ∀ s ∈ inside, s.IsWork)

include reads works in
theorem commit_notMem_open : Statement.commit ∉ before ++ .begin :: inside := by
  simp only [List.mem_append, List.mem_cons, reduceCtorEq, false_or, not_or]
  refine ⟨fun member => ?_, fun member => ?_⟩
  · cases reads _ member
  · exact works _ member (by simp)

include reads works in
theorem commit_last_transacted
    (split : transacted granted before inside = front ++ .commit :: back) : back = [] := by
  rcases List.eq_nil_or_concat back with rfl | ⟨back, last, rfl⟩
  · rfl
  refine absurd ?_ (commit_notMem_open reads works)
  cases granted with
  | false => simp_all [transacted]
  | true =>
    have whole : (before ++ .begin :: inside) ++ [.commit]
        = (front ++ .commit :: back) ++ [last] := by
      simpa [transacted] using split
    simp [List.append_inj_left' whole rfl]

include reads works in
theorem countP_begin_transacted :
    (transacted granted before inside).countP (fun s => s.verb = .begin) = 1 := by
  have outer : before.countP (fun s => s.verb = .begin) = 0 :=
    List.countP_eq_zero.mpr fun s member => by simp [show s.verb = _ from reads s member]
  have inner : inside.countP (fun s => s.verb = .begin) = 0 :=
    List.countP_eq_zero.mpr fun s member => by
      simpa using fun verb => works s member (by simp [verb])
  cases granted <;> simp [transacted, outer, inner]

include reads in
theorem begin_mem_front (split : transacted granted before inside = front ++ s :: back)
    (work : s.IsWork) (other : ¬ s.Reads) : .begin ∈ front := by
  have distinct : s ≠ .begin := by
    rintro rfl
    exact work (by simp)
  rcases List.append_eq_append_iff.mp split with ⟨middle, rfl, rest⟩ | ⟨middle, rfl, rest⟩
  · cases middle with
    | nil => exact absurd (List.cons.inj rest).1.symm distinct
    | cons first middle =>
      obtain ⟨rfl, -⟩ := List.cons.inj rest
      simp
  · cases middle with
    | nil => exact absurd (List.cons.inj rest).1 distinct
    | cons first middle =>
      obtain ⟨rfl, -⟩ := List.cons.inj rest
      exact absurd (reads s (by simp)) other

include reads works in
theorem allOrNothing_transacted :
    AllOrNothing (granted = true) (transacted granted before inside) where
  commit_mem_iff := by
    have absent := commit_notMem_open reads works
    cases granted <;> simp_all [transacted]
  commit_last _ _ split := commit_last_transacted reads works split
  begin_once := Nat.le_of_eq (countP_begin_transacted reads works)
  writes_inside front s back split writes := by
    refine ⟨begin_mem_front reads split writes.isWork.1 writes.isWork.2, fun member => ?_⟩
    obtain ⟨first, second, rfl⟩ := List.append_of_mem member
    rw [List.append_assoc] at split
    cases (List.append_eq_nil_iff.mp (commit_last_transacted reads works split)).2

end Transacted

namespace Program

variable {ε ε' α β : Type} {E : ε → Prop}

/-- Reads alone and a failure, or reads and one transaction, committed if there is a result. -/
def OneTransaction (granted : Bool) (sent : List Statement) : Prop :=
  (granted = false ∧ ∀ s ∈ sent, s.Reads) ∨
    ∃ before inside, sent = transacted granted before inside ∧ (∀ s ∈ before, s.Reads) ∧
      ∀ s ∈ inside, s.IsWork

theorem OneTransaction.allOrNothing {granted : Bool} {sent : List Statement}
    (transaction : OneTransaction granted sent) : AllOrNothing (granted = true) sent := by
  rcases transaction with ⟨rfl, reads⟩ | ⟨before, inside, rfl, reads, works⟩
  · simpa using allOrNothing_reads reads
  · exact allOrNothing_transacted reads works

def Atomic (E : ε → Prop) (p : Program ε α) : Prop :=
  ∀ t r, p.Runs t r → OneTransaction r.isOk (t.map (·.1)) ∧ ∀ e, r = .error e → E e

theorem Atomic.after {p : Program ε α} {f : α → Program ε β} (first : p.Within Statement.Reads E)
    (rest : ∀ a, (f a).Atomic E) : (p >>= f).Atomic E := by
  intro t r run
  rcases run.of_bind with ⟨e, rfl, sooner⟩ | ⟨a, front, back, rfl, sooner, later⟩
  · refine ⟨.inl ⟨rfl, ?_⟩, fun e' same => by cases same; exact first.failure sooner⟩
    simpa using first.statements sooner
  · obtain ⟨transaction, failures⟩ := rest a _ _ later
    have reads : ∀ s ∈ front.map (·.1), s.Reads := by simpa using first.statements sooner
    refine ⟨?_, failures⟩
    rw [List.map_append]
    rcases transaction with ⟨fails, others⟩ | ⟨before, inside, same, others, works⟩
    · exact .inl ⟨fails, fun s member => (List.mem_append.mp member).elim (reads s) (others s)⟩
    · refine .inr ⟨front.map (·.1) ++ before, inside, ?_, ?_, works⟩
      · rw [same, transacted, transacted, List.append_assoc]
      · exact fun s member => (List.mem_append.mp member).elim (reads s) (others s)

theorem Atomic.map {p : Program ε α} (atomic : p.Atomic E) (g : α → β) :
    (p >>= fun a => pure (g a)).Atomic E := by
  intro t r run
  rcases run.of_bind with ⟨e, rfl, sooner⟩ | ⟨a, front, back, rfl, sooner, later⟩
  · refine ⟨(atomic _ _ sooner).1, fun e' same => by cases same; exact (atomic _ _ sooner).2 e rfl⟩
  · cases later
    rw [List.append_nil]
    exact ⟨(atomic _ _ sooner).1, nofun⟩

theorem Atomic.mapError {p : Program ε α} {f : ε → ε'} {E' : ε' → Prop} (atomic : p.Atomic E)
    (failures : ∀ e, E e → E' (f e)) : (p.mapError f).Atomic E' := by
  intro t r run
  obtain ⟨s, sooner, rfl⟩ := run.of_mapError
  have whole := atomic _ _ sooner
  cases s with
  | ok a => exact ⟨whole.1, nofun⟩
  | error e => exact ⟨whole.1, fun e' same => by cases same; exact failures e (whole.2 e rfl)⟩

end Program

namespace Store

open Program

variable {α : Type} {E : StoreFault → Prop}

theorem runs_perform {s : Statement} {t : Trace} {r : Except StoreFault Unit}
    (silent : s.answeredBy = .nobody) (run : (perform s).Runs t r) :
    t = [(s, .affected 0)] ∧ r = .ok () := by
  cases run with
  | ask accepts later =>
    obtain rfl := accepts silent
    cases later
    exact ⟨rfl, rfl⟩

theorem atomic_transaction {work : StoreProgram α} (within : work.Within Statement.IsWork E) :
    (transaction work).Atomic E := by
  intro t r run
  rcases run.of_bind with ⟨e, rfl, opening⟩ | ⟨_, _, rest, rfl, opening, worked⟩
  · cases (runs_perform rfl opening).2
  obtain ⟨rfl, -⟩ := runs_perform rfl opening
  rcases worked.of_bind with ⟨e, rfl, inside⟩ | ⟨a, inner, last, rfl, inside, closed⟩
  · refine ⟨.inr ⟨[], rest.map (·.1), ?_, nofun, ?_⟩, ?_⟩
    · simp [transacted, Except.isOk, Except.toBool]
    · simpa using within.statements inside
    · rintro e' ⟨⟩
      exact within.failure inside
  rcases closed.of_bind with ⟨e, rfl, closing⟩ | ⟨_, _, nothing, rfl, closing, ended⟩
  · cases (runs_perform rfl closing).2
  obtain ⟨rfl, -⟩ := runs_perform rfl closing
  cases ended
  refine ⟨.inr ⟨[], inner.map (·.1), ?_, nofun, ?_⟩, nofun⟩
  · simp [transacted, Except.isOk, Except.toBool]
  · simpa using within.statements inside

end Store
end FleetInventory
