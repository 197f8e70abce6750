import FleetInventory.Store.Program
import Mathlib.Data.List.Forall2

/-!
Runs of programs: the statements that were sent, each with its reply, and the result. A run of two
programs in sequence is a run of the first and, if that has a result, one of the second. What every
statement and every failure of a program satisfies is put together from its parts in the same way.
-/
namespace FleetInventory

/-- A reply that the statement can get: one without an answer of its own always succeeds. -/
def Statement.Accepts (statement : Statement) (reply : Reply) : Prop :=
  statement.answeredBy = .nobody → reply = .affected 0

abbrev Trace := List (Statement × Reply)

namespace Script

variable (script : Script) {answerer other : Answerer}

theorem replies_rest (apart : other ≠ answerer) :
    (script.rest other).replies answerer = script.replies answerer := by
  cases other <;> cases answerer <;> first | rfl | exact absurd rfl apart

theorem getD_rest (i : Nat) : ((script.rest answerer).replies answerer).getD i answerer.fallback
    = (script.replies answerer).getD (i + 1) answerer.fallback := by
  cases answerer with
  | nobody => rfl
  | locks => cases locks : script.locks <;> simp [rest, replies, locks]
  | tables => cases tables : script.tables <;> simp [rest, replies, tables]

end Script

namespace Program

variable {ε ε' α β : Type}

inductive Runs : Program ε α → Trace → Except ε α → Prop
  | done (a : α) : Runs (.done a) [] (.ok a)
  | failed (e : ε) : Runs (.failed e) [] (.error e)
  | ask {statement : Statement} {next : Reply → Program ε α} {reply : Reply} {rest : Trace}
      {result : Except ε α} (accepts : statement.Accepts reply)
      (later : Runs (next reply) rest result) :
      Runs (.ask statement next) ((statement, reply) :: rest) result

def trace : Program ε α → Script → Trace
  | done _, _ => []
  | failed _, _ => []
  | ask statement next, script =>
    let answerer := statement.answeredBy
    (statement, script.next answerer) :: (next (script.next answerer)).trace (script.rest answerer)

theorem trace_statements (p : Program ε α) (script : Script) :
    (p.trace script).map (·.1) = (p.run script).2 := by
  induction p generalizing script with
  | done a => rfl
  | failed e => rfl
  | ask statement next ih =>
    simp only [trace, run, List.map_cons, List.cons.injEq, true_and]
    exact ih _ _

theorem runs_trace (p : Program ε α) (script : Script) :
    p.Runs (p.trace script) (p.run script).1 := by
  induction p generalizing script with
  | done a => exact .done a
  | failed e => exact .failed e
  | ask statement next ih =>
    refine .ask (fun silent => ?_) (ih _ _)
    rw [silent]
    rfl

/-- The statements take the replies of their answerer in order. -/
theorem trace_replies (p : Program ε α) (script : Script) (answerer : Answerer) {i : Nat}
    {sent : Statement × Reply}
    (answered : ((p.trace script).filter (·.1.answeredBy = answerer))[i]? = some sent) :
    sent.2 = (script.replies answerer).getD i answerer.fallback := by
  induction p generalizing script i with
  | done a => simp [trace] at answered
  | failed e => simp [trace] at answered
  | ask statement next ih =>
    by_cases own : statement.answeredBy = answerer
    · subst own
      simp only [trace, List.filter_cons, decide_true, ↓reduceIte] at answered
      cases i with
      | zero =>
        cases answered
        simp [Script.next, List.headD_eq_head?_getD, List.head?_eq_getElem?]
      | succ i =>
        rw [List.getElem?_cons_succ] at answered
        rw [ih _ _ answered, script.getD_rest]
    · simp only [trace, List.filter_cons, own, decide_false, Bool.false_eq_true, ↓reduceIte]
        at answered
      rw [ih _ _ answered, script.replies_rest own]

theorem Runs.accepts {p : Program ε α} {t : Trace} {r : Except ε α} (run : p.Runs t r)
    {s : Statement} {reply : Reply} (sent : (s, reply) ∈ t) : s.Accepts reply := by
  induction run with
  | done a => cases sent
  | failed e => cases sent
  | ask accepts later ih =>
    rcases List.mem_cons.mp sent with same | sent
    · cases same
      exact accepts
    · exact ih sent

theorem bind_done (p : Program ε α) : p.bind done = p := by
  induction p with
  | done a => rfl
  | failed e => rfl
  | ask statement next ih => exact congrArg (ask statement) (funext ih)

theorem bind_assoc {γ : Type} (p : Program ε α) (f : α → Program ε β) (g : β → Program ε γ) :
    (p.bind f).bind g = p.bind fun a => (f a).bind g := by
  induction p with
  | done a => rfl
  | failed e => rfl
  | ask statement next ih => exact congrArg (ask statement) (funext ih)

instance : LawfulMonad (Program ε) :=
  LawfulMonad.mk' _ bind_done (fun _ _ => rfl) bind_assoc

theorem Runs.of_bind {p : Program ε α} {f : α → Program ε β} {t : Trace} {r : Except ε β}
    (run : (p >>= f).Runs t r) :
    (∃ e, r = .error e ∧ p.Runs t (.error e)) ∨
      ∃ a first second, t = first ++ second ∧ p.Runs first (.ok a) ∧ (f a).Runs second r := by
  induction p generalizing t with
  | done a => exact .inr ⟨a, [], t, rfl, .done a, run⟩
  | failed e =>
    cases run
    exact .inl ⟨e, rfl, .failed e⟩
  | ask statement next ih =>
    cases run with
    | ask accepts later =>
      rcases ih _ later with ⟨e, same, sooner⟩ | ⟨a, first, second, rfl, sooner, after⟩
      · exact .inl ⟨e, same, .ask accepts sooner⟩
      · exact .inr ⟨a, _, second, rfl, .ask accepts sooner, after⟩

theorem Runs.of_bind_ok {p : Program ε α} {f : α → Program ε β} {t : Trace} {b : β}
    (run : (p >>= f).Runs t (.ok b)) :
    ∃ a first second, t = first ++ second ∧ p.Runs first (.ok a) ∧ (f a).Runs second (.ok b) := by
  rcases run.of_bind with ⟨e, same, -⟩ | parts
  · cases same
  · exact parts

theorem Runs.of_mapM {f : α → Program ε β} {as : List α} {t : Trace} {bs : List β}
    (run : (as.mapM f).Runs t (.ok bs)) :
    ∃ parts : List (Trace × β), t = parts.flatMap (·.1) ∧ bs = parts.map (·.2) ∧
      List.Forall₂ (fun a part => (f a).Runs part.1 (.ok part.2)) as parts := by
  induction as generalizing t bs with
  | nil =>
    cases run
    exact ⟨[], rfl, rfl, .nil⟩
  | cons a rest ih =>
    rw [List.mapM_cons] at run
    obtain ⟨b, first, later, rfl, one, run⟩ := run.of_bind_ok
    obtain ⟨more, front, back, rfl, all, run⟩ := run.of_bind_ok
    cases run
    obtain ⟨parts, rfl, rfl, each⟩ := ih all
    exact ⟨(first, b) :: parts, by simp, rfl, .cons one each⟩

theorem Runs.of_mapError {p : Program ε α} {f : ε → ε'} {t : Trace} {r : Except ε' α}
    (run : (p.mapError f).Runs t r) : ∃ s, p.Runs t s ∧ r = s.mapError f := by
  induction p generalizing t with
  | done a =>
    cases run
    exact ⟨_, .done a, rfl⟩
  | failed e =>
    cases run
    exact ⟨_, .failed e, rfl⟩
  | ask statement next ih =>
    cases run with
    | ask accepts later =>
      obtain ⟨s, sooner, same⟩ := ih _ later
      exact ⟨s, .ask accepts sooner, same⟩

section Within

variable {S S' : Statement → Prop} {E E' : ε → Prop}

/-- Whatever the replies, the program sends such statements only and fails in such ways only. -/
def Within (S : Statement → Prop) (E : ε → Prop) : Program ε α → Prop
  | done _ => True
  | failed e => E e
  | ask statement next => S statement ∧ ∀ reply, (next reply).Within S E

theorem Within.bind {p : Program ε α} {f : α → Program ε β} (first : p.Within S E)
    (rest : ∀ a, (f a).Within S E) : (p >>= f).Within S E := by
  induction p with
  | done a => exact rest a
  | failed e => exact first
  | ask statement next ih => exact ⟨first.1, fun reply => ih reply (first.2 reply)⟩

theorem Within.mono {p : Program ε α} (within : p.Within S E) (statements : ∀ s, S s → S' s)
    (failures : ∀ e, E e → E' e) : p.Within S' E' := by
  induction p with
  | done a => trivial
  | failed e => exact failures e within
  | ask statement next ih =>
    exact ⟨statements _ within.1, fun reply => ih reply (within.2 reply)⟩

theorem Within.mapError {p : Program ε α} {f : ε → ε'} {E' : ε' → Prop} (within : p.Within S E)
    (failures : ∀ e, E e → E' (f e)) : (p.mapError f).Within S E' := by
  induction p with
  | done a => trivial
  | failed e => exact failures e within
  | ask statement next ih => exact ⟨within.1, fun reply => ih reply (within.2 reply)⟩

theorem within_mapM {f : α → Program ε β} (each : ∀ a, (f a).Within S E) (as : List α) :
    (as.mapM f).Within S E := by
  induction as with
  | nil => trivial
  | cons a rest ih =>
    rw [List.mapM_cons]
    exact (each a).bind fun _ => ih.bind fun _ => trivial

theorem Within.statements {p : Program ε α} {t : Trace} {r : Except ε α} (within : p.Within S E)
    (run : p.Runs t r) : ∀ sent ∈ t, S sent.1 := by
  induction run with
  | done a => exact nofun
  | failed e => exact nofun
  | ask accepts later ih =>
    intro sent member
    rcases List.mem_cons.mp member with rfl | member
    · exact within.1
    · exact ih (within.2 _) sent member

theorem Within.silent_result {p : Program ε α} {t : Trace} {a : α}
    (silent : p.Within (fun _ => False) E) (run : p.Runs t (.ok a)) : t = [] ∧ p = .done a := by
  cases run with
  | done a => exact ⟨rfl, rfl⟩
  | ask accepts later => exact silent.1.elim

theorem Within.failure {p : Program ε α} {t : Trace} {e : ε} (within : p.Within S E)
    (run : p.Runs t (.error e)) : E e := by
  generalize same : Except.error e = r at run
  induction run with
  | done a => cases same
  | failed e' =>
    cases same
    exact within
  | ask accepts later ih => exact ih (within.2 _) same

end Within

section Stops

variable {fault? : Statement → Reply → Option ε}

/-- A reply that is a fault of its statement ends the program with that fault. -/
def Stops (fault? : Statement → Reply → Option ε) : Program ε α → Prop
  | done _ => True
  | failed _ => True
  | ask statement next => ∀ reply,
      (∀ e, fault? statement reply = some e → next reply = failed e) ∧ (next reply).Stops fault?

theorem Stops.last {p : Program ε α} {t : Trace} {r : Except ε α} (stops : p.Stops fault?)
    (run : p.Runs t r) {before after : Trace} {statement : Statement} {reply : Reply} {e : ε}
    (sent : t = before ++ (statement, reply) :: after) (bad : fault? statement reply = some e) :
    after = [] ∧ r = .error e := by
  induction run generalizing before with
  | done a => simp at sent
  | failed e => simp at sent
  | ask accepts later ih =>
    cases before with
    | nil =>
      simp only [List.nil_append, List.cons.injEq, Prod.mk.injEq] at sent
      obtain ⟨⟨rfl, rfl⟩, rfl⟩ := sent
      rw [(stops _).1 e bad] at later
      cases later
      exact ⟨rfl, rfl⟩
    | cons first more =>
      simp only [List.cons_append, List.cons.injEq] at sent
      exact ih (stops _).2 sent.2

end Stops
end Program

namespace Store

variable {α : Type} {S : Statement → Prop} {s : Statement} {read : Row → Option α}

abbrev Sends (S : Statement → Prop) (p : StoreProgram α) : Prop := p.Within S fun _ => True

theorem sends_ask {next : List Row → StoreProgram α} (sent : S s)
    (rest : ∀ rows, Sends S (next rows)) :
    Sends S (ask s >>= fun reply => rowsOf reply >>= next) := by
  refine ⟨sent, fun reply => ?_⟩
  cases reply with
  | rows rows => exact rest rows
  | affected count => exact rest []
  | failed state text => trivial

theorem sends_perform (sent : S s) : Sends S (perform s) := sends_ask sent fun _ => trivial

theorem sends_fetchOptional (sent : S s) : Sends S (fetchOptional read s) := by
  refine sends_ask sent fun rows => ?_
  cases rows with
  | nil => trivial
  | cons row rows =>
    unfold readRow
    dsimp only
    cases read row <;> trivial

theorem sends_fetchOne (sent : S s) : Sends S (fetchOne read s) := by
  refine (sends_fetchOptional sent).bind fun found => ?_
  cases found <;> trivial

theorem sends_fetchAll (sent : S s) : Sends S (fetchAll read s) := by
  refine sends_ask sent fun rows => ?_
  cases rows.mapM read <;> trivial

end Store
end FleetInventory
