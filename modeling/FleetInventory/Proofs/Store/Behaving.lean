import FleetInventory.Proofs.Store.Running

/-!
What a program does after what was sent and answered before it. One predicate goes through the
program: each statement is sent in its place, a reply that is a fault of its statement ends the
program with that fault, and what the program ends in besides fits all that was sent and answered.
Programs are put together by it as by weakest preconditions, and every run has what it says.
-/
namespace FleetInventory.Program

variable {ε ε' α β : Type} {fault? : Statement → Reply → Option ε}
  {S S' : Trace → Statement → Prop} {R R' : Trace → ε → Prop} {Q Q' : Trace → α → Prop}
  {past : Trace}

/-- After the past, and whatever the replies: statements satisfy `S`, faults end the program,
failures of its own satisfy `R` and results `Q`. -/
def Behaves (fault? : Statement → Reply → Option ε) (S : Trace → Statement → Prop)
    (R : Trace → ε → Prop) (Q : Trace → α → Prop) : Program ε α → Trace → Prop
  | done a, past => Q past a
  | failed e, past => R past e
  | ask statement next, past => S past statement ∧ ∀ reply,
      (∀ e, fault? statement reply = some e → next reply = failed e) ∧
        (fault? statement reply = none →
          (next reply).Behaves fault? S R Q (past ++ [(statement, reply)]))

theorem Behaves.bind {p : Program ε α} {f : α → Program ε β} {Q' : Trace → β → Prop}
    (first : p.Behaves fault? S R Q past)
    (rest : ∀ t a, Q t a → (f a).Behaves fault? S R Q' t) :
    (p >>= f).Behaves fault? S R Q' past := by
  induction p generalizing past with
  | done a => exact rest past a first
  | failed e => exact first
  | ask statement next ih =>
    obtain ⟨placed, replies⟩ := first
    refine ⟨placed, fun reply => ⟨fun e bad => ?_, fun good => ih reply ((replies reply).2 good)⟩⟩
    have ended := (replies reply).1 e bad
    change (next reply).bind f = failed e
    rw [ended]
    rfl

theorem Behaves.mono {p : Program ε α} (behaves : p.Behaves fault? S R Q past)
    (statements : ∀ t s, S t s → S' t s) (failures : ∀ t e, R t e → R' t e)
    (results : ∀ t a, Q t a → Q' t a) : p.Behaves fault? S' R' Q' past := by
  induction p generalizing past with
  | done a => exact results past a behaves
  | failed e => exact failures past e behaves
  | ask statement next ih =>
    obtain ⟨placed, replies⟩ := behaves
    exact ⟨statements _ _ placed, fun reply =>
      ⟨(replies reply).1, fun good => ih reply ((replies reply).2 good)⟩⟩

theorem Behaves.ends {p : Program ε α} (behaves : p.Behaves fault? S R Q past)
    (results : ∀ t a, Q t a → Q' t a) : p.Behaves fault? S R Q' past :=
  behaves.mono (fun _ _ => id) (fun _ _ => id) results

theorem Behaves.mapError {p : Program ε α} {f : ε → ε'} {R' : Trace → ε' → Prop}
    (behaves : p.Behaves fault? S R Q past) (failures : ∀ t e, R t e → R' t (f e)) :
    (p.mapError f).Behaves (fun s reply => (fault? s reply).map f) S R' Q past := by
  induction p generalizing past with
  | done a => exact behaves
  | failed e => exact failures past e behaves
  | ask statement next ih =>
    obtain ⟨placed, replies⟩ := behaves
    refine ⟨placed, fun reply => ⟨fun e bad => ?_, fun good => ?_⟩⟩
    · obtain ⟨e', cause, rfl⟩ := Option.map_eq_some_iff.mp bad
      have ended := (replies reply).1 e' cause
      change (next reply).mapError f = failed (f e')
      rw [ended]
      rfl
    · exact ih reply ((replies reply).2 (Option.map_eq_none_iff.mp good))

theorem behaves_mapM {f : α → Program ε β} {I : Trace → Prop} {as : List α}
    (each : ∀ a ∈ as, ∀ t, I t → (f a).Behaves fault? S R (fun t _ => I t) t) (start : I past) :
    (as.mapM f).Behaves fault? S R (fun t _ => I t) past := by
  induction as generalizing past with
  | nil => exact start
  | cons a rest ih =>
    rw [List.mapM_cons]
    refine (each a (by simp) past start).bind fun t _ kept => ?_
    refine (ih (fun a member => each a (by simp [member])) kept).bind fun t _ kept => kept

theorem nil_of_runs_failed {e : ε} {t : Trace} {r : Except ε α}
    (run : (Program.failed e : Program ε α).Runs t r) : t = [] ∧ r = .error e := by
  cases run
  exact ⟨rfl, rfl⟩

section Run

variable {p : Program ε α} (behaves : p.Behaves fault? S R Q past) {t : Trace}

include behaves

theorem Behaves.stops : p.Stops fault? := by
  induction p generalizing past with
  | done a => trivial
  | failed e => trivial
  | ask statement next ih =>
    obtain ⟨-, replies⟩ := behaves
    intro reply
    refine ⟨(replies reply).1, ?_⟩
    cases cause : fault? statement reply with
    | none => exact ih reply ((replies reply).2 cause)
    | some e =>
      rw [(replies reply).1 e cause]
      trivial

theorem Behaves.placed {r : Except ε α} (run : p.Runs t r) {before after : Trace} {s : Statement}
    {reply : Reply} (sent : t = before ++ (s, reply) :: after) : S (past ++ before) s := by
  induction run generalizing past before with
  | done a => simp at sent
  | failed e => simp at sent
  | @ask statement next answer rest result accepts later ih =>
    obtain ⟨placed, replies⟩ := behaves
    cases before with
    | nil =>
      simp only [List.nil_append, List.cons.injEq, Prod.mk.injEq] at sent
      obtain ⟨⟨rfl, rfl⟩, rfl⟩ := sent
      simpa using placed
    | cons first more =>
      simp only [List.cons_append, List.cons.injEq] at sent
      obtain ⟨rfl, rfl⟩ := sent
      cases cause : fault? statement answer with
      | none => simpa using ih ((replies answer).2 cause) rfl
      | some e =>
        rw [(replies answer).1 e cause] at later
        have ended := (nil_of_runs_failed later).1
        simp at ended

theorem Behaves.result {a : α} (run : p.Runs t (.ok a)) : Q (past ++ t) a := by
  generalize same : Except.ok a = r at run
  induction run generalizing past with
  | done b =>
    cases same
    rwa [List.append_nil]
  | failed e => cases same
  | @ask statement next answer rest result accepts later ih =>
    obtain ⟨-, replies⟩ := behaves
    cases cause : fault? statement answer with
    | none => simpa using ih ((replies answer).2 cause) same
    | some e =>
      rw [(replies answer).1 e cause] at later
      cases later
      cases same

/-- A failure is the fault that the last reply is, or one of the program's own. -/
theorem Behaves.failure {e : ε} (run : p.Runs t (.error e)) :
    (∃ before s reply, t = before ++ [(s, reply)] ∧ fault? s reply = some e) ∨
      R (past ++ t) e := by
  generalize same : Except.error e = r at run
  induction run generalizing past with
  | done b => cases same
  | failed e' =>
    cases same
    rw [List.append_nil]
    exact .inr behaves
  | @ask statement next answer rest result accepts later ih =>
    obtain ⟨-, replies⟩ := behaves
    cases cause : fault? statement answer with
    | none =>
      rcases ih ((replies answer).2 cause) same with ⟨before, s, reply, rfl, bad⟩ | own
      · exact .inl ⟨(statement, answer) :: before, s, reply, rfl, bad⟩
      · exact .inr (by simpa using own)
    | some e' =>
      rw [(replies answer).1 e' cause] at later
      cases later
      cases same
      exact .inl ⟨[], statement, answer, rfl, cause⟩

end Run
end FleetInventory.Program
