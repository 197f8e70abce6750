import FleetInventory.Proofs.Store.Running

/-!
Programs side by side. Two programs that ask the database in the same places, and go on side by side
from every reply, end in the same way under every script, whatever it is that they ask.
-/
namespace FleetInventory

namespace Program

variable {ε ε' α β γ δ : Type} {R : α → β → Prop}

/-- Whatever the replies: the same failure, or related results. -/
inductive Parallel (R : α → β → Prop) : Program ε α → Program ε β → Prop
  | done {a : α} {b : β} (related : R a b) : Parallel R (.done a) (.done b)
  | failed (e : ε) : Parallel R (.failed e) (.failed e)
  | ask {s s' : Statement} {next : Reply → Program ε α} {next' : Reply → Program ε β}
    (answered : s.answeredBy = s'.answeredBy)
    (later : ∀ reply, Parallel R (next reply) (next' reply)) :
    Parallel R (.ask s next) (.ask s' next')

namespace Parallel

theorem refl (p : Program ε α) : Parallel Eq p p := by
  induction p with
  | done a => exact .done rfl
  | failed e => exact .failed e
  | ask statement next ih => exact .ask rfl ih

theorem of_eq {p q : Program ε α} (same : p = q) : Parallel Eq p q := same ▸ refl p

theorem bind {p : Program ε α} {q : Program ε β} {f : α → Program ε γ} {g : β → Program ε δ}
    {S : γ → δ → Prop} (first : Parallel R p q) (rest : ∀ a b, R a b → Parallel S (f a) (g b)) :
    Parallel S (p >>= f) (q >>= g) := by
  induction first with
  | done related => exact rest _ _ related
  | failed e => exact .failed e
  | ask answered later ih => exact .ask answered ih

theorem mapError {p : Program ε α} {q : Program ε β} (f : ε → ε') (parallel : Parallel R p q) :
    Parallel R (p.mapError f) (q.mapError f) := by
  induction parallel with
  | done related => exact .done related
  | failed e => exact .failed (f e)
  | ask answered later ih => exact .ask answered ih

theorem run {p : Program ε α} {q : Program ε β} (parallel : Parallel R p q) {script : Script}
    {a : α} (result : (p.run script).1 = .ok a) : ∃ b, (q.run script).1 = .ok b ∧ R a b := by
  induction parallel generalizing script with
  | done related =>
    cases result
    exact ⟨_, rfl, related⟩
  | failed e => cases result
  | ask answered later ih =>
    simp only [Program.run] at result ⊢
    rw [← answered]
    exact ih _ result

end Parallel
end Program

namespace Store

variable {α : Type} {read : Row → Option α} {s s' : Statement}

theorem parallel_fetchOne (answered : s.answeredBy = s'.answeredBy) :
    Program.Parallel Eq (fetchOne read s) (fetchOne read s') :=
  .ask answered fun _ => .refl _

theorem parallel_fetchAll (answered : s.answeredBy = s'.answeredBy) :
    Program.Parallel Eq (fetchAll read s) (fetchAll read s') :=
  .ask answered fun _ => .refl _

end Store
end FleetInventory
