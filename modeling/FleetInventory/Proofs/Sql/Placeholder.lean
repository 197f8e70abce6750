import FleetInventory.Proofs.Sql.Expression

/-!
The placeholders in the text of an expression. No slot of an expression runs into a digit, and a
dollar sign stands for a slot unless a name brings one in, so the placeholders that the text shows
are the slots of the expression.
-/
namespace FleetInventory.Sql

namespace Template

/-- No dollar sign but those of the slots. -/
def Plain (t : Template) : Prop := .char '$' ∉ t

@[simp] theorem plain_append (s t : Template) : Plain (s ++ t) ↔ Plain s ∧ Plain t := by
  simp [Plain]

@[simp] theorem plain_ofText (text : String) : Plain (ofText text) ↔ '$' ∉ text.toList := by
  simp [Plain, dollar_ofText]

@[simp] theorem plain_nil : Plain [] := by simp [Plain]

@[simp] theorem plain_slot_cons (n : Nat) (t : Template) : Plain (.slot n :: t) ↔ Plain t := by
  simp [Plain]

theorem plain_slot (n : Nat) : Plain [.slot n] := by simp

theorem spaced_within (left right : String) {t : Template} (spaced : Spaced t)
    (mark : divides right = true) :
    Spaced (ofText left ++ t ++ ofText right) := by
  refine spaced_append (spaced_ofText_append left spaced) (spaced_ofText right) ?_
  simpa using startsDigit_ofText_append right [] mark

theorem spaced_intercalate (mark : String) (slots : List Nat)
    (ends : divides mark = true) :
    Spaced ((ofText mark).intercalate (slots.map fun n => [.slot n])) := by
  induction slots with
  | nil => exact spaced_nil
  | cons n rest ih =>
    cases rest with
    | nil => exact spaced_slot n
    | cons m more => exact spaced_between mark (spaced_slot n) ih ends

theorem plain_intercalate (mark : String) (slots : List Nat) (plain : '$' ∉ mark.toList) :
    Plain ((ofText mark).intercalate (slots.map fun n => [.slot n])) := by
  induction slots with
  | nil => simp [Plain]
  | cons n rest ih =>
    cases rest with
    | nil => exact plain_slot n
    | cons m more =>
      simp only [List.map_cons, List.intercalate_cons_cons, plain_append] at ih ⊢
      exact ⟨⟨plain_slot n, (plain_ofText mark).mpr plain⟩, ih⟩

theorem slots_intercalate (mark : String) (slots : List Nat) :
    Template.slots ((ofText mark).intercalate (slots.map fun n => [.slot n])) = slots := by
  induction slots with
  | nil => rfl
  | cons n rest ih =>
    cases rest with
    | nil => rfl
    | cons m more =>
      simp only [List.map_cons, List.intercalate_cons_cons, slots_append, slots_slot_cons,
        slots_nil, slots_ofText] at ih ⊢
      rw [ih]
      rfl

end Template

namespace Expr

open Template

theorem spaced {k : Kind} (e : Expr k) : e.template.Spaced := by
  induction e with
  | column c => exact spaced_ofText _
  | slot n => exact spaced_slot n
  | child a b left right => exact spaced_between " -> " left right (by decide)
  | equal a b left right => exact spaced_between " = " left right (by decide)
  | like a b left right => exact spaced_between " LIKE " left right (by decide)
  | both a b left right => exact spaced_between " AND " left right (by decide)
  | textAt document path ih =>
    have keys := spaced_within "" ")" (spaced_intercalate ", " path (by decide)) (by decide)
    exact spaced_between ", " (spaced_ofText_append "jsonb_extract_path_text(" ih) keys (by decide)
  | greatest field table name condition ih =>
    simp only [template]
    exact spaced_within _ ")" ih (by decide)
  | greater a b left right =>
    have compared := spaced_between ")::int > " (spaced_ofText_append "(" left) right (by decide)
    exact spaced_within "" "::int" compared (by decide)
  | less a b left right =>
    have compared := spaced_between ")::int < " (spaced_ofText_append "(" left) right (by decide)
    exact spaced_within "" "::int" compared (by decide)
  | hasKey a b left right =>
    exact spaced_between ") ? " (spaced_ofText_append "(" left) right (by decide)
  | always => exact spaced_nil
  | enclosed a ih => exact spaced_within "(" ")" ih (by decide)

def words : {k : Kind} → Expr k → List String
  | _, column c => [c.render]
  | _, slot _ => []
  | _, child a b | _, equal a b | _, like a b | _, greater a b | _, less a b | _, hasKey a b
  | _, both a b => a.words ++ b.words
  | _, textAt document _ => document.words
  | _, greatest field table name condition => [field, table, name] ++ condition.words
  | _, always => []
  | _, enclosed a => a.words

theorem plain {k : Kind} (e : Expr k) (names : ∀ word ∈ e.words, '$' ∉ word.toList) :
    e.template.Plain := by
  induction e with
  | column c => simpa [template, words] using names
  | slot n => exact plain_slot n
  | always => simp [template, Plain]
  | textAt document path ih =>
    simpa [template, plain_intercalate] using ih names
  | enclosed a ih => simpa [template] using ih names
  | greatest field table name condition ih =>
    simp only [words, List.cons_append, List.nil_append, List.mem_cons, forall_eq_or_imp] at names
    obtain ⟨field, table, name, rest⟩ := names
    simpa [template, field, table, name] using ih rest
  | child a b left right | equal a b left right | like a b left right | greater a b left right
  | less a b left right | hasKey a b left right | both a b left right =>
    have first := left fun word member => names word (List.mem_append_left _ member)
    have second := right fun word member => names word (List.mem_append_right _ member)
    simpa [template, first] using second

theorem slots_path (slots : List Nat) (e : Expr .scalar) :
    (slots.foldl (fun e n => .child e (.slot n)) e).template.slots
      = e.template.slots ++ slots := by
  induction slots generalizing e with
  | nil => simp
  | cons n rest ih => simp [ih, template]

theorem words_path (slots : List Nat) (e : Expr .scalar) :
    (slots.foldl (fun e n => .child e (.slot n)) e).words = e.words := by
  induction slots generalizing e with
  | nil => rfl
  | cons n rest ih => simp [ih, words]

theorem slots_comparison (a b : Expr .scalar) (c : Comparison) :
    (comparison a b c).template.slots = a.template.slots ++ b.template.slots := by
  cases c <;> simp [comparison, template]

theorem words_comparison (a b : Expr .scalar) (c : Comparison) :
    (comparison a b c).words = a.words ++ b.words := by
  cases c <;> rfl

theorem slots_all (es : List (Expr .truth)) :
    (all es).template.slots = es.flatMap fun e => e.template.slots := by
  induction es with
  | nil => rfl
  | cons e rest ih =>
    cases rest with
    | nil => simp [all]
    | cons f more => simpa [all, template] using ih

theorem plain_all {es : List (Expr .truth)} (each : ∀ e ∈ es, e.template.Plain) :
    (all es).template.Plain := by
  induction es with
  | nil => simp [all, template, Plain]
  | cons e rest ih =>
    have first := each e List.mem_cons_self
    have later := ih fun f member => each f (List.mem_cons_of_mem _ member)
    cases rest with
    | nil => exact first
    | cons f more => simpa [all, template, first] using later

end Expr
end FleetInventory.Sql
