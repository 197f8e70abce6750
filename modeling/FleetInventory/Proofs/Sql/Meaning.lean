import FleetInventory.Proofs.Sql.Expression
import Mathlib.Data.List.MinMax
import Mathlib.Logic.Function.Basic

/-!
What a statement selects. Data are the elements of any linear order, `none` is null, and the
operators on documents are any functions that are null on null. Conditions have three truth values
and select where they are true; left outer joins are applied from left to right, and a row without
partner is joined to a row of nulls.
-/
namespace FleetInventory.Sql

variable {D : Type}

abbrev Tuple (D : Type) := String → Option D

def Tuple.null : Tuple D := fun _ => none

def Tuple.Has (row : Tuple D) (column : String) (value : D) : Prop := row column = some value

/-- Two columns have the same value, and are not null. -/
def Tuple.Refers (row : Tuple D) (column : String) (other : Tuple D) (field : String) : Prop :=
  ∃ value, row.Has column value ∧ other.Has field value

abbrev Database (D : Type) := String → List (Tuple D)

structure Operators (D : Type) where
  bound : Value → D
  child : D → D → Option D
  textAt : D → List D → Option D
  hasKey : D → D → Option Bool
  like : D → D → Option Bool
  greater : D → D → Option Bool
  less : D → D → Option Bool

/-- What a statement runs on: tables, operators and the values bound to its slots. -/
structure Session (D : Type) where
  operators : Operators D
  tables : Database D
  values : List Value

def Session.slot (w : Session D) : Nat → Option D
  | 0 => none
  | n + 1 => (w.values[n]?).map w.operators.bound

abbrev Scope (D : Type) := String → Tuple D

abbrev Kind.Carrier (D : Type) : Kind → Type
  | .scalar => D
  | .truth => Bool

/-- Conjunction with unknown as its third value. -/
def conjoin : Option Bool → Option Bool → Option Bool
  | some true, b => b
  | some false, _ => some false
  | none, some false => some false
  | none, _ => none

def applied {α β γ : Type} (f : α → β → Option γ) (a : Option α) (b : Option β) : Option γ :=
  a.bind fun x => b.bind (f x)

/-- A condition selects where it is true, not where it is unknown. -/
def holds (t : Option Bool) : Bool := t == some true

section Evaluation

variable [LinearOrder D] (w : Session D)

/-- The value of an expression. A column without owner is null: no statement here has one. -/
def Expr.eval : {k : Kind} → Expr k → Scope D → Option (k.Carrier D)
  | _, column c, σ => c.owner.bind fun owner => σ owner c.name
  | _, slot n, _ => w.slot n
  | _, child document key, σ => applied w.operators.child (document.eval σ) (key.eval σ)
  | _, textAt document path, σ =>
    applied w.operators.textAt (document.eval σ) (path.mapM w.slot)
  | _, greatest field table name condition, σ =>
    (((w.tables table).filter fun r => holds (condition.eval (Function.update σ name r))).filterMap
      fun r => r field).maximum
  | _, equal a b, σ => applied (fun x y => some (decide (x = y))) (a.eval σ) (b.eval σ)
  | _, like a b, σ => applied w.operators.like (a.eval σ) (b.eval σ)
  | _, greater a b, σ => applied w.operators.greater (a.eval σ) (b.eval σ)
  | _, less a b, σ => applied w.operators.less (a.eval σ) (b.eval σ)
  | _, hasKey document key, σ => applied w.operators.hasKey (document.eval σ) (key.eval σ)
  | _, always, _ => some true
  | _, both a b, σ => conjoin (a.eval σ) (b.eval σ)
  | _, enclosed a, σ => a.eval σ

def Expr.Holds (e : Expr .truth) (σ : Scope D) : Prop := holds (e.eval w σ) = true

/-- A scope joined to every row that satisfies the condition, or to nulls if there is none. -/
def Joined.extend (j : Joined) (σ : Scope D) : List (Scope D) :=
  match (w.tables j.table).filter fun r => holds (j.condition.eval w (Function.update σ j.name r)) with
  | [] => [Function.update σ j.name Tuple.null]
  | partners => partners.map (Function.update σ j.name)

def joinAll (joins : List Joined) (scopes : List (Scope D)) : List (Scope D) :=
  joins.foldl (fun scopes j => scopes.flatMap (j.extend w)) scopes

/-- The rows of the table that a query selects. Removing duplicates selects the same rows. -/
def Query.selected (q : Query) : List (Tuple D) :=
  ((joinAll w q.joins ((w.tables q.table).map (Function.update (fun _ => Tuple.null) q.table))).filter
    fun σ => holds ((Expr.all q.conditions).eval w σ)).map fun σ => σ q.table

end Evaluation

theorem holds_iff (t : Option Bool) : holds t = true ↔ t = some true := by
  simp [holds]

theorem applied_eq_some {α β γ : Type} {f : α → β → Option γ} {a : Option α} {b : Option β}
    {c : γ} : applied f a b = some c ↔ ∃ x y, a = some x ∧ b = some y ∧ f x y = some c := by
  simp only [applied, Option.bind_eq_some_iff]
  constructor
  · intro found
    obtain ⟨x, left, y, right, value⟩ := found
    exact ⟨x, y, left, right, value⟩
  · intro found
    obtain ⟨x, y, left, right, value⟩ := found
    exact ⟨x, left, y, right, value⟩

section Laws

variable [LinearOrder D] {w : Session D}

theorem holds_both (a b : Expr .truth) (σ : Scope D) :
    (Expr.both a b).Holds w σ ↔ a.Holds w σ ∧ b.Holds w σ := by
  simp only [Expr.Holds, holds_iff, Expr.eval]
  rcases a.eval w σ with _ | _ | _ <;> rcases b.eval w σ with _ | _ | _ <;> simp [conjoin]

theorem holds_equal (a b : Expr .scalar) (σ : Scope D) :
    (Expr.equal a b).Holds w σ ↔ ∃ x, a.eval w σ = some x ∧ b.eval w σ = some x := by
  simp only [Expr.Holds, holds_iff, Expr.eval, applied_eq_some, Option.some.injEq,
    decide_eq_true_eq]
  constructor
  · intro found
    obtain ⟨x, _, left, right, rfl⟩ := found
    exact ⟨x, left, right⟩
  · intro found
    obtain ⟨x, left, right⟩ := found
    exact ⟨x, x, left, right, rfl⟩

theorem holds_columns (owner name other field : String) (σ : Scope D) :
    (Expr.equal (.column (.of owner name)) (.column (.of other field))).Holds w σ ↔
      (σ owner).Refers name (σ other) field := by
  simp only [holds_equal, Expr.eval, Column.of, Option.bind_some]
  exact Iff.rfl

theorem holds_slot (owner name : String) {n : Nat} {value : D} (slot : w.slot n = some value)
    (σ : Scope D) :
    (Expr.equal (.column (.of owner name)) (.slot n)).Holds w σ ↔ (σ owner).Has name value := by
  simp only [holds_equal, Expr.eval, Column.of, Option.bind_some, slot, Option.some.injEq]
  constructor
  · intro found
    obtain ⟨x, column, rfl⟩ := found
    exact column
  · intro column
    exact ⟨value, column, rfl⟩

theorem holds_all (es : List (Expr .truth)) (σ : Scope D) :
    (Expr.all es).Holds w σ ↔ ∀ e ∈ es, e.Holds w σ := by
  induction es with
  | nil => simp [Expr.all, Expr.Holds, Expr.eval, holds]
  | cons e rest ih =>
    cases rest with
    | nil => simp [Expr.all]
    | cons f more =>
      rw [Expr.all, holds_both, ih]
      simp

theorem eval_greatest {field table name : String} {condition : Expr .truth} {σ : Scope D} {x : D} :
    (Expr.greatest field table name condition).eval w σ = some x ↔
      (∃ r ∈ w.tables table, condition.Holds w (Function.update σ name r) ∧ r field = some x) ∧
      ∀ r ∈ w.tables table, condition.Holds w (Function.update σ name r) →
        ∀ y, r field = some y → y ≤ x := by
  change List.maximum _ = ((x : D) : WithBot D) ↔ _
  rw [List.maximum_eq_coe_iff]
  simp only [List.mem_filterMap, List.mem_filter, Expr.Holds]
  constructor
  · intro found
    obtain ⟨⟨r, ⟨member, inside⟩, value⟩, greatest⟩ := found
    exact ⟨⟨r, member, inside, value⟩, fun r member inside y value =>
      greatest y ⟨r, ⟨member, inside⟩, value⟩⟩
  · intro found
    obtain ⟨⟨r, member, inside, value⟩, greatest⟩ := found
    refine ⟨⟨r, ⟨member, inside⟩, value⟩, ?_⟩
    intro y reached
    obtain ⟨r, ⟨member, inside⟩, value⟩ := reached
    exact greatest r member inside y value

theorem eval_agree {k : Kind} (e : Expr k) {σ τ : Scope D}
    (agree : ∀ n ∈ e.mentions, σ n = τ n) : e.eval w σ = e.eval w τ := by
  induction e generalizing σ τ with
  | column c =>
    simp only [Expr.eval]
    cases owner : c.owner with
    | none => rfl
    | some name => simp [agree name (by simp [Expr.mentions, owner])]
  | slot n => rfl
  | always => rfl
  | textAt document path ih => simp only [Expr.eval, ih agree]
  | greatest field table name condition ih =>
    simp only [Expr.eval]
    congr 2
    apply List.filter_congr
    intro r _
    rw [ih]
    intro n mention
    by_cases same : n = name
    · simp [same]
    · simp [same, agree n (List.mem_cons_of_mem _ mention)]
  | enclosed a ih => exact ih agree
  | child a b left right | equal a b left right | like a b left right | greater a b left right
  | less a b left right | hasKey a b left right | both a b left right =>
    simp only [Expr.eval]
    rw [left (fun n mention => agree n (List.mem_append_left _ mention)),
      right (fun n mention => agree n (List.mem_append_right _ mention))]

theorem holds_agree (e : Expr .truth) {σ τ : Scope D} (agree : ∀ n ∈ e.mentions, σ n = τ n) :
    e.Holds w σ ↔ e.Holds w τ := by
  rw [Expr.Holds, eval_agree e agree, Expr.Holds]

end Laws
end FleetInventory.Sql
