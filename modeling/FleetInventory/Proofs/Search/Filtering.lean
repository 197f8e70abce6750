import FleetInventory.Proofs.Search.Matching
import FleetInventory.Proofs.Search.Scoping
import FleetInventory.Proofs.Sql.FragmentMeaning

/-!
What the fragments of filters ask. The join of a filter finds the owner's rows, on a versioned
table the newest one of the namespace, and its clause asks of that row what the filter does.
-/
namespace FleetInventory

open Sql

variable {D : Type} {w : Session D}

namespace AttributeFilter

theorem slots_texts {bound : Nat} (texts : List String)
    (binds : Binds w.values bound (texts.map Value.text)) :
    (List.range' (bound + 1) texts.length).mapM w.slot = some (texts.map w.operators.text) := by
  induction texts generalizing bound with
  | nil => rfl
  | cons text rest ih =>
    obtain ⟨first, later⟩ := Binds.cons binds
    have slot := Session.slot_of first
    simp only [List.length_cons, List.range'_succ, List.mapM_cons, slot, ih later, List.map_cons,
      Operators.text]
    rfl

theorem binds_last {bound : Nat} {texts : List String} {last : String}
    (binds : Binds w.values bound ((texts ++ [last]).map Value.text)) :
    Binds w.values bound (texts.map Value.text) ∧
      w.slot (bound + 1 + texts.length) = some (w.operators.text last) := by
  obtain ⟨first, one⟩ := Binds.last texts last binds
  refine ⟨first, ?_⟩
  rw [Nat.add_right_comm]
  exact Session.slot_of one

variable [LinearOrder D]

theorem eval_path {bound : Nat} (keys : List String)
    (binds : Binds w.values bound (keys.map Value.text)) (e : Expr .scalar) (σ : Scope D) :
    ((List.range' (bound + 1) keys.length).foldl (fun e n => Expr.child e (.slot n)) e).eval w σ
      = w.operators.descend (e.eval w σ) keys := by
  induction keys generalizing bound e with
  | nil => rfl
  | cons key rest ih =>
    obtain ⟨first, later⟩ := Binds.cons binds
    have slot := Session.slot_of first
    simp only [List.length_cons, List.range'_succ, List.foldl_cons, ih later, Expr.eval, slot,
      applied, Option.bind_some, Operators.descend, Operators.text]

theorem compares_holds (c : Comparison) (found value : Expr .scalar) (σ : Scope D) :
    (Expr.comparison found value c).Holds w σ ↔
      ∃ x y, found.eval w σ = some x ∧ value.eval w σ = some y ∧ w.operators.Compares c x y := by
  cases c with
  | equal =>
    rw [Expr.comparison, holds_equal]
    constructor
    · intro found
      obtain ⟨x, left, right⟩ := found
      exact ⟨x, x, left, right, rfl⟩
    · intro found
      obtain ⟨x, y, left, right, same⟩ := found
      exact ⟨x, left, same ▸ right⟩
  | like | greater | less =>
    simp only [Expr.comparison, Expr.Holds, holds_iff, Expr.eval, applied_eq_some,
      Operators.Compares]

theorem hasKey_holds {bound : Nat} (parents : List String) (last : String)
    (binds : Binds w.values bound ((parents ++ [last]).map Value.text)) (document : Expr .scalar)
    (σ : Scope D) :
    (Expr.hasKey ((List.range' (bound + 1) parents.length).foldl
        (fun e n => Expr.child e (.slot n)) document)
      (.slot (bound + 1 + parents.length))).Holds w σ ↔
      ∃ found, w.operators.descend (document.eval w σ) parents = some found ∧
        w.operators.hasKey found (w.operators.text last) = some true := by
  obtain ⟨first, slot⟩ := binds_last binds
  simp only [Expr.Holds, holds_iff, Expr.eval, eval_path parents first, slot, applied_eq_some]
  constructor
  · intro asked
    obtain ⟨found, key, under, same, has⟩ := asked
    cases same
    exact ⟨found, under, has⟩
  · intro asked
    obtain ⟨found, under, has⟩ := asked
    exact ⟨found, _, under, rfl, has⟩

theorem extracted_holds {bound : Nat} (path : List String) (value : String) (c : Comparison)
    (binds : Binds w.values bound ((path ++ [value]).map Value.text)) (document : Expr .scalar)
    (σ : Scope D) :
    (Expr.comparison (.textAt document (List.range' (bound + 1) path.length))
      (.slot (bound + 1 + path.length)) c).Holds w σ ↔
      ∃ whole found, document.eval w σ = some whole ∧
        w.operators.textAt whole (path.map w.operators.text) = some found ∧
        w.operators.Compares c found (w.operators.text value) := by
  obtain ⟨first, slot⟩ := binds_last binds
  simp only [compares_holds, Expr.eval, slots_texts path first, slot, applied_eq_some]
  constructor
  · intro asked
    obtain ⟨found, y, ⟨whole, keys, here, same, extracted⟩, other, compares⟩ := asked
    cases same
    cases other
    exact ⟨whole, found, here, extracted, compares⟩
  · intro asked
    obtain ⟨whole, found, here, extracted, compares⟩ := asked
    exact ⟨found, _, ⟨whole, _, here, rfl, extracted⟩, rfl, compares⟩

theorem documentTest_holds (filter : AttributeFilter) {bound : Nat}
    (binds : Binds w.values bound (filter.testTexts.map Value.text)) (name : String) (σ : Scope D) :
    (∀ e, (filter.documentTest bound).expr? name = some e → e.Holds w σ) ↔
      filter.Passes w.operators (σ name) := by
  obtain ⟨scope, path, comparison, value⟩ := filter
  have data : (Expr.column (.of name "data")).eval w σ = σ name "data" := rfl
  cases path with
  | nil => simp [documentTest, DocumentTest.expr?, Passes]
  | cons key more =>
    cases comparison with
    | none =>
      obtain ⟨parents, last, split, count⟩ := path_split key more
      have asked := hasKey_holds parents last (by simpa [testTexts, split] using binds)
        (.column (.of name "data")) σ
      rw [count, data] at asked
      simp only [documentTest, DocumentTest.expr?, Option.some.injEq, forall_eq', Passes,
        reduceCtorEq, false_or]
      rw [asked]
      constructor
      · intro found
        obtain ⟨document, under, has⟩ := found
        exact ⟨parents, last, document, split, under, has⟩
      · intro found
        obtain ⟨_, _, document, same, under, has⟩ := found
        obtain ⟨rfl, one⟩ := List.append_inj' (split.symm.trans same) rfl
        cases one
        exact ⟨document, under, has⟩
    | some c =>
      have asked := extracted_holds (key :: more) value c (by simpa [testTexts] using binds)
        (.column (.of name "data")) σ
      simp only [documentTest, DocumentTest.expr?, Option.some.injEq, forall_eq', Passes,
        reduceCtorEq, false_or]
      exact asked

theorem document_holds (filter : AttributeFilter) {bound : Nat}
    (binds : Binds w.values bound ((filter.scope :: filter.testTexts).map Value.text))
    (name : String) (σ : Scope D) :
    (Clause.document name (bound + 1) (filter.documentTest (bound + 1))).expr.Holds w σ ↔
      (σ name).Has "namespace" (w.operators.text filter.scope) ∧
        filter.Passes w.operators (σ name) := by
  obtain ⟨first, later⟩ := Binds.cons binds
  have slot : w.slot (bound + 1) = some (w.operators.text filter.scope) := Session.slot_of first
  have within := holds_slot name "namespace" slot σ
  rw [← documentTest_holds filter later name σ, Clause.expr]
  cases test : (filter.documentTest (bound + 1)).expr? name with
  | none => simpa using within
  | some tested =>
    have same : (Expr.enclosed (.both (.equal (.column (.of name "namespace"))
        (.slot (bound + 1))) tested)).Holds w σ ↔ _ := holds_both _ tested σ
    simpa [within] using same

/-- What a filter asks of the rows of its source: MetBy or MetByNewest, as the source is. -/
def MetIn (m : Operators D) (db : Database D) (source : AttributeSource) (filter : AttributeFilter)
    (owner : Tuple D) : Prop :=
  ∃ row ∈ db source.table, filter.InScope m source.ownerColumn owner row ∧
    (source.isVersioned = true →
      filter.Newest m (db source.table) source.ownerColumn owner row) ∧ filter.Passes m row

/-- The subquery of a join is the greatest creation time among the owner's rows in scope. -/
theorem newest_eval (source : AttributeSource) {parent name : String} (filter : AttributeFilter)
    {scope : Nat} (slot : w.slot scope = some (w.operators.text filter.scope))
    (other : parent ∉ Under name) (σ : Scope D) (row : Tuple D) (time : D) :
    ((join source parent name scope).newest scope).eval w (Function.update σ name row) = some time ↔
      (∃ r ∈ w.tables source.table, filter.InScope w.operators source.ownerColumn (σ parent) r ∧
        r.Has "created_at" time) ∧
      ∀ r ∈ w.tables source.table, filter.InScope w.operators source.ownerColumn (σ parent) r →
        ∀ late, r.Has "created_at" late → late ≤ time := by
  have self : parent ≠ name := fun same => other (same ▸ under_self name)
  have aside : parent ≠ (join source parent name scope).latest := fun same =>
    other (same ▸ latest_under (join source parent name scope))
  have inner : ∀ r, (Expr.both
      (.equal (.column (.of (join source parent name scope).latest source.ownerColumn))
        (.column (.of parent "id")))
      (.equal (.column (.of (join source parent name scope).latest "namespace"))
        (.slot scope))).Holds w (Function.update (Function.update σ name row)
          (join source parent name scope).latest r) ↔
      filter.InScope w.operators source.ownerColumn (σ parent) r := by
    intro r
    rw [holds_both, holds_columns, holds_slot _ _ slot, Function.update_self,
      Function.update_of_ne aside, Function.update_of_ne self]
    exact Iff.rfl
  rw [Join.newest, eval_greatest]
  simp only [join] at inner ⊢
  simp only [inner]
  exact Iff.rfl

theorem join_holds (source : AttributeSource) {parent name : String} (filter : AttributeFilter)
    {scope : Nat} (slot : w.slot scope = some (w.operators.text filter.scope))
    (other : parent ∉ Under name) (σ : Scope D) {row : Tuple D}
    (member : row ∈ w.tables source.table)
    (space : row.Has "namespace" (w.operators.text filter.scope)) :
    (join source parent name scope).condition.Holds w (Function.update σ name row) ↔
      row.Refers source.ownerColumn (σ parent) "id" ∧
        (source.isVersioned = true → filter.Newest w.operators (w.tables source.table)
          source.ownerColumn (σ parent) row) := by
  have self : parent ≠ name := fun same => other (same ▸ under_self name)
  have linked := holds_columns (w := w) name source.ownerColumn parent "id"
    (Function.update σ name row)
  rw [Function.update_self, Function.update_of_ne self] at linked
  cases versioned : source.isVersioned with
  | false => simpa [join, Join.condition, versioned] using linked
  | true =>
    have condition : (join source parent name scope).condition
        = .both (.equal (.column (.of name source.ownerColumn)) (.column (.of parent "id")))
          (.equal (.column (.of name "created_at"))
            ((join source parent name scope).newest scope)) := by
      simp [Join.condition, join, versioned]
    have created : (Expr.column (.of name "created_at")).eval w (Function.update σ name row)
        = row "created_at" := by
      simp [Expr.eval, Column.of]
    rw [condition, holds_both, linked, holds_equal, created]
    simp only [newest_eval source filter slot other, forall_const]
    refine and_congr_right fun owned => ⟨?_, ?_⟩
    · intro found
      obtain ⟨time, here, -, last⟩ := found
      exact ⟨time, here, last⟩
    · intro found
      obtain ⟨time, here, last⟩ := found
      exact ⟨time, here, ⟨row, member, ⟨owned, space⟩, here⟩, last⟩

theorem metIn_plain (source : AttributeSource) (plain : source.isVersioned = false)
    (m : Operators D) (db : Database D) (filter : AttributeFilter) (owner : Tuple D) :
    filter.MetIn m db source owner ↔ filter.MetBy m (db source.table) source.ownerColumn owner := by
  simp [MetIn, MetBy, plain]

theorem metIn_versioned (source : AttributeSource) (versioned : source.isVersioned = true)
    (m : Operators D) (db : Database D) (filter : AttributeFilter) (owner : Tuple D) :
    filter.MetIn m db source owner ↔
      filter.MetByNewest m (db source.table) source.ownerColumn owner := by
  simp [MetIn, MetByNewest, versioned]

theorem fragment_means (source : AttributeSource) {parent name : String}
    (filter : AttributeFilter) (other : parent ∉ Under name) :
    (fragment source parent name filter).Means w fun σ =>
      filter.MetIn w.operators w.tables source (σ parent) := by
  intro bound σ _ binds
  have slot : w.slot (bound + 1) = some (w.operators.text filter.scope) :=
    Session.slot_of (Binds.cons binds).1
  change Met w [(join source parent name (bound + 1)).joined] [_] σ ↔ _
  simp only [met_cons, met_nil, List.mem_singleton, forall_eq]
  constructor
  · intro found
    obtain ⟨r, partner, met⟩ := found
    have passed := (document_holds filter binds name _).mp met
    rw [show Function.update σ (join source parent name (bound + 1)).joined.name r name = r from
      Function.update_self ..] at passed
    obtain ⟨space, passes⟩ := passed
    rcases partner with ⟨member, linked⟩ | ⟨-, rfl⟩
    · obtain ⟨owned, newest⟩ := (join_holds source filter slot other σ member space).mp linked
      exact ⟨r, member, ⟨owned, space⟩, newest, passes⟩
    · simp [Tuple.Has, Tuple.null] at space
  · intro found
    obtain ⟨r, member, ⟨owned, space⟩, newest, passes⟩ := found
    have linked := (join_holds source filter slot other σ member space).mpr ⟨owned, newest⟩
    refine ⟨r, .inl ⟨member, linked⟩, (document_holds filter binds name _).mpr ?_⟩
    rw [show Function.update σ (join source parent name (bound + 1)).joined.name r name = r from
      Function.update_self ..]
    exact ⟨space, passes⟩

theorem fragment_selects (source : AttributeSource) {parent name : String}
    (filter : AttributeFilter) (other : parent ∉ Under name) :
    (fragment source parent name filter).Selects w (Under name) {parent} fun σ =>
      filter.MetIn w.operators w.tables source (σ parent) :=
  ⟨fragment_scoped source parent name filter, by simpa using other,
    fragment_means source filter other⟩

theorem fragmentsFrom_selects (source : AttributeSource) {parent lead : String} (position : Nat)
    (filters : List AttributeFilter) (other : parent ∉ rowNames lead source position) :
    (Fragment.all (fragmentsFrom source parent lead position filters)).Selects w
      (rowNames lead source position) {parent} fun σ =>
        ∀ filter ∈ filters, filter.MetIn w.operators w.tables source (σ parent) := by
  refine ⟨fragmentsFrom_scoped source parent lead position filters, by simpa using other, ?_⟩
  induction filters generalizing position with
  | nil => exact Fragment.nothing_means.congr (by simp)
  | cons filter rest ih =>
    have notFirst : parent ∉ Under (rowName lead source position) := fun under =>
      other ⟨position, Nat.le_refl _, under⟩
    have notLater : parent ∉ rowNames lead source (position + 1) := fun ⟨i, later, under⟩ =>
      other ⟨i, Nat.le_of_succ_le later, under⟩
    have tail : (Fragment.all (fragmentsFrom source parent lead (position + 1) rest)).Selects w
        (rowNames lead source (position + 1)) {parent} _ :=
      ⟨fragmentsFrom_scoped source parent lead (position + 1) rest, by simpa using notLater,
        ih (position + 1) notLater⟩
    have both := (fragment_selects source filter notFirst).andThen tail
      (rowName_not_later lead source position)
    exact both.means.congr (by simp)

theorem fragments_selects (source : AttributeSource) {parent lead : String}
    (filters : List AttributeFilter) (other : parent ∉ rowNames lead source 0) :
    (fragments source parent lead filters).Selects w (rowNames lead source 0) {parent} fun σ =>
      ∀ filter ∈ filters, filter.MetIn w.operators w.tables source (σ parent) := by
  refine ⟨fragments_scoped source parent lead filters, by simpa using other, ?_⟩
  unfold fragments
  split
  · exact Fragment.refused_means _
  · exact (fragmentsFrom_selects source 0 filters other).means

end AttributeFilter
end FleetInventory
