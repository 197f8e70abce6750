import FleetInventory.Proofs.Sql.Joining

/-!
What a fragment asks of the rows in scope. The statement that a fragment becomes part of has the
fragment's values in the slots that follow those bound before, so the meaning of a fragment does
not depend on where it stands. Fragments with rows of their own mean what each of them means.
-/
namespace FleetInventory.Sql

variable {D : Type}

theorem Session.slot_of {w : Session D} {n : Nat} {value : Value}
    (bound : w.values[n]? = some value) : w.slot (n + 1) = some (w.operators.bound value) := by
  simp only [Session.slot, bound, Option.map_some]

/-- What a fragment without fault asks: the scope meets its joins and conditions exactly if the
property holds. -/
def Fragment.Means [LinearOrder D] {α : Type} [Condition α] (w : Session D) (p : Fragment α)
    (property : Scope D → Prop) : Prop :=
  ∀ bound σ, (p bound).fault = none → Binds w.values bound (p bound).values →
    (Met w ((p bound).joins.map Join.joined) ((p bound).conditions.map Condition.expr) σ ↔
      property σ)

theorem Draft.Scoped.enclosed {α : Type} [Condition α] {own outer : Set String} {d : Draft α}
    (inside : d.Scoped own outer) :
    Enclosed own outer (d.joins.map Join.joined) (d.conditions.map Condition.expr) where
  names joined member := by
    obtain ⟨j, present, rfl⟩ := List.mem_map.mp member
    exact (inside.names j present).1
  joins joined member m mention := by
    obtain ⟨j, present, rfl⟩ := List.mem_map.mp member
    exact inside.join_mentions present mention
  conditions e member m mention := by
    obtain ⟨c, present, rfl⟩ := List.mem_map.mp member
    exact inside.condition_mentions present mention

namespace Fragment

variable [LinearOrder D] {w : Session D} {α : Type} [Condition α] {p q : Fragment α}
  {P Q : Scope D → Prop}

theorem Means.congr (means : p.Means w P) (same : ∀ σ, P σ ↔ Q σ) : p.Means w Q :=
  fun bound σ ok binds => (means bound σ ok binds).trans (same σ)

theorem nothing_means : (nothing : Fragment α).Means w fun _ => True := by
  intro bound σ _ _
  simp [nothing, met_nil]

theorem refused_means (fault : SearchFault) : (refused fault : Fragment α).Means w P := by
  intro bound σ ok
  contradiction

/-- A fragment with rows of its own, apart from those outside, and what it asks. -/
structure Selects (w : Session D) (own outer : Set String) (p : Fragment α)
    (property : Scope D → Prop) : Prop where
  inside : p.Scoped own outer
  outside : ∀ n ∈ outer, n ∉ own
  means : p.Means w property

theorem nothing_selects {outer : Set String} :
    (nothing : Fragment α).Selects w ∅ outer fun _ => True :=
  ⟨nothing_scoped ∅, fun _ _ => id, nothing_means⟩

theorem Selects.andThen {own more outer : Set String} (first : p.Selects w own outer P)
    (second : q.Selects w more outer Q) (apart : ∀ n ∈ own, n ∉ more) :
    (p.andThen q).Selects w (own ∪ more) outer fun σ => P σ ∧ Q σ where
  inside := first.inside.andThen second.inside apart
  outside n given := by
    intro member
    rcases member with inFirst | inSecond
    · exact first.outside n given inFirst
    · exact second.outside n given inSecond
  means bound σ ok binds := by
    obtain ⟨okFirst, okSecond⟩ := andThen_ok ok
    rw [andThen_of_ok okFirst] at binds ⊢
    obtain ⟨bindsFirst, bindsSecond⟩ := binds_append binds
    simp only [Draft.append, List.map_append]
    rw [met_append (first.inside bound).enclosed (second.inside _).enclosed apart
        (fun n given => ⟨first.outside n given, second.outside n given⟩),
      first.means bound σ okFirst bindsFirst, second.means _ σ okSecond bindsSecond]

theorem joined_andThen_means (j : Join) (means : q.Means w Q) :
    ((joined j).andThen q).Means w fun σ =>
      ∃ r, j.joined.Partner w σ r ∧ Q (Function.update σ j.name r) := by
  intro bound σ ok binds
  have clean : (joined j bound : Draft α).fault = none := rfl
  obtain ⟨-, okRest⟩ := andThen_ok ok
  rw [andThen_of_ok clean] at binds ⊢
  simp only [Draft.append, joined, List.length_nil, Nat.add_zero, List.singleton_append,
    List.nil_append, List.map_cons] at okRest binds ⊢
  rw [met_cons]
  constructor
  · intro found
    obtain ⟨r, partner, met⟩ := found
    exact ⟨r, partner, (means bound _ okRest binds).mp met⟩
  · intro found
    obtain ⟨r, partner, asked⟩ := found
    exact ⟨r, partner, (means bound _ okRest binds).mpr asked⟩

/-- A join by a reference. If the row of nulls is refused, it asks for a row that refers. -/
theorem reference_andThen_means {table name column parent field : String} (other : parent ≠ name)
    {P : Tuple D → Prop} (null : ¬ P Tuple.null) (means : q.Means w fun σ => P (σ name)) :
    ((joined ⟨table, name, column, .of parent field, none⟩).andThen q).Means w fun σ =>
      ∃ r ∈ w.tables table, r.Refers column (σ parent) field ∧ P r := by
  refine (joined_andThen_means _ means).congr fun σ => ?_
  have linked : ∀ r, (Join.condition ⟨table, name, column, .of parent field, none⟩).Holds w
      (Function.update σ name r) ↔ r.Refers column (σ parent) field := by
    intro r
    have columns := holds_columns (w := w) name column parent field (Function.update σ name r)
    rwa [Function.update_self, Function.update_of_ne other] at columns
  simp only [Function.update_self]
  constructor
  · intro found
    obtain ⟨r, ⟨member, holds⟩ | ⟨-, rfl⟩, asked⟩ := found
    · exact ⟨r, member, (linked r).mp holds, asked⟩
    · exact absurd asked null
  · intro found
    obtain ⟨r, member, refers, asked⟩ := found
    exact ⟨r, .inl ⟨member, (linked r).mpr refers⟩, asked⟩

theorem Means.singles {p : Fragment Clause} (means : p.Means w P) : p.singles.Means w P := by
  intro bound σ ok binds
  obtain ⟨clean, whole⟩ := singles_of_ok ok
  rw [whole] at binds ⊢
  rw [← means bound σ clean binds, List.map_map]
  exact Iff.rfl

theorem Means.asBlock {p : Fragment Clause} (means : p.Means w P) : p.asBlock.Means w P := by
  intro bound σ ok binds
  obtain ⟨clean, whole⟩ := asBlock_of_ok ok
  rw [whole] at binds ⊢
  rw [← means bound σ clean binds]
  have block : ∀ τ : Scope D, (Condition.expr (Predicate.block (p bound).conditions)).Holds w τ ↔
      ∀ c ∈ (p bound).conditions.map Condition.expr, c.Holds w τ := fun τ =>
    holds_all ((p bound).conditions.map Clause.expr) τ
  simp only [List.map_singleton, Met, List.mem_singleton, forall_eq, block]

theorem equals_means (owner name : String) (value : Value) :
    (equals (.of owner name) value).Means w fun σ =>
      (σ owner).Has name (w.operators.bound value) := by
  intro bound σ _ binds
  have held : Binds w.values bound [value] := binds
  have slot := Session.slot_of held.cons.1
  simp only [equals, List.map_nil, List.map_cons, met_nil, List.mem_singleton, forall_eq,
    Condition.expr, Clause.expr]
  exact holds_slot owner name slot σ

theorem Selects.singles {own outer : Set String} {p : Fragment Clause}
    (selects : p.Selects w own outer P) : p.singles.Selects w own outer P :=
  ⟨selects.inside.singles, selects.outside, selects.means.singles⟩

end Fragment

theorem Selection.mem_selected [LinearOrder D] {m : Operators D} {db : Database D}
    {p : Fragment Predicate} {P : Scope D → Prop} {own : Set String} {table : String}
    {s : Selection} (compiled : Selection.ofFragment p = .ok s)
    (selects : p.Selects ⟨m, db, s.values⟩ own {table} P) (row : Tuple D) :
    row ∈ (s.query table).selected ⟨m, db, s.values⟩ ↔
      row ∈ db table ∧ P (Function.update (fun _ => Tuple.null) table row) := by
  obtain ⟨ok, rfl⟩ := Selection.ofFragment_eq_ok compiled
  have other : ∀ j ∈ (p 0).joins.map Join.joined, j.name ≠ table := by
    intro joined member same
    obtain ⟨j, present, rfl⟩ := List.mem_map.mp member
    exact selects.outside table rfl (same ▸ ((selects.inside 0).names j present).1)
  refine (Sql.mem_selected _ other row).trans (and_congr_right fun _ => ?_)
  exact selects.means 0 _ ok (binds_all _)

end FleetInventory.Sql
