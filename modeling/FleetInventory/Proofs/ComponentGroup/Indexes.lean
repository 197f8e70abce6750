import Mathlib.Data.List.Nodup
import Mathlib.Data.Nat.Find
import FleetInventory.ComponentGroup.Basic
import FleetInventory.Proofs.Query.Agreement
import FleetInventory.Proofs.Text.Numeral

/-!
Which parameters belong to which group of a request. A parameter belongs to one group at most, so
some index no greater than the number of parameters has none, and the groups that are read are
those below the first such index.
-/
namespace FleetInventory.ComponentGroup

/-- The key is one of those in which the group at the index is written. -/
def Owns (index : Nat) (key : String) : Prop :=
  (∃ rest, key.toList = (fieldStem index).toList ++ rest) ∨ key = attributeParam index
    ∨ key = versionedParam index

def EndsKey (tail : List Char) : Prop :=
  (∃ rest, tail = '[' :: rest) ∨ tail = "_attr".toList ∨ tail = "_ver_attr".toList

theorem EndsKey.no_digit {tail : List Char} (ends : EndsKey tail) (c : Char)
    (first : tail.head? = some c) : c.isDigit = false := by
  rcases ends with ⟨rest, rfl⟩ | rfl | rfl <;> cases first <;> decide

theorem owns_tail {index : Nat} {key : String} (owns : Owns index key) :
    ∃ tail, key.toList = ['s', 'c', '_'] ++ (Text.decimal index ++ tail) ∧ EndsKey tail := by
  rcases owns with ⟨rest, chars⟩ | rfl | rfl
  · refine ⟨'[' :: rest, ?_, .inl ⟨rest, rfl⟩⟩
    simp [chars, fieldStem, stem, Text.showNat]
  · exact ⟨_, by simp [attributeParam, stem, Text.showNat], .inr (.inl rfl)⟩
  · exact ⟨_, by simp [versionedParam, stem, Text.showNat], .inr (.inr rfl)⟩

theorem owns_numeral {index : Nat} {key : String} (owns : Owns index key) :
    ∃ tail, key.toList = ['s', 'c', '_'] ++ (Text.decimal index ++ tail)
      ∧ ∀ c, tail.head? = some c → c.isDigit = false := by
  obtain ⟨tail, chars, ends⟩ := owns_tail owns
  exact ⟨tail, chars, ends.no_digit⟩

theorem owns_inj {i k : Nat} {key : String} (left : Owns i key) (right : Owns k key) : i = k := by
  obtain ⟨s, first, stopS⟩ := owns_numeral left
  obtain ⟨t, second, stopT⟩ := owns_numeral right
  rw [first, List.append_cancel_left_eq] at second
  exact (Text.decimal_append_inj stopS stopT second).1

theorem present_iff {params : Params} {index : Nat} :
    present params index = true ↔ ∃ key ∈ params.keys, Owns index key := by
  simp only [present, Bool.or_eq_true, Params.has_iff, Params.hasStem_iff]
  constructor
  · rintro ((⟨key, member, stem⟩ | member) | member)
    · exact ⟨key, member, .inl stem⟩
    · exact ⟨_, member, .inr (.inl rfl)⟩
    · exact ⟨_, member, .inr (.inr rfl)⟩
  · rintro ⟨key, member, stem | rfl | rfl⟩
    · exact .inl (.inl ⟨key, member, stem⟩)
    · exact .inl (.inr member)
    · exact .inr member

/-- Indexes that all have a parameter have different ones, so there are no more of them. -/
theorem length_le_of_present {params : Params} {n : Nat}
    (all : ∀ i < n, present params i = true) : n ≤ params.pairs.length := by
  have chosen : ∀ i : Nat, ∃ key, i < n → key ∈ params.keys ∧ Owns i key := by
    intro i
    by_cases below : i < n
    · obtain ⟨key, member, owns⟩ := present_iff.mp (all i below)
      exact ⟨key, fun _ => ⟨member, owns⟩⟩
    · exact ⟨"", fun inside => absurd inside below⟩
  obtain ⟨pick, picked⟩ := Classical.axiomOfChoice chosen
  have different : ((List.range n).map pick).Nodup := by
    apply List.Nodup.map_on _ List.nodup_range
    intro i inside k within same
    have left := (picked i (List.mem_range.mp inside)).2
    have right := (picked k (List.mem_range.mp within)).2
    rw [← same] at right
    exact owns_inj left right
  have kept : (List.range n).map pick ⊆ params.keys := by
    intro key member
    obtain ⟨i, inside, rfl⟩ := List.mem_map.mp member
    exact (picked i (List.mem_range.mp inside)).1
  have counted := different.length_le_of_subset kept
  simpa [Params.keys] using counted

/-- There is a first index without parameters, and the scan reads those below it. -/
theorem indexes_eq_range (params : Params) :
    ∃ k, indexes params = List.range k ∧ (∀ i < k, present params i = true)
      ∧ present params k = false := by
  have absent : ∃ k, present params k = false := by
    apply Classical.byContradiction
    intro nowhere
    have all : ∀ i < params.pairs.length + 1, present params i = true := by
      intro i _
      exact Bool.of_not_eq_false fun missing => nowhere ⟨i, missing⟩
    have counted := length_le_of_present all
    omega
  have below : ∀ i < Nat.find absent, present params i = true := fun i early =>
    Bool.of_not_eq_false (Nat.find_min absent early)
  have stop := Nat.find_spec absent
  have bound := length_le_of_present below
  refine ⟨Nat.find absent, ?_, below, stop⟩
  obtain ⟨more, whole⟩ := Nat.exists_eq_add_of_le (Nat.lt_succ_of_le bound)
  rw [indexes, show params.pairs.length + 1 = Nat.find absent + (more + 1) by omega,
    List.range_add, List.takeWhile_append_of_pos fun i member => below i (List.mem_range.mp member),
    List.range_succ_eq_map]
  simp [stop]

theorem indexes_congr {p q : Params} (same : ∀ i, present p i = present q i) :
    indexes p = indexes q := by
  obtain ⟨k, left, below, stop⟩ := indexes_eq_range p
  obtain ⟨m, right, under, halt⟩ := indexes_eq_range q
  have equal : k = m := by
    rcases Nat.lt_trichotomy k m with early | equal | early
    · have found := under k early
      rw [← same, stop] at found
      cases found
    · exact equal
    · have found := below m early
      rw [same, halt] at found
      cases found
  rw [left, right, equal]

end FleetInventory.ComponentGroup
