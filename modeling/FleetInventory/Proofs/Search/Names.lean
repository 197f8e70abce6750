import FleetInventory.Proofs.Sql.Scope
import FleetInventory.Proofs.Text.Numeral
import FleetInventory.Search.Components

/-!
Names of joined rows. A stem reserves its own name and every name that goes on with an underscore,
so that the reserved names of two numbered stems never meet: `comp_1` reserves `comp_1_type` and
not `comp_11`.
-/
namespace FleetInventory

def Under (stem : String) : Set String :=
  {name | ∃ tail : List Char, name.toList = stem.toList ++ tail ∧
    ∀ c, tail.head? = some c → c = '_'}

theorem under_self (stem : String) : stem ∈ Under stem := ⟨[], by simp, by simp⟩

theorem under_underscore (stem more : String) : stem ++ "_" ++ more ∈ Under stem :=
  ⟨'_' :: more.toList, by simp, by simp⟩

theorem under_trans {s t n : String} (inner : t ∈ Under s) (outer : n ∈ Under t) : n ∈ Under s := by
  obtain ⟨first, left, breakFirst⟩ := inner
  obtain ⟨second, right, breakSecond⟩ := outer
  refine ⟨first ++ second, by rw [right, left, List.append_assoc], ?_⟩
  cases first with
  | nil => exact breakSecond
  | cons c rest => exact breakFirst

theorem underscore_no_digit {tail : List Char} (breaks : ∀ c, tail.head? = some c → c = '_') :
    ∀ c, tail.head? = some c → c.isDigit = false := by
  intro c first
  rw [breaks c first]
  decide

theorem under_number_inj {stem n : String} {i k : Nat} (left : n ∈ Under (stem ++ Text.showNat i))
    (right : n ∈ Under (stem ++ Text.showNat k)) : i = k := by
  obtain ⟨s, first, breakS⟩ := left
  obtain ⟨t, second, breakT⟩ := right
  rw [first] at second
  simp only [String.toList_append, Text.showNat_toList, List.append_assoc,
    List.append_cancel_left_eq] at second
  exact (Text.decimal_append_inj (underscore_no_digit breakS) (underscore_no_digit breakT)
    second).1

theorem under_apart {lead s t n : String} {c d : Char} (left : n ∈ Under (lead ++ s))
    (right : n ∈ Under (lead ++ t)) (first : s.toList.head? = some c)
    (second : t.toList.head? = some d) : c = d := by
  obtain ⟨a, chars, _⟩ := left
  obtain ⟨b, same, _⟩ := right
  obtain ⟨cs, first⟩ := List.head?_eq_some_iff.mp first
  obtain ⟨ds, second⟩ := List.head?_eq_some_iff.mp second
  rw [chars] at same
  simp only [String.toList_append, List.append_assoc, List.append_cancel_left_eq, first, second,
    List.cons_append, List.cons.injEq] at same
  exact same.1

namespace AttributeFilter

def rowNames (lead : String) (source : AttributeSource) (position : Nat) : Set String :=
  {n | ∃ i, position ≤ i ∧ n ∈ Under (rowName lead source i)}

theorem rowName_inj {lead n : String} {source : AttributeSource} {i k : Nat}
    (left : n ∈ Under (rowName lead source i)) (right : n ∈ Under (rowName lead source k)) :
    i = k :=
  under_number_inj left right

theorem rowName_apart {lead n : String} {plain versioned : AttributeSource} {i k : Nat}
    (one : plain.isVersioned = false) (other : versioned.isVersioned = true)
    (left : n ∈ Under (rowName lead plain i)) : n ∉ Under (rowName lead versioned k) := by
  intro right
  simp only [rowName, AttributeSource.stem, one, other, String.append_assoc] at left right
  have same := under_apart left right (c := 'a') (d := 'v') (by simp) (by simp)
  exact absurd same (by decide)

end AttributeFilter

namespace ComponentGroup

theorem rowName_inj {n : String} {j k : Nat} (left : n ∈ Under (rowName j))
    (right : n ∈ Under (rowName k)) : j = k :=
  under_number_inj left right

end ComponentGroup
end FleetInventory
