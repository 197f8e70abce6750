import FleetInventory.Proofs.Text.Numeral
import FleetInventory.Text.Split
import Mathlib.Data.List.TakeWhile

/-!
Trimming. Nothing is left of a text exactly when it is blank, and a text without white space, such
as a numeral, is left as it is.
-/
namespace FleetInventory.Text

theorem trimEnd_eq_nil_iff {cs : List Char} : trimEnd cs = [] ↔ ∀ c ∈ cs, isBlank c = true := by
  rw [trimEnd, List.reverse_eq_nil_iff, List.dropWhile_eq_nil_iff]
  simp only [List.mem_reverse]

theorem trim_eq_empty_iff {text : String} : trim text = "" ↔ isBlankText text = true := by
  rw [trim, String.ofList_eq_empty_iff, trimEnd_eq_nil_iff, isBlankText, List.all_eq_true]
  constructor
  · intro rest c member
    rw [← List.takeWhile_append_dropWhile (p := isBlank) (l := text.toList)] at member
    rcases List.mem_append.mp member with front | back
    · exact List.mem_takeWhile_imp front
    · exact rest c back
  · intro blank c member
    exact blank c ((List.dropWhile_sublist _).mem member)

theorem dropWhile_of_solid {cs : List Char} (solid : ∀ c ∈ cs, isBlank c = false) :
    cs.dropWhile isBlank = cs := by
  cases cs with
  | nil => rfl
  | cons c rest => exact List.dropWhile_cons_of_neg (by simp [solid])

theorem trim_of_solid {text : String} (solid : ∀ c ∈ text.toList, isBlank c = false) :
    trim text = text := by
  have back : ∀ c ∈ text.toList.reverse, isBlank c = false := by simpa using solid
  rw [trim, trimStart, dropWhile_of_solid solid, trimEnd, dropWhile_of_solid back,
    List.reverse_reverse, String.ofList_toList]

theorem isBlank_of_isDigit {c : Char} (digit : c.isDigit = true) : isBlank c = false := by
  have bounds : 48 ≤ c.toNat ∧ c.toNat ≤ 57 := Char.isDigit_iff_toNat.mp digit
  simp only [isBlank, Bool.or_eq_false_iff, Bool.and_eq_false_iff, decide_eq_false_iff_not]
  omega

theorem trim_showInt (n : Int) : trim (showInt n) = showInt n := by
  apply trim_of_solid
  intro c member
  rw [showInt, String.toList_ofList] at member
  rcases signedDecimal_chars member with rfl | digit
  · decide
  · exact isBlank_of_isDigit digit

end FleetInventory.Text
