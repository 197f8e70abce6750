import FleetInventory.Proofs.Text.Split

/-!
Words in a text. A text is cut at the first place where a word stands; if some letter of the word
does not occur before the place where it was put, that is the first place.
-/
namespace FleetInventory.Text

def cutWord (word : List Char) : List Char → Option (List Char × List Char)
  | [] => (afterStem? word []).map fun rest => ([], rest)
  | c :: more =>
    match afterStem? word (c :: more) with
    | some rest => some ([], rest)
    | none => (cutWord word more).map fun (before, after) => (c :: before, after)

def beforeWord? (word text : String) : Option String :=
  (cutWord word.toList text.toList).map fun (before, _) => String.ofList before

def afterWord? (word text : String) : Option String :=
  (cutWord word.toList text.toList).map fun (_, after) => String.ofList after

theorem afterStem?_append (stem rest : List Char) : afterStem? stem (stem ++ rest) = some rest :=
  afterStem?_eq_some.mpr rfl

/-- No occurrence of the word begins in a text without one of its letters, not even one that ends
in the next occurrence: cut at that letter, the two would have different beginnings. -/
theorem afterStem?_eq_none {word before : List Char} {c : Char} (letter : c ∈ word)
    (clean : c ∉ before) (any : before ≠ []) (after : List Char) :
    afterStem? word (before ++ (word ++ after)) = none := by
  rw [Option.eq_none_iff_forall_ne_some]
  intro rest found
  have same := afterStem?_eq_some.mp found
  obtain ⟨front, back, rfl, first⟩ := List.eq_append_cons_of_mem letter
  have left : cut c (before ++ (front ++ c :: back ++ after))
      = some (before ++ front, back ++ after) := by
    have both : c ∉ before ++ front := by simp [clean, first]
    have chars : before ++ (front ++ c :: back ++ after)
        = before ++ front ++ c :: (back ++ after) := by simp
    rw [chars, cut_append both]
  have right : cut c (front ++ c :: back ++ rest) = some (front, back ++ rest) := by
    rw [List.append_assoc, List.cons_append, cut_append first]
  rw [same, right] at left
  simp only [Option.some.injEq, Prod.mk.injEq, List.self_eq_append_left] at left
  exact any left.1

theorem cutWord_append {word before : List Char} {c : Char} (letter : c ∈ word)
    (clean : c ∉ before) (after : List Char) :
    cutWord word (before ++ (word ++ after)) = some (before, after) := by
  induction before with
  | nil =>
    have here := afterStem?_append word after
    cases text : word ++ after with
    | nil => simp_all [cutWord]
    | cons d more =>
      rw [text] at here
      rw [List.nil_append, cutWord, here]
  | cons b more ih =>
    have later := ih fun member => clean (List.mem_cons_of_mem _ member)
    have none := afterStem?_eq_none letter clean (List.cons_ne_nil b more) after
    rw [List.cons_append] at none ⊢
    rw [cutWord, none, later]
    rfl

variable {word before : String} {c : Char}

theorem beforeWord?_append (letter : c ∈ word.toList) (clean : c ∉ before.toList)
    (after : String) : beforeWord? word (before ++ word ++ after) = some before := by
  have cut := cutWord_append letter clean after.toList
  rw [beforeWord?, String.toList_append, String.toList_append, List.append_assoc, cut]
  simp

theorem afterWord?_append (letter : c ∈ word.toList) (clean : c ∉ before.toList)
    (after : String) : afterWord? word (before ++ word ++ after) = some after := by
  have cut := cutWord_append letter clean after.toList
  rw [afterWord?, String.toList_append, String.toList_append, List.append_assoc, cut]
  simp

end FleetInventory.Text
