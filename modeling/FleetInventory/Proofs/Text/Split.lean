import FleetInventory.Text.Split

/-!
Cutting and gluing undo each other where no piece holds the separator, and a text begins with a
stem exactly when something can be put after the stem to make it.
-/
namespace FleetInventory.Text

theorem pieces_of_not_mem {sep : Char} {cs : List Char} (clean : sep ∉ cs) :
    pieces sep cs = [cs] := by
  induction cs with
  | nil => rfl
  | cons c rest ih =>
    simp only [List.mem_cons, not_or] at clean
    have other : c ≠ sep := Ne.symm clean.1
    simp [pieces, other, ih clean.2]

theorem pieces_append {sep : Char} {piece rest : List Char} (clean : sep ∉ piece) :
    pieces sep (piece ++ sep :: rest) = piece :: pieces sep rest := by
  induction piece with
  | nil => simp [pieces]
  | cons c more ih =>
    simp only [List.mem_cons, not_or] at clean
    have other : c ≠ sep := Ne.symm clean.1
    simp [pieces, other, ih clean.2]

theorem pieces_glue {sep : Char} {ps : List (List Char)} (any : ps ≠ [])
    (clean : ∀ p ∈ ps, sep ∉ p) : pieces sep (glue sep ps) = ps := by
  induction ps with
  | nil => contradiction
  | cons piece more ih =>
    have first : sep ∉ piece := clean piece List.mem_cons_self
    cases more with
    | nil => exact pieces_of_not_mem first
    | cons next others =>
      have later := ih (List.cons_ne_nil _ _) fun p member =>
        clean p (List.mem_cons_of_mem _ member)
      change pieces sep (piece ++ sep :: glue sep (next :: others)) = _
      rw [pieces_append first, later]

theorem mem_piece {sep c : Char} {cs piece : List Char} (member : piece ∈ pieces sep cs)
    (inside : c ∈ piece) : c ≠ sep ∧ c ∈ cs := by
  induction cs generalizing piece with
  | nil =>
    simp only [pieces, List.mem_singleton] at member
    subst member
    contradiction
  | cons d rest ih =>
    by_cases same : d = sep
    · simp only [pieces, same, ↓reduceIte, List.mem_cons] at member
      rcases member with rfl | member
      · contradiction
      · obtain ⟨other, within⟩ := ih member inside
        exact ⟨other, List.mem_cons_of_mem _ within⟩
    · cases parts : pieces sep rest with
      | nil => exact absurd parts (pieces_ne_nil sep rest)
      | cons first more =>
        simp only [pieces, same, ↓reduceIte, parts, List.mem_cons] at member
        rcases member with rfl | member
        · rcases List.mem_cons.mp inside with rfl | inside
          · exact ⟨same, List.mem_cons_self⟩
          · obtain ⟨other, within⟩ := ih (parts ▸ List.mem_cons_self) inside
            exact ⟨other, List.mem_cons_of_mem _ within⟩
        · obtain ⟨other, within⟩ := ih (parts ▸ List.mem_cons_of_mem _ member) inside
          exact ⟨other, List.mem_cons_of_mem _ within⟩

theorem cut_append {sep : Char} {before after : List Char} (clean : sep ∉ before) :
    cut sep (before ++ sep :: after) = some (before, after) := by
  induction before with
  | nil => simp [cut]
  | cons c rest ih =>
    simp only [List.mem_cons, not_or] at clean
    have other : c ≠ sep := Ne.symm clean.1
    simp [cut, other, ih clean.2]

theorem eq_of_cut {sep : Char} {cs before after : List Char}
    (found : cut sep cs = some (before, after)) : cs = before ++ sep :: after := by
  induction cs generalizing before with
  | nil => simp [cut] at found
  | cons c rest ih =>
    rw [cut] at found
    split at found
    · next same =>
      cases found
      rw [same, List.nil_append]
    · obtain ⟨⟨first, second⟩, later, pair⟩ := Option.map_eq_some_iff.mp found
      cases pair
      rw [ih later, List.cons_append]

theorem intercalate_eq_glue (sep : Char) (ps : List (List Char)) :
    [sep].intercalate ps = glue sep ps := by
  induction ps with
  | nil => rfl
  | cons piece more ih =>
    cases more with
    | nil => simp [glue]
    | cons next others =>
      rw [List.intercalate_cons_cons, ih, List.append_assoc]
      rfl

theorem afterStem?_eq_some {stem text rest : List Char} :
    afterStem? stem text = some rest ↔ text = stem ++ rest := by
  induction stem generalizing text with
  | nil => simp [afterStem?, eq_comm]
  | cons s more ih =>
    cases text with
    | nil => simp [afterStem?]
    | cons c others =>
      by_cases same : s = c
      · simp [afterStem?, same, ih]
      · simp [afterStem?, same, Ne.symm same]

theorem startsWith_iff {stem text : String} :
    startsWith stem text = true ↔ ∃ rest, text.toList = stem.toList ++ rest := by
  simp only [startsWith, Option.isSome_iff_exists, afterStem?_eq_some]

/-- A literal is its characters, so this compares two literals without decoding them. -/
theorem startsWith_ofList {stem text : List Char} (begins : (afterStem? stem text).isSome = true) :
    startsWith (String.ofList stem) (String.ofList text) = true := by
  simpa only [startsWith, String.toList_ofList] using begins

theorem startsWith_append {stem text : String} (begins : startsWith stem text = true)
    (more : String) : startsWith stem (text ++ more) = true := by
  obtain ⟨rest, chars⟩ := startsWith_iff.mp begins
  exact startsWith_iff.mpr ⟨rest ++ more.toList, by simp [chars]⟩

theorem startsWith_trans {a b c : String} (first : startsWith a b = true)
    (second : startsWith b c = true) : startsWith a c = true := by
  obtain ⟨rest, chars⟩ := startsWith_iff.mp first
  obtain ⟨others, same⟩ := startsWith_iff.mp second
  exact startsWith_iff.mpr ⟨rest ++ others, by rw [same, chars, List.append_assoc]⟩

theorem startsWith_or_of_both {a b text : String} (first : startsWith a text = true)
    (second : startsWith b text = true) : startsWith a b = true ∨ startsWith b a = true := by
  obtain ⟨rest, chars⟩ := startsWith_iff.mp first
  obtain ⟨others, same⟩ := startsWith_iff.mp second
  rcases List.prefix_or_prefix_of_prefix ⟨rest, chars.symm⟩ ⟨others, same.symm⟩ with
    ⟨more, whole⟩ | ⟨more, whole⟩
  · exact .inl (startsWith_iff.mpr ⟨more, whole.symm⟩)
  · exact .inr (startsWith_iff.mpr ⟨more, whole.symm⟩)

end FleetInventory.Text
