import FleetInventory.Text.Numeral

/-!
Decimal numerals in a text. A numeral is read back whole when no digit follows it, so texts that
are alike up to the end of a numeral have the same number there. A signed numeral of a word reads
back as that word.
-/
namespace FleetInventory.Text

theorem decimal_isDigit {n : Nat} {c : Char} (member : c ∈ decimal n) : c.isDigit = true :=
  Nat.isDigit_of_mem_toDigits (by decide) (by decide) member

theorem decimal_ne_nil (n : Nat) : decimal n ≠ [] := Nat.toDigits_ne_nil

theorem ofDigitChars_decimal (n : Nat) : Nat.ofDigitChars 10 (decimal n) 0 = n :=
  Nat.ofDigitChars_toDigits (by decide) (by decide)

theorem decimal_injective {n m : Nat} (same : decimal n = decimal m) : n = m := by
  rw [← ofDigitChars_decimal n, same, ofDigitChars_decimal m]

theorem showNat_toList (n : Nat) : (showNat n).toList = decimal n := by
  simp [showNat]

theorem span_decimal (n : Nat) {rest : List Char}
    (stop : ∀ c, rest.head? = some c → c.isDigit = false) :
    (decimal n ++ rest).takeWhile Char.isDigit = decimal n ∧
      (decimal n ++ rest).dropWhile Char.isDigit = rest := by
  have digits : ∀ c ∈ decimal n, c.isDigit = true := fun _ => decimal_isDigit
  rw [List.takeWhile_append_of_pos digits, List.dropWhile_append_of_pos digits]
  cases rest with
  | nil => simp
  | cons c more =>
    have no : c.isDigit = false := stop c rfl
    simp [no]

theorem decimal_append_inj {n m : Nat} {s t : List Char}
    (stopS : ∀ c, s.head? = some c → c.isDigit = false)
    (stopT : ∀ c, t.head? = some c → c.isDigit = false)
    (same : decimal n ++ s = decimal m ++ t) : n = m ∧ s = t := by
  have left := span_decimal n stopS
  have right := span_decimal m stopT
  rw [same] at left
  exact ⟨decimal_injective (left.1.symm.trans right.1), left.2.symm.trans right.2⟩

theorem digits?_decimal (n : Nat) : digits? (decimal n) = some n := by
  have digits : isDigits (decimal n) = true := by
    have all := List.all_eq_true.mpr fun _ => decimal_isDigit (n := n)
    simpa [isDigits, decimal_ne_nil] using all
  rw [digits?, if_pos digits, ofDigitChars_decimal]

theorem not_mem_decimal {c : Char} (sign : c.isDigit = false) (n : Nat) : c ∉ decimal n := by
  intro member
  rw [decimal_isDigit member] at sign
  cases sign

theorem unsigned?_decimal (n : Nat) : unsigned? (decimal n) = some n := by
  have plain := digits?_decimal n
  have plus : '+' ∉ decimal n := not_mem_decimal (by decide) n
  unfold unsigned?
  split
  · next chars => simp [chars] at plus
  · exact plain

theorem signed?_decimal (n : Nat) : signed? (decimal n) = some (n : Int) := by
  have minus : '-' ∉ decimal n := not_mem_decimal (by decide) n
  unfold signed?
  split
  · next chars => simp [chars] at minus
  · rw [unsigned?_decimal]
    rfl

theorem unsignedBelow?_decimal {n bound : Nat} (small : n < bound) :
    unsignedBelow? bound (decimal n) = some n := by
  rw [unsignedBelow?, unsigned?_decimal]
  simp [small]

theorem signed?_signedDecimal (n : Int) : signed? (signedDecimal n) = some n := by
  cases n with
  | ofNat n => exact signed?_decimal n
  | negSucc n =>
    simp only [signedDecimal, signed?, digits?_decimal]
    rfl

theorem word?_signedDecimal {n : Int} (fits : Word.Fits n) : word? (signedDecimal n) = some n := by
  rw [word?, signed?_signedDecimal, Option.bind_some]
  exact (Word.ofInt_eq_some_iff n n).mpr ⟨fits, rfl⟩

theorem signedDecimal_chars {n : Int} {c : Char} (member : c ∈ signedDecimal n) :
    c = '-' ∨ c.isDigit = true := by
  cases n with
  | ofNat n => exact .inr (decimal_isDigit member)
  | negSucc n =>
    rcases List.mem_cons.mp member with rfl | member
    · exact .inl rfl
    · exact .inr (decimal_isDigit member)

end FleetInventory.Text
