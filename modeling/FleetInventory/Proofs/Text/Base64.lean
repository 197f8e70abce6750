import FleetInventory.Text.Encoding

/-!
Base64 reads back. A text is the digits of six-bit values, and the values of a byte string pack
into the same bytes again, also where the last group is short. No other text is read as the same
bytes: the last group has no unused bits to vary.
-/
namespace FleetInventory.Base64

def sextets : List UInt8 → List Nat
  | [] => []
  | [a] => [a.toNat / 4, a.toNat % 4 * 16]
  | [a, b] => [a.toNat / 4, a.toNat % 4 * 16 + b.toNat / 16, b.toNat % 16 * 4]
  | a :: b :: c :: rest =>
    a.toNat / 4 :: (a.toNat % 4 * 16 + b.toNat / 16) :: (b.toNat % 16 * 4 + c.toNat / 64)
      :: c.toNat % 64 :: sextets rest

theorem encode_eq_digits (bs : List UInt8) : encode bs = (sextets bs).map digit := by
  induction bs using encode.induct with
  | case1 => rfl
  | case2 a => rfl
  | case3 a b => rfl
  | case4 a b c rest ih => simp only [encode, sextets, List.map_cons, ih]

theorem sextets_lt (bs : List UInt8) : ∀ n ∈ sextets bs, n < 64 := by
  induction bs using sextets.induct with
  | case1 => simp [sextets]
  | case2 a =>
    have boundA := a.toNat_lt
    simp only [sextets, List.mem_cons, List.not_mem_nil, or_false, forall_eq_or_imp, forall_eq]
    omega
  | case3 a b =>
    have boundA := a.toNat_lt
    have boundB := b.toNat_lt
    simp only [sextets, List.mem_cons, List.not_mem_nil, or_false, forall_eq_or_imp, forall_eq]
    omega
  | case4 a b c rest ih =>
    have boundA := a.toNat_lt
    have boundB := b.toNat_lt
    have boundC := c.toNat_lt
    simp only [sextets, List.mem_cons, forall_eq_or_imp]
    refine ⟨by omega, by omega, by omega, by omega, ih⟩

theorem value?_digit {n : Nat} (small : n < 64) : value? (digit n) = some n := by
  have all : ∀ n : Fin 64, value? (digit n) = some n.val := by decide
  exact all ⟨n, small⟩

theorem mapM_value?_digits {ns : List Nat} (small : ∀ n ∈ ns, n < 64) :
    (ns.map digit).mapM value? = some ns := by
  induction ns with
  | nil => rfl
  | cons n rest ih =>
    have first := value?_digit (small n List.mem_cons_self)
    have later := ih fun m member => small m (List.mem_cons_of_mem _ member)
    simp [List.mapM_cons, first, later]

theorem byte_of_parts {n : Nat} {b : UInt8} (same : n = b.toNat) : UInt8.ofNat n = b := by
  rw [same, UInt8.ofNat_toNat]

theorem pack?_sextets (bs : List UInt8) : pack? (sextets bs) = some bs := by
  induction bs using sextets.induct with
  | case1 => rfl
  | case2 a =>
    have whole : UInt8.ofNat (a.toNat / 4 * 4 + a.toNat % 4 * 16 / 16) = a :=
      byte_of_parts (by omega)
    have unused : a.toNat % 4 * 16 % 16 = 0 := by omega
    rw [sextets, pack?, if_pos unused, whole]
  | case3 a b =>
    have boundB := b.toNat_lt
    have first : UInt8.ofNat (a.toNat / 4 * 4 + (a.toNat % 4 * 16 + b.toNat / 16) / 16) = a :=
      byte_of_parts (by omega)
    have second : UInt8.ofNat
        ((a.toNat % 4 * 16 + b.toNat / 16) % 16 * 16 + b.toNat % 16 * 4 / 4) = b :=
      byte_of_parts (by omega)
    have unused : b.toNat % 16 * 4 % 4 = 0 := by omega
    rw [sextets, pack?, if_pos unused, first, second]
  | case4 a b c rest ih =>
    have boundB := b.toNat_lt
    have boundC := c.toNat_lt
    have first : UInt8.ofNat (a.toNat / 4 * 4 + (a.toNat % 4 * 16 + b.toNat / 16) / 16) = a :=
      byte_of_parts (by omega)
    have second : UInt8.ofNat ((a.toNat % 4 * 16 + b.toNat / 16) % 16 * 16
        + (b.toNat % 16 * 4 + c.toNat / 64) / 4) = b :=
      byte_of_parts (by omega)
    have third : UInt8.ofNat ((b.toNat % 16 * 4 + c.toNat / 64) % 4 * 64 + c.toNat % 64) = c :=
      byte_of_parts (by omega)
    rw [sextets, pack?, ih, Option.map_some, first, second, third]

theorem decode?_encode (bs : List UInt8) : decode? (encode bs) = some bs := by
  rw [decode?, encode_eq_digits, mapM_value?_digits (sextets_lt bs), Option.bind_some,
    pack?_sextets]

theorem digit_of_value? {c : Char} {n : Nat} (read : value? c = some n) : n < 64 ∧ digit n = c := by
  unfold value? at read
  simp only [Bool.and_eq_true, decide_eq_true_eq] at read
  have same := Char.ofNat_toNat c
  split at read
  · next upper =>
    cases read
    have whole : 65 + (c.toNat - 65) = c.toNat := by omega
    exact ⟨by omega, by rw [digit, if_pos (by omega), whole, same]⟩
  split at read
  · next lower =>
    cases read
    have whole : 71 + (c.toNat - 71) = c.toNat := by omega
    exact ⟨by omega, by rw [digit, if_neg (by omega), if_pos (by omega), whole, same]⟩
  split at read
  · next figure =>
    cases read
    refine ⟨by omega, ?_⟩
    rw [digit, if_neg (by omega), if_neg (by omega), if_pos (by omega), Nat.add_sub_cancel, same]
  split at read
  · next mark =>
    cases read
    exact ⟨by decide, mark.symm⟩
  split at read
  · next mark =>
    cases read
    exact ⟨by decide, mark.symm⟩
  · cases read

theorem digits_of_mapM {cs : List Char} {ns : List Nat} (read : cs.mapM value? = some ns) :
    (∀ n ∈ ns, n < 64) ∧ ns.map digit = cs := by
  induction cs generalizing ns with
  | nil =>
    cases read
    exact ⟨nofun, rfl⟩
  | cons c rest ih =>
    simp only [List.mapM_cons, Option.bind_eq_bind, Option.bind_eq_some_iff] at read
    obtain ⟨n, first, more, later, made⟩ := read
    cases made
    obtain ⟨small, same⟩ := digit_of_value? first
    obtain ⟨others, chars⟩ := ih later
    exact ⟨List.forall_mem_cons.mpr ⟨small, others⟩, by rw [List.map_cons, same, chars]⟩

/-- Bytes are written with the values they were packed from. In a short last group this rests on
the unused bits being zero. -/
theorem sextets_of_pack? {ns : List Nat} {bs : List UInt8} (small : ∀ n ∈ ns, n < 64)
    (packed : pack? ns = some bs) : sextets bs = ns := by
  induction ns using pack?.induct generalizing bs with
  | case1 =>
    cases packed
    rfl
  | case2 => cases packed
  | case3 p q unused =>
    simp only [List.forall_mem_cons] at small
    rw [pack?, if_pos unused] at packed
    cases packed
    simp only [sextets, UInt8.toNat_ofNat', List.cons.injEq, and_true]
    omega
  | case4 p q used =>
    rw [pack?, if_neg used] at packed
    cases packed
  | case5 p q r unused =>
    simp only [List.forall_mem_cons] at small
    rw [pack?, if_pos unused] at packed
    cases packed
    simp only [sextets, UInt8.toNat_ofNat', List.cons.injEq, and_true]
    omega
  | case6 p q r used =>
    rw [pack?, if_neg used] at packed
    cases packed
  | case7 p q r s rest ih =>
    simp only [List.forall_mem_cons] at small
    obtain ⟨first, second, third, fourth, others⟩ := small
    rw [pack?, Option.map_eq_some_iff] at packed
    obtain ⟨more, later, made⟩ := packed
    cases made
    simp only [sextets, UInt8.toNat_ofNat', ih others later, List.cons.injEq, and_true]
    omega

/-- Reading is strict: a byte string has one text. -/
theorem encode_of_decode? {cs : List Char} {bs : List UInt8} (read : decode? cs = some bs) :
    encode bs = cs := by
  rw [decode?, Option.bind_eq_some_iff] at read
  obtain ⟨ns, values, packed⟩ := read
  obtain ⟨small, digits⟩ := digits_of_mapM values
  rw [encode_eq_digits, sextets_of_pack? small packed, digits]

theorem exists_digit_of_mem_encode {bs : List UInt8} {c : Char} (member : c ∈ encode bs) :
    ∃ n < 64, digit n = c := by
  rw [encode_eq_digits, List.mem_map] at member
  obtain ⟨n, inside, same⟩ := member
  exact ⟨n, sextets_lt bs n inside, same⟩

end FleetInventory.Base64
