import FleetInventory.Text.Encoding

/-!
Percent escapes read back. What is written holds kept characters and escapes alone, so it has none
of the marks that divide a query string, and reading it gives the bytes that were written. A text of
plain characters is written as it stands.
-/
namespace FleetInventory.Percent

theorem of_all_bytes {P : UInt8 → Prop} (all : ∀ n : Fin 256, P (UInt8.ofNat n)) (b : UInt8) :
    P b := by
  have one := all ⟨b.toNat, b.toNat_lt⟩
  rwa [UInt8.ofNat_toNat] at one

def written (b : UInt8) : List UInt8 := (encodeByte b).flatMap String.utf8EncodeChar

def hexByte (n : Nat) : UInt8 := UInt8.ofNat (hexDigit n).toNat

theorem hexDigit_bytes {n : Nat} (small : n < 16) :
    String.utf8EncodeChar (hexDigit n) = [hexByte n] := by
  have all : ∀ n : Fin 16, String.utf8EncodeChar (hexDigit n) = [hexByte n] := by decide
  exact all ⟨n, small⟩

theorem hexValue?_hexByte {n : Nat} (small : n < 16) :
    hexValue? (hexByte n) = some (UInt8.ofNat n) := by
  have all : ∀ n : Fin 16, hexValue? (hexByte n) = some (UInt8.ofNat n) := by decide
  exact all ⟨n, small⟩

theorem escaped?_hexBytes (b : UInt8) :
    escaped? (hexByte (b.toNat / 16)) (hexByte (b.toNat % 16)) = some b := by
  have bound : b.toNat < 256 := b.toNat_lt
  have high : b.toNat / 16 < 16 := by omega
  have low : b.toNat % 16 < 16 := by omega
  simp only [escaped?, hexValue?_hexByte high, hexValue?_hexByte low, Option.some.injEq]
  apply UInt8.toNat_inj.mp
  simp only [UInt8.toNat_add, UInt8.toNat_mul, UInt8.toNat_ofNat', UInt8.reduceToNat]
  omega

theorem unreserved_bytes {b : UInt8} (plain : isUnreserved b = true) :
    String.utf8EncodeChar (Char.ofNat b.toNat) = [b] ∧ b ≠ percentSign := by
  refine of_all_bytes (P := fun b => isUnreserved b = true →
    String.utf8EncodeChar (Char.ofNat b.toNat) = [b] ∧ b ≠ percentSign) ?_ b plain
  decide +kernel

theorem unescape_cons {b : UInt8} (other : b ≠ percentSign) (rest : List UInt8) :
    unescape (b :: rest) = b :: unescape rest := by
  match rest with
  | [] => rfl
  | [_] => rfl
  | high :: low :: more => rw [unescape, if_neg other]

theorem unescape_written (b : UInt8) (rest : List UInt8) :
    unescape (written b ++ rest) = b :: unescape rest := by
  by_cases plain : isUnreserved b = true
  · obtain ⟨same, other⟩ := unreserved_bytes plain
    have kept : written b = [b] := by
      simp only [written, encodeByte, plain, ↓reduceIte, List.flatMap_cons, List.flatMap_nil, same,
        List.append_nil]
    rw [kept]
    exact unescape_cons other rest
  · have bound : b.toNat < 256 := b.toNat_lt
    have escape : written b = [percentSign, hexByte (b.toNat / 16), hexByte (b.toNat % 16)] := by
      simp only [written, encodeByte, plain, Bool.false_eq_true, ↓reduceIte, List.flatMap_cons,
        List.flatMap_nil, hexDigit_bytes (show b.toNat / 16 < 16 by omega),
        hexDigit_bytes (show b.toNat % 16 < 16 by omega)]
      rfl
    rw [escape]
    simp only [List.cons_append, List.nil_append, unescape, ↓reduceIte, escaped?_hexBytes]

theorem bytes_encode (text : String) :
    Text.bytes (encode text) = (Text.bytes text).flatMap written := by
  simp only [encode]
  rw [Text.bytes, String.toList_ofList, List.flatMap_assoc]
  rfl

theorem unescape_flatMap (bs : List UInt8) : unescape (bs.flatMap written) = bs := by
  induction bs with
  | nil => rfl
  | cons b rest ih => rw [List.flatMap_cons, unescape_written, ih]

theorem decode?_encode (text : String) : decode? (encode text) = some text := by
  rw [decode?, bytes_encode, unescape_flatMap, Text.ofBytes_bytes]

/-- The characters of a written text: letters, digits, the marks that are kept, and the sign that
begins an escape. -/
def isKept (c : Char) : Bool :=
  c.isAlphanum || c = '-' || c = '.' || c = '_' || c = '~' || c = '%'

theorem encodeByte_kept (b : UInt8) : (encodeByte b).all isKept = true := by
  refine of_all_bytes (P := fun b => (encodeByte b).all isKept = true) ?_ b
  decide +kernel

theorem encode_kept {text : String} {c : Char} (member : c ∈ (encode text).toList) :
    isKept c = true := by
  rw [encode, String.toList_ofList, List.mem_flatMap] at member
  obtain ⟨b, -, member⟩ := member
  exact List.all_eq_true.mp (encodeByte_kept b) c member

def isPlain (c : Char) : Bool := (String.utf8EncodeChar c).flatMap encodeByte = [c]

theorem encode_of_plain {text : String} (plain : ∀ c ∈ text.toList, isPlain c = true) :
    encode text = text := by
  have chars : (Text.bytes text).flatMap encodeByte = text.toList := by
    rw [Text.bytes, List.flatMap_assoc]
    generalize text.toList = cs at plain
    induction cs with
    | nil => rfl
    | cons c rest ih =>
      obtain ⟨first, later⟩ := List.forall_mem_cons.mp plain
      rw [List.flatMap_cons, of_decide_eq_true first, ih later]
      rfl
  rw [encode, chars, String.ofList_toList]

end FleetInventory.Percent
