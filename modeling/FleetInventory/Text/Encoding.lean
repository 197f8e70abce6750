/-!
Text as its UTF-8 bytes, and two ways of writing bytes. Bytes that are not well-formed UTF-8 are no
text. Percent escapes: writing keeps ASCII letters, digits and the marks - . _ ~ and escapes every
other byte in upper case; reading replaces each complete escape by its byte and leaves everything
else, lone and truncated percent signs included, as it stands. Base64 in the URL-safe alphabet,
without padding: reading is strict, a lone last digit, a foreign character, padding, or unused bits
that are not zero are refused, so a byte string has one text.
-/
namespace FleetInventory.Text

def bytes (text : String) : List UInt8 := text.toList.flatMap String.utf8EncodeChar

def ofBytes? (bs : List UInt8) : Option String := String.fromUTF8? bs.toByteArray

theorem toByteArray_bytes (text : String) : (bytes text).toByteArray = text.toByteArray := by
  conv => rhs; rw [← @String.ofList_toList text]
  rfl

theorem ofBytes_bytes (text : String) : ofBytes? (bytes text) = some text := by
  unfold ofBytes? String.fromUTF8?
  rw [toByteArray_bytes, dif_pos text.isValidUTF8]
  rfl

theorem bytes_of_ofBytes {bs : List UInt8} {text : String} (read : ofBytes? bs = some text) :
    bytes text = bs := by
  unfold ofBytes? String.fromUTF8? at read
  split at read
  · apply List.toByteArray_inj.mp
    rw [toByteArray_bytes, ← Option.some.inj read]
    rfl
  · cases read

end FleetInventory.Text

namespace FleetInventory.Percent

def percentSign : UInt8 := 37

def isUnreserved (b : UInt8) : Bool :=
  (48 ≤ b && b ≤ 57) || (65 ≤ b && b ≤ 90) || (97 ≤ b && b ≤ 122)
    || b = 45 || b = 46 || b = 95 || b = 126

def hexDigit (n : Nat) : Char := Char.ofNat (if n < 10 then 48 + n else 55 + n)

def hexValue? (b : UInt8) : Option UInt8 :=
  if 48 ≤ b && b ≤ 57 then some (b - 48)
  else if 65 ≤ b && b ≤ 70 then some (b - 55)
  else if 97 ≤ b && b ≤ 102 then some (b - 87)
  else none

def encodeByte (b : UInt8) : List Char :=
  if isUnreserved b then [Char.ofNat b.toNat]
  else ['%', hexDigit (b.toNat / 16), hexDigit (b.toNat % 16)]

def encode (text : String) : String := String.ofList ((Text.bytes text).flatMap encodeByte)

def escaped? (high low : UInt8) : Option UInt8 :=
  match hexValue? high, hexValue? low with
  | some h, some l => some (h * 16 + l)
  | _, _ => none

def unescape : List UInt8 → List UInt8
  | b :: high :: low :: rest =>
    if b = percentSign then
      match escaped? high low with
      | some byte => byte :: unescape rest
      | none => b :: unescape (high :: low :: rest)
    else b :: unescape (high :: low :: rest)
  | short => short

def decode? (text : String) : Option String := Text.ofBytes? (unescape (Text.bytes text))

end FleetInventory.Percent

namespace FleetInventory.Base64

def digit (n : Nat) : Char :=
  if n < 26 then Char.ofNat (65 + n)
  else if n < 52 then Char.ofNat (71 + n)
  else if n < 62 then Char.ofNat (n - 4)
  else if n = 62 then '-'
  else '_'

def value? (c : Char) : Option Nat :=
  let n := c.toNat
  if 65 ≤ n && n ≤ 90 then some (n - 65)
  else if 97 ≤ n && n ≤ 122 then some (n - 71)
  else if 48 ≤ n && n ≤ 57 then some (n + 4)
  else if c = '-' then some 62
  else if c = '_' then some 63
  else none

def encode : List UInt8 → List Char
  | [] => []
  | [a] => [digit (a.toNat / 4), digit (a.toNat % 4 * 16)]
  | [a, b] =>
    [digit (a.toNat / 4), digit (a.toNat % 4 * 16 + b.toNat / 16), digit (b.toNat % 16 * 4)]
  | a :: b :: c :: rest =>
    digit (a.toNat / 4) :: digit (a.toNat % 4 * 16 + b.toNat / 16)
      :: digit (b.toNat % 16 * 4 + c.toNat / 64) :: digit (c.toNat % 64) :: encode rest

/-- The bytes of a run of six-bit values. -/
def pack? : List Nat → Option (List UInt8)
  | [] => some []
  | [_] => none
  | [p, q] => if q % 16 = 0 then some [UInt8.ofNat (p * 4 + q / 16)] else none
  | [p, q, r] =>
    if r % 4 = 0 then
      some [UInt8.ofNat (p * 4 + q / 16), UInt8.ofNat (q % 16 * 16 + r / 4)]
    else none
  | p :: q :: r :: s :: rest =>
    (pack? rest).map fun more =>
      UInt8.ofNat (p * 4 + q / 16) :: UInt8.ofNat (q % 16 * 16 + r / 4)
        :: UInt8.ofNat (r % 4 * 64 + s) :: more

def decode? (cs : List Char) : Option (List UInt8) := (cs.mapM value?).bind pack?

end FleetInventory.Base64
