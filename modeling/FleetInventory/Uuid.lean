import FleetInventory.Text.Split

/-!
Identifiers of 128 bits. They are written in lower case with hyphens after 8, 12, 16 and 20
digits; they are read in either case, plain or with these hyphens, the latter also in braces or
after `urn:uuid:`.
-/
namespace FleetInventory

structure Uuid where
  bits : BitVec 128
  deriving DecidableEq

namespace Uuid

def hexDigit (n : Nat) : Char := Char.ofNat (if n < 10 then 48 + n else 87 + n)

def hexValue? (c : Char) : Option Nat :=
  let n := c.toNat
  if 48 ≤ n && n ≤ 57 then some (n - 48)
  else if 65 ≤ n && n ≤ 70 then some (n - 55)
  else if 97 ≤ n && n ≤ 102 then some (n - 87)
  else none

/-- The `count` lowest digits of a number, highest first. -/
def digits : Nat → Nat → List Char
  | 0, _ => []
  | count + 1, n => digits count (n / 16) ++ [hexDigit (n % 16)]

def renderChars (id : Uuid) : List Char :=
  let ds := digits 32 id.bits.toNat
  Text.glue '-' [ds.take 8, (ds.drop 8).take 4, (ds.drop 12).take 4, (ds.drop 16).take 4,
    ds.drop 20]

def render (id : Uuid) : String := String.ofList (renderChars id)

def ofDigits? (cs : List Char) : Option Uuid :=
  if cs.length = 32 then
    (cs.mapM hexValue?).map fun values =>
      ⟨BitVec.ofNat 128 (values.foldl (fun n v => n * 16 + v) 0)⟩
  else none

def ofHyphenated? (cs : List Char) : Option Uuid :=
  let groups := Text.pieces '-' cs
  if groups.map List.length = [8, 4, 4, 4, 12] then ofDigits? groups.flatten else none

def ofBraced? : List Char → Option Uuid
  | '{' :: rest => if rest.getLast? = some '}' then ofHyphenated? rest.dropLast else none
  | _ => none

def nameStem : List Char := ['u', 'r', 'n', ':', 'u', 'u', 'i', 'd', ':']

/-- The name form; its stem may be in either case, too. -/
def ofName? (cs : List Char) : Option Uuid :=
  if (cs.take nameStem.length).map Char.toLower = nameStem then
    ofHyphenated? (cs.drop nameStem.length)
  else none

def parseChars? (cs : List Char) : Option Uuid :=
  (ofDigits? cs).or ((ofHyphenated? cs).or ((ofBraced? cs).or (ofName? cs)))

def parse? (text : String) : Option Uuid := parseChars? text.toList

end Uuid
end FleetInventory
