import FleetInventory.Number.Shortest

/-!
Numbers of a JSON document. Whole numbers that fit 64 bits, unsigned or signed, are kept exactly;
every other number, and minus zero, is a binary value of double precision.
-/
namespace FleetInventory

inductive Number where
  | natural (n : Nat)
  /-- The number below zero whose size is given. -/
  | negative (n : Nat)
  | binary (x : Binary64)
  deriving DecidableEq

namespace Number

def naturalBound : Nat := Nat.pow 2 64
def negativeBound : Nat := Nat.pow 2 63
def exponentBound : Nat := Nat.pow 2 31

def ofInt : Int → Number
  | .ofNat n => natural n
  | .negSucc n => negative (n + 1)

def toInt? : Number → Option Int
  | natural n => some n
  | negative n => some (-(n : Int))
  | binary _ => none

/-- A whole number and a binary one differ even where they have one value; so do a natural number
and a negative one. The two zeros of a binary value are equal. -/
def same : Number → Number → Bool
  | natural a, natural b => a = b
  | negative a, negative b => a = b
  | binary x, binary y => x.same y
  | _, _ => false

/-- Binary values are written in full from 10 ^ -5 up to below 10 ^ 16. -/
def style : Shortest.Style := ⟨-5, 15, 'e'⟩

def render : Number → List Char
  | natural n => Text.decimal n
  | negative n => '-' :: Text.decimal n
  | binary x => Shortest.render style x

/-- Digits taken while the significand fits 64 bits, and the power of ten they leave. -/
structure Significand where
  value : Nat
  exponent : Int
  full : Bool

def digitOf (c : Char) : Nat := c.toNat - 48

/-- A digit before the point: once one is dropped, the later ones are dropped too. -/
def Significand.pushWhole (s : Significand) (c : Char) : Significand :=
  let value := s.value * 10 + digitOf c
  if s.full || naturalBound ≤ value then ⟨s.value, s.exponent + 1, true⟩
  else ⟨value, s.exponent, false⟩

def Significand.pushFraction (s : Significand) (c : Char) : Significand :=
  let value := s.value * 10 + digitOf c
  if s.full || naturalBound ≤ value then { s with full := true }
  else ⟨value, s.exponent - 1, false⟩

def Significand.ofWhole (digits : List Char) : Significand :=
  digits.foldl Significand.pushWhole ⟨0, 0, false⟩

/-- The point lifts the ban on further digits: one may fit again where a larger did not. -/
def Significand.withFraction (s : Significand) (digits : List Char) : Significand :=
  digits.foldl Significand.pushFraction { s with full := false }

def binary? (minus : Bool) (s : Significand) : Option Number :=
  (Binary64.ofDecimal? minus s.value s.exponent).map binary

/-- A number with an exponent. One beyond 31 bits makes zero of a number, or is out of range. -/
def withExponent? (minus : Bool) (s : Significand) : List Char → Option Number
  | '-' :: digits => scaled (-1) digits
  | '+' :: digits => scaled 1 digits
  | digits => scaled 1 digits
where
  scaled (sign : Int) (digits : List Char) : Option Number := do
    let size ← Text.digits? digits
    if exponentBound ≤ size then
      if s.value = 0 ∨ sign < 0 then some (binary (Binary64.zero minus)) else none
    else binary? minus { s with exponent := s.exponent + sign * size }

def whole? (minus : Bool) (s : Significand) : Option Number :=
  if s.exponent ≠ 0 then binary? minus s
  else if !minus then some (natural s.value)
  else if 0 < s.value && s.value ≤ negativeBound then some (negative s.value)
  else binary? minus s

def isExponentMark (c : Char) : Bool := c = 'e' || c = 'E'

def tail? (minus : Bool) (s : Significand) : List Char → Option Number
  | [] => whole? minus s
  | '.' :: rest =>
    let digits := rest.takeWhile Char.isDigit
    let s := s.withFraction digits
    if digits.isEmpty then none
    else match rest.dropWhile Char.isDigit with
      | [] => binary? minus s
      | c :: rest => if isExponentMark c then withExponent? minus s rest else none
  | c :: rest => if isExponentMark c then withExponent? minus s rest else none

def magnitude? (minus : Bool) (cs : List Char) : Option Number :=
  match cs.takeWhile Char.isDigit with
  | [] => none
  | '0' :: _ :: _ => none
  | digits => tail? minus (Significand.ofWhole digits) (cs.dropWhile Char.isDigit)

def read? : List Char → Option Number
  | '-' :: rest => magnitude? true rest
  | cs => magnitude? false cs

end Number
end FleetInventory
