/-!
Binary floating point of double precision, in exact whole-number arithmetic. A value is
± mantissa · 2 ^ exponent; rounding goes to the nearest value and a tie to the even mantissa.
There are no infinities: a result too large to round is none.
-/
namespace FleetInventory

structure Binary64 where
  negative : Bool
  mantissa : Nat
  exponent : Int
  deriving DecidableEq

namespace Binary64

def leastExponent : Int := -1074
def greatestExponent : Int := 971
def hiddenBit : Nat := Nat.pow 2 52

def zero (negative : Bool) : Binary64 := ⟨negative, 0, leastExponent⟩

def isZero (x : Binary64) : Bool := x.mantissa = 0

/-- Equality of values: the two zeros are one value. -/
def same (x y : Binary64) : Bool := x = y || (x.isZero && y.isZero)

/-- `num / den · 2 ^ k`, as numerator and denominator. -/
def scaled (num den : Nat) (k : Int) : Nat × Nat :=
  match k with
  | .ofNat n => (num * Nat.pow 2 n, den)
  | .negSucc n => (num, den * Nat.pow 2 (n + 1))

/-- The quotient to the nearest whole number, a tie to the even one. -/
def nearest (num den : Nat) : Nat :=
  let low := num / den
  let twice := 2 * (num % den)
  if twice < den || (twice = den && low % 2 = 0) then low else low + 1

/-- The power of two just below or at a positive quotient. -/
def magnitude (num den : Nat) : Int :=
  let guess : Int := (num.log2 : Int) - (den.log2 : Int)
  let (n, d) := scaled num den (-guess)
  if n < d then guess - 1 else guess

def ofRatio? (negative : Bool) (num den : Nat) : Option Binary64 :=
  if num = 0 then some (zero negative)
  else
    let exponent := max (magnitude num den - 52) leastExponent
    let (n, d) := scaled num den (-exponent)
    let mantissa := nearest n d
    let (mantissa, exponent) :=
      if mantissa = 2 * hiddenBit then (hiddenBit, exponent + 1) else (mantissa, exponent)
    if greatestExponent < exponent then none else some ⟨negative, mantissa, exponent⟩

def ofNat? (n : Nat) : Option Binary64 := ofRatio? false n 1

def mul? (x y : Binary64) : Option Binary64 :=
  let (n, d) := scaled (x.mantissa * y.mantissa) 1 (x.exponent + y.exponent)
  ofRatio? (x.negative != y.negative) n d

def div? (x y : Binary64) : Option Binary64 :=
  let (n, d) := scaled x.mantissa y.mantissa (x.exponent - y.exponent)
  ofRatio? (x.negative != y.negative) n d

def powerOfTen (n : Nat) : Binary64 := (ofNat? (Nat.pow 10 n)).getD (zero false)

/-- Division by 10 ^ 308 as long as the exponent is below -308. -/
def lowered : Nat → Binary64 → Int → Binary64 × Int
  | 0, x, exponent => (x, exponent)
  | steps + 1, x, exponent =>
    if exponent < -308 && !x.isZero then
      lowered steps ((x.div? (powerOfTen 308)).getD (zero false)) (exponent + 308)
    else (x, exponent)

/-- `significand · 10 ^ exponent`, by one rounding of the significand and one of each product
or quotient with a power of ten. Two quotients bring every significand of 64 bits to zero. -/
def ofDecimal? (negative : Bool) (significand : Nat) (exponent : Int) : Option Binary64 := do
  let x ← ofNat? significand
  if x.isZero then return zero negative
  if 308 < exponent then none
  let (x, exponent) := lowered 2 x exponent
  let x ←
    if x.isZero then some x
    else if exponent < 0 then x.div? (powerOfTen exponent.natAbs)
    else x.mul? (powerOfTen exponent.natAbs)
  return { x with negative := negative }

end Binary64
end FleetInventory
