import FleetInventory.Number.Binary64
import FleetInventory.Text.Numeral

/-!
The shortest decimal that reads back as a given binary value. On each decimal grid, coarsest
first, the two neighbours of the value are tried; the first grid with a neighbour that rounds to
the value wins, of two such neighbours the nearer, and of two equally near ones the even.
-/
namespace FleetInventory.Shortest

/-- Digits without trailing zeros, and the power of ten of the first one. -/
structure Decimal where
  digits : List Char
  leading : Int
  deriving DecidableEq

def scaled (num den : Nat) (k : Int) : Nat × Nat :=
  match k with
  | .ofNat n => (num * Nat.pow 10 n, den)
  | .negSucc n => (num, den * Nat.pow 10 (n + 1))

def leadingFrom (num den : Nat) : Nat → Int → Int
  | 0, start => start
  | steps + 1, start =>
    let (n, d) := scaled num den (-start)
    if d ≤ n then start else leadingFrom num den steps (start - 1)

/-- The values that round to ±m · 2 ^ e, in quarters of 2 ^ e: from `low` to `high`. -/
def lowQuarters (x : Binary64) : Nat :=
  if x.mantissa = Binary64.hiddenBit ∧ Binary64.leastExponent < x.exponent then
    4 * x.mantissa - 1
  else 4 * x.mantissa - 2

def highQuarters (x : Binary64) : Nat := 4 * x.mantissa + 2

def readsBack (x : Binary64) (n : Nat) (unit : Int) : Bool :=
  let (num, den) := scaled n 1 unit
  let (num, den) := Binary64.scaled (4 * num) den (-x.exponent)
  if x.mantissa % 2 = 0 then
    lowQuarters x * den ≤ num && num ≤ highQuarters x * den
  else lowQuarters x * den < num && num < highQuarters x * den

/-- The neighbour of `num / den` on the grid of `10 ^ unit` that reads back, if one does. -/
def onGrid? (x : Binary64) (num den : Nat) (unit : Int) : Option Nat :=
  let (n, d) := scaled num den (-unit)
  let below := n / d
  let twice := 2 * (n % d)
  match readsBack x below unit, readsBack x (below + 1) unit with
  | true, true =>
    if twice < d || (twice = d && below % 2 = 0) then some below else some (below + 1)
  | true, false => some below
  | false, true => some (below + 1)
  | false, false => none

def withoutTrailingZeros (cs : List Char) : List Char :=
  (cs.reverse.dropWhile (· = '0')).reverse

def ofBinary (x : Binary64) : Decimal :=
  let (num, den) := Binary64.scaled x.mantissa 1 x.exponent
  let leading := leadingFrom num den 640 309
  let found := (List.range 17).findSome? fun (more : Nat) =>
    let unit := leading - (more : Int)
    (onGrid? x num den unit).map fun n => (n, unit)
  match found with
  | some (n, unit) =>
    let digits := Text.decimal n
    ⟨withoutTrailingZeros digits, unit + (digits.length : Int) - 1⟩
  | none => ⟨['0'], 0⟩

structure Style where
  leastLeading : Int
  greatestLeading : Int
  exponentMark : Char

def zeros (n : Nat) : List Char := List.replicate n '0'

def positional (d : Decimal) : List Char :=
  match d.leading with
  | .negSucc n => '0' :: '.' :: (zeros n ++ d.digits)
  | .ofNat n =>
    let whole := d.digits.take (n + 1)
    let fraction := d.digits.drop (n + 1)
    whole ++ zeros (n + 1 - whole.length) ++ '.' :: (if fraction.isEmpty then ['0'] else fraction)

def scientific (mark : Char) (d : Decimal) : List Char :=
  let fraction := d.digits.drop 1
  let sign := match d.leading with
    | .ofNat _ => '+'
    | .negSucc _ => '-'
  d.digits.take 1 ++ (if fraction.isEmpty then [] else '.' :: fraction)
    ++ mark :: sign :: Text.decimal d.leading.natAbs

def render (style : Style) (x : Binary64) : List Char :=
  let sign := if x.negative then ['-'] else []
  if x.isZero then sign ++ ['0', '.', '0']
  else
    let d := ofBinary x
    sign ++
      if style.leastLeading ≤ d.leading ∧ d.leading ≤ style.greatestLeading then positional d
      else scientific style.exponentMark d

end FleetInventory.Shortest
