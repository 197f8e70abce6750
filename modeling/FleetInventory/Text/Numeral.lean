/-!
Signed 64-bit words as bounded integers, and whole numbers written in ASCII decimal digits.
Arithmetic is over `Int`; what a word can not hold is refused or clamped in the open, by the
operation's name. Of a numeral, a plus sign is allowed in front, a minus sign only where negative
numbers are; blanks are not skipped, and a number out of range is refused.
-/
namespace FleetInventory.Word

def least : Int := -9223372036854775808
def greatest : Int := 9223372036854775807

abbrev Fits (n : Int) : Prop := least ≤ n ∧ n ≤ greatest

def ofInt? (n : Int) : Option Int := if Fits n then some n else none

def add? (a b : Int) : Option Int := ofInt? (a + b)

/-- The bound that was passed stands in for a number beyond it. -/
def clamp (n : Int) : Int := max least (min n greatest)

def clampedMul (a b : Int) : Int := clamp (a * b)

def ofIntHalf? (n : Int) : Option Int :=
  if -2147483648 ≤ n ∧ n ≤ 2147483647 then some n else none

theorem ofInt_eq_some_iff (n m : Int) : ofInt? n = some m ↔ Fits n ∧ n = m := by
  unfold ofInt?
  split
  · next h => simp only [Option.some.injEq]; exact ⟨fun e => ⟨h, e⟩, fun e => e.2⟩
  · next h => simp only [reduceCtorEq, false_iff]; exact fun e => h e.1

end FleetInventory.Word

namespace FleetInventory.Text

def isDigits (cs : List Char) : Bool := !cs.isEmpty && cs.all Char.isDigit

def digits? (cs : List Char) : Option Nat :=
  if isDigits cs then some (Nat.ofDigitChars 10 cs 0) else none

def unsigned? : List Char → Option Nat
  | '+' :: rest => digits? rest
  | cs => digits? cs

def signed? : List Char → Option Int
  | '-' :: rest => (digits? rest).map fun n => -(n : Int)
  | cs => (unsigned? cs).map Int.ofNat

def word? (cs : List Char) : Option Int := (signed? cs).bind Word.ofInt?

def unsignedBelow? (bound : Nat) (cs : List Char) : Option Nat :=
  (unsigned? cs).filter (· < bound)

def decimal (n : Nat) : List Char := Nat.toDigits 10 n

def signedDecimal : Int → List Char
  | .ofNat n => decimal n
  | .negSucc n => '-' :: decimal (n + 1)

def showNat (n : Nat) : String := String.ofList (decimal n)

def showInt (n : Int) : String := String.ofList (signedDecimal n)

end FleetInventory.Text
