import FleetInventory.Text.Numeral

/-!
Points in time, in microseconds since the beginning of 1970 in UTC, and their written form
`2024-01-02T03:04:05.678+00:00`: a fraction is written with three digits or six, or not at all.
-/
namespace FleetInventory

structure Timestamp where
  micros : Int
  deriving DecidableEq

namespace Timestamp

structure Date where
  year : Int
  month : Nat
  day : Nat
  deriving DecidableEq

def isLeap (year : Int) : Bool := year % 4 = 0 && (year % 100 ≠ 0 || year % 400 = 0)

def daysInMonth (year : Int) (month : Nat) : Nat :=
  if month = 2 then (if isLeap year then 29 else 28)
  else if month = 4 || month = 6 || month = 9 || month = 11 then 30
  else 31

/-- Days since the beginning of 1970. Years are counted from March, in cycles of 400 years. -/
def Date.toDays (d : Date) : Int :=
  let year := if d.month ≤ 2 then d.year - 1 else d.year
  let cycle := year / 400
  let yearOfCycle := year % 400
  let month : Int := (d.month + 9) % 12
  let dayOfYear := (153 * month + 2) / 5 + d.day - 1
  let dayOfCycle := yearOfCycle * 365 + yearOfCycle / 4 - yearOfCycle / 100 + dayOfYear
  cycle * 146097 + dayOfCycle - 719468

def Date.ofDays (days : Int) : Date :=
  let shifted := days + 719468
  let cycle := shifted / 146097
  let dayOfCycle := shifted % 146097
  let yearOfCycle :=
    (dayOfCycle - dayOfCycle / 1460 + dayOfCycle / 36524 - dayOfCycle / 146096) / 365
  let dayOfYear := dayOfCycle - (365 * yearOfCycle + yearOfCycle / 4 - yearOfCycle / 100)
  let month := (5 * dayOfYear + 2) / 153
  let day := dayOfYear - (153 * month + 2) / 5 + 1
  let civilMonth := if month < 10 then month + 3 else month - 9
  let year := cycle * 400 + yearOfCycle
  ⟨if civilMonth ≤ 2 then year + 1 else year, civilMonth.toNat, day.toNat⟩

def dayMicros : Int := 86400000000

def padded (width n : Nat) : List Char :=
  let digits := Text.decimal n
  List.replicate (width - digits.length) '0' ++ digits

def yearChars (year : Int) : List Char :=
  if year < 0 then '-' :: padded 4 year.natAbs
  else if 9999 < year then '+' :: padded 4 year.natAbs
  else padded 4 year.natAbs

def fractionChars (micros : Nat) : List Char :=
  if micros = 0 then []
  else if micros % 1000 = 0 then '.' :: padded 3 (micros / 1000)
  else '.' :: padded 6 micros

def renderChars (t : Timestamp) : List Char :=
  let date := Date.ofDays (t.micros / dayMicros)
  let time := (t.micros % dayMicros).toNat
  let seconds := time / 1000000
  yearChars date.year ++ '-' :: padded 2 date.month ++ '-' :: padded 2 date.day
    ++ 'T' :: padded 2 (seconds / 3600) ++ ':' :: padded 2 (seconds / 60 % 60)
    ++ ':' :: padded 2 (seconds % 60) ++ fractionChars (time % 1000000)
    ++ ['+', '0', '0', ':', '0', '0']

def render (t : Timestamp) : String := String.ofList (renderChars t)

/-- The first six digits of a fraction, as microseconds. -/
def fractionMicros (digits : List Char) : Nat :=
  Nat.ofDigitChars 10 ((digits ++ List.replicate 6 '0').take 6) 0

def zone? : List Char → Option Int
  | [c] => if c = 'Z' || c = 'z' then some 0 else none
  | [sign, a, b, ':', c, d] => do
    let hours ← Text.digits? [a, b]
    let minutes ← Text.digits? [c, d]
    if 24 ≤ hours || 60 ≤ minutes then none
    let ahead : Int := hours * 3600 + minutes * 60
    if sign = '+' then some ahead
    else if sign = '-' then some (-ahead)
    else none
  | _ => none

def fractionAndZone? : List Char → Option (Nat × Int)
  | '.' :: rest =>
    let digits := rest.takeWhile Char.isDigit
    if digits.isEmpty then none
    else (zone? (rest.dropWhile Char.isDigit)).map fun ahead => (fractionMicros digits, ahead)
  | rest => (zone? rest).map fun ahead => (0, ahead)

def isDateEnd (c : Char) : Bool := c = 'T' || c = 't' || c = ' '

/-- A leap second is the first second of the next minute. -/
def parseChars? : List Char → Option Timestamp
  | y1 :: y2 :: y3 :: y4 :: '-' :: m1 :: m2 :: '-' :: d1 :: d2 :: mark
      :: h1 :: h2 :: ':' :: n1 :: n2 :: ':' :: s1 :: s2 :: rest => do
    let year ← Text.digits? [y1, y2, y3, y4]
    let month ← Text.digits? [m1, m2]
    let day ← Text.digits? [d1, d2]
    let hour ← Text.digits? [h1, h2]
    let minute ← Text.digits? [n1, n2]
    let second ← Text.digits? [s1, s2]
    let (fraction, ahead) ← fractionAndZone? rest
    let wellFormed := isDateEnd mark && 1 ≤ month && month ≤ 12 && 1 ≤ day
      && day ≤ daysInMonth year month && hour < 24 && minute < 60 && second ≤ 60
    if !wellFormed then none
    let days := Date.toDays ⟨year, month, day⟩
    let seconds : Int := days * 86400 + hour * 3600 + minute * 60 + second - ahead
    return ⟨seconds * 1000000 + fraction⟩
  | _ => none

def parse? (text : String) : Option Timestamp := parseChars? text.toList

end Timestamp
end FleetInventory
