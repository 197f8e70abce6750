import FleetInventory.Document.Number

/-!
The tokens of JSON text: marks, words, numbers and strings, with blanks between them skipped.
-/
namespace FleetInventory.Document

inductive Token where
  | openArray
  | closeArray
  | openObject
  | closeObject
  | comma
  | colon
  | null
  | bool (b : Bool)
  | number (n : Number)
  | text (s : String)

namespace Token

/-- A string's characters as written, up to its closing quote, and what follows the quote. -/
def inside? : List Char → Option (List Char × List Char)
  | [] => none
  | '"' :: rest => some ([], rest)
  | '\\' :: c :: rest => (inside? rest).map fun (cs, after) => ('\\' :: c :: cs, after)
  | c :: rest => (inside? rest).map fun (cs, after) => (c :: cs, after)

theorem inside_length {cs inner after : List Char} (h : inside? cs = some (inner, after)) :
    after.length < cs.length := by
  fun_induction inside? cs generalizing inner after with
  | case1 => simp at h
  | case2 rest => simp_all
  | case3 c rest ih =>
    obtain ⟨⟨cs, rest'⟩, hr, e⟩ := Option.map_eq_some_iff.1 h
    cases e
    have := ih hr
    simp only [List.length_cons]
    omega
  | case4 c rest _ _ ih =>
    obtain ⟨⟨cs, rest'⟩, hr, e⟩ := Option.map_eq_some_iff.1 h
    cases e
    have := ih hr
    simp only [List.length_cons]
    omega

def hexValue? (c : Char) : Option Nat :=
  let n := c.toNat
  if 48 ≤ n && n ≤ 57 then some (n - 48)
  else if 65 ≤ n && n ≤ 70 then some (n - 55)
  else if 97 ≤ n && n ≤ 102 then some (n - 87)
  else none

def unit? (a b c d : Char) : Option Nat := do
  let a ← hexValue? a
  let b ← hexValue? b
  let c ← hexValue? c
  let d ← hexValue? d
  return ((a * 16 + b) * 16 + c) * 16 + d

def isHighUnit (u : Nat) : Bool := 0xD800 ≤ u && u < 0xDC00
def isLowUnit (u : Nat) : Bool := 0xDC00 ≤ u && u < 0xE000

def ofUnits (high low : Nat) : Char :=
  Char.ofNat (0x10000 + (high - 0xD800) * 0x400 + (low - 0xDC00))

def ofEscape? : Char → Option Char
  | '"' => some '"'
  | '\\' => some '\\'
  | '/' => some '/'
  | 'b' => some '\x08'
  | 'f' => some '\x0c'
  | 'n' => some '\n'
  | 'r' => some '\r'
  | 't' => some '\t'
  | _ => none

/-- The characters that a string's inside stands for. Control characters must be escaped, and a
code unit of a pair must come with its partner. -/
def unescape? : List Char → Option (List Char)
  | [] => some []
  | '\\' :: 'u' :: a :: b :: c :: d :: rest =>
    match unit? a b c d with
    | none => none
    | some u =>
      if isHighUnit u then
        match rest with
        | '\\' :: 'u' :: e :: f :: g :: h :: rest =>
          match unit? e f g h with
          | none => none
          | some v => if isLowUnit v then (unescape? rest).map (ofUnits u v :: ·) else none
        | _ => none
      else if isLowUnit u then none
      else (unescape? rest).map (Char.ofNat u :: ·)
  | '\\' :: e :: rest =>
    match ofEscape? e with
    | some c => (unescape? rest).map (c :: ·)
    | none => none
  | c :: rest => if c = '\\' || c.toNat < 32 then none else (unescape? rest).map (c :: ·)

def isSpace (c : Char) : Bool := c = ' ' || c = '\n' || c = '\t' || c = '\r'

def isNumeric (c : Char) : Bool :=
  c.isDigit || c = '-' || c = '+' || c = '.' || c = 'e' || c = 'E'

theorem length_dropWhile_le (p : Char → Bool) (cs : List Char) :
    (cs.dropWhile p).length ≤ cs.length := (List.dropWhile_suffix p).length_le

def scan? (cs : List Char) : Option (List Token) :=
  match cs with
  | [] => some []
  | '[' :: rest => (scan? rest).map (openArray :: ·)
  | ']' :: rest => (scan? rest).map (closeArray :: ·)
  | '{' :: rest => (scan? rest).map (openObject :: ·)
  | '}' :: rest => (scan? rest).map (closeObject :: ·)
  | ',' :: rest => (scan? rest).map (comma :: ·)
  | ':' :: rest => (scan? rest).map (colon :: ·)
  | 'n' :: 'u' :: 'l' :: 'l' :: rest => (scan? rest).map (null :: ·)
  | 't' :: 'r' :: 'u' :: 'e' :: rest => (scan? rest).map (bool true :: ·)
  | 'f' :: 'a' :: 'l' :: 's' :: 'e' :: rest => (scan? rest).map (bool false :: ·)
  | '"' :: rest =>
    match _h : inside? rest with
    | none => none
    | some (inner, after) =>
      match unescape? inner with
      | none => none
      | some s => (scan? after).map (text (String.ofList s) :: ·)
  | c :: rest =>
    if isSpace c then scan? rest
    else
      match Number.read? (c :: rest.takeWhile isNumeric) with
      | none => none
      | some n => (scan? (rest.dropWhile isNumeric)).map (number n :: ·)
termination_by cs.length
decreasing_by
  all_goals simp only [List.length_cons]
  all_goals first
    | omega
    | exact Nat.lt_succ_of_lt (inside_length ‹_›)
    | exact Nat.lt_succ_of_le (length_dropWhile_le isNumeric _)

end Token
end FleetInventory.Document
