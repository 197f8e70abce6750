/-!
Cutting text at a separator character and gluing pieces together again. A text with k separators
has k + 1 pieces, so the empty text has one empty piece, and joining the pieces gives it back.
Trimming goes by white space as Unicode has it (the property White_Space), to which zero-width
spaces do not belong.
-/
namespace FleetInventory.Text

def pieces (sep : Char) : List Char → List (List Char)
  | [] => [[]]
  | c :: rest =>
    if c = sep then [] :: pieces sep rest
    else match pieces sep rest with
      | [] => [[c]]
      | piece :: more => (c :: piece) :: more

def cut (sep : Char) : List Char → Option (List Char × List Char)
  | [] => none
  | c :: rest =>
    if c = sep then some ([], rest)
    else (cut sep rest).map fun (before, after) => (c :: before, after)

def glue (sep : Char) : List (List Char) → List Char
  | [] => []
  | [piece] => piece
  | piece :: more => piece ++ sep :: glue sep more

theorem pieces_ne_nil (sep : Char) (cs : List Char) : pieces sep cs ≠ [] := by
  cases cs with
  | nil => simp [pieces]
  | cons c rest =>
    by_cases h : c = sep
    · simp [pieces, h]
    · simp only [pieces, h, ↓reduceIte]
      split <;> simp

theorem glue_cons_cons (sep c : Char) (piece : List Char) (more : List (List Char)) :
    glue sep ((c :: piece) :: more) = c :: glue sep (piece :: more) := by
  cases more <;> simp [glue]

theorem glue_pieces (sep : Char) (cs : List Char) : glue sep (pieces sep cs) = cs := by
  induction cs with
  | nil => simp [pieces, glue]
  | cons c rest ih =>
    cases hp : pieces sep rest with
    | nil => exact absurd hp (pieces_ne_nil sep rest)
    | cons piece more =>
      rw [hp] at ih
      by_cases h : c = sep
      · simp [pieces, h, hp, glue, ih]
      · simp [pieces, h, hp, glue_cons_cons, ih]

def splitAt (sep : Char) (text : String) : List String :=
  (pieces sep text.toList).map String.ofList

def cutAt (sep : Char) (text : String) : Option (String × String) :=
  (cut sep text.toList).map fun (before, after) => (String.ofList before, String.ofList after)

/-- Whether `stem` begins `text`, and what follows it. -/
def afterStem? (stem : List Char) (text : List Char) : Option (List Char) :=
  match stem, text with
  | [], rest => some rest
  | _ :: _, [] => none
  | s :: stem, c :: text => if s = c then afterStem? stem text else none

def startsWith (stem text : String) : Bool := (afterStem? stem.toList text.toList).isSome

def isBlank (c : Char) : Bool :=
  let n := c.toNat
  (0x09 ≤ n && n ≤ 0x0D) || n = 0x20 || n = 0x85 || n = 0xA0 || n = 0x1680
    || (0x2000 ≤ n && n ≤ 0x200A) || n = 0x2028 || n = 0x2029 || n = 0x202F || n = 0x205F
    || n = 0x3000

def trimStart (cs : List Char) : List Char := cs.dropWhile isBlank

def trimEnd (cs : List Char) : List Char := (cs.reverse.dropWhile isBlank).reverse

def trim (text : String) : String := String.ofList (trimEnd (trimStart text.toList))

def isBlankText (text : String) : Bool := text.toList.all isBlank

end FleetInventory.Text
