import FleetInventory.Proofs.Text.Numeral
import FleetInventory.Sql.Render

/-!
Texts with holes. A template is a text in which slots stand for values that are written later;
filling in the placeholders gives the text of a statement, and reading such a text gives the
template back. So a text with placeholders says which slots it has, and where.
-/
namespace FleetInventory.Sql

inductive Piece where
  | char (c : Char)
  | slot (n : Nat)
  deriving DecidableEq

abbrev Template := List Piece

def Piece.chars (hole : Nat → String) : Piece → List Char
  | char c => [c]
  | slot n => (hole n).toList

namespace Template

def ofText (text : String) : Template := text.toList.map .char

def fill (hole : Nat → String) (t : Template) : String :=
  String.ofList (t.flatMap (Piece.chars hole))

def slots (t : Template) : List Nat :=
  t.filterMap fun
    | .slot n => some n
    | .char _ => none

def startsNumber (cs : List Char) : Bool := cs.head?.any Char.isDigit

/-- A dollar sign with digits after it is the slot of that number, as many digits as there are. -/
def readChars : List Char → Template
  | [] => []
  | c :: rest =>
    if c = '$' ∧ startsNumber rest then
      .slot (Nat.ofDigitChars 10 (rest.takeWhile Char.isDigit) 0)
        :: readChars (rest.dropWhile Char.isDigit)
    else .char c :: readChars rest
termination_by cs => cs.length
decreasing_by
  · exact Nat.lt_succ_of_le (List.dropWhile_sublist _).length_le
  · exact Nat.lt_succ_self _

def read (text : String) : Template := readChars text.toList

def substitute (hole : Nat → String) (text : String) : String := (read text).fill hole

def slotsOf (text : String) : List Nat := (read text).slots

def startsDigit : Template → Bool
  | .char c :: _ => c.isDigit
  | _ => false

def Spaced : Template → Prop
  | [] => True
  | .char _ :: rest => Spaced rest
  | .slot _ :: rest => startsDigit rest = false ∧ Spaced rest

@[simp] theorem fill_append (hole : Nat → String) (s t : Template) :
    fill hole (s ++ t) = fill hole s ++ fill hole t := by
  simp [fill]

@[simp] theorem fill_nil (hole : Nat → String) : fill hole [] = "" := rfl

@[simp] theorem fill_slot (hole : Nat → String) (n : Nat) : fill hole [.slot n] = hole n := by
  simp [fill, Piece.chars]

theorem flatMap_chars (hole : Nat → String) (cs : List Char) :
    (cs.map Piece.char).flatMap (Piece.chars hole) = cs := by
  induction cs with
  | nil => rfl
  | cons c rest ih => simp [Piece.chars, ih]

@[simp] theorem fill_ofText (hole : Nat → String) (text : String) :
    fill hole (ofText text) = text := by
  simp only [fill, ofText, flatMap_chars, String.ofList_toList]

@[simp] theorem slots_append (s t : Template) : slots (s ++ t) = slots s ++ slots t := by
  simp [slots]

@[simp] theorem slots_nil : slots [] = [] := rfl

@[simp] theorem slots_slot_cons (n : Nat) (t : Template) : slots (.slot n :: t) = n :: slots t :=
  rfl

@[simp] theorem slots_ofText (text : String) : slots (ofText text) = [] := by
  simp only [slots, ofText, List.filterMap_map, List.filterMap_eq_nil_iff, Function.comp_apply,
    implies_true]

theorem decimal_startsNumber (n : Nat) (rest : List Char) :
    startsNumber (Text.decimal n ++ rest) = true := by
  cases h : Text.decimal n with
  | nil => exact absurd h (Text.decimal_ne_nil n)
  | cons c more =>
    have digit : c ∈ Text.decimal n := by simp [h]
    simpa [startsNumber] using Text.decimal_isDigit digit

theorem readChars_text (c : Char) (plain : c ≠ '$') (rest : List Char) :
    readChars (c :: rest) = .char c :: readChars rest := by
  rw [readChars, if_neg (fun both => plain both.1)]

theorem readChars_placeholder (n : Nat) (rest : List Char) (stop : startsNumber rest = false) :
    readChars ('$' :: (Text.decimal n ++ rest)) = .slot n :: readChars rest := by
  have ends : ∀ c, rest.head? = some c → c.isDigit = false := by
    intro c first
    simpa [startsNumber, first] using stop
  obtain ⟨taken, left⟩ := Text.span_decimal n ends
  rw [readChars, if_pos ⟨rfl, decimal_startsNumber n rest⟩, taken, left,
    Text.ofDigitChars_decimal]

theorem placeholder_toList (n : Nat) :
    (placeholder n).toList = '$' :: Text.decimal n := by
  simp [placeholder, Text.showNat_toList]

theorem startsNumber_fill (t : Template) :
    startsNumber (t.flatMap (Piece.chars placeholder)) = startsDigit t := by
  cases t with
  | nil => rfl
  | cons piece rest =>
    cases piece with
    | char c => rfl
    | slot n =>
      simp only [List.flatMap_cons, Piece.chars, placeholder_toList]
      rfl

theorem read_fill (t : Template) (plain : .char '$' ∉ t) (spaced : Spaced t) :
    read (fill placeholder t) = t := by
  simp only [read, fill, String.toList_ofList]
  induction t with
  | nil => simp [readChars]
  | cons piece rest ih =>
    have plainRest : .char '$' ∉ rest := fun member => plain (List.mem_cons_of_mem _ member)
    cases piece with
    | char c =>
      have other : c ≠ '$' := by
        intro same
        exact plain (by simp [same])
      simp only [List.flatMap_cons, Piece.chars, List.cons_append, List.nil_append]
      rw [readChars_text c other, ih plainRest spaced]
    | slot n =>
      simp only [List.flatMap_cons, Piece.chars, placeholder_toList, List.cons_append]
      rw [readChars_placeholder, ih plainRest spaced.2]
      rw [startsNumber_fill]
      exact spaced.1

theorem substitute_fill (hole : Nat → String) (t : Template) (plain : .char '$' ∉ t)
    (spaced : Spaced t) : substitute hole (fill placeholder t) = fill hole t := by
  rw [substitute, read_fill t plain spaced]

theorem slotsOf_fill (t : Template) (plain : .char '$' ∉ t) (spaced : Spaced t) :
    slotsOf (fill placeholder t) = t.slots := by
  rw [slotsOf, read_fill t plain spaced]

theorem spaced_nil : Spaced [] := trivial

theorem spaced_slot (n : Nat) : Spaced [.slot n] := ⟨rfl, trivial⟩

theorem spaced_append {s t : Template} (first : Spaced s) (second : Spaced t)
    (apart : startsDigit t = false) : Spaced (s ++ t) := by
  induction s with
  | nil => exact second
  | cons piece rest ih =>
    cases piece with
    | char c => exact ih first
    | slot n =>
      refine ⟨?_, ih first.2⟩
      cases rest with
      | nil => exact apart
      | cons p more => cases p <;> exact first.1

theorem spaced_ofText_append (text : String) {t : Template} (spaced : Spaced t) :
    Spaced (ofText text ++ t) := by
  simp only [ofText]
  induction text.toList with
  | nil => exact spaced
  | cons c rest ih => exact ih

-- a template is matched by these lemmas only, since read letter by letter its texts are long
attribute [irreducible] Spaced

theorem spaced_ofText (text : String) : Spaced (ofText text) := by
  simpa using spaced_ofText_append text spaced_nil

/-- A text that begins, and not with a digit: it ends a slot before it. -/
def divides (text : String) : Bool := text.toList.head?.any fun c => !c.isDigit

theorem startsDigit_ofText_append (text : String) (t : Template) (mark : divides text = true) :
    startsDigit (ofText text ++ t) = false := by
  cases chars : text.toList with
  | nil => simp [divides, chars] at mark
  | cons c rest => simpa [divides, ofText, chars, startsDigit] using mark

theorem spaced_between {s t : Template} (text : String) (first : Spaced s) (second : Spaced t)
    (mark : divides text = true) :
    Spaced (s ++ (ofText text ++ t)) :=
  spaced_append first (spaced_ofText_append text second) (startsDigit_ofText_append text t mark)

theorem dollar_ofText (text : String) : .char '$' ∈ ofText text ↔ '$' ∈ text.toList := by
  simp [ofText]

end Template
end FleetInventory.Sql
