import FleetInventory.Proofs.Paging.Numbering

/-!
The arithmetic of windows on words. Sums, differences and quotients are taken here as words take
them: there is none where the result leaves their range or the divisor is zero. Main statement:
`windows_in_words`, for the window of any query and any total every operation has a result, and it
is the one that integers without bounds have.
-/
namespace FleetInventory

open Paging

namespace Word

def sub? (a b : Int) : Option Int := ofInt? (a - b)

def div? (a b : Int) : Option Int := if b = 0 then none else ofInt? (a.tdiv b)

theorem ofInt?_of_fits {n : Int} (fits : Fits n) : ofInt? n = some n :=
  (ofInt_eq_some_iff n n).mpr ⟨fits, rfl⟩

theorem div?_of_nonneg {a b : Int} (fits : Fits a) (low : 0 ≤ a) (pos : 0 < b) :
    div? a b = some (a / b) := by
  have nonneg : 0 ≤ a / b := Int.ediv_nonneg low (Int.le_of_lt pos)
  have below : a / b ≤ a := Int.ediv_le_self b low
  have quotient : Fits (a / b) := by
    unfold Fits least at *
    omega
  rw [div?, if_neg (Int.ne_of_gt pos), Int.tdiv_eq_ediv_of_nonneg low, ofInt?_of_fits quotient]

end Word

namespace PageRequest

/-- The window of a request. The number of pages before is a difference of words; its product with
the limit is held at the bound it passes. -/
def wordWindow? (request : PageRequest) : Option Window :=
  match request.cursor with
  | some raw => some ⟨(cursorOf raw).limit, min (cursorOf raw).offset greatestOffset, .cursor⟩
  | none => do
    let limit := effectiveLimit request.limit
    let before ← Word.sub? (max request.page 1) 1
    return ⟨limit, min (Word.clampedMul before limit) greatestOffset, .pages⟩

theorem number_fits (params : Params) (key : String) : Word.Fits (number params key) := by
  unfold number
  cases read : (params.filled? key).bind fun raw => Text.word? (Text.trim raw).toList with
  | none => decide
  | some n =>
    obtain ⟨raw, -, read⟩ := Option.bind_eq_some_iff.mp read
    obtain ⟨m, -, made⟩ := Option.bind_eq_some_iff.mp read
    obtain ⟨fits, rfl⟩ := (Word.ofInt_eq_some_iff _ _).mp made
    exact fits

theorem wordWindow?_eq {request : PageRequest} (page : Word.Fits request.page) :
    request.wordWindow? = some request.window := by
  unfold wordWindow? window
  cases request.cursor with
  | some raw => rfl
  | none =>
    have fits : Word.Fits (max request.page 1 - 1) := by
      unfold Word.Fits Word.least Word.greatest at *
      omega
    rw [Word.sub?, Word.ofInt?_of_fits fits]
    rfl

end PageRequest

namespace Window

def wordPage? (w : Window) : Option Int := do
  let before ← Word.div? w.offset w.limit
  Word.add? before 1

/-- The cursor after the window, if there is one. The outer option is about the sum alone. -/
def wordNext? (w : Window) (total : Int) : Option (Option Cursor) := do
  let offset ← Word.add? w.offset w.limit
  return if offset < total then some ⟨offset, w.limit⟩ else none

def wordPrevious? (w : Window) : Option (Option Cursor) :=
  if 0 < w.offset then do
    let offset ← Word.sub? w.offset w.limit
    return some ⟨max offset 0, w.limit⟩
  else return none

structure InWords (w : Window) : Prop where
  page : w.wordPage? = some w.page
  next : ∀ total, w.wordNext? total = some (w.next? total)
  previous : w.wordPrevious? = some w.previous?

variable {w : Window}

theorem wordPage?_eq (valid : w.here.Valid) : w.wordPage? = some w.page := by
  obtain ⟨fits, -⟩ := valid.fits
  obtain ⟨low, high, pos, -⟩ := valid
  have quotient : Word.div? w.offset w.limit = some (w.offset / w.limit) :=
    Word.div?_of_nonneg fits low pos
  have nonneg : 0 ≤ w.offset / w.limit := Int.ediv_nonneg low (Int.le_of_lt pos)
  have below : w.offset / w.limit ≤ w.offset := Int.ediv_le_self _ low
  have sum : Word.add? (w.offset / w.limit) 1 = some (w.offset / w.limit + 1) :=
    add?_of_bounds nonneg (Int.le_trans below high) (by decide) (by decide)
  rw [wordPage?, quotient]
  exact sum

theorem wordNext?_eq (valid : w.here.Valid) (total : Int) :
    w.wordNext? total = some (w.next? total) := by
  have sum : Word.add? w.offset w.limit = some (w.offset + w.limit) :=
    add?_of_bounds valid.offset_nonneg valid.offset_le valid.limit_pos valid.limit_le
  rw [wordNext?, next?, sum]
  rfl

theorem wordPrevious?_eq (valid : w.here.Valid) : w.wordPrevious? = some w.previous? := by
  obtain ⟨low, high, pos, small⟩ := valid
  unfold wordPrevious? previous?
  split
  · have fits : Word.Fits (w.offset - w.limit) := by
      simp only [here] at low high pos small
      unfold greatestOffset greatestLimit Word.greatest at *
      unfold Word.Fits Word.least Word.greatest
      omega
    rw [Word.sub?, Word.ofInt?_of_fits fits]
    rfl
  · rfl

theorem inWords (valid : w.here.Valid) : w.InWords :=
  ⟨wordPage?_eq valid, wordNext?_eq valid, wordPrevious?_eq valid⟩

theorem next?_eq_none_iff (valid : w.here.Valid) (total : Int) :
    w.next? total = none ↔ total ≤ w.offset + w.limit := by
  rw [next?_eq valid]
  split <;> simp <;> omega

end Window

/-- The window of any query lies within the bounds. Where no cursor is given, the rows of the pages
before are counted as by integers without bounds and cut at the greatest offset. Limit and page are
words, and so is all that is computed from them, so that a next window is missing only where no rows
are left. -/
theorem windows_in_words (query : String) :
    let request := PageRequest.ofQuery query
    let w := Window.ofQuery query
    (1 ≤ w.limit ∧ w.limit ≤ greatestLimit) ∧ (0 ≤ w.offset ∧ w.offset ≤ greatestOffset)
      ∧ ((∀ value ∈ (Params.parse query).values PageRequest.cursorParam, value = "") →
        w.limit = effectiveLimit request.limit
          ∧ w.offset = min ((max request.page 1 - 1) * w.limit) greatestOffset)
      ∧ (Word.Fits request.limit ∧ Word.Fits request.page)
      ∧ request.wordWindow? = some w ∧ w.InWords
      ∧ (∀ total, w.next? total = none ↔ total ≤ w.offset + w.limit) ∧ 1 ≤ w.page := by
  intro request w
  have valid := Window.ofQuery_valid query
  have limit : Word.Fits request.limit := PageRequest.number_fits _ _
  have page : Word.Fits request.page := PageRequest.number_fits _ _
  refine ⟨⟨valid.limit_pos, valid.limit_le⟩, ⟨valid.offset_nonneg, valid.offset_le⟩, ?_,
    ⟨limit, page⟩, PageRequest.wordWindow?_eq page, Window.inWords valid,
    Window.next?_eq_none_iff valid, Window.page_pos valid⟩
  intro blank
  have uncursed : request.cursor = none := Params.filled?_eq_none_iff.mpr blank
  have whole : w = _ := PageRequest.window_of_uncursed uncursed
  rw [whole]
  exact ⟨rfl, rfl⟩

/-- The greatest page of the greatest limit, beside a cursor that says nothing. -/
theorem windows_in_words_of_greatest_page :
    let query := "cursor=&limit=1000&page=9223372036854775807"
    (∀ value ∈ (Params.parse query).values PageRequest.cursorParam, value = "")
      ∧ (Window.ofQuery query).offset
        = min ((9223372036854775807 - 1) * 1000) greatestOffset
      ∧ (Window.ofQuery query).offset = 9223372036854774807
      ∧ (Window.ofQuery query).next? Word.greatest = none := by
  intro query
  have blank : ∀ value ∈ (Params.parse query).values PageRequest.cursorParam, value = "" := by
    decide +kernel
  have limit : effectiveLimit (PageRequest.ofQuery query).limit = 1000 := by decide +kernel
  have page : max (PageRequest.ofQuery query).page 1 = 9223372036854775807 := by decide +kernel
  obtain ⟨-, -, uncursed, -, -, -, next, -⟩ := windows_in_words query
  obtain ⟨same, offset⟩ := uncursed blank
  rw [limit] at same
  rw [same, page] at offset
  have greatest : (Window.ofQuery query).offset = 9223372036854774807 := offset.trans (by decide)
  refine ⟨blank, offset, greatest, (next _).mpr ?_⟩
  rw [same, greatest]
  decide

end FleetInventory
