import FleetInventory.Paging.Window
import FleetInventory.Proofs.Query.Agreement
import FleetInventory.Proofs.Text.Base64
import FleetInventory.Proofs.Text.Blank
import FleetInventory.Proofs.Text.Numeral
import FleetInventory.Proofs.Text.Split

/-!
Cursors and windows. A window always has a limit and an offset within their bounds, a cursor is
read back up to these bounds, and so a window that is written as a cursor is asked for again.
-/
namespace FleetInventory

open Paging

/-- The keys that say which window of a list is asked for. -/
def PageRequest.controls : List String := [limitParam, pageParam, cursorParam]

theorem Paging.effectiveLimit_bounds (limit : Int) :
    1 ≤ effectiveLimit limit ∧ effectiveLimit limit ≤ greatestLimit := by
  unfold effectiveLimit defaultLimit greatestLimit
  split <;> omega

theorem Paging.effectiveLimit_of_bounds {limit : Int} (low : 1 ≤ limit)
    (high : limit ≤ greatestLimit) : effectiveLimit limit = limit := by
  unfold effectiveLimit
  rw [if_neg (by omega)]
  omega

theorem Paging.offset_of_bounds {n : Int} (low : 0 ≤ n) (high : n ≤ greatestOffset) :
    max 0 (min n greatestOffset) = n := by
  rw [Int.min_eq_left high, Int.max_eq_right low]

theorem Paging.add?_of_bounds {n limit : Int} (low : 0 ≤ n) (high : n ≤ greatestOffset)
    (pos : 1 ≤ limit) (small : limit ≤ greatestLimit) :
    Word.add? n limit = some (n + limit) := by
  have fits : Word.Fits (n + limit) := by
    unfold greatestOffset Word.greatest greatestLimit at *
    unfold Word.Fits Word.least Word.greatest
    omega
  exact (Word.ofInt_eq_some_iff _ _).mpr ⟨fits, rfl⟩

theorem Paging.room_of_small {total limit : Int} (small : total ≤ greatestOffset)
    (bound : limit ≤ greatestLimit) : total + limit ≤ Word.greatest := by
  unfold greatestOffset at small
  omega

structure Cursor.Valid (c : Cursor) : Prop where
  offset_nonneg : 0 ≤ c.offset
  offset_le : c.offset ≤ greatestOffset
  limit_pos : 1 ≤ c.limit
  limit_le : c.limit ≤ greatestLimit

namespace Cursor

theorem ofText?_text {c : Cursor} (offset : Word.Fits c.offset) (limit : Word.Fits c.limit) :
    ofText? c.text = some ⟨max 0 (min c.offset greatestOffset), effectiveLimit c.limit⟩ := by
  have clean : ':' ∉ Text.signedDecimal c.offset := by
    intro member
    rcases Text.signedDecimal_chars member with same | digit
    · exact absurd same (by decide)
    · exact absurd digit (by decide)
  rw [ofText?, text, String.toList_ofList, Text.cut_append clean]
  simp only [Option.bind_eq_bind, Option.bind_some, Text.word?_signedDecimal offset,
    Text.word?_signedDecimal limit]
  rfl

/-- A token is the Base64 text of two numbers: reading is strict, so no other text is read. -/
theorem decode?_eq_some_iff {token : String} {c : Cursor} :
    decode? token = some c ↔ ∃ text, token = String.ofList (Base64.encode (Text.bytes text))
      ∧ ofText? text = some c := by
  constructor
  · intro read
    simp only [decode?, Option.bind_eq_bind, Option.bind_eq_some_iff] at read
    obtain ⟨bytes, decoded, text, valid, read⟩ := read
    refine ⟨text, ?_, read⟩
    rw [Text.bytes_of_ofBytes valid, Base64.encode_of_decode? decoded, String.ofList_toList]
  · rintro ⟨text, rfl, read⟩
    rw [decode?, String.toList_ofList, Base64.decode?_encode]
    simp only [Option.bind_eq_bind, Option.bind_some, Text.ofBytes_bytes]
    exact read

theorem decode?_encode {c : Cursor} (offset : Word.Fits c.offset) (limit : Word.Fits c.limit) :
    decode? c.encode = some ⟨max 0 (min c.offset greatestOffset), effectiveLimit c.limit⟩ :=
  decode?_eq_some_iff.mpr ⟨c.text, rfl, ofText?_text offset limit⟩

theorem Valid.fits {c : Cursor} (valid : c.Valid) :
    Word.Fits c.offset ∧ Word.Fits c.limit := by
  obtain ⟨low, high, pos, small⟩ := valid
  unfold greatestOffset Word.greatest greatestLimit at *
  unfold Word.Fits Word.least Word.greatest
  omega

theorem ofText?_valid {text : String} {c : Cursor} (read : ofText? text = some c) : c.Valid := by
  unfold ofText? at read
  simp only [Option.bind_eq_bind, Option.bind_eq_some_iff] at read
  obtain ⟨-, -, offset, -, limit, -, made⟩ := read
  obtain ⟨pos, small⟩ := effectiveLimit_bounds limit
  rw [← Option.some.inj made]
  refine ⟨?_, ?_, pos, small⟩
  · exact Int.le_max_left _ _
  · have bound : (0 : Int) ≤ greatestOffset := by decide
    exact Int.max_le.mpr ⟨bound, Int.min_le_right _ _⟩

theorem decode?_valid {token : String} {c : Cursor} (read : Cursor.decode? token = some c) :
    c.Valid := by
  obtain ⟨text, -, read⟩ := decode?_eq_some_iff.mp read
  exact ofText?_valid read

theorem Valid.decode?_encode {c : Cursor} (valid : c.Valid) : Cursor.decode? c.encode = some c := by
  obtain ⟨offset, limit⟩ := valid.fits
  rw [Cursor.decode?_encode offset limit, offset_of_bounds valid.offset_nonneg valid.offset_le,
    effectiveLimit_of_bounds valid.limit_pos valid.limit_le]

theorem encode_ne_empty {c : Cursor} (offset : Word.Fits c.offset) (limit : Word.Fits c.limit) :
    c.encode ≠ "" := by
  intro blank
  have read := decode?_encode offset limit
  have nothing : Cursor.decode? "" = none := by decide +kernel
  rw [blank, nothing] at read
  cases read

end Cursor

theorem PageRequest.number_push {n : Int} (fits : Word.Fits n) (params : Params) (key : String) :
    number (params.push key (Text.showInt n)) key = n := by
  have full : Text.showInt n ≠ "" := by
    intro blank
    have read := Text.word?_signedDecimal fits
    rw [Text.showInt, String.ofList_eq_empty_iff] at blank
    rw [blank] at read
    cases read
  rw [number, Params.filled?_push full, Option.bind_some, Text.trim_showInt, Text.showInt,
    String.toList_ofList, Text.word?_signedDecimal fits, Option.getD_some]

theorem PageRequest.number_push_of_ne {key other : String} (differ : key ≠ other) (params : Params)
    (value : String) : number (params.push key value) other = number params other := by
  rw [number, Params.filled?_push_of_ne differ, number]

theorem PageRequest.cursorOf_valid (raw : String) : (cursorOf raw).Valid := by
  unfold cursorOf
  cases read : Cursor.decode? raw with
  | none =>
    constructor <;> decide
  | some c => exact Cursor.decode?_valid read

theorem PageRequest.min_clampedMul {before limit : Int} (low : 0 ≤ before * limit) :
    min (Word.clampedMul before limit) greatestOffset = min (before * limit) greatestOffset := by
  unfold Word.clampedMul Word.clamp greatestOffset Word.least Word.greatest greatestLimit
  omega

theorem PageRequest.before_nonneg (request : PageRequest) :
    0 ≤ (max request.page 1 - 1) * effectiveLimit request.limit := by
  have pos := (effectiveLimit_bounds request.limit).1
  exact Int.mul_nonneg (by omega) (by omega)

theorem PageRequest.window_of_uncursed {request : PageRequest} (uncursed : request.cursor = none) :
    request.window = ⟨effectiveLimit request.limit,
      min ((max request.page 1 - 1) * effectiveLimit request.limit) greatestOffset, .pages⟩ := by
  rw [window, uncursed]
  simp only [min_clampedMul request.before_nonneg]

theorem PageRequest.mode_eq_pages_iff {request : PageRequest} :
    request.window.mode = .pages ↔ request.cursor = none := by
  unfold window
  cases request.cursor <;> simp

theorem PageRequest.window_valid (request : PageRequest) : request.window.here.Valid := by
  have room : (0 : Int) ≤ greatestOffset := by decide
  cases given : request.cursor with
  | some raw =>
    obtain ⟨low, high, pos, small⟩ := cursorOf_valid raw
    rw [window, given]
    exact ⟨by simp only [Window.here]; omega, by simp only [Window.here]; omega, pos, small⟩
  | none =>
    obtain ⟨pos, small⟩ := effectiveLimit_bounds request.limit
    have before := request.before_nonneg
    rw [window_of_uncursed given]
    exact ⟨by simp only [Window.here]; omega, by simp only [Window.here]; omega, pos, small⟩

theorem PageRequest.window_of_cursor {c : Cursor} (offset : Word.Fits c.offset)
    (limit : Word.Fits c.limit) (params : Params) :
    (read (params.push cursorParam c.encode)).window
      = ⟨effectiveLimit c.limit, max 0 (min c.offset greatestOffset), .cursor⟩ := by
  have given : (read (params.push cursorParam c.encode)).cursor = some c.encode :=
    Params.filled?_push (Cursor.encode_ne_empty offset limit)
  have room : (0 : Int) ≤ greatestOffset := by decide
  have kept : min (max 0 (min c.offset greatestOffset)) greatestOffset
      = max 0 (min c.offset greatestOffset) := by omega
  rw [window, given]
  simp only [cursorOf, Cursor.decode?_encode offset limit, Option.getD_some, kept]

theorem PageRequest.window_of_valid {c : Cursor} (valid : c.Valid) (params : Params) :
    (read (params.push cursorParam c.encode)).window = ⟨c.limit, c.offset, .cursor⟩ := by
  obtain ⟨offset, limit⟩ := valid.fits
  rw [window_of_cursor offset limit, offset_of_bounds valid.offset_nonneg valid.offset_le,
    effectiveLimit_of_bounds valid.limit_pos valid.limit_le]

theorem PageRequest.window_of_pages {request : PageRequest} (uncursed : request.cursor = none)
    (within : (max request.page 1 - 1) * effectiveLimit request.limit ≤ greatestOffset) :
    request.window = ⟨effectiveLimit request.limit,
      (max request.page 1 - 1) * effectiveLimit request.limit, .pages⟩ := by
  rw [window_of_uncursed uncursed, Int.min_eq_left within]

section Page

variable {params : Params} (uncursed : params.filled? PageRequest.cursorParam = none) {limit : Int}
  (pos : 1 ≤ limit) (small : limit ≤ greatestLimit)

include uncursed in
theorem PageRequest.cursor_of_page (limit page : String) :
    (read ((params.push limitParam limit).push pageParam page)).cursor = none := by
  rw [read, Params.filled?_push_of_ne (by decide), Params.filled?_push_of_ne (by decide), uncursed]

include pos small

theorem PageRequest.limit_read (params : Params) (page : String) :
    (read ((params.push limitParam (Text.showInt limit)).push pageParam page)).limit = limit := by
  unfold greatestLimit at small
  refine (number_push_of_ne (by decide) _ _).trans ?_
  exact number_push (by unfold Word.Fits Word.least Word.greatest; omega) _ _

include uncursed

theorem PageRequest.limit_of_page (page : String) :
    (read ((params.push limitParam (Text.showInt limit)).push pageParam page)).window.limit
      = limit := by
  rw [window, cursor_of_page uncursed]
  simp only [limit_read pos small, effectiveLimit_of_bounds pos small]

theorem PageRequest.window_of_page {page : Int} (first : 1 ≤ page)
    (within : (page - 1) * limit ≤ greatestOffset) :
    (read ((params.push limitParam (Text.showInt limit)).push pageParam
      (Text.showInt page))).window = ⟨limit, (page - 1) * limit, .pages⟩ := by
  have low : (page - 1) * 1 ≤ (page - 1) * limit := Int.mul_le_mul_of_nonneg_left pos (by omega)
  have fits : Word.Fits page := by
    unfold greatestOffset Word.greatest greatestLimit at within
    unfold Word.Fits Word.least Word.greatest
    omega
  have pageRead : (read ((params.push limitParam (Text.showInt limit)).push pageParam
      (Text.showInt page))).page = page := number_push fits _ _
  have whole := window_of_pages (cursor_of_page uncursed (Text.showInt limit) (Text.showInt page))
  rw [limit_read pos small, effectiveLimit_of_bounds pos small, pageRead,
    Int.max_eq_left first] at whole
  exact whole within

end Page

theorem Window.next?_eq {w : Window} (valid : w.here.Valid) (total : Int) :
    w.next? total
      = if w.offset + w.limit < total then some ⟨w.offset + w.limit, w.limit⟩ else none := by
  obtain ⟨low, high, pos, small⟩ := valid
  have sum : Word.add? w.offset w.limit = some (w.offset + w.limit) :=
    add?_of_bounds low high pos small
  rw [next?, sum]
  rfl

end FleetInventory
