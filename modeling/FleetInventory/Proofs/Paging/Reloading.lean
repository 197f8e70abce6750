import FleetInventory.Proofs.Paging.Numbering

/-!
Asking again by the link of an answer to itself. Whatever the request was like, that link says what
it came to: a page with its limit, or a cursor. Both are read as they were written, so the link of
the second answer to itself is the same. Main statement: `self_link_fixed`.
-/
namespace FleetInventory

open Paging

namespace Window

/-- A window by page number begins with its page; one that continues from a cursor stays. -/
def settled (w : Window) : Window :=
  match w.mode with
  | .pages => { w with offset := w.offset - w.offset % w.limit }
  | .cursor => w

theorem settled_of_pages {w : Window} (mode : w.mode = .pages) :
    w.settled = ⟨w.limit, w.offset - w.offset % w.limit, .pages⟩ := by
  obtain ⟨limit, offset, _⟩ := w
  cases mode
  rfl

theorem settled_of_cursor {w : Window} (mode : w.mode = .cursor) : w.settled = w := by
  rw [settled, mode]

theorem settled_mode (w : Window) : w.settled.mode = w.mode := by
  cases mode : w.mode with
  | pages => rw [settled_of_pages mode]
  | cursor => rw [settled_of_cursor mode, mode]

theorem settled_limit (w : Window) : w.settled.limit = w.limit := by
  cases mode : w.mode with
  | pages => rw [settled_of_pages mode]
  | cursor => rw [settled_of_cursor mode]

theorem settled_page {w : Window} (valid : w.here.Valid) : w.settled.page = w.page := by
  cases mode : w.mode with
  | pages =>
    have pos : w.limit ≠ 0 := Int.ne_of_gt valid.limit_pos
    rw [settled_of_pages mode, ← before_eq, page, Int.mul_ediv_cancel _ pos, Int.sub_add_cancel]
  | cursor => rw [settled_of_cursor mode]

theorem settled_of_dvd {w : Window} (dvd : w.limit ∣ w.offset) : w.settled = w := by
  cases mode : w.mode with
  | pages => rw [settled_of_pages mode, Int.emod_eq_zero_of_dvd dvd, Int.sub_zero, ← mode]
  | cursor => exact settled_of_cursor mode

end Window

/-- The second answer says of its page what the first says, and has the same links to itself and to
both ends of the list. -/
structure Envelope.SamePage (envelope again : Envelope) : Prop where
  page : again.page = envelope.page
  pageSize : again.pageSize = envelope.pageSize
  totalPages : again.totalPages = envelope.totalPages
  self : again.links.self = envelope.links.self
  first : again.links.first = envelope.links.first
  last : again.links.last = envelope.links.last

namespace Envelope

theorem window_of_self {url : String} {params : Params} {w : Window} {total pages : Int}
    (clean : '?' ∉ url.toList) (valid : w.here.Valid) :
    Window.ofQuery (Visit.queryOf (linksOf (.ofRequest url params) w total pages).self)
      = w.settled := by
  cases mode : w.mode with
  | pages =>
    have pos : 1 ≤ w.limit := valid.limit_pos
    have high : w.offset ≤ greatestOffset := valid.offset_le
    have rest : 0 ≤ w.offset % w.limit := Int.emod_nonneg _ (Int.ne_of_gt pos)
    have within : (w.page - 1) * w.limit ≤ greatestOffset := by
      rw [w.before_eq]
      omega
    simp only [linksOf, mode]
    rw [LinkBase.window_pageLink clean params (Window.page_pos valid) pos valid.limit_le within,
      w.before_eq, Window.settled_of_pages mode]
  | cursor =>
    simp only [linksOf, mode]
    rw [LinkBase.window_cursorLink clean params valid, Window.settled_of_cursor mode, ← mode]
    rfl

/-- Both windows have one page and one limit, and what an answer says of itself and of the ends of
the list depends on these alone, unless the windows are the same. -/
theorem samePage_of_settled {base : LinkBase} {w : Window} {total pages count others : Int}
    (valid : w.here.Valid) :
    SamePage ⟨w.limit, w.page, count, pages, total, linksOf base w total pages⟩
      ⟨w.settled.limit, w.settled.page, others, pages, total,
        linksOf base w.settled total pages⟩ := by
  cases mode : w.mode with
  | pages =>
    have again : w.settled.mode = .pages := w.settled_mode.trans mode
    constructor <;> simp only [linksOf, mode, again, w.settled_limit, Window.settled_page valid]
  | cursor =>
    rw [Window.settled_of_cursor mode]
    constructor <;> rfl

end Envelope

section Again

variable {url query : String} {total count : Int} {envelope : Envelope} (clean : '?' ∉ url.toList)
  (small : total ≤ greatestOffset)
  (answered : Envelope.ofQuery url query total count = .ok envelope)

include clean small answered

theorem Envelope.without_of_self :
    (Params.parse (Visit.queryOf envelope.links.self)).without PageRequest.controls
      = (Params.parse query).without PageRequest.controls := by
  have there : envelope.links.get? .self = some envelope.links.self := rfl
  exact Leads.without clean (.link small answered there)

theorem Envelope.orderBy_of_self :
    (PageRequest.ofQuery (Visit.queryOf envelope.links.self)).orderBy
      = (PageRequest.ofQuery query).orderBy :=
  PageRequest.orderBy_congr (Params.agree_of_without (without_of_self clean small answered))

omit small in
theorem Window.ofQuery_self :
    Window.ofQuery (Visit.queryOf envelope.links.self) = (Window.ofQuery query).settled := by
  obtain ⟨pages, -, rfl⟩ := Envelope.ofQuery_eq_ok.mp answered
  exact Envelope.window_of_self clean (Window.ofQuery_valid query)

theorem Envelope.again_of_self (others : Int) :
    ∃ second, ofQuery url (Visit.queryOf envelope.links.self) total others = .ok second
      ∧ envelope.SamePage second := by
  have window := Window.ofQuery_self clean answered
  have base : LinkBase.ofRequest url (Params.parse (Visit.queryOf envelope.links.self))
      = LinkBase.ofRequest url (Params.parse query) :=
    congrArg (LinkBase.mk url) (without_of_self clean small answered)
  obtain ⟨pages, counted, whole⟩ := ofQuery_eq_ok.mp answered
  rw [← (Window.ofQuery query).settled_limit, ← window] at counted
  refine ⟨_, ofQuery_eq_ok.mpr ⟨pages, counted, rfl⟩, ?_⟩
  rw [base, window, whole]
  exact samePage_of_settled (Window.ofQuery_valid query)

end Again

theorem Window.settled_of_uncapped {query : String} (mode : (ofQuery query).mode = .pages)
    (within : (max (PageRequest.ofQuery query).page 1 - 1)
      * effectiveLimit (PageRequest.ofQuery query).limit ≤ greatestOffset) :
    (ofQuery query).settled = ofQuery query := by
  apply settled_of_dvd
  rw [ofQuery, PageRequest.window_of_pages (PageRequest.mode_eq_pages_iff.mp mode) within]
  exact Int.dvd_mul_left _ _

/-- The answer to any request has a link to itself. The request of that link keeps the order, the
mode and the limit; by page number it begins with the page, which it did before unless the first row
lay beyond the bounds, and by cursor it is for the same window. Its answer says the same of the page
and has the same link to itself, so that following it again changes nothing. -/
theorem self_link_fixed (url query : String) (clean : '?' ∉ url.toList) (total count : Int)
    (small : total ≤ greatestOffset) :
    ∃ envelope, Envelope.ofQuery url query total count = .ok envelope ∧
      let w := Window.ofQuery query
      let request := PageRequest.ofQuery query
      let again := Visit.queryOf envelope.links.self
      (PageRequest.ofQuery again).orderBy = request.orderBy
        ∧ (Window.ofQuery again).mode = w.mode ∧ (Window.ofQuery again).limit = w.limit
        ∧ (w.mode = .cursor → Window.ofQuery again = w)
        ∧ (w.mode = .pages → (Window.ofQuery again).offset = w.offset - w.offset % w.limit
          ∧ ((max request.page 1 - 1) * effectiveLimit request.limit ≤ greatestOffset →
            Window.ofQuery again = w))
        ∧ ∀ others, ∃ second, Envelope.ofQuery url again total others = .ok second
          ∧ envelope.SamePage second := by
  obtain ⟨envelope, answered⟩ := Envelope.ofQuery_answers url query small count
  refine ⟨envelope, answered, ?_⟩
  intro w request again
  have landed : Window.ofQuery again = w.settled := Window.ofQuery_self clean answered
  refine ⟨Envelope.orderBy_of_self clean small answered, landed ▸ w.settled_mode,
    landed ▸ w.settled_limit, ?_, ?_, Envelope.again_of_self clean small answered⟩
  · intro mode
    rw [landed, Window.settled_of_cursor mode]
  · intro mode
    refine ⟨by rw [landed, Window.settled_of_pages mode], ?_⟩
    intro within
    exact landed.trans (Window.settled_of_uncapped mode within)

/-- The greatest page, which is cut at the greatest offset and so does not begin there. -/
theorem self_link_fixed_of_capped_page :
    let url := "http://h/servers"
    let query := "limit=7&cursor=&page=9223372036854775807"
    '?' ∉ url.toList ∧ (5 : Int) ≤ greatestOffset
      ∧ Window.ofQuery query = ⟨7, greatestOffset, .pages⟩
      ∧ ∃ envelope, Envelope.ofQuery url query 5 0 = .ok envelope
        ∧ (Window.ofQuery (Visit.queryOf envelope.links.self)).offset = 9223372036854774806
        ∧ ∃ second, Envelope.ofQuery url (Visit.queryOf envelope.links.self) 5 3 = .ok second
          ∧ envelope.SamePage second := by
  intro url query
  have clean : '?' ∉ url.toList := by decide
  have small : (5 : Int) ≤ greatestOffset := by decide
  have window : Window.ofQuery query = ⟨7, greatestOffset, .pages⟩ := by decide +kernel
  obtain ⟨envelope, answered, -, -, -, -, paged, again⟩ :=
    self_link_fixed url query clean 5 0 small
  have mode : (Window.ofQuery query).mode = .pages := by rw [window]
  obtain ⟨offset, -⟩ := paged mode
  rw [window] at offset
  exact ⟨clean, small, window, envelope, answered, offset.trans (by decide), again 3⟩

end FleetInventory
