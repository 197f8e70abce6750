import FleetInventory.Paging.Walk
import FleetInventory.Proofs.Paging.Window
import FleetInventory.Proofs.Query.Agreement
import FleetInventory.Proofs.Query.Reading
import FleetInventory.Proofs.Query.RoundTrip

/-!
Where the links of an answer lead. The query of a link is read as the parameters that were put into
it: those of the request that are not for paging, then those that say where the link leads. An
answer has its links whenever its total leaves room for a limit in a word.
-/
namespace FleetInventory

theorem Visit.queryOf_href {url : String} (clean : '?' ∉ url.toList) (query : String) :
    queryOf (url ++ "?" ++ query) = query := by
  have chars : (url ++ "?" ++ query).toList = url.toList ++ '?' :: query.toList := by simp
  rw [queryOf, Text.cutAt, chars, Text.cut_append clean]
  exact String.ofList_toList

namespace LinkBase

theorem parse_href (base : LinkBase) (clean : '?' ∉ base.url.toList) (params : Params) :
    Params.parse (Visit.queryOf (base.href params)) = params := by
  rw [href, Visit.queryOf_href clean, Params.parse_render]

theorem cursor_of_filters (url : String) (params : Params) :
    (ofRequest url params).filters.filled? PageRequest.cursorParam = none :=
  Params.filled?_without_of_mem (by decide)

/-- The address holds the parameters that all links share and else parameters for paging alone. -/
def Repeats (base : LinkBase) (address : String) : Prop :=
  ∃ params, address = base.href params
    ∧ params.without PageRequest.controls = base.filters.without PageRequest.controls

theorem pageLink_repeats (base : LinkBase) (page limit : Int) :
    base.Repeats (base.pageLink page limit) := by
  refine ⟨_, rfl, ?_⟩
  rw [Params.without_push_of_mem (by decide), Params.without_push_of_mem (by decide)]

theorem cursorLink_repeats (base : LinkBase) (cursor : Cursor) :
    base.Repeats (base.cursorLink cursor) :=
  ⟨_, rfl, Params.without_push_of_mem (by decide) _⟩

theorem Repeats.parse_without {base : LinkBase} {address : String} (repeats : base.Repeats address)
    (clean : '?' ∉ base.url.toList) :
    (Params.parse (Visit.queryOf address)).without PageRequest.controls
      = base.filters.without PageRequest.controls := by
  obtain ⟨params, rfl, kept⟩ := repeats
  rw [base.parse_href clean, kept]

end LinkBase

def PageRequest.ofQuery (query : String) : PageRequest := read (Params.parse query)

def Window.ofQuery (query : String) : Window := (PageRequest.ofQuery query).window

namespace LinkBase

variable {url : String}

theorem window_cursorLink_of_words (clean : '?' ∉ url.toList) (params : Params) {c : Cursor}
    (offset : Word.Fits c.offset) (limit : Word.Fits c.limit) :
    Window.ofQuery (Visit.queryOf ((ofRequest url params).cursorLink c))
      = ⟨Paging.effectiveLimit c.limit, max 0 (min c.offset Paging.greatestOffset), .cursor⟩ := by
  rw [Window.ofQuery, PageRequest.ofQuery, cursorLink, (ofRequest url params).parse_href clean,
    PageRequest.window_of_cursor offset limit]

theorem window_cursorLink (clean : '?' ∉ url.toList) (params : Params) {c : Cursor}
    (valid : c.Valid) : Window.ofQuery (Visit.queryOf ((ofRequest url params).cursorLink c))
      = ⟨c.limit, c.offset, .cursor⟩ := by
  rw [Window.ofQuery, PageRequest.ofQuery, cursorLink, (ofRequest url params).parse_href clean,
    PageRequest.window_of_valid valid]

theorem window_pageLink (clean : '?' ∉ url.toList) (params : Params) {page limit : Int}
    (first : 1 ≤ page) (pos : 1 ≤ limit) (small : limit ≤ Paging.greatestLimit)
    (within : (page - 1) * limit ≤ Paging.greatestOffset) :
    Window.ofQuery (Visit.queryOf ((ofRequest url params).pageLink page limit))
      = ⟨limit, (page - 1) * limit, .pages⟩ := by
  rw [Window.ofQuery, PageRequest.ofQuery, pageLink, (ofRequest url params).parse_href clean,
    PageRequest.window_of_page (cursor_of_filters url params) pos small first within]

/-- The address holds parameters that ask for the same rows with the same limit. -/
def Keeps (url : String) (params : Params) (limit : Int) (address : String) : Prop :=
  ∃ given : Params, address = url ++ "?" ++ given.render
    ∧ given.without PageRequest.controls = params.without PageRequest.controls
    ∧ (PageRequest.read given).window.limit = limit

theorem pageLink_keeps (url : String) (params : Params) {limit : Int} (pos : 1 ≤ limit)
    (small : limit ≤ Paging.greatestLimit) (page : Int) :
    Keeps url params limit ((ofRequest url params).pageLink page limit) := by
  refine ⟨_, rfl, ?_, PageRequest.limit_of_page (cursor_of_filters url params) pos small _⟩
  rw [Params.without_push_of_mem (by decide), Params.without_push_of_mem (by decide)]
  exact Params.without_without _ _

theorem cursorLink_keeps (url : String) (params : Params) {c : Cursor} (offset : Word.Fits c.offset)
    (pos : 1 ≤ c.limit) (small : c.limit ≤ Paging.greatestLimit) :
    Keeps url params c.limit ((ofRequest url params).cursorLink c) := by
  have limit : Word.Fits c.limit := by
    unfold Paging.greatestLimit at small
    unfold Word.Fits Word.least Word.greatest
    omega
  refine ⟨_, rfl, ?_, ?_⟩
  · rw [Params.without_push_of_mem (by decide)]
    exact Params.without_without _ _
  · rw [PageRequest.window_of_cursor offset limit]
    exact Paging.effectiveLimit_of_bounds pos small

end LinkBase

namespace Envelope

theorem linksOf_repeats {base : LinkBase} {w : Window} {total pages : Int} {name : LinkName}
    {address : String} (there : (linksOf base w total pages).get? name = some address) :
    base.Repeats address := by
  cases name with
  | self =>
    simp only [Links.get?, linksOf, Option.some.injEq] at there
    subst there
    cases w.mode with
    | pages => exact base.pageLink_repeats _ _
    | cursor => exact base.cursorLink_repeats _
  | first | last =>
    simp only [Links.get?, linksOf] at there
    cases mode : w.mode with
    | pages =>
      rw [mode] at there
      rw [← Option.some.inj there]
      exact base.pageLink_repeats _ _
    | cursor =>
      rw [mode] at there
      cases there
  | previous | next =>
    simp only [Links.get?, linksOf, Option.map_eq_some_iff] at there
    obtain ⟨cursor, -, rfl⟩ := there
    exact base.cursorLink_repeats cursor

theorem linksOf_keeps {url : String} {params : Params} {w : Window} {total pages : Int}
    {name : LinkName} {address : String} (valid : w.here.Valid)
    (there : (linksOf (.ofRequest url params) w total pages).get? name = some address) :
    LinkBase.Keeps url params w.limit address := by
  obtain ⟨fits, -⟩ := valid.fits
  obtain ⟨low, high, pos, small⟩ := valid
  simp only [Window.here] at low high pos small fits
  cases name with
  | self =>
    simp only [Links.get?, linksOf, Option.some.injEq] at there
    subst there
    cases w.mode with
    | pages => exact LinkBase.pageLink_keeps url params pos small _
    | cursor => exact LinkBase.cursorLink_keeps url params fits pos small
  | first | last =>
    simp only [Links.get?, linksOf] at there
    cases mode : w.mode with
    | pages =>
      rw [mode] at there
      rw [← Option.some.inj there]
      exact LinkBase.pageLink_keeps url params pos small _
    | cursor =>
      rw [mode] at there
      cases there
  | previous =>
    simp only [Links.get?, linksOf, Option.map_eq_some_iff, Window.previous?] at there
    obtain ⟨cursor, given, rfl⟩ := there
    split at given
    · cases given
      refine LinkBase.cursorLink_keeps url params ?_ pos small
      unfold Word.Fits Word.least at fits ⊢
      simp only
      omega
    · cases given
  | next =>
    simp only [Links.get?, linksOf, Option.map_eq_some_iff, Window.next?,
      Option.bind_eq_some_iff] at there
    obtain ⟨cursor, ⟨offset, added, given⟩, rfl⟩ := there
    obtain ⟨within, rfl⟩ := (Word.ofInt_eq_some_iff _ _).mp added
    split at given
    · cases given
      exact LinkBase.cursorLink_keeps url params within pos small
    · cases given

/-- Pages are counted, and rounded up, exactly where the total and the limit fit a word together. -/
theorem totalPages?_eq (total : Int) {limit : Int} (pos : 1 ≤ limit)
    (small : limit ≤ Paging.greatestLimit) : totalPages? total limit
      = if total + limit ≤ Word.greatest then .ok ((max total 0 + limit - 1) / limit)
        else .error .totalPages := by
  unfold Paging.greatestLimit at small
  unfold totalPages? Word.add? Word.ofInt? Word.Fits Word.least Word.greatest
  split
  · next empty =>
    have none : (max total 0 + limit - 1) / limit = 0 :=
      Int.ediv_eq_zero_of_lt (by omega) (by omega)
    rw [if_pos (by omega), none]
  · next rows =>
    rw [Int.max_eq_left (by omega)]
    by_cases room : total + limit ≤ 9223372036854775807
    · rw [if_pos (by omega), if_pos room]
    · rw [if_neg (by omega), if_neg room]

theorem ofPage_eq_ok {request : PageRequest} {total count : Int} {base : LinkBase}
    {envelope : Envelope} : ofPage request total count base = .ok envelope
      ↔ ∃ pages, totalPages? total request.window.limit = .ok pages
        ∧ envelope = ⟨request.window.limit, request.window.page, count, pages, total,
          linksOf base request.window total pages⟩ := by
  refine Iff.trans bind_eq_ok (exists_congr fun pages => and_congr_right fun _ => ?_)
  exact ⟨fun same => (Except.ok.inj same).symm, fun same => congrArg Except.ok same.symm⟩

theorem ofPage_answers (request : PageRequest) {total : Int}
    (small : total ≤ Paging.greatestOffset) (count : Int) (base : LinkBase) :
    ∃ envelope, ofPage request total count base = .ok envelope := by
  obtain ⟨-, -, pos, bound⟩ := request.window_valid
  simp only [Window.here] at pos bound
  have room : total + request.window.limit ≤ Word.greatest := Paging.room_of_small small bound
  have counted := totalPages?_eq total pos bound
  rw [if_pos room] at counted
  exact ⟨_, ofPage_eq_ok.mpr ⟨_, counted, rfl⟩⟩

theorem links_of_ofPage {request : PageRequest} {total count : Int} {base : LinkBase}
    {envelope : Envelope} (answered : ofPage request total count base = .ok envelope) :
    ∃ pages, envelope.links = linksOf base request.window total pages := by
  obtain ⟨pages, -, rfl⟩ := ofPage_eq_ok.mp answered
  exact ⟨pages, rfl⟩

end Envelope
end FleetInventory
