import FleetInventory.Proofs.Paging.Following

/-!
Page numbers along a walk. A window that begins at a multiple of its limit is the whole of a page,
and every link leads to such a window again, links by page number and links by cursor alike. Main
statement: `page_numbers_hold`, what the envelopes of a walk say of pages is so while totals change.
-/
namespace FleetInventory

open Paging

namespace Window

/-- The window has the given limit and begins with a page. -/
structure Aligned (limit : Int) (w : Window) : Prop where
  limit_eq : w.limit = limit
  dvd : limit ∣ w.offset

def target (w : Window) (pages : Int) : LinkName → Window
  | .self => w
  | .first => ⟨w.limit, 0, .pages⟩
  | .previous => ⟨w.limit, max (w.offset - w.limit) 0, .cursor⟩
  | .next => ⟨w.limit, w.offset + w.limit, .cursor⟩
  | .last => ⟨w.limit, (max pages 1 - 1) * w.limit, .pages⟩

variable {limit : Int} {w : Window}

/-- One case for each link: each adds or takes off whole limits. -/
theorem Aligned.target (aligned : w.Aligned limit) (pages : Int) (name : LinkName) :
    (w.target pages name).Aligned limit := by
  obtain ⟨rfl, dvd⟩ := aligned
  cases name with
  | self => exact ⟨rfl, dvd⟩
  | first => exact ⟨rfl, Int.dvd_zero _⟩
  | previous =>
    refine ⟨rfl, ?_⟩
    rcases Int.le_total 0 (w.offset - w.limit) with room | none
    · simpa only [Window.target, Int.max_eq_left room] using Int.dvd_sub dvd (Int.dvd_refl _)
    · simp only [Window.target, Int.max_eq_right none, Int.dvd_zero]
  | next => exact ⟨rfl, Int.dvd_add dvd (Int.dvd_refl _)⟩
  | last => exact ⟨rfl, Int.dvd_mul_left _ _⟩

theorem before_eq (w : Window) : (w.page - 1) * w.limit = w.offset - w.offset % w.limit := by
  rw [page, Int.add_sub_cancel, Int.emod_def, Int.sub_sub_self, Int.mul_comm]

theorem Aligned.offset_eq (aligned : w.Aligned limit) : (w.page - 1) * w.limit = w.offset := by
  obtain ⟨rfl, dvd⟩ := aligned
  rw [before_eq, Int.emod_eq_zero_of_dvd dvd, Int.sub_zero]

theorem page_pos (valid : w.here.Valid) : 1 ≤ w.page := by
  have low := Int.ediv_nonneg valid.offset_nonneg (Int.le_of_lt valid.limit_pos)
  simp only [here] at low
  unfold page
  omega

theorem ofQuery_valid (query : String) : (ofQuery query).here.Valid := PageRequest.window_valid _

end Window

theorem Envelope.lt_totalPages_iff {total limit pages : Int} (pos : 1 ≤ limit)
    (counted : totalPages? total limit = .ok pages) {k : Int} (nonneg : 0 ≤ k) :
    k < pages ↔ k * limit < total := by
  unfold totalPages? at counted
  split at counted
  · next empty =>
    cases counted
    have product : 0 ≤ k * limit := Int.mul_nonneg nonneg (by omega)
    omega
  · split at counted
    · next sum added =>
      cases counted
      obtain ⟨-, rfl⟩ := (Word.ofInt_eq_some_iff _ _).mp added
      rw [Int.lt_iff_add_one_le, Int.le_ediv_iff_mul_le (by omega), Int.add_mul]
      omega
    · cases counted

theorem Window.next?_isSome_iff {w : Window} {total pages : Int} (valid : w.here.Valid)
    (dvd : w.limit ∣ w.offset) (counted : Envelope.totalPages? total w.limit = .ok pages) :
    (w.next? total).isSome ↔ w.page < pages := by
  have start : (w.page - 1) * w.limit = w.offset := Aligned.offset_eq ⟨rfl, dvd⟩
  have ends : w.page * w.limit = w.offset + w.limit := by
    rw [Int.sub_mul, Int.one_mul] at start
    omega
  have first := page_pos valid
  have more : w.page < pages ↔ w.offset + w.limit < total :=
    ends ▸ Envelope.lt_totalPages_iff valid.limit_pos counted (by omega)
  rw [more, next?_eq valid]
  split <;> simp [*]

theorem Window.previous?_isSome_iff {w : Window} (valid : w.here.Valid)
    (dvd : w.limit ∣ w.offset) : w.previous?.isSome ↔ 1 < w.page := by
  have start : (w.page - 1) * w.limit = w.offset := Aligned.offset_eq ⟨rfl, dvd⟩
  have pos : 0 < w.limit := valid.limit_pos
  have before : 0 < w.offset ↔ 1 < w.page := by
    have multiple := Int.mul_lt_mul_right (b := 0) (c := w.page - 1) pos
    rw [Int.zero_mul, start] at multiple
    omega
  rw [← before, previous?]
  split
  · next past => simp [past]
  · next start => simp [start]

theorem Envelope.lastPage_within {total limit pages : Int} (small : total ≤ greatestOffset)
    (pos : 1 ≤ limit) (counted : totalPages? total limit = .ok pages) :
    (max pages 1 - 1) * limit ≤ greatestOffset := by
  rcases Int.le_total pages 1 with few | many
  · rw [Int.max_eq_right few, Int.sub_self, Int.zero_mul]
    decide
  · have before := (lt_totalPages_iff pos counted (k := pages - 1) (by omega)).mp (by omega)
    rw [Int.max_eq_left many]
    omega

theorem Envelope.window_of_link {url : String} {params : Params} {w : Window} {total pages : Int}
    {name : LinkName} {href : String} (clean : '?' ∉ url.toList) (small : total ≤ greatestOffset)
    (valid : w.here.Valid) (dvd : w.limit ∣ w.offset)
    (counted : totalPages? total w.limit = .ok pages)
    (there : (linksOf (.ofRequest url params) w total pages).get? name = some href) :
    Window.ofQuery (Visit.queryOf href) = w.target pages name := by
  have start := Window.Aligned.offset_eq ⟨rfl, dvd⟩
  have first := Window.page_pos valid
  obtain ⟨low, high, pos, bound⟩ := valid
  simp only [Window.here] at low high pos bound
  cases name with
  | self =>
    obtain ⟨limit, offset, mode⟩ := w
    cases there
    cases mode with
    | pages =>
      have landed := LinkBase.window_pageLink clean params first pos bound (start.trans_le high)
      rw [start] at landed
      exact landed
    | cursor => exact LinkBase.window_cursorLink clean params ⟨low, high, pos, bound⟩
  | first =>
    cases mode : w.mode with
    | pages =>
      simp only [Links.get?, linksOf, mode, Option.some.injEq] at there
      subst there
      rw [LinkBase.window_pageLink clean params (Int.le_refl 1) pos bound (by omega)]
      simp only [Window.target, Int.sub_self, Int.zero_mul]
    | cursor =>
      simp only [Links.get?, linksOf, mode] at there
      cases there
  | previous =>
    simp only [Links.get?, linksOf, Option.map_eq_some_iff, Window.previous?] at there
    obtain ⟨cursor, given, rfl⟩ := there
    split at given
    · cases given
      exact LinkBase.window_cursorLink clean params
        ⟨by simp only; omega, by simp only; omega, pos, bound⟩
    · cases given
  | next =>
    simp only [Links.get?, linksOf, Option.map_eq_some_iff] at there
    obtain ⟨cursor, given, rfl⟩ := there
    rw [Window.next?_eq ⟨low, high, pos, bound⟩] at given
    split at given
    · cases given
      exact LinkBase.window_cursorLink clean params
        ⟨by simp only; omega, by simp only; omega, pos, bound⟩
    · cases given
  | last =>
    cases mode : w.mode with
    | pages =>
      simp only [Links.get?, linksOf, mode, Option.some.injEq] at there
      subst there
      exact LinkBase.window_pageLink clean params (Int.le_max_right _ _) pos bound
        (lastPage_within small pos counted)
    | cursor =>
      simp only [Links.get?, linksOf, mode] at there
      cases there

theorem Leads.aligned {url query next : String} {limit : Int} (clean : '?' ∉ url.toList)
    (leads : Leads url query next) (aligned : (Window.ofQuery query).Aligned limit) :
    (Window.ofQuery next).Aligned limit := by
  obtain ⟨small, answered, there⟩ := leads
  obtain ⟨pages, counted, rfl⟩ := Envelope.ofPage_eq_ok.mp answered
  have landed := Envelope.window_of_link clean small (Window.ofQuery_valid query)
    (aligned.limit_eq ▸ aligned.dvd) counted there
  rw [landed]
  exact aligned.target _ _

theorem walk_aligned {url query reached : String} {limit : Int} (clean : '?' ∉ url.toList)
    (walk : Relation.ReflTransGen (Leads url) query reached)
    (aligned : (Window.ofQuery query).Aligned limit) :
    (Window.ofQuery reached).Aligned limit := by
  induction walk with
  | refl => exact aligned
  | tail before leads ih => exact leads.aligned clean ih

/-- What the answer says of pages is so for a window of a list with `total` matches, and so is
where its links to the first and the last page lead. -/
structure Envelope.Truthful (url : String) (w : Window) (total : Int) (envelope : Envelope) :
    Prop where
  page : envelope.page = w.offset / w.limit + 1
  next : envelope.links.next.isSome ↔ envelope.page < envelope.totalPages
  previous : envelope.links.previous.isSome ↔ 1 < envelope.page
  last : ∀ href, envelope.links.last = some href → ∀ count, ∃ final,
    ofQuery url (Visit.queryOf href) total count = .ok final
      ∧ final.page = max envelope.totalPages 1 ∧ final.links.next = none
  first : ∀ href, envelope.links.first = some href → ∀ count, ∃ start,
    ofQuery url (Visit.queryOf href) total count = .ok start
      ∧ start.page = 1 ∧ start.links.previous = none

theorem Envelope.ofQuery_eq_ok {url query : String} {total count : Int} {envelope : Envelope} :
    ofQuery url query total count = .ok envelope
      ↔ ∃ pages, totalPages? total (Window.ofQuery query).limit = .ok pages
        ∧ envelope = ⟨(Window.ofQuery query).limit, (Window.ofQuery query).page, count, pages, total,
          linksOf (.ofRequest url (Params.parse query)) (Window.ofQuery query) total pages⟩ :=
  ofPage_eq_ok

theorem Envelope.ofQuery_answers (url query : String) {total : Int}
    (small : total ≤ greatestOffset) (count : Int) :
    ∃ envelope, ofQuery url query total count = .ok envelope :=
  ofPage_answers _ small count _

theorem Envelope.next_isSome_iff {url query : String} {total count : Int} {envelope : Envelope}
    (dvd : (Window.ofQuery query).limit ∣ (Window.ofQuery query).offset)
    (answered : ofQuery url query total count = .ok envelope) :
    envelope.links.next.isSome ↔ envelope.page < envelope.totalPages := by
  obtain ⟨pages, counted, rfl⟩ := ofQuery_eq_ok.mp answered
  simpa only [linksOf, Option.isSome_map] using
    Window.next?_isSome_iff (Window.ofQuery_valid query) dvd counted

theorem Envelope.previous_isSome_iff {url query : String} {total count : Int} {envelope : Envelope}
    (dvd : (Window.ofQuery query).limit ∣ (Window.ofQuery query).offset)
    (answered : ofQuery url query total count = .ok envelope) :
    envelope.links.previous.isSome ↔ 1 < envelope.page := by
  obtain ⟨pages, -, rfl⟩ := ofQuery_eq_ok.mp answered
  simpa only [linksOf, Option.isSome_map] using
    Window.previous?_isSome_iff (Window.ofQuery_valid query) dvd

theorem Envelope.last_truthful {url query href : String} {total count : Int} {envelope : Envelope}
    (clean : '?' ∉ url.toList) (small : total ≤ greatestOffset)
    (dvd : (Window.ofQuery query).limit ∣ (Window.ofQuery query).offset)
    (answered : ofQuery url query total count = .ok envelope)
    (there : envelope.links.last = some href) (others : Int) :
    ∃ final, ofQuery url (Visit.queryOf href) total others = .ok final
      ∧ final.page = max envelope.totalPages 1 ∧ final.links.next = none := by
  obtain ⟨pages, counted, rfl⟩ := ofQuery_eq_ok.mp answered
  have pos : 1 ≤ (Window.ofQuery query).limit := (Window.ofQuery_valid query).limit_pos
  have landed : Window.ofQuery (Visit.queryOf href) = (Window.ofQuery query).target pages .last :=
    window_of_link clean small (Window.ofQuery_valid query) dvd counted there
  have page : (Window.ofQuery (Visit.queryOf href)).page = max pages 1 := by
    rw [landed, Window.page]
    simp only [Window.target]
    rw [Int.mul_ediv_cancel _ (by omega), Int.sub_add_cancel]
  obtain ⟨final, answer⟩ := ofQuery_answers url (Visit.queryOf href) small others
  have next := next_isSome_iff (by rw [landed]; exact Int.dvd_mul_left _ _) answer
  obtain ⟨same, recounted, rfl⟩ := ofQuery_eq_ok.mp answer
  rw [landed] at recounted
  cases recounted.symm.trans counted
  refine ⟨_, answer, page, ?_⟩
  rw [← Option.not_isSome_iff_eq_none, next]
  simp only [page]
  omega

theorem Envelope.first_truthful {url query href : String} {total count : Int} {envelope : Envelope}
    (clean : '?' ∉ url.toList) (small : total ≤ greatestOffset)
    (dvd : (Window.ofQuery query).limit ∣ (Window.ofQuery query).offset)
    (answered : ofQuery url query total count = .ok envelope)
    (there : envelope.links.first = some href) (others : Int) :
    ∃ start, ofQuery url (Visit.queryOf href) total others = .ok start
      ∧ start.page = 1 ∧ start.links.previous = none := by
  obtain ⟨pages, counted, rfl⟩ := ofQuery_eq_ok.mp answered
  have landed : Window.ofQuery (Visit.queryOf href) = (Window.ofQuery query).target pages .first :=
    window_of_link clean small (Window.ofQuery_valid query) dvd counted there
  have page : (Window.ofQuery (Visit.queryOf href)).page = 1 := by
    rw [landed, Window.page]
    simp only [Window.target, Int.zero_ediv, Int.zero_add]
  obtain ⟨start, answer⟩ := ofQuery_answers url (Visit.queryOf href) small others
  have previous := previous_isSome_iff (by rw [landed]; exact Int.dvd_zero _) answer
  obtain ⟨pages, -, rfl⟩ := ofQuery_eq_ok.mp answer
  refine ⟨_, answer, page, ?_⟩
  rw [← Option.not_isSome_iff_eq_none, previous]
  simp only [page]
  omega

/-- From any request without a cursor whose first row lies within the bounds, however links are
followed and whatever the totals are on the way: the limit stays, every window begins with a page,
and the answer says truthfully which page it is and whether there are pages before and after it. -/
theorem page_numbers_hold (url query reached : String) (clean : '?' ∉ url.toList)
    (uncursed : (PageRequest.ofQuery query).cursor = none)
    (within : (max (PageRequest.ofQuery query).page 1 - 1)
      * effectiveLimit (PageRequest.ofQuery query).limit ≤ greatestOffset)
    (walk : Relation.ReflTransGen (Leads url) query reached) :
    (Window.ofQuery reached).Aligned (effectiveLimit (PageRequest.ofQuery query).limit)
      ∧ ∀ total count, total ≤ greatestOffset →
        ∃ envelope, Envelope.ofQuery url reached total count = .ok envelope
          ∧ envelope.Truthful url (Window.ofQuery reached) total := by
  have start : (Window.ofQuery query).Aligned
      (effectiveLimit (PageRequest.ofQuery query).limit) := by
    rw [Window.ofQuery, PageRequest.window_of_pages uncursed within]
    exact ⟨rfl, Int.dvd_mul_left _ _⟩
  have aligned := walk_aligned clean walk start
  refine ⟨aligned, ?_⟩
  intro total count small
  obtain ⟨envelope, answered⟩ := Envelope.ofQuery_answers url reached small count
  have dvd : (Window.ofQuery reached).limit ∣ (Window.ofQuery reached).offset :=
    aligned.limit_eq ▸ aligned.dvd
  refine ⟨envelope, answered, ?_, Envelope.next_isSome_iff dvd answered,
    Envelope.previous_isSome_iff dvd answered, ?_, ?_⟩
  · obtain ⟨pages, -, rfl⟩ := Envelope.ofQuery_eq_ok.mp answered
    rfl
  · intro href there others
    exact Envelope.last_truthful clean small dvd answered there others
  · intro href there others
    exact Envelope.first_truthful clean small dvd answered there others

/-- On to the last page, from there to another after the list has grown, and then most rows are
gone. -/
theorem page_numbers_hold_of_last_next :
    let url := "http://h/servers"
    let query := "page=3&limit=2&name=x"
    let reached := "name=x&cursor=MTA6Mg"
    '?' ∉ url.toList ∧ (PageRequest.ofQuery query).cursor = none
      ∧ (max (PageRequest.ofQuery query).page 1 - 1)
        * effectiveLimit (PageRequest.ofQuery query).limit ≤ greatestOffset
      ∧ Relation.ReflTransGen (Leads url) query reached
      ∧ (Window.ofQuery reached).Aligned 2
      ∧ ∃ envelope, Envelope.ofQuery url reached 3 0 = .ok envelope
        ∧ envelope.page = 6 ∧ envelope.totalPages = 2
        ∧ envelope.links.next = none ∧ envelope.links.previous.isSome := by
  intro url query reached
  let middle := "name=x&limit=2&page=5"
  have clean : '?' ∉ url.toList := by decide
  have uncursed : (PageRequest.ofQuery query).cursor = none := by decide +kernel
  have within : (max (PageRequest.ofQuery query).page 1 - 1)
      * effectiveLimit (PageRequest.ofQuery query).limit ≤ greatestOffset := by decide +kernel
  have last : Leads url query middle := by
    have there : ((Envelope.ofQuery url query 9 2).toOption.bind fun envelope =>
        envelope.links.get? .last) = some (url ++ "?" ++ middle) := by decide +kernel
    exact .of_get? (by decide) there (Visit.queryOf_href clean middle)
  have next : Leads url middle reached := by
    have there : ((Envelope.ofQuery url middle 12 2).toOption.bind fun envelope =>
        envelope.links.get? .next) = some (url ++ "?" ++ reached) := by decide +kernel
    exact .of_get? (by decide) there (Visit.queryOf_href clean reached)
  have walk : Relation.ReflTransGen (Leads url) query reached := .tail (.single last) next
  obtain ⟨aligned, answers⟩ := page_numbers_hold url query reached clean uncursed within walk
  have limit : effectiveLimit (PageRequest.ofQuery query).limit = 2 := by decide +kernel
  obtain ⟨envelope, answered, truthful⟩ := answers 3 0 (by decide)
  have page : envelope.page = 6 := truthful.page.trans (by decide +kernel)
  have pages : envelope.totalPages = 2 := by
    have whole : (Envelope.ofQuery url reached 3 0).toOption.map (·.totalPages) = some 2 := by
      decide +kernel
    rw [answered] at whole
    exact Option.some.inj whole
  have stop : ¬ envelope.links.next.isSome := by
    rw [truthful.next, page, pages]
    decide
  refine ⟨clean, uncursed, within, walk, limit ▸ aligned, envelope, answered, page, pages, ?_, ?_⟩
  · exact Option.not_isSome_iff_eq_none.mp stop
  · rw [truthful.previous, page]
    decide

end FleetInventory
