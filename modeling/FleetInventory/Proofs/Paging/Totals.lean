import Mathlib.Data.Rat.Floor
import FleetInventory.Proofs.Paging.Numbering

/-!
Page totals. The number of pages is the total divided by the limit and rounded up, and the link to
the last page names it. Main statement: `page_totals_exact`, this is so for every total that leaves
room for the limit in a word; any other total, however it comes about, is not answered.
-/
namespace FleetInventory

def LinkBase.NamesPage (url : String) (page : Int) (address : String) : Prop :=
  ∃ given : Params, address = url ++ "?" ++ given.render
    ∧ given.values PageRequest.pageParam = [Text.showInt page]

theorem LinkBase.pageLink_namesPage (url : String) (params : Params) (page limit : Int) :
    NamesPage url page ((ofRequest url params).pageLink page limit) := by
  refine ⟨_, rfl, ?_⟩
  rw [Params.values_push, Params.values_push, ofRequest, Params.values_without_of_mem (by decide),
    if_neg (by decide), if_pos rfl]
  rfl

namespace Envelope

theorem ediv_eq_ceil (n : Int) {limit : Int} (pos : 1 ≤ limit) :
    (n + limit - 1) / limit = ⌈(n : ℚ) / limit⌉ := by
  have positive : (0 : ℚ) < limit := by exact_mod_cast pos
  refine eq_of_forall_ge_iff fun k => ?_
  calc (n + limit - 1) / limit ≤ k
    _ ↔ n + limit - 1 < (k + 1) * limit := by
      rw [← Int.lt_add_one_iff, Int.ediv_lt_iff_lt_mul pos]
    _ ↔ n ≤ k * limit := by
      rw [Int.add_mul]
      omega
    _ ↔ ⌈(n : ℚ) / limit⌉ ≤ k := by
      rw [Int.ceil_le, div_le_iff₀ positive]
      exact_mod_cast Iff.rfl

theorem ceil_nonneg_of_max (total : Int) {limit : Int} (pos : 1 ≤ limit) :
    0 ≤ ⌈((max total 0 : Int) : ℚ) / limit⌉ := by
  rw [← ediv_eq_ceil _ pos]
  exact Int.ediv_nonneg (by omega) (by omega)

theorem last_of_pages {url : String} {params : Params} {w : Window} {total pages : Int}
    (mode : w.mode = .pages) :
    ∃ href, (linksOf (.ofRequest url params) w total pages).last = some href
      ∧ LinkBase.NamesPage url (max 1 pages) href := by
  refine ⟨_, by rw [linksOf, mode], ?_⟩
  rw [Int.max_comm]
  exact LinkBase.pageLink_namesPage _ _ _ _

end Envelope

/-- Where the total and the limit fit a word together, the pages of the answer are the total, if it
is not negative, divided by the limit and rounded up, and when browsing by page number the link to
the last page names the last of them, or the first if there are none. Otherwise there is no answer.
-/
theorem page_totals_exact (url query : String) (total count : Int) :
    let w := Window.ofQuery query
    (total + w.limit ≤ Word.greatest →
      ∃ envelope, Envelope.ofQuery url query total count = .ok envelope
        ∧ envelope.totalPages = ⌈((max total 0 : Int) : ℚ) / w.limit⌉ ∧ 0 ≤ envelope.totalPages
        ∧ (w.mode = .pages → ∃ href, envelope.links.last = some href
          ∧ LinkBase.NamesPage url (max 1 envelope.totalPages) href))
      ∧ (Word.greatest < total + w.limit →
        Envelope.ofQuery url query total count = .error .totalPages) := by
  intro w
  have pos : 1 ≤ w.limit := (Window.ofQuery_valid query).limit_pos
  have counted := Envelope.totalPages?_eq total pos (Window.ofQuery_valid query).limit_le
  constructor
  · intro room
    rw [if_pos room, Envelope.ediv_eq_ceil _ pos] at counted
    exact ⟨_, Envelope.ofQuery_eq_ok.mpr ⟨_, counted, rfl⟩, rfl,
      Envelope.ceil_nonneg_of_max total pos, Envelope.last_of_pages⟩
  · intro beyond
    rw [if_neg (Int.not_le.mpr beyond)] at counted
    change Envelope.totalPages? total w.limit >>= _ = _
    rw [counted]
    rfl

/-- The greatest total that leaves room for the limit. -/
theorem page_totals_exact_of_greatest_room :
    let url := "http://h/servers"
    let query := "limit=7&page=3"
    (9223372036854775800 : Int) + (Window.ofQuery query).limit ≤ Word.greatest
      ∧ (Window.ofQuery query).mode = .pages
      ∧ ∃ envelope, Envelope.ofQuery url query 9223372036854775800 7 = .ok envelope
        ∧ envelope.totalPages = 1317624576693539400
        ∧ ∃ href, envelope.links.last = some href
          ∧ LinkBase.NamesPage url 1317624576693539400 href := by
  intro url query
  have window : Window.ofQuery query = ⟨7, 14, .pages⟩ := by decide +kernel
  have room : (9223372036854775800 : Int) + (Window.ofQuery query).limit ≤ Word.greatest := by
    rw [window]
    decide
  have mode : (Window.ofQuery query).mode = .pages := by rw [window]
  obtain ⟨envelope, answered, pages, -, last⟩ :=
    (page_totals_exact url query 9223372036854775800 7).1 room
  have whole : envelope.totalPages = 1317624576693539400 := by
    rw [pages, window, ← Envelope.ediv_eq_ceil _ (by decide)]
    decide
  have named := last mode
  rw [whole] at named
  exact ⟨room, mode, envelope, answered, whole, named⟩

/-- The greatest word is a total that leaves no room: its pages could be counted, but it is not
answered. -/
theorem no_totals_of_greatest_word :
    let url := "http://h/servers"
    let query := "limit=1000"
    Word.Fits Word.greatest
      ∧ ⌈((max Word.greatest 0 : Int) : ℚ) / (Window.ofQuery query).limit⌉ = 9223372036854776
      ∧ Envelope.ofQuery url query Word.greatest 1000 = .error .totalPages
      ∧ ¬ ∃ envelope, Envelope.ofQuery url query Word.greatest 1000 = .ok envelope
        ∧ envelope.totalPages
          = ⌈((max Word.greatest 0 : Int) : ℚ) / (Window.ofQuery query).limit⌉ := by
  intro url query
  have limit : (Window.ofQuery query).limit = 1000 := by decide +kernel
  have refused : Envelope.ofQuery url query Word.greatest 1000 = .error .totalPages := by
    decide +kernel
  refine ⟨by decide, ?_, refused, ?_⟩
  · rw [limit, ← Envelope.ediv_eq_ceil _ (by decide)]
    decide
  · rintro ⟨envelope, answered, -⟩
    cases refused.symm.trans answered

end FleetInventory
