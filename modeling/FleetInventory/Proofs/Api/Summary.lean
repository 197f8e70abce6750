import FleetInventory.Api.QuerySummary
import FleetInventory.Proofs.ComponentGroup.WrittenOut
import FleetInventory.Proofs.Paging.Link

/-!
What the log tells of a list query, beside what the query is read as. The summary looks at keys
alone. Main statements: `paging_logged`, the paging in the log is the one that ran unless all
cursors are empty; `counts_logged`, filters are counted as they are read, and component groups are
never counted too low and exactly where the groups are written out from the first index on.
-/
namespace FleetInventory

/-- There is a cursor, but none that says anything. -/
def Params.BlankCursor (params : Params) : Prop :=
  PageRequest.cursorParam ∈ params.keys ∧ ∀ value ∈ params.values PageRequest.cursorParam, value = ""

namespace QuerySummary

section Paging

variable {params : Params}

theorem pagingOf_eq_cursor_iff :
    pagingOf params = .cursor ↔ PageRequest.cursorParam ∈ params.keys := by
  rw [← Params.has_iff]
  change pagingOf params = .cursor ↔ params.has "cursor" = true
  unfold pagingOf
  cases params.has "cursor" <;> cases params.has "page" || params.has "limit" <;> simp

theorem pagingOf_eq_none_iff :
    pagingOf params = .none ↔ ∀ key ∈ PageRequest.controls, key ∉ params.keys := by
  simp only [PageRequest.controls, List.forall_mem_cons, ← Params.has_iff, Bool.not_eq_true]
  change pagingOf params = .none
    ↔ params.has "limit" = false ∧ params.has "page" = false ∧ params.has "cursor" = false ∧ _
  unfold pagingOf
  cases params.has "cursor" <;> cases params.has "page" <;> cases params.has "limit" <;> simp

theorem number_of_absent {key : String} (absent : key ∉ params.keys) :
    PageRequest.number params key = 0 := by
  rw [PageRequest.number, Params.filled?, Params.values_eq_nil absent]
  rfl

theorem window_of_absent (absent : ∀ key ∈ PageRequest.controls, key ∉ params.keys) :
    (PageRequest.read params).window = ⟨Paging.defaultLimit, 0, .pages⟩ := by
  have limit : (PageRequest.read params).limit = 0 := number_of_absent (absent _ (by decide))
  have page : (PageRequest.read params).page = 0 := number_of_absent (absent _ (by decide))
  have uncursed : (PageRequest.read params).cursor = none := by
    have missing : PageRequest.cursorParam ∉ params.keys := absent _ (by decide)
    exact Params.filled?_eq_none_iff.mpr (by simp [Params.values_eq_nil missing])
  rw [PageRequest.window_of_uncursed uncursed, limit, page]
  decide

theorem mode_eq_pages_iff : (PageRequest.read params).window.mode = .pages
    ↔ ∀ value ∈ params.values PageRequest.cursorParam, value = "" :=
  PageRequest.mode_eq_pages_iff.trans Params.filled?_eq_none_iff

theorem cursor_there_iff : PageRequest.cursorParam ∈ params.keys
    ↔ (PageRequest.read params).window.mode = .cursor ∨ params.BlankCursor := by
  cases mode : (PageRequest.read params).window.mode with
  | pages =>
    have blank := mode_eq_pages_iff.mp mode
    exact ⟨fun there => .inr ⟨there, blank⟩, fun either => (either.resolve_left nofun).1⟩
  | cursor =>
    refine ⟨fun _ => .inl rfl, fun _ => Decidable.byContradiction fun absent => ?_⟩
    have blank : ∀ value ∈ params.values PageRequest.cursorParam, value = "" := by
      rw [Params.values_eq_nil absent]
      exact nofun
    have pages := mode_eq_pages_iff.mpr blank
    rw [mode] at pages
    cases pages

end Paging

end QuerySummary

/-- A query is logged as one by cursor exactly if it ran as one or its cursors are all empty, and
then it ran by page number. One that is logged as having no paging ran as the first page of the
default length. -/
theorem paging_logged (query : Option String) :
    let params := Params.parse (query.getD "")
    let w := Window.ofQuery (query.getD "")
    let logged := (QuerySummary.ofQuery query).paging
    (logged = .cursor ↔ w.mode = .cursor ∨ params.BlankCursor)
      ∧ (params.BlankCursor → w.mode = .pages)
      ∧ (logged = .none → w = ⟨Paging.defaultLimit, 0, .pages⟩) := by
  intro params w logged
  refine ⟨QuerySummary.pagingOf_eq_cursor_iff.trans QuerySummary.cursor_there_iff, ?_, ?_⟩
  · intro blank
    exact QuerySummary.mode_eq_pages_iff.mpr blank.2
  · intro none
    exact QuerySummary.window_of_absent (QuerySummary.pagingOf_eq_none_iff.mp none)

/-- A cursor that can not be read beside an empty one, and a query that only filters. -/
theorem paging_logged_of_unreadable_cursor :
    let cursed := "cursor=!&limit=5&cursor="
    let plain := "attr=n~k&offset=7"
    ¬ (Params.parse cursed).BlankCursor
      ∧ (QuerySummary.ofQuery (some cursed)).paging = .cursor
      ∧ (Window.ofQuery cursed).mode = .cursor
      ∧ (QuerySummary.ofQuery (some plain)).paging = .none
      ∧ Window.ofQuery plain = ⟨Paging.defaultLimit, 0, .pages⟩ := by
  intro cursed plain
  have logged : (QuerySummary.ofQuery (some cursed)).paging = .cursor := by decide +kernel
  have unlogged : (QuerySummary.ofQuery (some plain)).paging = .none := by decide +kernel
  have values : (Params.parse cursed).values PageRequest.cursorParam = ["!", ""] := by
    decide +kernel
  have given : ¬ (Params.parse cursed).BlankCursor := by
    rintro ⟨-, blank⟩
    rw [values] at blank
    exact absurd (blank "!" List.mem_cons_self) (by decide)
  have ran := ((paging_logged (some cursed)).1.mp logged).resolve_right given
  exact ⟨given, logged, ran, unlogged, (paging_logged (some plain)).2.2 unlogged⟩

/-- A cursor that says nothing is logged, and the second page is shown. -/
theorem cursor_logged_of_blank :
    let query := "cursor=&page=2"
    (QuerySummary.ofQuery (some query)).paging = .cursor
      ∧ Window.ofQuery query = ⟨100, 100, .pages⟩
      ∧ ¬ ((QuerySummary.ofQuery (some query)).paging = .cursor
        ↔ (Window.ofQuery query).mode = .cursor) := by
  intro query
  have logged : (QuerySummary.ofQuery (some query)).paging = .cursor := by decide +kernel
  have window : Window.ofQuery query = ⟨100, 100, .pages⟩ := by decide +kernel
  refine ⟨logged, window, ?_⟩
  rw [logged, window]
  decide

namespace QuerySummary

open ComponentGroup

variable {params : Params} {k : Nat}

theorem groupIndex?_of_owns {index : Nat} {key : String} (owns : Owns index key)
    (small : index < groupIndexBound) : groupIndex? key = some index := by
  obtain ⟨tail, chars, ends⟩ := owns_tail owns
  have suffix : isGroupSuffix tail = true := by
    rcases ends with ⟨rest, rfl⟩ | rfl | rfl
    · rfl
    · decide
    · decide
  have after : Text.afterStem? "sc_".toList key.toList = some (Text.decimal index ++ tail) :=
    Text.afterStem?_eq_some.mpr chars
  obtain ⟨digits, rest⟩ := Text.span_decimal index ends.no_digit
  rw [groupIndex?, after]
  simp only [Option.bind_eq_bind, Option.bind_some, rest, suffix, digits, ↓reduceIte]
  exact Text.unsignedBelow?_decimal small

theorem startsWith_of_groupIndex? {index : Nat} {key : String}
    (counted : groupIndex? key = some index) : Text.startsWith "sc_" key = true := by
  obtain ⟨rest, after, -⟩ := Option.bind_eq_some_iff.mp counted
  rw [Text.startsWith, after]
  rfl

theorem nodup_eraseDups (xs : List Nat) : xs.eraseDups.Nodup := by
  cases xs with
  | nil => exact .nil
  | cons x rest =>
    rw [List.eraseDups_cons, List.nodup_cons]
    exact ⟨by simp [List.mem_eraseDups], nodup_eraseDups _⟩
termination_by xs.length
decreasing_by
  have shorter := List.length_filter_le (fun y => !y == x) rest
  simp only [List.length_cons]
  omega

theorem mem_groupIndexes {index : Nat} :
    index ∈ groupIndexes params ↔ ∃ key ∈ params.keys, groupIndex? key = some index := by
  simp [groupIndexes, List.mem_eraseDups]

/-- Every index up to the first gap is counted: it is less than the number of parameters, and so
within the bound. -/
theorem le_length_groupIndexes (first : FirstGap params k)
    (few : params.pairs.length < groupIndexBound) : k ≤ (groupIndexes params).length := by
  have within : List.range k ⊆ groupIndexes params := by
    intro i member
    have below := List.mem_range.mp member
    obtain ⟨key, inside, owns⟩ := first.below i below
    have bound := first.le_length
    exact mem_groupIndexes.mpr ⟨key, inside, groupIndex?_of_owns owns (by omega)⟩
  simpa using List.nodup_range.length_le_of_subset within

theorem length_groupIndexes_le (first : FirstGap params k)
    (few : params.pairs.length < groupIndexBound)
    (owned : ∀ key ∈ params.keys, Text.startsWith "sc_" key = true → ∃ i < k, Owns i key) :
    (groupIndexes params).length ≤ k := by
  have within : groupIndexes params ⊆ List.range k := by
    intro index member
    obtain ⟨key, inside, counted⟩ := mem_groupIndexes.mp member
    obtain ⟨i, below, owns⟩ := owned key inside (startsWith_of_groupIndex? counted)
    have bound := first.le_length
    rw [groupIndex?_of_owns owns (by omega)] at counted
    cases counted
    exact List.mem_range.mpr below
  have unique : (groupIndexes params).Nodup := nodup_eraseDups _
  simpa using unique.length_le_of_subset within

theorem length_filter_isAttributeKey (keys : List String) :
    (keys.filter isAttributeKey).length = keys.count AttributeFilter.attributeParam
      + keys.count AttributeFilter.versionedParam := by
  change _ = keys.count "attr" + keys.count "ver_attr"
  induction keys with
  | nil => rfl
  | cons key rest ih =>
    by_cases plain : key = "attr"
    · subst plain
      simp [isAttributeKey, ih, Nat.add_right_comm]
    · by_cases versioned : key = "ver_attr"
      · subst versioned
        simp [isAttributeKey, ih, Nat.add_assoc]
      · simp [isAttributeKey, plain, versioned, ih]

end QuerySummary

/-- Wherever the filters of servers can be read from a query of fewer than 2^32 parameters, its
filters are counted as many as are read, and its component groups no fewer than are read: exactly as
many where the groups are written out. -/
theorem counts_logged (query : Option String) (criteria : ServerCriteria)
    (few : (Params.parse (query.getD "")).pairs.length < QuerySummary.groupIndexBound)
    (read : ServerCriteria.read (Params.parse (query.getD "")) = .ok criteria) :
    let params := Params.parse (query.getD "")
    let summary := QuerySummary.ofQuery query
    summary.attributeFilters = criteria.attributes.length + criteria.versioned.length
      ∧ criteria.components.length ≤ summary.componentGroups
      ∧ (ComponentGroup.WrittenOut params →
        criteria.components.length = summary.componentGroups) := by
  intro params summary
  obtain ⟨attributes, plain, read⟩ := bind_eq_ok.mp read
  obtain ⟨versioned, kept, read⟩ := bind_eq_ok.mp read
  obtain ⟨components, groups, read⟩ := bind_eq_ok.mp read
  cases read
  refine ⟨?_, ?_, ?_⟩
  · rw [AttributeFilter.length_readAll plain, AttributeFilter.length_readAll kept]
    exact QuerySummary.length_filter_isAttributeKey _
  · obtain ⟨k, first⟩ := ComponentGroup.exists_firstGap params
    exact (first.length_readAll_le groups).trans (QuerySummary.le_length_groupIndexes first few)
  · intro written
    obtain ⟨k, first, heeded, owned⟩ := written.exists_firstGap
    have most := QuerySummary.length_groupIndexes_le first few owned
    have least := QuerySummary.le_length_groupIndexes first few
    exact (written.length_readAll first heeded groups).trans (Nat.le_antisymm least most)

/-- Two groups out of order and two filters between them. -/
theorem counts_logged_of_two_groups :
    let query := "sc_1_attr=n&attr=a~b&sc_0[model]=A&ver_attr=v&sc_0_attr=x"
    let summary := QuerySummary.ofQuery (some query)
    ∃ criteria, ServerCriteria.read (Params.parse query) = .ok criteria
      ∧ ComponentGroup.WrittenOut (Params.parse query)
      ∧ summary.attributeFilters = 2 ∧ criteria.attributes.length + criteria.versioned.length = 2
      ∧ summary.componentGroups = 2 ∧ criteria.components.length = 2 := by
  intro query summary
  have pairs : (Params.parse query).pairs = [("sc_1_attr", "n"), ("attr", "a~b"),
      ("sc_0[model]", "A"), ("ver_attr", "v"), ("sc_0_attr", "x")] := by decide +kernel
  have second : ComponentGroup.Heeds 1 "sc_1_attr" := .inr (.inl (by decide +kernel))
  have model : ComponentGroup.Heeds 0 "sc_0[model]" :=
    .inl ⟨"model", by decide, by decide +kernel⟩
  have first : ComponentGroup.Heeds 0 "sc_0_attr" := .inr (.inl (by decide +kernel))
  have written : ComponentGroup.WrittenOut (Params.parse query) := by
    refine .of_bound (k := 2) ?_ ?_
    · simp only [pairs, List.forall_mem_cons]
      refine ⟨fun _ => ⟨by decide, 1, by decide, second⟩, fun begins => absurd begins (by decide),
        fun _ => ⟨by decide, 0, by decide, model⟩, fun begins => absurd begins (by decide),
        fun _ => ⟨by decide, 0, by decide, first⟩, nofun⟩
    · intro index below
      rw [Params.keys, pairs]
      obtain rfl | rfl : index = 0 ∨ index = 1 := by omega
      · exact ⟨_, by simp, first⟩
      · exact ⟨_, by simp, second⟩
  have few : (Params.parse query).pairs.length < QuerySummary.groupIndexBound := by
    rw [pairs]
    decide
  have filters : summary.attributeFilters = 2 := by decide +kernel
  have groups : summary.componentGroups = 2 := by decide +kernel
  have readable : (ServerCriteria.read (Params.parse query)).toOption.isSome = true := by
    decide +kernel
  cases read : ServerCriteria.read (Params.parse query) with
  | error fault => rw [read] at readable; cases readable
  | ok criteria =>
    obtain ⟨counted, -, exact⟩ := counts_logged (some query) criteria few read
    exact ⟨criteria, rfl, written, filters, counted.symm.trans filters, groups,
      (exact written).trans groups⟩

end FleetInventory
