import Mathlib.Data.Rat.Floor
import Mathlib.Data.Set.Basic
import FleetInventory.Proofs.Paging.Link

/-!
Walking through a list by `next`. Each step moves the window by its limit, and the walk ends at the
first window that reaches the total. Main statement: `next_walk_covers`, the windows of a walk
divide the rows from its first offset up to the total.
-/
namespace FleetInventory

namespace Visit

def rows (v : Visit) : Set Int :=
  {row | v.window.offset ≤ row ∧ row < min (v.window.offset + v.window.limit) v.total}

/-- The visits of a walk that follows `next` until there is none. -/
inductive Walk : Visit → List Visit → Prop
  | last {v : Visit} {envelope : Envelope} (answered : v.envelope = .ok envelope)
      (stop : v.follow? envelope .next = none) : Walk v [v]
  | step {v w : Visit} {envelope : Envelope} {rest : List Visit}
      (answered : v.envelope = .ok envelope) (onward : v.follow? envelope .next = some w)
      (later : Walk w rest) : Walk v (v :: rest)

structure Advance (v w : Visit) : Prop where
  url : w.url = v.url
  total : w.total = v.total
  limit : w.window.limit = v.window.limit
  offset : w.window.offset = v.window.offset + v.window.limit

theorem window_valid (v : Visit) : v.window.here.Valid := PageRequest.window_valid _

theorem limit_pos (v : Visit) : 1 ≤ v.window.limit := v.window_valid.limit_pos

def onward (v : Visit) : Visit :=
  { v with query := queryOf ((LinkBase.ofRequest v.url v.params).cursorLink
      ⟨v.window.offset + v.window.limit, v.window.limit⟩) }

theorem window_onward {v : Visit} (clean : '?' ∉ v.url.toList) : v.onward.window
    = ⟨v.window.limit, min (v.window.offset + v.window.limit) Paging.greatestOffset, .cursor⟩ := by
  obtain ⟨-, limit⟩ := v.window_valid.fits
  obtain ⟨low, high, pos, bound⟩ := v.window_valid
  simp only [Window.here] at low high pos bound limit
  have offset : Word.Fits (v.window.offset + v.window.limit) :=
    ((Word.ofInt_eq_some_iff _ _).mp (Paging.add?_of_bounds low high pos bound)).1
  have room : (0 : Int) ≤ Paging.greatestOffset := by decide
  have kept : max 0 (min (v.window.offset + v.window.limit) Paging.greatestOffset)
      = min (v.window.offset + v.window.limit) Paging.greatestOffset := by omega
  have landed : v.onward.window = ⟨Paging.effectiveLimit v.window.limit,
      max 0 (min (v.window.offset + v.window.limit) Paging.greatestOffset), .cursor⟩ :=
    LinkBase.window_cursorLink_of_words clean v.params offset limit
  rw [landed, Paging.effectiveLimit_of_bounds pos bound, kept]

theorem advance_onward {v : Visit} (clean : '?' ∉ v.url.toList)
    (small : v.total ≤ Paging.greatestOffset) (more : v.window.offset + v.window.limit < v.total) :
    v.Advance v.onward := by
  have window := window_onward clean
  rw [Int.min_eq_left (by omega)] at window
  exact ⟨rfl, rfl, by rw [window], by rw [window]⟩

theorem follow?_next {v : Visit} {envelope : Envelope} (answered : v.envelope = .ok envelope) :
    v.follow? envelope .next
      = if v.window.offset + v.window.limit < v.total then some v.onward else none := by
  obtain ⟨pages, links⟩ := Envelope.links_of_ofPage answered
  have next : envelope.links.get? .next
      = (v.window.next? v.total).map (LinkBase.ofRequest v.url v.params).cursorLink := by
    rw [links]
    rfl
  rw [Window.next?_eq v.window_valid] at next
  rw [follow?, next]
  split <;> rfl

/-- A walk in numbers: the last visit reaches the total, and each before it falls short of it and
is followed by the next window. -/
inductive Paced : Visit → List Visit → Prop
  | last {v : Visit} (reached : v.total ≤ v.window.offset + v.window.limit) : Paced v [v]
  | step {v w : Visit} {rest : List Visit} (more : v.window.offset + v.window.limit < v.total)
      (moved : v.Advance w) (later : Paced w rest) : Paced v (v :: rest)

theorem Walk.paced {v : Visit} {walk : List Visit} (clean : '?' ∉ v.url.toList)
    (small : v.total ≤ Paging.greatestOffset) (w : v.Walk walk) : v.Paced walk := by
  induction w with
  | last answered stop =>
    rw [follow?_next answered] at stop
    split at stop
    · cases stop
    · next reached => exact .last (Int.not_lt.mp reached)
  | step answered onward later ih =>
    rw [follow?_next answered] at onward
    split at onward
    · next more =>
      cases onward
      have moved := advance_onward clean small more
      exact .step more moved (ih (moved.url ▸ clean) (moved.total ▸ small))
    · cases onward

theorem Walk.unique {v : Visit} {walk other : List Visit} (w : v.Walk walk) (w' : v.Walk other) :
    other = walk := by
  induction w generalizing other with
  | last answered stop =>
    cases w' with
    | last => rfl
    | step again onward later =>
      cases answered.symm.trans again
      cases stop.symm.trans onward
  | step answered onward later ih =>
    cases w' with
    | last again stop =>
      cases answered.symm.trans again
      cases stop.symm.trans onward
    | step again onward' later' =>
      cases answered.symm.trans again
      cases onward.symm.trans onward'
      rw [ih later']

theorem exists_walk {v : Visit} (clean : '?' ∉ v.url.toList)
    (small : v.total ≤ Paging.greatestOffset) : ∃ walk, v.Walk walk := by
  obtain ⟨envelope, answered⟩ : ∃ envelope, v.envelope = .ok envelope :=
    Envelope.ofPage_answers v.request small v.count _
  have next := follow?_next answered
  by_cases more : v.window.offset + v.window.limit < v.total
  · have moved := advance_onward clean small more
    have shorter : (v.onward.total - v.onward.window.offset).toNat
        < (v.total - v.window.offset).toNat := by
      have pos := v.limit_pos
      rw [moved.total, moved.offset]
      omega
    rw [if_pos more] at next
    obtain ⟨rest, later⟩ := exists_walk (v := v.onward) clean small
    exact ⟨v :: rest, .step answered next later⟩
  · rw [if_neg more] at next
    exact ⟨[v], .last answered next⟩
termination_by (v.total - v.window.offset).toNat

namespace Paced

variable {v : Visit} {walk : List Visit}

theorem length_pos (paced : v.Paced walk) : 0 < walk.length := by
  cases paced <;> simp

theorem windows (paced : v.Paced walk) (i : Nat) (inside : i < walk.length) :
    walk[i].window.limit = v.window.limit
      ∧ walk[i].window.offset = v.window.offset + i * v.window.limit
      ∧ (v.total ≤ walk[i].window.offset + v.window.limit ↔ i + 1 = walk.length) := by
  induction paced generalizing i with
  | last reached =>
    have first : i = 0 := by simpa using inside
    subst first
    simp [reached]
  | @step v w rest more moved later ih =>
    cases i with
    | zero =>
      have longer := later.length_pos
      refine ⟨rfl, by simp, ?_⟩
      change v.total ≤ v.window.offset + v.window.limit ↔ 0 + 1 = rest.length + 1
      omega
    | succ k =>
      have within : k < rest.length := by simpa using inside
      obtain ⟨limit, offset, ends⟩ := ih k within
      rw [moved.limit, moved.offset] at offset
      rw [moved.limit, moved.total] at ends
      simp only [List.getElem_cons_succ, List.length_cons]
      refine ⟨limit.trans moved.limit, ?_, ?_⟩
      · rw [offset]
        push_cast
        ring
      · rw [ends]
        omega

theorem mem_rows (paced : v.Paced walk) (row : Int) :
    (∃ w ∈ walk, row ∈ w.rows) ↔ v.window.offset ≤ row ∧ row < v.total := by
  induction paced with
  | last reached =>
    simp only [List.mem_singleton, exists_eq_left, rows, Set.mem_ofPred_eq]
    omega
  | @step v w rest more moved later ih =>
    have pos := v.limit_pos
    simp only [List.mem_cons, exists_eq_or_imp]
    rw [ih, moved.offset, moved.total]
    simp only [rows, Set.mem_ofPred_eq]
    omega

theorem rows_disjoint (paced : v.Paced walk) :
    walk.Pairwise fun a b => ∀ row ∈ a.rows, row ∉ b.rows := by
  induction paced with
  | last reached => exact List.pairwise_singleton _ _
  | @step v w rest more moved later ih =>
    refine List.pairwise_cons.mpr ⟨?_, ih⟩
    intro other member row here there
    have beyond := ((later.mem_rows row).mp ⟨other, member, there⟩).1
    rw [moved.offset] at beyond
    simp only [rows, Set.mem_ofPred_eq] at here
    omega

theorem count_sum (paced : v.Paced walk) :
    (walk.map Visit.count).sum = max 0 (v.total - v.window.offset) := by
  induction paced with
  | last reached =>
    simp only [List.map_cons, List.map_nil, List.sum_cons, List.sum_nil, count]
    omega
  | @step v w rest more moved later ih =>
    have pos := v.limit_pos
    rw [List.map_cons, List.sum_cons, ih, moved.total, moved.offset, count]
    omega

/-- The last window but one falls short of the total and the last does not, so their number is that
of the limits that the rows take up. -/
theorem length_eq (paced : v.Paced walk) (first : v.window.offset = 0) :
    (walk.length : Int) = max 1 ⌈(v.total : ℚ) / v.window.limit⌉ := by
  have pos : (0 : ℚ) < v.window.limit := by exact_mod_cast v.limit_pos
  obtain ⟨n, length⟩ := Nat.exists_eq_add_of_lt paced.length_pos
  obtain ⟨-, offset, ends⟩ := paced.windows n (by omega)
  have reached := ends.mpr (by omega)
  rw [offset, first] at reached
  have high : (v.total : ℚ) / v.window.limit ≤ (n + 1 : ℕ) := by
    rw [div_le_iff₀ pos]
    have bound : v.total ≤ (n + 1 : ℕ) * v.window.limit := by push_cast; linarith
    exact_mod_cast bound
  cases n with
  | zero =>
    have least : ⌈(v.total : ℚ) / v.window.limit⌉ ≤ 1 := Int.ceil_le.mpr (by simpa using high)
    omega
  | succ m =>
    obtain ⟨-, before, falls⟩ := paced.windows m (by omega)
    have short := Int.not_le.mp (mt falls.mp (by omega))
    rw [before, first] at short
    have low : ((m + 1 : ℕ) : ℚ) < (v.total : ℚ) / v.window.limit := by
      rw [lt_div_iff₀ pos]
      have bound : ((m + 1 : ℕ) : ℤ) * v.window.limit < v.total := by push_cast; linarith
      exact_mod_cast bound
    have ceil : ⌈(v.total : ℚ) / v.window.limit⌉ = (m + 1 + 1 : ℕ) := by
      rw [Int.ceil_eq_iff]
      push_cast at low high ⊢
      constructor <;> linarith
    omega

end Paced
end Visit

/-- A walk by `next` is there and is the only one. Its windows have one limit and follow each other
by it, up to the first that reaches the total; their rows are the rows from the first offset up to
the total, and none is shown twice. From the first row on, a walk has as many answers as the rows
fill limits, at least one, and the numbers of rows they show add up to the total. -/
theorem next_walk_covers (v : Visit) (clean : '?' ∉ v.url.toList) (low : 0 ≤ v.total)
    (high : v.total ≤ Paging.greatestOffset) :
    ∃ walk, v.Walk walk ∧ (∀ other, v.Walk other → other = walk)
      ∧ (∀ i (inside : i < walk.length),
        walk[i].window.limit = v.window.limit
        ∧ walk[i].window.offset = v.window.offset + i * v.window.limit
        ∧ (v.total ≤ walk[i].window.offset + v.window.limit ↔ i + 1 = walk.length))
      ∧ walk.Pairwise (fun a b => ∀ row ∈ a.rows, row ∉ b.rows)
      ∧ (∀ row, (∃ w ∈ walk, row ∈ w.rows) ↔ v.window.offset ≤ row ∧ row < v.total)
      ∧ (v.window.offset = 0 →
        (walk.length : Int) = max 1 ⌈(v.total : ℚ) / v.window.limit⌉
        ∧ (walk.map Visit.count).sum = v.total) := by
  obtain ⟨walk, w⟩ := Visit.exists_walk clean high
  have paced := w.paced clean high
  refine ⟨walk, w, fun other => w.unique, paced.windows, paced.rows_disjoint, paced.mem_rows, ?_⟩
  intro first
  refine ⟨paced.length_eq first, ?_⟩
  rw [paced.count_sum, first]
  omega

theorem next_walk_covers_of_five_rows :
    let v : Visit := ⟨"http://h/servers", "limit=2&attr=n~k&page=1", 5⟩
    '?' ∉ v.url.toList ∧ 0 ≤ v.total ∧ v.total ≤ Paging.greatestOffset
      ∧ v.window = ⟨2, 0, .pages⟩
      ∧ ∃ walk, v.Walk walk ∧ walk.length = 3 ∧ (walk.map Visit.count).sum = 5
        ∧ ∀ i (inside : i < walk.length), walk[i].window.offset = i * 2 := by
  intro v
  have clean : '?' ∉ v.url.toList := by decide
  have window : v.window = ⟨2, 0, .pages⟩ := by decide +kernel
  obtain ⟨walk, w, -, windows, -, -, whole⟩ := next_walk_covers v clean (by decide) (by decide)
  rw [window] at windows whole
  obtain ⟨length, sum⟩ := whole rfl
  have pages : ⌈(v.total : ℚ) / ((2 : Int) : ℚ)⌉ = 3 := by
    rw [Int.ceil_eq_iff]
    norm_num [v]
  refine ⟨clean, by decide, by decide, window, walk, w, ?_, sum, ?_⟩
  · rw [pages] at length
    omega
  · intro i inside
    have offset := (windows i inside).2.1
    simpa using offset

end FleetInventory
