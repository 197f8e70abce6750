import FleetInventory.Proofs.Paging.Progress
import FleetInventory.Proofs.Paging.Totals

/-!
Walking back through a list by `previous`. Each step moves the window back by its limit, and the
last one is cut at the first row, so that a walk back leaves no row out and may show some twice.
Main statement: `previous_walk_returns`, how far every walk back goes while totals change, and when
a step back undoes a step on and the other way around.
-/
namespace FleetInventory

open Paging

namespace Visit

def Previous (v w : Visit) : Prop :=
  ∃ envelope, v.envelope = .ok envelope ∧ v.follow? envelope .previous = some w

def finding (v : Visit) (total : Int) : Visit := { v with total := total }

theorem finding_window (v : Visit) (total : Int) : (v.finding total).window = v.window := rfl

/-- The visits of a walk that follows `previous` until there is none. From one visit to the next the
total may change. -/
inductive WalkBack : Visit → List Visit → Prop
  | last {v : Visit} {envelope : Envelope} (answered : v.envelope = .ok envelope)
      (stop : v.follow? envelope .previous = none) : WalkBack v [v]
  | step {v w : Visit} {rest : List Visit} {total : Int} (back : v.Previous w)
      (later : WalkBack (w.finding total) rest) : WalkBack v (v :: rest)

def back (v : Visit) : Visit :=
  { v with query := queryOf ((LinkBase.ofRequest v.url v.params).cursorLink
      ⟨max (v.window.offset - v.window.limit) 0, v.window.limit⟩) }

variable {v w : Visit}

theorem window_back (clean : '?' ∉ v.url.toList) :
    v.back.window = ⟨v.window.limit, max (v.window.offset - v.window.limit) 0, .cursor⟩ := by
  obtain ⟨low, high, pos, bound⟩ := v.window_valid
  simp only [Window.here] at low high pos bound
  exact LinkBase.window_cursorLink clean v.params
    ⟨by simp only; omega, by simp only; omega, pos, bound⟩

theorem follow?_previous {envelope : Envelope} (answered : v.envelope = .ok envelope) :
    v.follow? envelope .previous = if 0 < v.window.offset then some v.back else none := by
  obtain ⟨pages, links⟩ := Envelope.links_of_ofPage answered
  have previous : envelope.links.get? .previous
      = v.window.previous?.map (LinkBase.ofRequest v.url v.params).cursorLink := by
    rw [links]
    rfl
  rw [Window.previous?] at previous
  rw [follow?, previous]
  split <;> rfl

theorem previous_iff : v.Previous w ↔ v.total + v.window.limit ≤ Word.greatest
    ∧ 0 < v.window.offset ∧ w = v.back :=
  follows_iff follow?_previous

theorem Previous.url (back : v.Previous w) : w.url = v.url := by
  obtain ⟨-, -, rfl⟩ := previous_iff.mp back
  rfl

theorem Previous.window (back : v.Previous w) (clean : '?' ∉ v.url.toList) :
    w.window = ⟨v.window.limit, max (v.window.offset - v.window.limit) 0, .cursor⟩ := by
  obtain ⟨-, -, rfl⟩ := previous_iff.mp back
  exact window_back clean

theorem room_of_small (small : v.total ≤ greatestOffset) :
    v.total + v.window.limit ≤ Word.greatest :=
  Paging.room_of_small small v.window_valid.limit_le

theorem exists_walkBack {v : Visit} (clean : '?' ∉ v.url.toList) {totals : Nat → Int}
    (small : ∀ n, totals n ≤ greatestOffset) (start : v.total = totals 0) :
    ∃ walk, v.WalkBack walk ∧ ∀ i (inside : i < walk.length), walk[i].total = totals i := by
  have room : v.total + v.window.limit ≤ Word.greatest := room_of_small (start ▸ small 0)
  by_cases rows : 0 < v.window.offset
  · have back : v.Previous v.back := previous_iff.mpr ⟨room, rows, rfl⟩
    have shorter : (v.back.finding (totals 1)).window.offset.toNat < v.window.offset.toNat := by
      have pos := v.limit_pos
      rw [finding_window, window_back clean]
      simp only
      omega
    have small' : ∀ n, totals (n + 1) ≤ greatestOffset := fun n => small (n + 1)
    obtain ⟨rest, later, found⟩ := exists_walkBack (v := v.back.finding (totals 1)) clean small' rfl
    refine ⟨v :: rest, .step back later, ?_⟩
    intro i inside
    cases i with
    | zero => exact start
    | succ k => exact found k (by simpa using inside)
  · obtain ⟨envelope, answered⟩ := answered_iff.mpr room
    have stop := follow?_previous answered
    rw [if_neg rows] at stop
    refine ⟨[v], .last answered stop, ?_⟩
    intro i inside
    have first : i = 0 := by simpa using inside
    subst first
    exact start
termination_by v.window.offset.toNat

namespace WalkBack

variable {walk : List Visit}

theorem length_pos (path : v.WalkBack walk) : 0 < walk.length := by
  cases path <;> simp

theorem offset_of_stop {envelope : Envelope} (answered : v.envelope = .ok envelope)
    (stop : v.follow? envelope .previous = none) : v.window.offset = 0 := by
  have low : 0 ≤ v.window.offset := v.window_valid.offset_nonneg
  rw [follow?_previous answered] at stop
  split at stop
  · cases stop
  · omega

theorem windows (path : v.WalkBack walk) (clean : '?' ∉ v.url.toList) (i : Nat)
    (inside : i < walk.length) :
    walk[i].window.limit = v.window.limit
      ∧ walk[i].window.offset = max (v.window.offset - i * v.window.limit) 0
      ∧ (walk[i].window.offset = 0 ↔ i + 1 = walk.length) := by
  induction path generalizing i with
  | last answered stop =>
    have first : i = 0 := by simpa using inside
    subst first
    simp [offset_of_stop answered stop]
  | @step v w rest total back later ih =>
    obtain ⟨-, rows, -⟩ := previous_iff.mp back
    cases i with
    | zero =>
      have longer := later.length_pos
      refine ⟨rfl, by simp; omega, ?_⟩
      change v.window.offset = 0 ↔ 0 + 1 = rest.length + 1
      omega
    | succ k =>
      have within : k < rest.length := by simpa using inside
      obtain ⟨limit, offset, ends⟩ := ih (back.url ▸ clean) k within
      rw [finding_window, back.window clean] at limit offset
      have pos := v.limit_pos
      have steps : 0 ≤ (k : Int) * v.window.limit := Int.mul_nonneg (by omega) (by omega)
      simp only [List.getElem_cons_succ, List.length_cons]
      refine ⟨limit, ?_, by rw [ends]; omega⟩
      rw [offset]
      push_cast
      rw [Int.add_mul, Int.one_mul]
      omega

theorem ediv_of_step {offset limit : Int} (rows : 0 < offset) (pos : 1 ≤ limit) :
    (max (offset - limit) 0 + limit - 1) / limit + 1 = (offset + limit - 1) / limit := by
  have whole : (offset + limit - 1) / limit = (offset - 1) / limit + 1 := by
    have sum : offset + limit - 1 = offset - 1 + 1 * limit := by omega
    rw [sum, Int.add_mul_ediv_right _ _ (by omega)]
  rw [whole]
  rcases Int.le_total limit offset with enough | few
  · rw [Int.max_eq_left (by omega)]
    congr 2
    omega
  · rw [Int.max_eq_right (by omega), Int.ediv_eq_zero_of_lt (by omega) (by omega),
      Int.ediv_eq_zero_of_lt (by omega) (by omega)]

theorem length_eq (path : v.WalkBack walk) (clean : '?' ∉ v.url.toList) :
    (walk.length : Int) = (v.window.offset + v.window.limit - 1) / v.window.limit + 1 := by
  induction path with
  | @last v _ answered stop =>
    have pos := v.limit_pos
    rw [offset_of_stop answered stop, Int.ediv_eq_zero_of_lt (by omega) (by omega)]
    rfl
  | @step v w rest total back later ih =>
    obtain ⟨-, rows, -⟩ := previous_iff.mp back
    have shorter := ih (back.url ▸ clean)
    rw [finding_window, back.window clean] at shorter
    rw [← ediv_of_step rows v.limit_pos, ← shorter]
    rfl

end WalkBack

structure Returns (v : Visit) (walk : List Visit) : Prop where
  /-- Its number of steps is that of the limits that the rows before the first visit take up. -/
  length : (walk.length : Int) = ⌈(v.window.offset : ℚ) / v.window.limit⌉ + 1
  limit : ∀ i (inside : i < walk.length), walk[i].window.limit = v.window.limit
  ends : ∀ i (inside : i < walk.length), walk[i].window.offset = 0 ↔ i + 1 = walk.length
  falls : ∀ i (inside : i + 1 < walk.length), walk[i + 1].window.offset < walk[i].window.offset
  meets : ∀ i (inside : i + 1 < walk.length),
    walk[i].window.offset ≤ walk[i + 1].window.offset + walk[i + 1].window.limit

theorem WalkBack.stepped {walk : List Visit} (path : v.WalkBack walk) (clean : '?' ∉ v.url.toList)
    (i : Nat) (inside : i + 1 < walk.length) : 0 < walk[i].window.offset
      ∧ walk[i + 1].window.offset = max (walk[i].window.offset - v.window.limit) 0 := by
  obtain ⟨-, here, ends⟩ := path.windows clean i (by omega)
  obtain ⟨-, there, -⟩ := path.windows clean (i + 1) inside
  have more : walk[i].window.offset ≠ 0 := fun first => by
    have last := ends.mp first
    omega
  push_cast at there
  rw [Int.add_mul, Int.one_mul] at there
  omega

theorem WalkBack.returns {walk : List Visit} (path : v.WalkBack walk) (clean : '?' ∉ v.url.toList) :
    v.Returns walk where
  length := by rw [path.length_eq clean, Envelope.ediv_eq_ceil _ v.limit_pos]
  limit i inside := (path.windows clean i inside).1
  ends i inside := (path.windows clean i inside).2.2
  falls i inside := by
    obtain ⟨rows, step⟩ := path.stepped clean i inside
    have pos := v.limit_pos
    omega
  meets i inside := by
    obtain ⟨-, step⟩ := path.stepped clean i inside
    have limit := (path.windows clean (i + 1) inside).1
    omega

/-- Back after a step on: rows are left there, so the next window was not cut. -/
theorem Next.previous (next : v.Next w) (clean : '?' ∉ v.url.toList)
    (small : v.total ≤ greatestOffset) {total : Int} (few : total ≤ greatestOffset) :
    ∃ u, (w.finding total).Previous u ∧ u.window = ⟨v.window.limit, v.window.offset, .cursor⟩ := by
  obtain ⟨-, rows, rfl⟩ := next_iff.mp next
  have window := window_onward clean
  rw [Int.min_eq_left (by omega)] at window
  have low : 0 ≤ v.window.offset := v.window_valid.offset_nonneg
  have pos := v.limit_pos
  have back : (v.onward.finding total).Previous (v.onward.finding total).back :=
    previous_iff.mpr ⟨room_of_small few, by rw [finding_window, window]; simp only; omega, rfl⟩
  refine ⟨_, back, ?_⟩
  rw [back.window clean, finding_window, window]
  simp only [Window.mk.injEq, true_and, and_true]
  omega

/-- On after a step back: a step back is shorter than a limit where fewer rows stand before. -/
theorem Previous.next {u : Visit} {total : Int} (back : v.Previous w) (clean : '?' ∉ v.url.toList)
    (next : (w.finding total).Next u) :
    u.window = ⟨v.window.limit, max v.window.offset v.window.limit, .cursor⟩ := by
  have window := back.window clean
  have high : v.window.offset ≤ greatestOffset := v.offset_le
  have bound : v.window.limit ≤ greatestLimit := v.window_valid.limit_le
  have room : greatestLimit ≤ greatestOffset := by decide
  rw [(next.moves (back.url ▸ clean)).window, finding_window, window]
  simp only [Window.mk.injEq, true_and, and_true]
  omega

end Visit

/-- For every sequence of totals there is a walk back from a visit, and whatever totals it finds, it
keeps the limit, comes nearer to the first row with every step, leaves no row out between one window
and the one before, and ends at the first row after as many steps as limits fit into the rows before
it. A step on is undone by a step back; a step back is undone by a step on where it was not cut. -/
theorem previous_walk_returns (v : Visit) (clean : '?' ∉ v.url.toList) :
    (∀ totals : Nat → Int, (∀ n, totals n ≤ greatestOffset) → v.total = totals 0 →
      ∃ walk, v.WalkBack walk ∧ ∀ i (inside : i < walk.length), walk[i].total = totals i)
    ∧ (∀ walk, v.WalkBack walk → v.Returns walk)
    ∧ (∀ w, v.Next w → v.total ≤ greatestOffset → ∀ total ≤ greatestOffset,
      ∃ u, (w.finding total).Previous u ∧ u.window.limit = v.window.limit
        ∧ u.window.offset = v.window.offset)
    ∧ ∀ w, v.Previous w → ∀ total u, (w.finding total).Next u →
      (u.window.offset = v.window.offset ↔ v.window.limit ≤ v.window.offset) := by
  refine ⟨fun totals => Visit.exists_walkBack clean, fun walk path => path.returns clean, ?_, ?_⟩
  · intro w next small total few
    obtain ⟨u, back, window⟩ := next.previous clean small few
    exact ⟨u, back, by rw [window], by rw [window]⟩
  · intro w back total u next
    rw [back.next clean next]
    simp only
    omega

/-- Back from the sixth row by twos, while the list becomes empty on the way, and from the second row,
which is not come back to. -/
theorem previous_walk_returns_of_odd_offsets :
    let v : Visit := ⟨"http://h/servers", "cursor=NToy&name=a", 9⟩
    let x : Visit := ⟨"http://h/servers", "cursor=MToy", 9⟩
    ('?' ∉ v.url.toList ∧ v.window = ⟨2, 5, .cursor⟩ ∧ x.window = ⟨2, 1, .cursor⟩)
      ∧ (∃ walk, v.WalkBack walk ∧ walk.length = 4
        ∧ ∀ i (inside : i < walk.length), walk[i].total = if i = 0 then 9 else 0)
      ∧ (v.Next v.onward ∧ ∃ u, (v.onward.finding 0).Previous u ∧ u.window.offset = 5)
      ∧ (v.Previous v.back ∧ ∃ u, (v.back.finding 9).Next u ∧ u.window.offset = 5)
      ∧ (x.Previous x.back ∧ ∃ u, (x.back.finding 9).Next u ∧ u.window.offset ≠ 1) := by
  intro v x
  have clean : '?' ∉ v.url.toList := by decide
  have window : v.window = ⟨2, 5, .cursor⟩ := by decide +kernel
  have second : x.window = ⟨2, 1, .cursor⟩ := by decide +kernel
  obtain ⟨exist, every, undoNext, undoBack⟩ := previous_walk_returns v clean
  have cutBack := (previous_walk_returns x clean).2.2.2
  have next : v.Next v.onward :=
    Visit.next_iff.mpr ⟨by rw [window]; decide, by rw [window]; decide, rfl⟩
  have back : v.Previous v.back :=
    Visit.previous_iff.mpr ⟨by rw [window]; decide, by rw [window]; decide, rfl⟩
  have backSecond : x.Previous x.back :=
    Visit.previous_iff.mpr ⟨by rw [second]; decide, by rw [second]; decide, rfl⟩
  refine ⟨⟨clean, window, second⟩, ?_, ⟨next, ?_⟩, ⟨back, ?_⟩, backSecond, ?_⟩
  · have small : ∀ n : Nat, (if n = 0 then 9 else 0 : Int) ≤ greatestOffset := by
      intro n
      split <;> decide
    obtain ⟨walk, path, totals⟩ := exist (fun n => if n = 0 then 9 else 0) small rfl
    have length := (every walk path).length
    have steps : ⌈((5 : Int) : ℚ) / ((2 : Int) : ℚ)⌉ = 3 := by
      rw [Int.ceil_eq_iff]
      norm_num
    rw [window, steps] at length
    exact ⟨walk, path, by omega, totals⟩
  · obtain ⟨u, there, -, offset⟩ := undoNext _ next (by decide) 0 (by decide)
    exact ⟨u, there, by rw [offset, window]⟩
  · have onward : (v.back.finding 9).Next (v.back.finding 9).onward :=
      Visit.next_iff.mpr ⟨by rw [Visit.finding_window, back.window clean, window]; decide,
        by rw [Visit.finding_window, back.window clean, window]; decide, rfl⟩
    have same := (undoBack _ back 9 _ onward).mpr (by rw [window]; decide)
    exact ⟨_, onward, by rw [same, window]⟩
  · have onward : (x.back.finding 9).Next (x.back.finding 9).onward :=
      Visit.next_iff.mpr ⟨by rw [Visit.finding_window, backSecond.window clean, second]; decide,
        by rw [Visit.finding_window, backSecond.window clean, second]; decide, rfl⟩
    have other := cutBack _ backSecond 9 _ onward
    rw [second] at other
    exact ⟨_, onward, by rw [ne_eq, other]; decide⟩

end FleetInventory
