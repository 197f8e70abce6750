import FleetInventory.Proofs.Paging.Walk

/-!
Whether following `next` comes to an end. A next window beyond the greatest offset is read back as
the one at the greatest offset, so every step moves on but one that begins there. Main statement:
`next_progresses`, which steps move on, and for which totals the links never end.
-/
namespace FleetInventory

open Paging

namespace Visit

def Next (v w : Visit) : Prop :=
  ∃ envelope, v.envelope = .ok envelope ∧ v.follow? envelope .next = some w

def Endless (v : Visit) : Prop :=
  ∃ walk : Nat → Visit, walk 0 = v ∧ ∀ n, (walk n).Next (walk (n + 1))

variable {v w : Visit}

theorem answered_iff :
    (∃ envelope, v.envelope = .ok envelope) ↔ v.total + v.window.limit ≤ Word.greatest := by
  have counted := Envelope.totalPages?_eq v.total v.limit_pos v.window_valid.limit_le
  constructor
  · rintro ⟨envelope, answered⟩
    obtain ⟨pages, made, -⟩ := Envelope.ofPage_eq_ok.mp answered
    apply Decidable.byContradiction
    intro beyond
    cases made.symm.trans (counted.trans (if_neg beyond))
  · intro room
    exact ⟨_, Envelope.ofPage_eq_ok.mpr ⟨_, counted.trans (if_pos room), rfl⟩⟩

/-- A link that every answer has on one condition can be followed where the visit is answered and the
condition holds, and leads to one visit. -/
theorem follows_iff {name : LinkName} {there : Prop} [Decidable there] {u : Visit}
    (link : ∀ {envelope}, v.envelope = .ok envelope →
      v.follow? envelope name = if there then some u else none) :
    (∃ envelope, v.envelope = .ok envelope ∧ v.follow? envelope name = some w)
      ↔ v.total + v.window.limit ≤ Word.greatest ∧ there ∧ w = u := by
  constructor
  · rintro ⟨envelope, answered, led⟩
    rw [link answered] at led
    split at led
    · next holds => exact ⟨answered_iff.mp ⟨envelope, answered⟩, holds, (Option.some.inj led).symm⟩
    · cases led
  · rintro ⟨room, holds, rfl⟩
    obtain ⟨envelope, answered⟩ := answered_iff.mpr room
    exact ⟨envelope, answered, by rw [link answered, if_pos holds]⟩

theorem next_iff : v.Next w ↔ v.total + v.window.limit ≤ Word.greatest
    ∧ v.window.offset + v.window.limit < v.total ∧ w = v.onward :=
  follows_iff follow?_next

/-- The visit moves on by its limit, or as far as offsets go, in the same list. -/
structure Moves (v w : Visit) : Prop where
  url : w.url = v.url
  total : w.total = v.total
  window : w.window
    = ⟨v.window.limit, min (v.window.offset + v.window.limit) greatestOffset, .cursor⟩

theorem Next.moves (next : v.Next w) (clean : '?' ∉ v.url.toList) : v.Moves w := by
  obtain ⟨-, -, rfl⟩ := next_iff.mp next
  exact ⟨rfl, rfl, window_onward clean⟩

theorem Moves.lt_iff (moves : v.Moves w) :
    v.window.offset < w.window.offset ↔ v.window.offset < greatestOffset := by
  have pos := v.limit_pos
  rw [moves.window]
  simp only
  omega

theorem offset_le (v : Visit) : v.window.offset ≤ greatestOffset := v.window_valid.offset_le

/-- Even the window at the greatest offset leaves rows, and the total is answered. -/
structure Beyond (v : Visit) : Prop where
  clean : '?' ∉ v.url.toList
  rows : greatestOffset + v.window.limit < v.total
  room : v.total + v.window.limit ≤ Word.greatest

theorem Beyond.next (beyond : v.Beyond) : v.Next v.onward := by
  have more : v.window.offset + v.window.limit < v.total := by
    have most := v.offset_le
    have rows := beyond.rows
    omega
  exact next_iff.mpr ⟨beyond.room, more, rfl⟩

theorem Beyond.onward (beyond : v.Beyond) : v.onward.Beyond := by
  have window := window_onward beyond.clean
  exact ⟨beyond.clean, by rw [window]; exact beyond.rows, by rw [window]; exact beyond.room⟩

theorem Beyond.endless (beyond : v.Beyond) : v.Endless := by
  have kept : ∀ n, (Visit.onward^[n] v).Beyond := by
    intro n
    induction n with
    | zero => exact beyond
    | succ n ih =>
      rw [Function.iterate_succ_apply']
      exact ih.onward
  refine ⟨fun n => Visit.onward^[n] v, rfl, ?_⟩
  intro n
  have step := (kept n).next
  rwa [← Function.iterate_succ_apply' Visit.onward] at step

/-- While the window at the greatest offset would leave no rows, every step moves on, so after n
steps a walk is n rows further at least. -/
theorem offset_of_walk {walk : Nat → Visit} (steps : ∀ n, (walk n).Next (walk (n + 1)))
    (clean : '?' ∉ (walk 0).url.toList)
    (few : (walk 0).total ≤ greatestOffset + (walk 0).window.limit) (n : Nat) :
    (walk n).url = (walk 0).url ∧ (walk n).total = (walk 0).total
      ∧ (walk n).window.limit = (walk 0).window.limit ∧ (n : Int) ≤ (walk n).window.offset := by
  induction n with
  | zero => exact ⟨rfl, rfl, rfl, (walk 0).window_valid.offset_nonneg⟩
  | succ n ih =>
    obtain ⟨url, total, limit, far⟩ := ih
    have moves := (steps n).moves (url ▸ clean)
    obtain ⟨-, more, -⟩ := next_iff.mp (steps n)
    have forward := moves.lt_iff.mpr (by omega)
    refine ⟨moves.url.trans url, moves.total.trans total, ?_, by push_cast; omega⟩
    rw [moves.window]
    exact limit

theorem endless_iff (clean : '?' ∉ v.url.toList) : v.Endless
    ↔ greatestOffset + v.window.limit < v.total ∧ v.total + v.window.limit ≤ Word.greatest := by
  constructor
  · rintro ⟨walk, rfl, steps⟩
    refine ⟨?_, (next_iff.mp (steps 0)).1⟩
    apply Int.not_le.mp
    intro few
    obtain ⟨-, -, -, far⟩ := offset_of_walk steps clean few (greatestOffset.toNat + 1)
    have most := (walk (greatestOffset.toNat + 1)).offset_le
    omega
  · rintro ⟨rows, room⟩
    exact Beyond.endless ⟨clean, rows, room⟩

end Visit

/-- A link `next` keeps the list, its total and the limit, and moves the window on by the limit, or
up to the greatest offset; it moves it at all exactly where it does not begin there already. So the
links come to an end, unless even the window at the greatest offset leaves rows and the total still
leaves room for the limit in a word: then they never do. -/
theorem next_progresses (v : Visit) (clean : '?' ∉ v.url.toList) :
    (∀ w, v.Next w → v.Moves w
      ∧ (v.window.offset < w.window.offset ↔ v.window.offset < greatestOffset))
    ∧ (v.Endless
      ↔ greatestOffset + v.window.limit < v.total ∧ v.total + v.window.limit ≤ Word.greatest) := by
  refine ⟨?_, Visit.endless_iff clean⟩
  intro w next
  have moves := next.moves clean
  exact ⟨moves, moves.lt_iff⟩

/-- The last step up to the greatest offset, which the next window shows the end of. -/
theorem next_progresses_of_last_step :
    let v : Visit :=
      ⟨"http://h/servers", "page=922337203685477481&limit=10", 9223372036854774817⟩
    '?' ∉ v.url.toList ∧ v.window.offset = 9223372036854774800 ∧ v.Next v.onward
      ∧ v.window.offset < v.onward.window.offset ∧ v.onward.window.offset = greatestOffset
      ∧ ¬ v.Endless := by
  intro v
  have clean : '?' ∉ v.url.toList := by decide
  have window : v.window = ⟨10, 9223372036854774800, .pages⟩ := by decide +kernel
  have next : v.Next v.onward :=
    Visit.next_iff.mpr ⟨by rw [window]; decide, by rw [window]; decide, rfl⟩
  obtain ⟨steps, endless⟩ := next_progresses v clean
  obtain ⟨moves, forward⟩ := steps _ next
  refine ⟨clean, by rw [window], next, forward.mpr (by rw [window]; decide), ?_, ?_⟩
  · rw [moves.window, window]
    decide
  · rw [endless, window]
    decide

/-- The greatest page of a list that is longer still: its link `next` leads to the same rows again,
and so on for ever. -/
theorem next_stays_at_greatest_offset :
    let v : Visit :=
      ⟨"http://h/servers", "limit=10&page=9223372036854775807", 9223372036854775797⟩
    '?' ∉ v.url.toList ∧ Word.Fits v.total ∧ v.Next v.onward
      ∧ ¬ v.window.offset < v.onward.window.offset ∧ v.Endless := by
  intro v
  have clean : '?' ∉ v.url.toList := by decide
  have window : v.window = ⟨10, greatestOffset, .pages⟩ := by decide +kernel
  have beyond : v.Beyond := ⟨clean, by rw [window]; decide, by rw [window]; decide⟩
  have moves := beyond.next.moves clean
  refine ⟨clean, by decide, beyond.next, ?_, beyond.endless⟩
  rw [moves.lt_iff, window]
  decide

end FleetInventory
