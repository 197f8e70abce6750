import FleetInventory.Proofs.Paging.Window
import FleetInventory.Proofs.Text.Percent

/-!
Cursors as tokens of a query. A token is the Base64 text of two numbers; it reads back as the
cursor it was written for, brought into the bounds, and stands in a query string unescaped. Main
statement: `tokens_read_back`, for any two words, any text and the window of any request.
-/
namespace FleetInventory

open Paging

theorem Base64.digit_plain {n : Nat} (small : n < 64) : Percent.isPlain (digit n) = true := by
  have all : ∀ n : Fin 64, Percent.isPlain (digit n) = true := by decide
  exact all ⟨n, small⟩

theorem Cursor.encode_plain {cursor : Cursor} {c : Char} (member : c ∈ cursor.encode.toList) :
    Percent.isPlain c = true := by
  rw [encode, String.toList_ofList] at member
  obtain ⟨n, small, rfl⟩ := Base64.exists_digit_of_mem_encode member
  exact Base64.digit_plain small

/-- Any two words are read back with both numbers brought into their ranges, and the window of any
request as it is. Only the Base64 text of two numbers is read at all; what is read lies within the
bounds, and is read from its own token again. A token is written in a query as it stands. -/
theorem tokens_read_back :
    (∀ offset limit : Int, Word.Fits offset → Word.Fits limit →
      Cursor.decode? (Cursor.encode ⟨offset, limit⟩)
        = some ⟨max 0 (min offset greatestOffset), effectiveLimit limit⟩)
    ∧ (∀ request : PageRequest,
      Cursor.decode? request.window.here.encode = some request.window.here)
    ∧ (∀ (token : String) (c : Cursor), Cursor.decode? token = some c →
      (0 ≤ c.offset ∧ c.offset ≤ greatestOffset) ∧ (1 ≤ c.limit ∧ c.limit ≤ greatestLimit)
        ∧ Cursor.decode? c.encode = some c
        ∧ ∃ text, token = String.ofList (Base64.encode (Text.bytes text))
          ∧ Cursor.ofText? text = some c)
    ∧ ∀ c : Cursor, Percent.encode c.encode = c.encode := by
  refine ⟨?_, ?_, ?_, ?_⟩
  · intro offset limit offsetFits limitFits
    exact Cursor.decode?_encode offsetFits limitFits
  · intro request
    exact request.window_valid.decode?_encode
  · intro token c read
    have valid := Cursor.decode?_valid read
    exact ⟨⟨valid.offset_nonneg, valid.offset_le⟩, ⟨valid.limit_pos, valid.limit_le⟩,
      valid.decode?_encode, Cursor.decode?_eq_some_iff.mp read⟩
  · intro c
    exact Percent.encode_of_plain fun _ => Cursor.encode_plain

/-- The ends of the range of words, and the token of `+5:007`. -/
theorem tokens_read_back_of_extreme_words :
    Word.Fits Word.least ∧ Word.Fits Word.greatest
      ∧ Cursor.decode? (Cursor.encode ⟨Word.least, Word.greatest⟩) = some ⟨0, 1000⟩
      ∧ Cursor.decode? (Cursor.encode ⟨Word.greatest, Word.least⟩) = some ⟨greatestOffset, 100⟩
      ∧ Cursor.decode? "KzU6MDA3" = some ⟨5, 7⟩
      ∧ Cursor.decode? (Cursor.encode ⟨5, 7⟩) = some ⟨5, 7⟩
      ∧ Percent.encode (Cursor.encode ⟨Word.least, Word.greatest⟩)
        = Cursor.encode ⟨Word.least, Word.greatest⟩ := by
  obtain ⟨words, -, texts, plain⟩ := tokens_read_back
  have least : Word.Fits Word.least := by decide
  have greatest : Word.Fits Word.greatest := by decide
  have read : Cursor.decode? "KzU6MDA3" = some ⟨5, 7⟩ := by decide +kernel
  obtain ⟨-, -, again, -⟩ := texts _ _ read
  exact ⟨least, greatest, words _ _ least greatest, words _ _ greatest least, read, again, plain _⟩

/-- The same two numbers with unused bits that are not zero, or with padding, are no token. -/
example : Cursor.decode? "NToxMg" = some ⟨5, 12⟩ ∧ Cursor.decode? "NToxMh" = none
    ∧ Cursor.decode? "NToxMg==" = none := by
  decide +kernel

end FleetInventory
