import FleetInventory.Proofs.Text.Percent
import FleetInventory.Proofs.Text.Split
import FleetInventory.Query.Params

/-!
Writing parameters and reading them again. A written key or value holds no mark that divides a
query string, so the parts are found where they were put. Main statement:
`query_string_round_trip`, parameters survive being written and read, and one reading of any text
settles its written form.
-/
namespace FleetInventory

namespace Params

theorem not_mem_encode (text : String) {c : Char} (mark : Percent.isKept c = false) :
    c ∉ (Percent.encode text).toList := by
  intro member
  have kept := Percent.encode_kept member
  rw [mark] at kept
  exact Bool.false_ne_true kept

theorem spaceForPlus_of_not_mem {cs : List Char} (clean : '+' ∉ cs) : spaceForPlus cs = cs := by
  unfold spaceForPlus
  conv => rhs; rw [← List.map_id cs]
  apply List.map_congr_left
  intro c member
  have other : c ≠ '+' := fun same => clean (same ▸ member)
  simp [other]

theorem decodeComponent_encode (text : String) :
    decodeComponent (Percent.encode text).toList = text := by
  have clean := not_mem_encode text (c := '+') (by decide)
  simp [decodeComponent, spaceForPlus_of_not_mem clean, Percent.decode?_encode]

theorem readPart_writePart (pair : String × String) : readPart (writePart pair) = pair := by
  have clean := not_mem_encode pair.1 (c := '=') (by decide)
  rw [readPart, writePart, Text.cut_append clean]
  simp only [decodeComponent_encode]

theorem writePart_clean (pair : String × String) : '&' ∉ writePart pair := by
  have key := not_mem_encode pair.1 (c := '&') (by decide)
  have value := not_mem_encode pair.2 (c := '&') (by decide)
  simp [writePart, key, value]

theorem writePart_ne_nil (pair : String × String) : writePart pair ≠ [] := by
  simp [writePart]

/-- The parts of a written query string are the written parameters; of no parameters at all, one
empty part is left. -/
theorem pieces_render (params : Params) :
    (Text.pieces '&' params.render.toList).filter (!·.isEmpty)
      = params.pairs.map writePart := by
  have full : ∀ part ∈ params.pairs.map writePart, '&' ∉ part ∧ part ≠ [] := by
    intro part member
    obtain ⟨pair, -, rfl⟩ := List.mem_map.mp member
    exact ⟨writePart_clean pair, writePart_ne_nil pair⟩
  rw [render, String.toList_ofList]
  generalize params.pairs.map writePart = parts at full
  by_cases bare : parts = []
  · subst bare
    rfl
  · rw [Text.pieces_glue bare fun part member => (full part member).1]
    apply List.filter_eq_self.mpr
    intro part member
    simp [(full part member).2]

theorem parse_render (params : Params) : parse params.render = params := by
  have same : readPart ∘ writePart = id := by
    funext pair
    rw [Function.comp_apply, readPart_writePart, id]
  rw [parse, pieces_render, List.map_map, same, List.map_id]

end Params

/-- Any keys and values, empty and repeated ones included, are read back as they were written. So
a text that was read once is written in a form that reading and writing no longer change. -/
theorem query_string_round_trip :
    (∀ pairs : List (String × String), (Params.parse (Params.mk pairs).render).pairs = pairs)
    ∧ ∀ raw : String, Params.parse (Params.parse raw).render = Params.parse raw
      ∧ (Params.parse (Params.parse raw).render).render = (Params.parse raw).render := by
  constructor
  · intro pairs
    rw [Params.parse_render]
  · intro raw
    have settled := Params.parse_render (Params.parse raw)
    exact ⟨settled, congrArg Params.render settled⟩

/-- Truncated and undecodable escapes are among what is settled by one reading. -/
example : (Params.parse "a=%FF+%2&&b==1&%26").render = "a=%25FF%20%252&b=%3D1&%26=" := by
  decide +kernel

end FleetInventory
