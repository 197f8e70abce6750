import FleetInventory.Proofs.Text.Split
import FleetInventory.Query.Params

/-!
Parameters and the values of their keys. Dropping and adding parameters changes the values of the
keys concerned alone, and whether a key is there is a question about its values.
-/
namespace FleetInventory.Params

theorem values_push (params : Params) (key value other : String) :
    (params.push key value).values other
      = params.values other ++ if key = other then [value] else [] := by
  by_cases same : key = other <;> simp [values, push, same]

theorem values_without {params : Params} {dropped : List String} {key : String}
    (kept : key ∉ dropped) : (params.without dropped).values key = params.values key := by
  unfold values without
  rw [List.filter_filter]
  congr 1
  apply List.filter_congr
  intro pair _
  by_cases same : pair.1 = key <;> simp [same, kept]

theorem values_without_of_mem {params : Params} {dropped : List String} {key : String}
    (gone : key ∈ dropped) : (params.without dropped).values key = [] := by
  unfold values without
  rw [List.filter_filter, List.map_eq_nil_iff, List.filter_eq_nil_iff]
  intro pair _
  by_cases same : pair.1 = key <;> simp [same, gone]

theorem without_without (params : Params) (dropped : List String) :
    (params.without dropped).without dropped = params.without dropped := by
  simp [without, List.filter_filter]

theorem without_push_of_mem {params : Params} {dropped : List String} {key : String}
    (gone : key ∈ dropped) (value : String) :
    (params.push key value).without dropped = params.without dropped := by
  simp [without, push, gone]

theorem mem_keys_iff {params : Params} {key : String} :
    key ∈ params.keys ↔ params.values key ≠ [] := by
  simp only [keys, values, List.mem_map, ne_eq, List.map_eq_nil_iff, List.filter_eq_nil_iff,
    decide_eq_true_eq]
  constructor
  · rintro ⟨pair, member, same⟩ absent
    exact absent pair member same
  · intro filled
    apply Decidable.byContradiction
    intro missing
    exact filled fun pair member same => missing ⟨pair, member, same⟩

theorem has_iff {params : Params} {key : String} :
    params.has key = true ↔ key ∈ params.keys := by
  simp [has]

theorem hasStem_iff {params : Params} {stem : String} :
    params.hasStem stem = true
      ↔ ∃ key ∈ params.keys, ∃ rest, key.toList = stem.toList ++ rest := by
  simp [hasStem, Text.startsWith_iff]

theorem filled?_congr {p q : Params} {key : String} (same : p.values key = q.values key) :
    p.filled? key = q.filled? key := by
  rw [filled?, filled?, same]

theorem filled?_eq_none_iff {params : Params} {key : String} :
    params.filled? key = none ↔ ∀ value ∈ params.values key, value = "" := by
  simp [filled?]

theorem filled?_push {params : Params} {key value : String} (full : value ≠ "") :
    (params.push key value).filled? key = some value := by
  simp [filled?, values_push, full]

theorem filled?_push_of_ne {params : Params} {key other : String} (differ : key ≠ other)
    (value : String) : (params.push key value).filled? other = params.filled? other := by
  simp [filled?, values_push, differ]

theorem filled?_without_of_mem {params : Params} {dropped : List String} {key : String}
    (gone : key ∈ dropped) : (params.without dropped).filled? key = none := by
  rw [filled?, values_without_of_mem gone]
  rfl

end FleetInventory.Params
