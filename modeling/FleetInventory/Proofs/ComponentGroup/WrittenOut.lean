import FleetInventory.Proofs.ComponentGroup.RoundTrip
import FleetInventory.Proofs.ComponentGroup.Scanning

/-!
Groups that are written out: from the first index on without a gap, under keys that groups are read
from, and with no value left empty. Every such group asks for something, so as many groups are read
as there are indexes.
-/
namespace FleetInventory

namespace Params

theorem length_values (params : Params) (key : String) :
    (params.values key).length = params.keys.count key := by
  rw [values, keys, List.length_map, ← List.countP_eq_length_filter, List.count, List.countP_map]
  rfl

theorem mem_values {params : Params} {key value : String} (member : (key, value) ∈ params.pairs) :
    value ∈ params.values key :=
  List.mem_map.mpr ⟨(key, value), by simp [member], rfl⟩

end Params

theorem AttributeFilter.length_readAll {params : Params} {param : String}
    {filters : List AttributeFilter} (read : readAll params param = .ok filters) :
    filters.length = params.keys.count param := by
  rw [← (mapM_eq_ok.mp read).length_eq, params.length_values]

theorem AttributeFilter.readAll_ne_nil {params : Params} {param : String}
    {filters : List AttributeFilter} (read : readAll params param = .ok filters)
    (there : param ∈ params.keys) : filters ≠ [] := by
  have some := List.count_pos_iff.mpr there
  rw [← length_readAll read] at some
  exact List.ne_nil_of_length_pos some

namespace ComponentGroup

def fieldNames : List String := ["name", "vendor", "model", "serial", "type"]

/-- The group at the index is read from the key. -/
def Heeds (index : Nat) (key : String) : Prop :=
  (∃ field ∈ fieldNames, key = fieldParam index field) ∨ key = attributeParam index
    ∨ key = versionedParam index

/-- All that looks like a key of a group is one that a group is read from and has a value, and the
groups are numbered from zero without a gap. -/
structure WrittenOut (params : Params) : Prop where
  heeded : ∀ pair ∈ params.pairs, Text.startsWith "sc_" pair.1 = true →
    pair.2 ≠ "" ∧ ∃ index, Heeds index pair.1
  contiguous : ∃ k, ∀ index, (∃ key ∈ params.keys, Heeds index key) ↔ index < k

variable {params : Params} {group : ComponentGroup} {index k : Nat} {key : String}

theorem Heeds.owns (heeds : Heeds index key) : Owns index key := by
  rcases heeds with ⟨field, -, rfl⟩ | rfl | rfl
  · exact owns_fieldParam index field
  · exact owns_attributeParam index
  · exact owns_versionedParam index

section Full

theorem nothing_of_isEmpty (filled : group.Filled) (empty : group.isEmpty = true) :
    (∀ field ∈ group.namedFields, field.2 = none)
      ∧ group.attributes = [] ∧ group.versioned = [] := by
  have unset : ∀ field : Option String, field ≠ some "" → (∀ v, field = some v → v = "") →
      field = none := by
    intro field other blank
    cases field with
    | none => rfl
    | some v => exact absurd (congrArg some (blank v rfl)) other
  simp only [isEmpty, fields, kind?, Bool.and_eq_true, List.isEmpty_iff, List.filterMap_eq_nil_iff,
    List.forall_mem_cons, Option.map_eq_none_iff, Option.isNone_iff_eq_none,
    Option.filter_eq_none_iff, ne_eq, decide_not, Bool.not_eq_true', decide_eq_false_iff_not,
    not_not] at empty
  obtain ⟨⟨⟨⟨name, vendor, model, serial, -⟩, kind⟩, attributes⟩, versioned⟩ := empty
  refine ⟨?_, attributes, versioned⟩
  simp only [namedFields, List.forall_mem_cons, List.not_mem_nil, false_imp_iff, implies_true,
    and_true]
  exact ⟨unset _ filled.name name, unset _ filled.vendor vendor, unset _ filled.model model,
    unset _ filled.serial serial, unset _ filled.kind kind⟩

variable (read : readOne params index = .ok group)

include read

theorem namedFields_of_readOne : group.namedFields
    = fieldNames.map fun field => (field, params.filled? (fieldParam index field)) := by
  obtain ⟨attributes, -, read⟩ := bind_eq_ok.mp read
  obtain ⟨versioned, -, read⟩ := bind_eq_ok.mp read
  cases read
  rfl

theorem filters_of_readOne :
    AttributeFilter.readAll params (attributeParam index) = .ok group.attributes
      ∧ AttributeFilter.readAll params (versionedParam index) = .ok group.versioned := by
  obtain ⟨attributes, plain, read⟩ := bind_eq_ok.mp read
  obtain ⟨versioned, kept, read⟩ := bind_eq_ok.mp read
  cases read
  exact ⟨plain, kept⟩

theorem full_of_heeds {value : String} (heeds : Heeds index key)
    (member : (key, value) ∈ params.pairs) (full : value ≠ "") : group.isEmpty = false := by
  refine Bool.of_not_eq_true fun empty => ?_
  obtain ⟨fields, attributes, versioned⟩ := nothing_of_isEmpty (readOne_filled read) empty
  obtain ⟨plain, kept⟩ := filters_of_readOne read
  have there : key ∈ params.keys := List.mem_map_of_mem member
  rcases heeds with ⟨field, named, rfl⟩ | rfl | rfl
  · rw [namedFields_of_readOne read] at fields
    have unfilled := fields _ (List.mem_map_of_mem named)
    exact full (Params.filled?_eq_none_iff.mp unfilled value (Params.mem_values member))
  · exact AttributeFilter.readAll_ne_nil plain there attributes
  · exact AttributeFilter.readAll_ne_nil kept there versioned

end Full

theorem WrittenOut.of_bound
    (heeded : ∀ pair ∈ params.pairs, Text.startsWith "sc_" pair.1 = true →
      pair.2 ≠ "" ∧ ∃ i < k, Heeds i pair.1)
    (there : ∀ i < k, ∃ key ∈ params.keys, Heeds i key) : WrittenOut params := by
  refine ⟨?_, k, fun index => ⟨?_, there index⟩⟩
  · intro pair member begins
    obtain ⟨full, i, -, heeds⟩ := heeded pair member begins
    exact ⟨full, i, heeds⟩
  · rintro ⟨key, member, heeds⟩
    obtain ⟨pair, inside, rfl⟩ := List.mem_map.mp member
    obtain ⟨-, i, below, known⟩ := heeded pair inside (startsWith_of_owns heeds.owns)
    exact owns_inj known.owns heeds.owns ▸ below

/-- The first gap comes after the last index, and what looks like a key of a group belongs to one
before it. -/
theorem WrittenOut.exists_firstGap (written : WrittenOut params) :
    ∃ k, FirstGap params k ∧ (∀ i < k, ∃ key ∈ params.keys, Heeds i key)
      ∧ ∀ key ∈ params.keys, Text.startsWith "sc_" key = true → ∃ i < k, Owns i key := by
  obtain ⟨k, contiguous⟩ := written.contiguous
  have heeded : ∀ i < k, ∃ key ∈ params.keys, Heeds i key := fun i below => (contiguous i).mpr below
  have owned : ∀ key ∈ params.keys, Text.startsWith "sc_" key = true → ∃ i < k, Owns i key := by
    intro key member begins
    obtain ⟨pair, inside, rfl⟩ := List.mem_map.mp member
    obtain ⟨-, i, heeds⟩ := written.heeded pair inside begins
    exact ⟨i, (contiguous i).mp ⟨_, member, heeds⟩, heeds.owns⟩
  refine ⟨k, ⟨?_, ?_⟩, heeded, owned⟩
  · intro i below
    obtain ⟨key, member, heeds⟩ := heeded i below
    exact ⟨key, member, heeds.owns⟩
  · intro key member owns
    obtain ⟨i, below, other⟩ := owned key member (startsWith_of_owns owns)
    exact absurd (owns_inj owns other) (Nat.ne_of_gt below)

theorem WrittenOut.length_readAll {groups : List ComponentGroup} (written : WrittenOut params)
    (first : FirstGap params k) (heeded : ∀ i < k, ∃ key ∈ params.keys, Heeds i key)
    (read : readAll params = .ok groups) : groups.length = k := by
  obtain ⟨all, each, rfl⟩ := first.forall₂_of_readAll read
  have kept : all.filter (!·.isEmpty) = all := by
    refine List.filter_eq_self.mpr fun group member => ?_
    obtain ⟨i, inside, one⟩ := exists_of_forall₂ each group member
    obtain ⟨key, there, heeds⟩ := heeded i (List.mem_range.mp inside)
    obtain ⟨pair, known, rfl⟩ := List.mem_map.mp there
    obtain ⟨full, -⟩ := written.heeded pair known (startsWith_of_owns heeds.owns)
    simp [full_of_heeds one heeds known full]
  rw [kept, ← each.length_eq, List.length_range]

theorem FirstGap.length_readAll_le {groups : List ComponentGroup} (first : FirstGap params k)
    (read : readAll params = .ok groups) : groups.length ≤ k := by
  obtain ⟨all, each, rfl⟩ := first.forall₂_of_readAll read
  have counted : k = all.length := by rw [← each.length_eq, List.length_range]
  rw [counted]
  exact List.length_filter_le _ _

end ComponentGroup
end FleetInventory
