import FleetInventory.Proofs.AttributeFilter.Token
import FleetInventory.Proofs.Query.Reading
import FleetInventory.Proofs.Query.RoundTrip
import FleetInventory.Proofs.Search.Agreement

/-!
Groups written as parameters and read again. Every written parameter belongs to the index of its
group, so a key has the values that its own group wrote, in whatever order the groups were written
and whatever else the request holds. Main statement: `groups_read_back`.
-/
namespace FleetInventory

namespace Params

theorem values_append (ps qs : List (String × String)) (key : String) :
    (Params.mk (ps ++ qs)).values key = (Params.mk ps).values key ++ (Params.mk qs).values key := by
  simp [values]

theorem values_eq_nil {params : Params} {key : String} (absent : key ∉ params.keys) :
    params.values key = [] :=
  Decidable.byContradiction fun filled => absent (mem_keys_iff.mpr filled)

theorem values_map {α : Type} (f : α → String) (items : List α) (own key : String) :
    (Params.mk (items.map fun a => (own, f a))).values key
      = if own = key then items.map f else [] := by
  by_cases same : own = key
  · subst same
    have kept : (items.map fun a => (own, f a)).filter (·.1 = own)
        = items.map fun a => (own, f a) :=
      List.filter_eq_self.mpr (by simp)
    rw [values, kept, if_pos rfl, List.map_map]
    rfl
  · simp [values, same]

theorem filled?_of_values {params : Params} {key : String} {value : Option String}
    (values : params.values key = value.toList) (full : value ≠ some "") :
    params.filled? key = value := by
  cases value with
  | none => simp [filled?, values]
  | some v =>
    have other : v ≠ "" := fun same => full (congrArg some same)
    simp [filled?, values, other]

end Params

theorem AttributeFilter.readOne_encode {filter : AttributeFilter} (scope : filter.scope ≠ "")
    (delimited : filter.Delimited) (patterned : filter.Patterned) (param : String) :
    readOne param filter.encode = .ok filter := by
  have back : decode filter.encode = filter :=
    (decode_encode delimited).trans (opened_eq_self.mpr patterned)
  simp only [readOne, back, check, scope, ne_eq, not_false_eq_true, ↓reduceIte]
  rfl

namespace ComponentGroup

/-- The filters can be written so that they are read as they are. -/
def Legible (filters : List AttributeFilter) : Prop :=
  ∀ filter ∈ filters, filter.scope ≠ "" ∧ filter.Delimited ∧ filter.Patterned

/-- A group that asks for something, and whose parameters say all of it. -/
structure Writable (group : ComponentGroup) : Prop where
  full : group.isEmpty = false
  filled : group.Filled
  attributes : Legible group.attributes
  versioned : Legible group.versioned

theorem readAll_encode {filters : List AttributeFilter} (legible : Legible filters)
    {params : Params} {param : String}
    (values : params.values param = filters.map AttributeFilter.encode) :
    AttributeFilter.readAll params param = .ok filters := by
  rw [AttributeFilter.readAll, values]
  apply mapM_eq_ok.mpr
  rw [List.forall₂_map_left_iff, List.forall₂_same]
  intro filter member
  obtain ⟨scope, delimited, patterned⟩ := legible filter member
  exact AttributeFilter.readOne_encode scope delimited patterned param

def namedFields (group : ComponentGroup) : List (String × Option String) :=
  [("name", group.name), ("vendor", group.vendor), ("model", group.model),
    ("serial", group.serial), ("type", group.kind)]

def pushedFields (index : Nat) (fields : List (String × Option String)) :
    List (String × String) :=
  fields.filterMap fun (field, value) => value.map fun v => (fieldParam index field, v)

def pushed (index : Nat) (group : ComponentGroup) : List (String × String) :=
  pushedFields index group.namedFields
    ++ (group.attributes.map fun f => (attributeParam index, f.encode))
    ++ group.versioned.map fun f => (versionedParam index, f.encode)

theorem pairs_pushTo (params : Params) (index : Nat) (group : ComponentGroup) :
    (group.pushTo params index).pairs = params.pairs ++ pushed index group := by
  simp [pushTo, pushed, pushedFields, namedFields]

section Keys

variable (index : Nat)

theorem fieldParam_inj {index : Nat} {a b : String}
    (same : fieldParam index a = fieldParam index b) :
    a = b := by
  have chars := congrArg String.toList same
  simp only [fieldParam, String.toList_append, List.append_cancel_left_eq,
    List.append_cancel_right_eq] at chars
  exact String.toList_inj.mp chars

theorem fieldParam_ne_attributeParam (field : String) :
    fieldParam index field ≠ attributeParam index := by
  intro same
  have chars := congrArg String.toList same
  simp [fieldParam, fieldStem, attributeParam] at chars

theorem fieldParam_ne_versionedParam (field : String) :
    fieldParam index field ≠ versionedParam index := by
  intro same
  have chars := congrArg String.toList same
  simp [fieldParam, fieldStem, versionedParam] at chars

theorem attributeParam_ne_versionedParam : attributeParam index ≠ versionedParam index := by
  intro same
  have chars := congrArg String.toList same
  simp [attributeParam, versionedParam] at chars

end Keys

theorem startsWith_of_owns {index : Nat} {key : String} (owns : Owns index key) :
    Text.startsWith "sc_" key = true := by
  obtain ⟨tail, chars, -⟩ := owns_numeral owns
  exact Text.startsWith_iff.mpr ⟨_, chars⟩

theorem owns_of_pushed {index : Nat} {group : ComponentGroup} {key : String}
    (member : key ∈ (Params.mk (pushed index group)).keys) : Owns index key := by
  simp only [Params.keys, pushed, List.map_append, List.map_map, List.mem_append,
    List.mem_map, Function.comp_def] at member
  rcases member with (⟨pair, inside, rfl⟩ | ⟨filter, -, rfl⟩) | ⟨filter, -, rfl⟩
  · obtain ⟨field, -, value⟩ := List.mem_filterMap.mp inside
    obtain ⟨v, -, rfl⟩ := Option.map_eq_some_iff.mp value
    exact owns_fieldParam index field.1
  · exact owns_attributeParam index
  · exact owns_versionedParam index

section OwnValues

variable (index : Nat)

theorem values_pushedFields (fields : List (String × Option String)) (name : String) :
    (Params.mk (pushedFields index fields)).values (fieldParam index name)
      = (fields.filter (·.1 = name)).filterMap (·.2) := by
  induction fields with
  | nil => rfl
  | cons field rest ih =>
    obtain ⟨own, value⟩ := field
    have param : fieldParam index own = fieldParam index name ↔ own = name :=
      ⟨fieldParam_inj, congrArg (fieldParam index)⟩
    simp only [Params.values, pushedFields] at ih ⊢
    cases value with
    | none => by_cases same : own = name <;> simp [same, ih]
    | some v => by_cases same : own = name <;> simp [param, same, ih]

theorem values_pushedFields_of_ne (fields : List (String × Option String)) {key : String}
    (other : ∀ field, fieldParam index field ≠ key) :
    (Params.mk (pushedFields index fields)).values key = [] := by
  apply Params.values_eq_nil
  intro member
  obtain ⟨pair, inside, rfl⟩ := List.mem_map.mp member
  obtain ⟨field, -, value⟩ := List.mem_filterMap.mp inside
  obtain ⟨v, -, rfl⟩ := Option.map_eq_some_iff.mp value
  exact other field.1 rfl

variable (group : ComponentGroup)

theorem values_pushed_field (name : String) :
    (Params.mk (pushed index group)).values (fieldParam index name)
      = (group.namedFields.filter (·.1 = name)).filterMap (·.2) := by
  have notPlain := (fieldParam_ne_attributeParam index name).symm
  have notVersioned := (fieldParam_ne_versionedParam index name).symm
  simp [pushed, Params.values_append, values_pushedFields, Params.values_map, notPlain,
    notVersioned]

theorem values_pushed_attributes :
    (Params.mk (pushed index group)).values (attributeParam index)
      = group.attributes.map AttributeFilter.encode := by
  have fields := values_pushedFields_of_ne index group.namedFields
    (fieldParam_ne_attributeParam index)
  have notVersioned := (attributeParam_ne_versionedParam index).symm
  simp [pushed, Params.values_append, fields, Params.values_map, notVersioned]

theorem values_pushed_versioned :
    (Params.mk (pushed index group)).values (versionedParam index)
      = group.versioned.map AttributeFilter.encode := by
  have fields := values_pushedFields_of_ne index group.namedFields
    (fieldParam_ne_versionedParam index)
  have notPlain := attributeParam_ne_versionedParam index
  simp [pushed, Params.values_append, fields, Params.values_map, notPlain]

end OwnValues

/-- A group is read at its index from any parameters in which its keys have the values it wrote. -/
theorem readOne_pushed {params : Params} {index : Nat} {group : ComponentGroup}
    (writable : group.Writable)
    (own : ∀ key, Owns index key →
      params.values key = (Params.mk (pushed index group)).values key) :
    readOne params index = .ok group := by
  have field : ∀ name value, group.namedFields.filter (·.1 = name) = [(name, value)] →
      value ≠ some "" → params.filled? (fieldParam index name) = value := by
    intro name value named full
    apply Params.filled?_of_values _ full
    rw [own _ (owns_fieldParam index name), values_pushed_field, named]
    cases value <;> rfl
  have name := field "name" group.name (by simp [namedFields]) writable.filled.name
  have vendor := field "vendor" group.vendor (by simp [namedFields]) writable.filled.vendor
  have model := field "model" group.model (by simp [namedFields]) writable.filled.model
  have serial := field "serial" group.serial (by simp [namedFields]) writable.filled.serial
  have kind := field "type" group.kind (by simp [namedFields]) writable.filled.kind
  have attributes := readAll_encode writable.attributes
    ((own _ (owns_attributeParam index)).trans (values_pushed_attributes index group))
  have versioned := readAll_encode writable.versioned
    ((own _ (owns_versionedParam index)).trans (values_pushed_versioned index group))
  simp only [readOne, attributes, versioned, name, vendor, model, serial, kind]
  rfl

theorem pushed_ne_nil {group : ComponentGroup} (full : group.isEmpty = false) (index : Nat) :
    pushed index group ≠ [] := by
  intro bare
  obtain ⟨name, vendor, model, serial, kind, attributes, versioned⟩ := group
  simp only [pushed, pushedFields, namedFields, List.append_eq_nil_iff, List.map_eq_nil_iff,
    List.filterMap_eq_nil_iff, List.mem_cons, List.not_mem_nil, or_false, forall_eq_or_imp,
    forall_eq, Option.map_eq_none_iff] at bare
  obtain ⟨⟨⟨rfl, rfl, rfl, rfl, rfl⟩, rfl⟩, rfl⟩ := bare
  exact absurd full (by decide)

def pushAll (params : Params) (placed : List (ComponentGroup × Nat)) : Params :=
  placed.foldl (fun pushed one => one.1.pushTo pushed one.2) params

theorem pairs_pushAll (params : Params) (placed : List (ComponentGroup × Nat)) :
    (pushAll params placed).pairs
      = params.pairs ++ placed.flatMap fun one => pushed one.2 one.1 := by
  unfold pushAll
  induction placed generalizing params with
  | nil => simp
  | cons one rest ih => simp [ih, pairs_pushTo]

section Placed

variable {params : Params} {placed : List (ComponentGroup × Nat)}

theorem values_pushAll (key : String) :
    (pushAll params placed).values key
      = params.values key
        ++ placed.flatMap fun one => (Params.mk (pushed one.2 one.1)).values key := by
  have pairs : pushAll params placed
      = ⟨params.pairs ++ placed.flatMap fun one => pushed one.2 one.1⟩ :=
    congrArg Params.mk (pairs_pushAll params placed)
  rw [pairs, Params.values_append]
  congr 1
  induction placed with
  | nil => rfl
  | cons one rest ih =>
    rw [List.flatMap_cons, Params.values_append, List.flatMap_cons]
    exact congrArg _ (ih (congrArg Params.mk (pairs_pushAll params rest)))

theorem values_pushAll_of_foreign {key : String} (foreign : ∀ one ∈ placed, ¬ Owns one.2 key) :
    (pushAll params placed).values key = params.values key := by
  rw [values_pushAll, List.flatMap_eq_nil_iff.mpr, List.append_nil]
  intro one member
  exact Params.values_eq_nil fun inside => foreign one member (owns_of_pushed inside)

/-- Indexes are given once each, so the owner of a key wrote all its values. -/
theorem values_pushAll_of_owns {index : Nat} {group : ComponentGroup} {key : String}
    (once : (placed.map (·.2)).Nodup) (member : (group, index) ∈ placed) (owns : Owns index key)
    (absent : key ∉ params.keys) :
    (pushAll params placed).values key = (Params.mk (pushed index group)).values key := by
  obtain ⟨before, after, rfl⟩ := List.append_of_mem member
  simp only [List.map_append, List.map_cons, List.nodup_append, List.nodup_cons] at once
  obtain ⟨-, ⟨notAfter, -⟩, apart⟩ := once
  have silent : ∀ one : ComponentGroup × Nat, one.2 ≠ index →
      (Params.mk (pushed one.2 one.1)).values key = [] := by
    intro one other
    exact Params.values_eq_nil fun inside => other (owns_inj (owns_of_pushed inside) owns)
  have first : (before.flatMap fun one => (Params.mk (pushed one.2 one.1)).values key) = [] :=
    List.flatMap_eq_nil_iff.mpr fun one inside => silent one fun same =>
      apart one.2 (List.mem_map_of_mem inside) index List.mem_cons_self same
  have last : (after.flatMap fun one => (Params.mk (pushed one.2 one.1)).values key) = [] :=
    List.flatMap_eq_nil_iff.mpr fun one inside => silent one fun same =>
      notAfter (same ▸ List.mem_map_of_mem inside)
  simp [values_pushAll, Params.values_eq_nil absent, first, last]

theorem present_pushAll (full : ∀ one ∈ placed, one.1.isEmpty = false)
    (foreign : ∀ key ∈ params.keys, Text.startsWith "sc_" key = false) (index : Nat) :
    present (pushAll params placed) index = true ↔ index ∈ placed.map (·.2) := by
  rw [present_iff, Params.keys, pairs_pushAll, List.map_append, List.map_flatMap]
  constructor
  · rintro ⟨key, member, owns⟩
    rcases List.mem_append.mp member with member | member
    · have stranger := foreign key member
      rw [startsWith_of_owns owns] at stranger
      cases stranger
    · obtain ⟨one, inside, member⟩ := List.mem_flatMap.mp member
      exact List.mem_map.mpr ⟨one, inside, owns_inj (owns_of_pushed member) owns⟩
  · intro member
    obtain ⟨one, inside, rfl⟩ := List.mem_map.mp member
    obtain ⟨pair, some⟩ := List.exists_mem_of_ne_nil _ (pushed_ne_nil (full one inside) one.2)
    have key : pair.1 ∈ (Params.mk (pushed one.2 one.1)).keys := List.mem_map_of_mem some
    exact ⟨pair.1, List.mem_append_right _ (List.mem_flatMap.mpr ⟨one, inside, key⟩),
      owns_of_pushed key⟩

end Placed

theorem readAll_pushAll {params : Params} {groups : List ComponentGroup}
    {placed : List (ComponentGroup × Nat)}
    (foreign : ∀ key ∈ params.keys, Text.startsWith "sc_" key = false)
    (writable : ∀ group ∈ groups, group.Writable) (every : placed.Perm groups.zipIdx) :
    readAll (pushAll params placed) = .ok groups := by
  have indexed : (placed.map (·.2)).Perm (List.range groups.length) := by
    have same := every.map (·.2)
    rwa [List.zipIdx_map_snd, ← List.range_eq_range'] at same
  have once : (placed.map (·.2)).Nodup := indexed.nodup_iff.mpr List.nodup_range
  have inGroups : ∀ one ∈ placed, one.1 ∈ groups := fun one member =>
    List.fst_mem_of_mem_zipIdx (every.mem_iff.mp member)
  have present :=
    present_pushAll (fun one member => (writable _ (inGroups one member)).full) foreign
  have indexes : indexes (pushAll params placed) = List.range groups.length := by
    obtain ⟨k, whole, below, stop⟩ := indexes_eq_range (pushAll params placed)
    have least : ¬ k < groups.length := by
      intro early
      have found := (present k).mpr (indexed.mem_iff.mpr (List.mem_range.mpr early))
      rw [stop] at found
      cases found
    have most : ¬ groups.length < k := by
      intro late
      have found := indexed.mem_iff.mp ((present groups.length).mp (below _ late))
      exact absurd (List.mem_range.mp found) (Nat.lt_irrefl _)
    rw [whole, show k = groups.length by omega]
  have read : (List.range groups.length).mapM (readOne (pushAll params placed)) = .ok groups := by
    apply mapM_eq_ok.mpr
    rw [List.forall₂_iff_get]
    refine ⟨List.length_range, fun index _ inside => ?_⟩
    have member : (groups[index], index) ∈ placed :=
      every.mem_iff.mpr (List.mk_mem_zipIdx_iff_getElem?.mpr (List.getElem?_eq_getElem inside))
    simp only [List.get_eq_getElem, List.getElem_range]
    refine readOne_pushed (writable _ (List.getElem_mem inside)) fun key owns => ?_
    refine values_pushAll_of_owns once member owns fun known => ?_
    have stranger := foreign key known
    rw [startsWith_of_owns owns] at stranger
    cases stranger
  have kept : groups.filter (!·.isEmpty) = groups := by
    refine List.filter_eq_self.mpr fun group member => ?_
    simp [(writable group member).full]
  rw [readAll, indexes, read]
  exact congrArg Except.ok kept

end ComponentGroup

/-- Groups that are written into a query string, in any order, are read from it again, each at its
index, and all other parameters keep their values. -/
theorem groups_read_back (params : Params) (groups : List ComponentGroup)
    (placed : List (ComponentGroup × Nat))
    (foreign : ∀ key ∈ params.keys, Text.startsWith "sc_" key = false)
    (writable : ∀ group ∈ groups, group.Writable) (every : placed.Perm groups.zipIdx) :
    let query := (ComponentGroup.pushAll params placed).render
    ComponentGroup.readAll (Params.parse query) = .ok groups
      ∧ ∀ key, Text.startsWith "sc_" key = false →
        (Params.parse query).values key = params.values key := by
  intro query
  rw [Params.parse_render]
  refine ⟨ComponentGroup.readAll_pushAll foreign writable every, fun key other => ?_⟩
  refine ComponentGroup.values_pushAll_of_foreign fun one _ owns => ?_
  rw [ComponentGroup.startsWith_of_owns owns] at other
  cases other

/-- The second group is written first, and both beside a filter of the request itself. Values may
hold the marks that divide a query string, and keys of a path may be empty. -/
theorem groups_read_back_of_two_groups :
    let params : Params := ⟨[("attr", "a~b"), ("", "sc_0_attr")]⟩
    let filter : AttributeFilter := ⟨"bios", ["", "é"], some .like, "1&%"⟩
    let first : ComponentGroup := ⟨some "a=b", none, none, some " ", none, [], [filter]⟩
    let second : ComponentGroup := ⟨none, none, none, none, some "nic", [filter, filter], []⟩
    let query := (ComponentGroup.pushAll params [(second, 1), (first, 0)]).render
    (∀ key ∈ params.keys, Text.startsWith "sc_" key = false)
      ∧ first.Writable ∧ second.Writable
      ∧ ComponentGroup.readAll (Params.parse query) = .ok [first, second]
      ∧ (Params.parse query).values "attr" = ["a~b"] := by
  intro params filter first second query
  have foreign : ∀ key ∈ params.keys, Text.startsWith "sc_" key = false := by decide
  have delimited : filter.Delimited :=
    ⟨by decide, by decide, by decide, nofun, fun _ => by decide⟩
  have patterned : filter.Patterned := fun _ => by decide
  have legible : ∀ other ∈ [filter, filter],
      other.scope ≠ "" ∧ other.Delimited ∧ other.Patterned := by
    intro other member
    have same : other = filter := by simpa using member
    exact same ▸ ⟨by decide, delimited, patterned⟩
  have one : first.Writable := by
    refine ⟨by decide, ⟨by decide, nofun, nofun, by decide, nofun⟩, nofun, fun other member => ?_⟩
    exact legible other (List.mem_cons_of_mem _ member)
  have two : second.Writable :=
    ⟨by decide, ⟨nofun, nofun, nofun, nofun, by decide⟩, legible, nofun⟩
  have writable : ∀ group ∈ [first, second], group.Writable := by
    intro group member
    rcases List.mem_cons.mp member with rfl | member
    · exact one
    · exact List.mem_singleton.mp member ▸ two
  have every : [(second, 1), (first, 0)].Perm [first, second].zipIdx := List.Perm.swap _ _ _
  have back := groups_read_back params [first, second] _ foreign writable every
  exact ⟨foreign, one, two, back.1, back.2 "attr" (by decide)⟩

end FleetInventory
