import FleetInventory.Proofs.Search.Filtering
import Mathlib.Data.String.Basic

/-!
The rows that a search for servers selects. Group by group the joins and conditions of its
fragment ask what the criteria ask of the records: each group of one component, which meets all of
it. Main statement: `selected_iff_met`.
-/
namespace FleetInventory

open Sql

variable {D : Type} {w : Session D}

namespace ComponentGroup

theorem asked_iff (m : Operators D) (component : Tuple D) (column : String)
    (field : Option String) :
    Asked m component column field ↔ ∀ pair : String × String,
      ((field.filter (· ≠ "")).map fun v => (column, v)) = some pair →
        component.Has pair.1 (m.text pair.2) := by
  cases field with
  | none => simp [Asked]
  | some v => by_cases blank : v = "" <;> simp [Asked, Option.filter, blank]

theorem fields_asked (group : ComponentGroup) (m : Operators D) (component : Tuple D) :
    (∀ field ∈ group.fields, component.Has field.1 (m.text field.2)) ↔
      Asked m component "name" group.name ∧ Asked m component "vendor" group.vendor ∧
        Asked m component "model" group.model ∧ Asked m component "serial" group.serial := by
  simp only [asked_iff, fields, List.mem_filterMap, List.mem_cons, List.not_mem_nil, or_false,
    forall_exists_index, and_imp, forall_eq_or_imp, forall_eq, forall_and]

def KindMet (db : Database D) (m : Operators D) (group : ComponentGroup) (component : Tuple D) :
    Prop :=
  ∀ slug, group.kind? = some slug → ∃ row ∈ db kindTable,
    row.Refers "id" component "server_component_type_id" ∧ row.Has "slug" (m.text slug)

theorem kind?_eq_some {group : ComponentGroup} {slug : String} :
    group.kind? = some slug ↔ group.kind = some slug ∧ slug ≠ "" := by
  simp [kind?, Option.filter_eq_some_iff]

variable [LinearOrder D]

theorem metBy_iff (m : Operators D) (db : Database D) (group : ComponentGroup)
    (component : Tuple D) :
    group.MetBy m db component ↔
      (∀ field ∈ group.fields, component.Has field.1 (m.text field.2)) ∧
      group.KindMet db m component ∧
      (∀ filter ∈ group.attributes, filter.MetIn m db .component component) ∧
      (∀ filter ∈ group.versioned, filter.MetIn m db .componentVersioned component) := by
  simp only [fields_asked, KindMet, kind?_eq_some, and_imp,
    AttributeFilter.metIn_plain .component rfl,
    AttributeFilter.metIn_versioned .componentVersioned rfl]
  constructor
  · intro met
    exact ⟨⟨met.name, met.vendor, met.model, met.serial⟩, met.kind, met.attributes, met.versioned⟩
  · intro found
    obtain ⟨⟨name, vendor, model, serial⟩, kind, attributes, versions⟩ := found
    exact ⟨name, vendor, model, serial, kind, attributes, versions⟩

theorem columns_selects (component : String) (fields : List (String × String)) :
    (Fragment.all (fields.map fun (column, value) =>
      Fragment.equals (.of component column) (.text value))).Selects w ∅ {component} fun σ =>
        ∀ field ∈ fields, (σ component).Has field.1 (w.operators.text field.2) := by
  refine ⟨columns_scoped component fields, by simp, ?_⟩
  induction fields with
  | nil => exact Fragment.nothing_means.congr (by simp)
  | cons field rest ih =>
    have head :
        (Fragment.equals (.of component field.1) (.text field.2)).Selects w ∅ {component} _ :=
      ⟨Fragment.equals_scoped _ _ (by simp [Column.of]), by simp, Fragment.equals_means _ _ _⟩
    have tail : (Fragment.all (rest.map fun (column, value) =>
        Fragment.equals (.of component column) (.text value))).Selects w ∅ {component} _ :=
      ⟨columns_scoped component rest, by simp, ih⟩
    exact (head.andThen tail (by simp)).means.congr (by simp [Operators.text])

theorem kindFragment_selects {component name : String} (group : ComponentGroup)
    (other : component ∉ Under name) :
    (kindFragment component name group).Selects w (Under name) {component} fun σ =>
      group.KindMet w.tables w.operators (σ component) := by
  refine ⟨kindFragment_scoped component name group, by simpa using other, ?_⟩
  unfold kindFragment KindMet
  cases group.kind? with
  | none => exact Fragment.nothing_means.congr (by simp)
  | some slug =>
    have self : component ≠ name := fun same => other (same ▸ under_self name)
    have slugs : (Fragment.equals (.of name "slug") (.text slug)).Means w fun σ =>
        (σ name).Has "slug" (w.operators.text slug) := Fragment.equals_means _ _ _
    have null : ¬ Tuple.null.Has "slug" (w.operators.text slug) := by simp [Tuple.Has, Tuple.null]
    have row : ((Fragment.joined (kindJoin component name)).andThen _).Means w _ :=
      Fragment.reference_andThen_means (P := fun r => r.Has "slug" (w.operators.text slug)) self
        null slugs
    exact row.congr (by simp)

theorem clauses_selects {component lead kindName : String} (group : ComponentGroup)
    (apart : ∀ source, ∀ n ∈ Under kindName, n ∉ AttributeFilter.rowNames lead source 0)
    (other : component ∉ innerNames lead kindName) :
    (clauses component lead kindName group).Selects w (innerNames lead kindName) {component}
      fun σ => group.MetBy w.operators w.tables (σ component) := by
  have notKind : component ∉ Under kindName := fun under => other (.inl under)
  have notPlain : component ∉ AttributeFilter.rowNames lead .component 0 := fun row =>
    other (.inr (.inl row))
  have notVersioned : component ∉ AttributeFilter.rowNames lead .componentVersioned 0 := fun row =>
    other (.inr (.inr row))
  have last := (AttributeFilter.fragments_selects (w := w) .componentVersioned group.versioned
    notVersioned).andThen Fragment.nothing_selects (by simp)
  have filters := (AttributeFilter.fragments_selects .component group.attributes notPlain).andThen
    last (AttributeFilter.rowNames_apart_last lead rfl rfl)
  have kinds := (kindFragment_selects group notKind).andThen filters (kind_apart apart)
  have whole := (columns_selects component group.fields).andThen kinds (by simp)
  refine ⟨clauses_scoped component lead kindName group apart, by simpa using other, ?_⟩
  rw [clauses_eq]
  exact whole.means.congr (by simp [metBy_iff])

/-- A group that asks for something is not met by a row of nulls. -/
theorem not_metBy_null {group : ComponentGroup} (full : group.isEmpty = false) (m : Operators D)
    (db : Database D) : ¬ group.MetBy m db Tuple.null := by
  intro met
  obtain ⟨fields, kind, attributes, versioned⟩ := (metBy_iff m db group Tuple.null).mp met
  have noFields : group.fields = [] := by
    refine List.eq_nil_iff_forall_not_mem.mpr fun field member => ?_
    simpa [Tuple.Has, Tuple.null] using fields field member
  have noKind : group.kind? = none := by
    refine Option.eq_none_iff_forall_ne_some.mpr fun slug given => ?_
    obtain ⟨row, -, ⟨value, -, has⟩, -⟩ := kind slug given
    simp [Tuple.Has, Tuple.null] at has
  have noFilter : ∀ (source : AttributeSource) (filter : AttributeFilter),
      ¬ filter.MetIn m db source Tuple.null := by
    intro source filter met
    obtain ⟨row, -, ⟨⟨value, -, has⟩, -⟩, -⟩ := met
    simp [Tuple.Has, Tuple.null] at has
  have noAttributes : group.attributes = [] :=
    List.eq_nil_iff_forall_not_mem.mpr fun filter member => noFilter _ _ (attributes filter member)
  have noVersioned : group.versioned = [] :=
    List.eq_nil_iff_forall_not_mem.mpr fun filter member => noFilter _ _ (versioned filter member)
  simp [isEmpty, noFields, noKind, noAttributes, noVersioned] at full

/-- Some component of the owner meets the group by itself. -/
def MetByOne (m : Operators D) (db : Database D) (group : ComponentGroup) (owner : Tuple D) : Prop :=
  ∃ component ∈ db table, component.Refers "server_id" owner "id" ∧ group.MetBy m db component

theorem rowFragment_selects {parent : String} {j : Nat} {group : ComponentGroup}
    (full : group.isEmpty = false) (other : parent ∉ Under (rowName j)) :
    (rowFragment parent j group).Selects w (Under (rowName j)) {parent} fun σ =>
      group.MetByOne w.operators w.tables (σ parent) := by
  refine ⟨rowFragment_scoped parent j group, by simpa using other, ?_⟩
  have self : parent ≠ rowName j := fun same => other (same ▸ under_self _)
  have inner := (clauses_selects (w := w) group (kindName_apart j)
    (rowName_not_inner j (rowName j) (.inl rfl))).means
  exact (Fragment.reference_andThen_means self (not_metBy_null full _ _) inner).asBlock

theorem placed_selects {parent : String} {j : Nat} (group : ComponentGroup)
    (other : parent ∉ Under (rowName j)) :
    (placed parent j group).Selects w (Under (rowName j)) {parent} fun σ =>
      group.isEmpty = false → group.MetByOne w.operators w.tables (σ parent) := by
  refine ⟨placed_scoped parent j group, by simpa using other, ?_⟩
  unfold placed
  cases full : group.isEmpty with
  | true => exact Fragment.nothing_means.congr (by simp)
  | false => exact (rowFragment_selects full other).means.congr (by simp)

theorem rowFragmentsFrom_selects {parent : String} (index : Nat) (groups : List ComponentGroup)
    (other : parent ∉ groupNames index) :
    (Fragment.all (rowFragmentsFrom parent index groups)).Selects w (groupNames index) {parent}
      fun σ => ∀ group ∈ groups, group.isEmpty = false →
        group.MetByOne w.operators w.tables (σ parent) := by
  refine ⟨rowFragmentsFrom_scoped parent index groups, by simpa using other, ?_⟩
  induction groups generalizing index with
  | nil => exact Fragment.nothing_means.congr (by simp)
  | cons group rest ih =>
    have notFirst : parent ∉ Under (rowName index) := fun under =>
      other ⟨index, Nat.le_refl _, under⟩
    have notLater : parent ∉ groupNames (index + 1) := fun ⟨j, later, under⟩ =>
      other ⟨j, Nat.le_of_succ_le later, under⟩
    have tail : (Fragment.all (rowFragmentsFrom parent (index + 1) rest)).Selects w
        (groupNames (index + 1)) {parent} _ :=
      ⟨rowFragmentsFrom_scoped parent (index + 1) rest, by simpa using notLater,
        ih (index + 1) notLater⟩
    rw [rowFragmentsFrom_cons]
    have both := (placed_selects group notFirst).andThen tail (rowName_not_later index)
    exact both.means.congr (by simp)

end ComponentGroup

variable [LinearOrder D]

theorem givenText_selects {table : String} (column : String) (value : Option String) :
    (givenText table column value).Selects w ∅ {table} fun σ =>
      ∀ v, value = some v → (σ table).Has column (w.operators.text v) := by
  refine ⟨givenText_scoped table column value, by simp, ?_⟩
  cases value with
  | none => exact Fragment.nothing_means.congr (by simp)
  | some v =>
    exact (Fragment.equals_means table column (.text v)).singles.congr (by simp [Operators.text])

namespace ServerCriteria

theorem metBy_iff (m : Operators D) (db : Database D) (c : ServerCriteria) (server : Tuple D) :
    c.MetBy m db server ↔
      ((∀ v, c.name = some v → server.Has "name" (m.text v)) ∧
        (∀ v, c.facilityCode = some v → server.Has "facility_code" (m.text v)) ∧
        (∀ filter ∈ c.attributes, filter.MetIn m db .server server) ∧
        ∀ filter ∈ c.versioned, filter.MetIn m db .serverVersioned server) ∧
      ∀ group ∈ c.components, group.isEmpty = false → group.MetByOne m db server := by
  simp only [AttributeFilter.metIn_plain .server rfl,
    AttributeFilter.metIn_versioned .serverVersioned rfl]
  constructor
  · intro met
    exact ⟨⟨met.name, met.facilityCode, met.attributes, met.versioned⟩, met.components⟩
  · intro found
    obtain ⟨⟨name, facilityCode, attributes, versions⟩, components⟩ := found
    exact ⟨name, facilityCode, attributes, versions, components⟩

theorem ownFragment_selects (c : ServerCriteria) :
    c.ownFragment.Selects w ownNames {table} fun σ =>
      (∀ v, c.name = some v → (σ table).Has "name" (w.operators.text v)) ∧
      (∀ v, c.facilityCode = some v → (σ table).Has "facility_code" (w.operators.text v)) ∧
      (∀ filter ∈ c.attributes, filter.MetIn w.operators w.tables .server (σ table)) ∧
      ∀ filter ∈ c.versioned, filter.MetIn w.operators w.tables .serverVersioned (σ table) := by
  have notPlain : table ∉ AttributeFilter.rowNames "" .server 0 := fun row =>
    table_not_name (.inl (.inl row))
  have notVersioned : table ∉ AttributeFilter.rowNames "" .serverVersioned 0 := fun row =>
    table_not_name (.inl (.inr row))
  have last := (AttributeFilter.fragments_selects (w := w) .serverVersioned c.versioned
    notVersioned).singles.andThen Fragment.nothing_selects (by simp)
  have filters := (AttributeFilter.fragments_selects .server c.attributes
    notPlain).singles.andThen last (AttributeFilter.rowNames_apart_last "" rfl rfl)
  have facility := (givenText_selects "facility_code" c.facilityCode).andThen filters (by simp)
  have whole := (givenText_selects "name" c.name).andThen facility (by simp)
  refine ⟨c.ownFragment_scoped, by simpa using fun own => table_not_name (.inl own), ?_⟩
  exact whole.means.congr (by simp)

theorem fragment_selects (c : ServerCriteria) :
    c.fragment.Selects w names {table} fun σ => c.MetBy w.operators w.tables (σ table) := by
  have notGroup : table ∉ ComponentGroup.groupNames 0 := fun group => table_not_name (.inr group)
  have groups := (ComponentGroup.rowFragmentsFrom_selects (w := w) 0 c.components
    notGroup).andThen Fragment.nothing_selects (by simp)
  have whole := c.ownFragment_selects.andThen groups (by simpa using ownNames_apart)
  refine ⟨c.fragment_scoped, by simpa using table_not_name, ?_⟩
  rw [fragment_eq]
  exact whole.means.congr (by simp [metBy_iff])

end ServerCriteria

/-- The statement of a search for servers selects the servers that meet it, whatever the tables
hold and whatever the operators on documents and texts are. -/
theorem selected_iff_met (c : ServerCriteria) (s : Selection)
    (compiled : Selection.ofFragment c.fragment = .ok s) (m : Operators D) (db : Database D)
    (server : Tuple D) :
    s.source ServerCriteria.table = (s.query ServerCriteria.table).text placeholder ∧
      (server ∈ (s.query ServerCriteria.table).selected ⟨m, db, s.values⟩ ↔
        server ∈ db ServerCriteria.table ∧ c.MetBy m db server) := by
  refine ⟨s.source_eq _, (Selection.mem_selected compiled c.fragment_selects server).trans ?_⟩
  rw [Function.update_self]

/-- Two components do not meet a group between them: the model of one and the serial number of the
other select no server, and both on one component do. -/
theorem selected_iff_met_of_two_components :
    let row (pairs : List (String × String)) : Tuple String := fun column => pairs.lookup column
    let mixed := row [("id", "1")]
    let single := row [("id", "2")]
    let db : Database String := fun table =>
      if table = "servers" then [mixed, single]
      else if table = "server_components" then
        [row [("server_id", "1"), ("model", "A"), ("serial", "7")],
          row [("server_id", "1"), ("model", "B"), ("serial", "8")],
          row [("server_id", "2"), ("model", "A"), ("serial", "8")]]
      else []
    let m : Operators String :=
      { bound := fun value => match value with
          | .text s => s
          | _ => ""
        child := fun _ _ => none
        textAt := fun _ _ => none
        hasKey := fun _ _ => none
        like := fun _ _ => none
        greater := fun _ _ => none
        less := fun _ _ => none }
    let c : ServerCriteria :=
      ⟨none, none, [], [], [⟨none, none, some "A", some "8", none, [], []⟩]⟩
    ∃ s, Selection.ofFragment c.fragment = .ok s ∧
      mixed ∉ (s.query ServerCriteria.table).selected ⟨m, db, s.values⟩ ∧
      single ∈ (s.query ServerCriteria.table).selected ⟨m, db, s.values⟩ := by
  intro row mixed single db m c
  refine ⟨_, rfl, fun selected => ?_, ?_⟩
  · obtain ⟨-, met⟩ := (selected_iff_met c _ rfl m db mixed).2.mp selected
    obtain ⟨component, member, ⟨owner, ofServer, same⟩, one⟩ :=
      met.components _ (List.mem_singleton_self _) rfl
    have first : owner = "1" := (Option.some.inj same).symm
    have owned : component "server_id" = some "1" := ofServer.trans (congrArg some first)
    have model : component "model" = some "A" := one.model "A" rfl (by decide)
    have serial : component "serial" = some "8" := one.serial "8" rfl (by decide)
    rcases List.mem_cons.mp member with rfl | member
    · exact absurd serial (by decide)
    · rcases List.mem_cons.mp member with rfl | member
      · exact absurd model (by decide)
      · rw [List.mem_singleton.mp member] at owned
        exact absurd owned (by decide)
  · refine (selected_iff_met c _ rfl m db single).2.mpr ⟨.tail _ (.head _), ?_⟩
    refine ⟨nofun, nofun, nofun, nofun, fun group member full => ?_⟩
    rw [List.mem_singleton.mp member]
    refine ⟨_, .tail _ (.tail _ (.head _)), ⟨"2", rfl, rfl⟩, nofun, nofun, ?_, ?_, nofun, nofun,
      nofun⟩
    · rintro value ⟨⟩ -
      rfl
    · rintro value ⟨⟩ -
      rfl

end FleetInventory
