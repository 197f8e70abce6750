import FleetInventory.Proofs.Search.Names
import FleetInventory.Search.Criteria

/-!
Every fragment of a search is scoped: the rows it joins have names of their own, a join looks back
only, and conditions mention joined rows only. Filters and groups number their names, so they stay
apart however many there are.
-/
namespace FleetInventory

open Sql

theorem latest_under (join : Join) : join.latest ∈ Under join.name :=
  ⟨"_latest".toList, by simp [Join.latest], by simp⟩

theorem name_ne_latest (join : Join) : join.name ≠ join.latest := by
  intro same
  have length := congrArg String.length same
  simp [Join.latest] at length

namespace AttributeFilter

variable {source : AttributeSource} {parent lead : String}

theorem join_mentions (source : AttributeSource) (parent name : String) (scope : Nat) :
    ∀ m ∈ (join source parent name scope).condition.mentions,
      m = name ∨ m = (join source parent name scope).latest ∨ m = parent := by
  intro m mention
  cases versioned : source.isVersioned <;>
    simp only [join, versioned, Join.condition, Join.newest, Expr.mentions, Column.of,
      Option.toList_some, Bool.false_eq_true, ↓reduceIte, List.mem_append, List.mem_cons,
      List.not_mem_nil, or_false] at mention ⊢ <;>
    grind

theorem path_split (key : String) (more : List String) :
    ∃ parents last, key :: more = parents ++ [last] ∧ parents.length = more.length :=
  ⟨_, _, (List.dropLast_concat_getLast (List.cons_ne_nil key more)).symm, by simp⟩

theorem path_mentions (slots : List Nat) (e : Expr .scalar) :
    (slots.foldl (fun e n => .child e (.slot n)) e).mentions = e.mentions := by
  induction slots generalizing e with
  | nil => rfl
  | cons n rest ih => simp [ih, Expr.mentions]

theorem document_mentions (name : String) (scope : Nat) (test : DocumentTest) :
    ∀ m ∈ (Clause.document name scope test).expr.mentions, m = name := by
  intro m mention
  cases test with
  | anything => simpa [Clause.expr, DocumentTest.expr?, Expr.mentions, Column.of] using mention
  | hasKey parents key =>
    simpa [Clause.expr, DocumentTest.expr?, Expr.mentions, Column.of, path_mentions] using mention
  | compares path c value =>
    cases c <;>
      simpa [Clause.expr, DocumentTest.expr?, Expr.comparison, Expr.mentions, Column.of]
        using mention

theorem fragment_scoped (source : AttributeSource) (parent name : String)
    (filter : AttributeFilter) :
    (fragment source parent name filter).Scoped (Under name) {parent} := by
  intro bound
  have self := join_mentions source parent name (bound + 1)
  constructor
  · simp only [fragment, List.mem_singleton, forall_eq]
    exact ⟨under_self name, latest_under (join source parent name (bound + 1))⟩
  · simp [fragment, Join.names]
  · simp only [fragment, List.mem_singleton, forall_eq]
    exact name_ne_latest (join source parent name (bound + 1))
  · simp only [fragment, ScopedFrom, and_true]
    intro m mention
    rcases self m mention with same | latest | outside
    · exact .inl same
    · exact .inr (.inl latest)
    · exact .inr (.inr (.inl outside))
  · intro c member m mention
    simp only [fragment, List.mem_singleton] at member
    subst c
    have row := document_mentions name (bound + 1) _ m mention
    exact .inr (by simp [fragment, Join.names, join, row])
  · exact List.Sublist.refl _

theorem rowName_not_later (lead : String) (source : AttributeSource) (position : Nat) :
    ∀ n ∈ Under (rowName lead source position), n ∉ rowNames lead source (position + 1) := by
  intro n left later
  obtain ⟨i, above, right⟩ := later
  have same := rowName_inj left right
  omega

theorem fragmentsFrom_scoped (source : AttributeSource) (parent lead : String) (position : Nat)
    (filters : List AttributeFilter) :
    (Fragment.all (fragmentsFrom source parent lead position filters)).Scoped
      (rowNames lead source position) {parent} := by
  induction filters generalizing position with
  | nil => exact Fragment.nothing_scoped _
  | cons filter rest ih =>
    have head := fragment_scoped source parent (rowName lead source position) filter
    refine (head.andThen (ih (position + 1)) (rowName_not_later lead source position)).widen ?_
    intro n member
    rcases member with first | ⟨i, later, under⟩
    · exact ⟨position, Nat.le_refl _, first⟩
    · exact ⟨i, by omega, under⟩

theorem fragments_scoped (source : AttributeSource) (parent lead : String)
    (filters : List AttributeFilter) :
    (fragments source parent lead filters).Scoped (rowNames lead source 0) {parent} := by
  unfold fragments
  split
  · exact Fragment.refused_scoped _
  · exact fragmentsFrom_scoped source parent lead 0 filters

theorem rowNames_apart (lead : String) {plain versioned : AttributeSource}
    (one : plain.isVersioned = false) (other : versioned.isVersioned = true) :
    ∀ n ∈ rowNames lead plain 0, n ∉ rowNames lead versioned 0 := by
  rintro n ⟨i, _, left⟩ ⟨k, _, right⟩
  exact rowName_apart one other left right

theorem rowNames_apart_last (lead : String) {plain versioned : AttributeSource}
    (one : plain.isVersioned = false) (other : versioned.isVersioned = true) :
    ∀ n ∈ rowNames lead plain 0, n ∉ rowNames lead versioned 0 ∪ ∅ := by
  rw [Set.union_empty]
  exact rowNames_apart lead one other

theorem not_rowNames {lead rest n : String} {c : Char} (source : AttributeSource)
    (under : n ∈ Under (lead ++ rest)) (first : rest.toList.head? = some c) (a : c ≠ 'a')
    (v : c ≠ 'v') : n ∉ rowNames lead source 0 := by
  intro member
  obtain ⟨i, _, right⟩ := member
  simp only [rowName, AttributeSource.stem, String.append_assoc] at right
  cases versioned : source.isVersioned <;> simp only [versioned] at right
  · exact a (under_apart under right (d := 'a') first (by simp))
  · exact v (under_apart under right (d := 'v') first (by simp))

end AttributeFilter

namespace ComponentGroup

theorem columns_scoped (component : String) (fields : List (String × String)) :
    (Fragment.all (fields.map fun (column, value) =>
      Fragment.equals (.of component column) (.text value))).Scoped ∅ {component} := by
  induction fields with
  | nil => exact Fragment.nothing_scoped _
  | cons field rest ih =>
    have head : (Fragment.equals (.of component field.1) (.text field.2)).Scoped ∅ {component} :=
      Fragment.equals_scoped _ _ (by simp [Column.of])
    exact (head.andThen ih (by simp)).widen (by simp)

theorem fieldFragments_scoped (component : String) (group : ComponentGroup) :
    (Fragment.all (fieldFragments component group)).Scoped ∅ {component} :=
  columns_scoped component group.fields

theorem kindFragment_scoped (component name : String) (group : ComponentGroup) :
    (kindFragment component name group).Scoped (Under name) {component} := by
  unfold kindFragment
  split
  · next slug _ =>
    have mentions : ∀ m ∈ (kindJoin component name).condition.mentions,
        m = name ∨ m = (kindJoin component name).latest ∨ m ∈ ({component} : Set String) := by
      intro m mention
      exact (Join.mentions_of_reference _ _ _ _ _ m mention).imp_right .inr
    have slugs : (Fragment.equals (.of name "slug") (.text slug)).Scoped ∅ {name} :=
      Fragment.equals_scoped _ _ (by simp [Column.of])
    have self : (kindJoin component name).name ∈ Under name ∧
        (kindJoin component name).latest ∈ Under name :=
      ⟨under_self name, latest_under (kindJoin component name)⟩
    have both := Fragment.joined_andThen_scoped (kindJoin component name) self (name_ne_latest _)
      mentions slugs (by simp)
    exact both.widen (by simp)
  · exact Fragment.nothing_scoped _

def innerNames (lead kindName : String) : Set String :=
  Under kindName ∪ (AttributeFilter.rowNames lead .component 0
    ∪ AttributeFilter.rowNames lead .componentVersioned 0)

theorem clauses_eq (component lead kindName : String) (group : ComponentGroup) :
    clauses component lead kindName group
      = (Fragment.all (fieldFragments component group)).andThen
        ((kindFragment component kindName group).andThen
          ((AttributeFilter.fragments .component component lead group.attributes).andThen
            ((AttributeFilter.fragments .componentVersioned component lead group.versioned).andThen
              Fragment.nothing))) := by
  rw [clauses, Fragment.all_append]
  rfl

def filterRowNames (lead : String) : Set String :=
  AttributeFilter.rowNames lead .component 0
    ∪ (AttributeFilter.rowNames lead .componentVersioned 0 ∪ ∅)

theorem kind_apart {lead kindName : String}
    (apart : ∀ source, ∀ n ∈ Under kindName, n ∉ AttributeFilter.rowNames lead source 0) :
    ∀ n ∈ Under kindName, n ∉ filterRowNames lead := by
  intro n under member
  rcases member with left | right | none
  · exact apart _ n under left
  · exact apart _ n under right
  · exact none

theorem clauses_scoped (component lead kindName : String) (group : ComponentGroup)
    (apart : ∀ source, ∀ n ∈ Under kindName, n ∉ AttributeFilter.rowNames lead source 0) :
    (clauses component lead kindName group).Scoped (innerNames lead kindName) {component} := by
  have plain := AttributeFilter.fragments_scoped .component component lead group.attributes
  have versioned :=
    AttributeFilter.fragments_scoped .componentVersioned component lead group.versioned
  have last := versioned.andThen (Fragment.nothing_scoped ∅) (by simp)
  have filters := plain.andThen last (AttributeFilter.rowNames_apart_last lead rfl rfl)
  have kinds := (kindFragment_scoped component kindName group).andThen filters (kind_apart apart)
  rw [clauses_eq]
  refine ((fieldFragments_scoped component group).andThen kinds (by simp)).widen ?_
  simp [innerNames]

theorem kindName_apart (j : Nat) (source : AttributeSource) :
    ∀ n ∈ Under (lead j ++ "type"), n ∉ AttributeFilter.rowNames (lead j) source 0 :=
  fun _ under => AttributeFilter.not_rowNames source under (c := 't') (by simp) (by decide)
    (by decide)

theorem innerNames_under (j : Nat) :
    innerNames (lead j) (lead j ++ "type") ⊆ Under (rowName j) := by
  have inner : ∀ more : String, lead j ++ more ∈ Under (rowName j) :=
    fun more => under_underscore (rowName j) more
  have row : ∀ source i, AttributeFilter.rowName (lead j) source i ∈ Under (rowName j) := by
    intro source i
    simpa [AttributeFilter.rowName, String.append_assoc]
      using inner (source.stem ++ ("_" ++ Text.showNat i))
  intro n member
  rcases member with kind | ⟨i, _, plain⟩ | ⟨i, _, versioned⟩
  · exact under_trans (inner "type") kind
  · exact under_trans (row _ i) plain
  · exact under_trans (row _ i) versioned

theorem rowName_not_inner (j : Nat) :
    ∀ n ∈ ({rowName j, rowName j ++ "_latest"} : Set String),
      n ∉ innerNames (lead j) (lead j ++ "type") := by
  have latest : rowName j ++ "_latest" = lead j ++ "latest" := by
    simp [lead, String.append_assoc]
  have longer : ∀ more, rowName j ∉ Under (lead j ++ more) := by
    intro more under
    obtain ⟨tail, chars, _⟩ := under
    have lengths := congrArg List.length chars
    simp [lead] at lengths
  intro n own inner
  rcases own with rfl | rfl
  · rcases inner with kind | ⟨i, _, row⟩ | ⟨i, _, row⟩
    · exact longer _ kind
    · simp only [AttributeFilter.rowName, String.append_assoc] at row
      exact longer _ row
    · simp only [AttributeFilter.rowName, String.append_assoc] at row
      exact longer _ row
  · have own : rowName j ++ "_latest" ∈ Under (lead j ++ "latest") := latest ▸ under_self _
    rcases inner with kind | plain | versioned
    · exact absurd (under_apart own kind (c := 'l') (d := 't') (by simp) (by simp)) (by decide)
    · exact AttributeFilter.not_rowNames _ own (c := 'l') (by simp) (by decide) (by decide) plain
    · exact AttributeFilter.not_rowNames _ own (c := 'l') (by simp) (by decide) (by decide)
        versioned

theorem rowFragment_scoped (parent : String) (j : Nat) (group : ComponentGroup) :
    (rowFragment parent j group).Scoped (Under (rowName j)) {parent} := by
  have mentions : ∀ m ∈ (rowJoin parent j).condition.mentions,
      m = rowName j ∨ m = (rowJoin parent j).latest ∨ m ∈ ({parent} : Set String) := by
    intro m mention
    exact (Join.mentions_of_reference _ _ _ _ _ m mention).imp_right .inr
  have inner := clauses_scoped (rowName j) (lead j) (lead j ++ "type") group (kindName_apart j)
  have self : (rowJoin parent j).name ∈ ({rowName j, rowName j ++ "_latest"} : Set String) ∧
      (rowJoin parent j).latest ∈ ({rowName j, rowName j ++ "_latest"} : Set String) := by
    simp [rowJoin, Join.latest]
  have whole := Fragment.joined_andThen_scoped (rowJoin parent j) self (name_ne_latest _) mentions
    inner (rowName_not_inner j)
  refine whole.asBlock.widen (Set.union_subset ?_ (innerNames_under j))
  intro n own
  rcases own with rfl | rfl
  · exact under_self _
  · exact latest_under (rowJoin parent j)

def groupNames (index : Nat) : Set String := {n | ∃ j, index ≤ j ∧ n ∈ Under (rowName j)}

/-- The group at an index as it stands in a search for servers: an empty one adds nothing. -/
def placed (parent : String) (j : Nat) (group : ComponentGroup) : Fragment Predicate :=
  if group.isEmpty then Fragment.nothing else rowFragment parent j group

theorem rowFragmentsFrom_cons (parent : String) (index : Nat) (group : ComponentGroup)
    (rest : List ComponentGroup) :
    Fragment.all (rowFragmentsFrom parent index (group :: rest))
      = (placed parent index group).andThen
        (Fragment.all (rowFragmentsFrom parent (index + 1) rest)) := rfl

theorem placed_scoped (parent : String) (j : Nat) (group : ComponentGroup) :
    (placed parent j group).Scoped (Under (rowName j)) {parent} := by
  unfold placed
  split
  · exact Fragment.nothing_scoped _
  · exact rowFragment_scoped parent j group

theorem rowName_not_later (index : Nat) :
    ∀ n ∈ Under (rowName index), n ∉ groupNames (index + 1) := by
  intro n left later
  obtain ⟨j, above, right⟩ := later
  have same := rowName_inj left right
  omega

theorem rowFragmentsFrom_scoped (parent : String) (index : Nat) (groups : List ComponentGroup) :
    (Fragment.all (rowFragmentsFrom parent index groups)).Scoped (groupNames index) {parent} := by
  induction groups generalizing index with
  | nil => exact Fragment.nothing_scoped _
  | cons group rest ih =>
    rw [rowFragmentsFrom_cons]
    refine ((placed_scoped parent index group).andThen (ih (index + 1))
      (rowName_not_later index)).widen ?_
    intro n member
    rcases member with first | ⟨j, later, under⟩
    · exact ⟨index, Nat.le_refl _, first⟩
    · exact ⟨j, by omega, under⟩

end ComponentGroup

theorem givenText_scoped (table column : String) (value : Option String) :
    (givenText table column value).Scoped ∅ {table} := by
  cases value with
  | none => exact Fragment.nothing_scoped _
  | some v => exact (Fragment.equals_scoped _ _ (by simp [Column.of])).singles

namespace ServerCriteria

def ownFragment (c : ServerCriteria) : Fragment Predicate :=
  Fragment.all [givenText table "name" c.name,
    givenText table "facility_code" c.facilityCode,
    (AttributeFilter.fragments .server table "" c.attributes).singles,
    (AttributeFilter.fragments .serverVersioned table "" c.versioned).singles]

theorem fragment_eq (c : ServerCriteria) :
    c.fragment = c.ownFragment.andThen
      ((ComponentGroup.rowFragments table c.components).andThen Fragment.nothing) := by
  rw [ownFragment]
  exact Fragment.all_append [_, _, _, _] [_]

def ownNames : Set String :=
  AttributeFilter.rowNames "" .server 0 ∪ AttributeFilter.rowNames "" .serverVersioned 0

theorem group_not_filter (source : AttributeSource) :
    ∀ n ∈ ComponentGroup.groupNames 0, n ∉ AttributeFilter.rowNames "" source 0 := by
  intro n member
  obtain ⟨j, _, under⟩ := member
  have row : n ∈ Under ("" ++ ComponentGroup.rowName j) := by simpa using under
  exact AttributeFilter.not_rowNames source row (c := 'c') (by simp [ComponentGroup.rowName])
    (by decide) (by decide)

theorem ownNames_apart : ∀ n ∈ ownNames, n ∉ ComponentGroup.groupNames 0 := by
  intro n own group
  rcases own with plain | versioned
  · exact group_not_filter _ n group plain
  · exact group_not_filter _ n group versioned

theorem ownFragment_scoped (c : ServerCriteria) : c.ownFragment.Scoped ownNames {table} := by
  have plain := (AttributeFilter.fragments_scoped .server table "" c.attributes).singles
  have versioned := (AttributeFilter.fragments_scoped .serverVersioned table "" c.versioned).singles
  have last := versioned.andThen (Fragment.nothing_scoped ∅) (by simp)
  have filters := plain.andThen last (AttributeFilter.rowNames_apart_last "" rfl rfl)
  have facility := (givenText_scoped table "facility_code" c.facilityCode).andThen filters (by simp)
  refine ((givenText_scoped table "name" c.name).andThen facility (by simp)).widen ?_
  simp [ownNames]

def names : Set String := ownNames ∪ ComponentGroup.groupNames 0

theorem fragment_scoped (c : ServerCriteria) : c.fragment.Scoped names {table} := by
  have groups := ComponentGroup.rowFragmentsFrom_scoped table 0 c.components
  have last := groups.andThen (Fragment.nothing_scoped ∅) (by simp)
  rw [fragment_eq]
  exact (c.ownFragment_scoped.andThen last (by simpa using ownNames_apart)).widen (by simp [names])

theorem table_not_name : table ∉ names := by
  have own : table ∈ Under ("" ++ "servers") := by simpa [table] using under_self "servers"
  have filter : ∀ source, table ∉ AttributeFilter.rowNames "" source 0 := fun source =>
    AttributeFilter.not_rowNames source own (c := 's') (by simp) (by decide) (by decide)
  intro member
  rcases member with (plain | versioned) | ⟨j, _, under⟩
  · exact filter _ plain
  · exact filter _ versioned
  · have group : table ∈ Under ("" ++ ComponentGroup.rowName j) := by simpa using under
    exact absurd (under_apart own group (c := 's') (d := 'c') (by simp)
      (by simp [ComponentGroup.rowName])) (by decide)

end ServerCriteria

namespace ComponentCriteria

def kindName : String := table ++ "_type"

def names : Set String := ComponentGroup.innerNames "" kindName

theorem serverFragment_scoped (server : Option Uuid) :
    (serverFragment server).Scoped ∅ {table} := by
  cases server with
  | none => exact Fragment.nothing_scoped _
  | some id => exact (Fragment.equals_scoped _ _ (by simp [Column.of])).singles

theorem kindName_apart (source : AttributeSource) :
    ∀ n ∈ Under kindName, n ∉ AttributeFilter.rowNames "" source 0 := by
  intro n under
  have kind : n ∈ Under ("" ++ kindName) := by simpa using under
  exact AttributeFilter.not_rowNames source kind (c := 's')
    (by simp [kindName, table, ComponentGroup.table]) (by decide) (by decide)

theorem fragment_scoped (c : ComponentCriteria) : c.fragment.Scoped names {table} := by
  have group := ComponentGroup.clauses_scoped table "" kindName c.group kindName_apart
  exact ((serverFragment_scoped c.serverId).andThen group.singles (by simp)).widen (by simp [names])

theorem table_not_name : table ∉ names := by
  have own : table ∈ Under ("" ++ "server_components") := by
    simpa [table, ComponentGroup.table] using under_self "server_components"
  have filter : ∀ source, table ∉ AttributeFilter.rowNames "" source 0 := fun source =>
    AttributeFilter.not_rowNames source own (c := 's') (by simp) (by decide) (by decide)
  intro member
  rcases member with ⟨tail, chars, _⟩ | plain | versioned
  · have lengths := congrArg List.length chars
    simp [kindName] at lengths
  · exact filter _ plain
  · exact filter _ versioned

end ComponentCriteria

namespace FirmwareSetCriteria

def names : Set String := AttributeFilter.rowNames "" .firmwareSet 0

theorem fragment_scoped (c : FirmwareSetCriteria) : c.fragment.Scoped names {table} := by
  have filters := (AttributeFilter.fragments_scoped .firmwareSet table "" c.attributes).singles
  exact ((givenText_scoped table "name" c.name).andThen filters (by simp)).widen (by simp [names])

theorem table_not_name : table ∉ names := by
  have own : table ∈ Under ("" ++ "component_firmware_set") := by
    simpa [table] using under_self "component_firmware_set"
  exact AttributeFilter.not_rowNames _ own (c := 'c') (by simp) (by decide) (by decide)

end FirmwareSetCriteria
end FleetInventory
