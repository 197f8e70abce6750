import FleetInventory.Proofs.Search.Scoping

/-!
Isolation of joined rows. The rows a statement joins have names of their own, each group of a
search for servers speaks of its own component only, and each filter of its own row only. Main
statement: `aliases_isolated`, for the three lists that join rows.
-/
namespace FleetInventory

open Sql

/-- A fragment without a fault joins rows of these names, and its filters are about these rows. -/
def Sql.Fragment.Lists {α : Type} [Condition α] (p : Fragment α) (names filters : List String) :
    Prop :=
  ∀ bound, (p bound).fault = none →
    Join.names (p bound).joins = names ∧ filterRows (p bound).conditions = filters

namespace Sql.Fragment

variable {α : Type} [Condition α] {p q : Fragment α} {js ks fs gs : List String}

theorem nothing_lists : (nothing : Fragment α).Lists [] [] := fun _ _ => ⟨rfl, rfl⟩

theorem Lists.andThen (first : p.Lists js fs) (second : q.Lists ks gs) :
    (p.andThen q).Lists (js ++ ks) (fs ++ gs) := by
  intro bound ok
  obtain ⟨okFirst, okSecond⟩ := andThen_ok ok
  obtain ⟨names, filters⟩ := first bound okFirst
  obtain ⟨more, others⟩ := second _ okSecond
  rw [andThen_of_ok okFirst]
  constructor
  · rw [← names, ← more]
    exact List.map_append
  · rw [← filters, ← others]
    exact filterRows_append _ _

theorem joined_lists (join : Join) : (joined join : Fragment α).Lists [join.name] [] :=
  fun _ _ => ⟨rfl, rfl⟩

theorem equals_lists (column : Column) (value : Value) : (equals column value).Lists [] [] :=
  fun _ _ => ⟨rfl, rfl⟩

theorem Lists.singles {p : Fragment Clause} (lists : p.Lists js fs) : p.singles.Lists js fs := by
  intro bound ok
  obtain ⟨clean, whole⟩ := singles_of_ok ok
  obtain ⟨names, filters⟩ := lists bound clean
  rw [whole]
  exact ⟨names, (filterRows_singles _).trans filters⟩

theorem Lists.asBlock {p : Fragment Clause} (lists : p.Lists js fs) : p.asBlock.Lists js fs := by
  intro bound ok
  obtain ⟨clean, whole⟩ := asBlock_of_ok ok
  obtain ⟨names, filters⟩ := lists bound clean
  rw [whole]
  exact ⟨names, (filterRows_block _).trans filters⟩

end Sql.Fragment

namespace AttributeFilter

def rows (lead : String) (source : AttributeSource) (filters : List AttributeFilter) :
    List String :=
  (List.range filters.length).map (rowName lead source)

theorem fragmentsFrom_lists (source : AttributeSource) (parent lead : String) (position : Nat)
    (filters : List AttributeFilter) :
    (Fragment.all (fragmentsFrom source parent lead position filters)).Lists
      ((List.range' position filters.length).map (rowName lead source))
      ((List.range' position filters.length).map (rowName lead source)) := by
  induction filters generalizing position with
  | nil => exact Fragment.nothing_lists
  | cons filter rest ih =>
    have head : (fragment source parent (rowName lead source position) filter).Lists
        [rowName lead source position] [rowName lead source position] := fun _ _ => ⟨rfl, rfl⟩
    exact head.andThen (ih (position + 1))

theorem fragments_lists (source : AttributeSource) (parent lead : String)
    (filters : List AttributeFilter) :
    (fragments source parent lead filters).Lists (rows lead source filters)
      (rows lead source filters) := by
  unfold fragments
  split
  · intro bound ok
    contradiction
  · rw [rows, List.range_eq_range']
    exact fragmentsFrom_lists source parent lead 0 filters

end AttributeFilter

namespace ComponentGroup

def kindRows (kindName : String) (group : ComponentGroup) : List String :=
  if group.kind?.isSome then [kindName] else []

def filterNames (lead : String) (group : ComponentGroup) : List String :=
  AttributeFilter.rows lead .component group.attributes
    ++ AttributeFilter.rows lead .componentVersioned group.versioned

theorem clauses_lists (component lead kindName : String) (group : ComponentGroup) :
    (clauses component lead kindName group).Lists
      (group.kindRows kindName ++ group.filterNames lead)
      (group.filterNames lead) := by
  have fields : (Fragment.all (fieldFragments component group)).Lists [] [] := by
    unfold fieldFragments
    induction group.fields with
    | nil => exact Fragment.nothing_lists
    | cons field rest ih =>
      exact (Fragment.equals_lists (.of component field.1) (.text field.2)).andThen ih
  have kind : (kindFragment component kindName group).Lists (group.kindRows kindName) [] := by
    unfold kindFragment kindRows
    cases group.kind? with
    | none => exact Fragment.nothing_lists
    | some slug => exact (Fragment.joined_lists _).andThen (Fragment.equals_lists _ _)
  have plain := AttributeFilter.fragments_lists .component component lead group.attributes
  have versioned :=
    AttributeFilter.fragments_lists .componentVersioned component lead group.versioned
  rw [clauses_eq]
  simpa [filterNames] using
    fields.andThen (kind.andThen (plain.andThen (versioned.andThen Fragment.nothing_lists)))

def blocksFrom (parent : String) : Nat → List ComponentGroup → Nat → List (Draft Predicate)
  | _, [], _ => []
  | index, group :: rest, bound =>
    let d := placed parent index group bound
    d :: blocksFrom parent (index + 1) rest (bound + d.values.length)

theorem rowFragmentsFrom_blocks (parent : String) (index : Nat) (groups : List ComponentGroup)
    (bound : Nat) (ok : (Fragment.all (rowFragmentsFrom parent index groups) bound).fault = none) :
    (Fragment.all (rowFragmentsFrom parent index groups) bound).joins
        = (blocksFrom parent index groups bound).flatMap Draft.joins
      ∧ (Fragment.all (rowFragmentsFrom parent index groups) bound).conditions
        = (blocksFrom parent index groups bound).flatMap Draft.conditions := by
  induction groups generalizing index bound with
  | nil => exact ⟨rfl, rfl⟩
  | cons group rest ih =>
    rw [rowFragmentsFrom_cons] at ok ⊢
    obtain ⟨okFirst, okRest⟩ := Fragment.andThen_ok ok
    obtain ⟨joins, conditions⟩ := ih (index + 1) _ okRest
    rw [Fragment.andThen_of_ok okFirst]
    simp only [Draft.append, blocksFrom, List.flatMap_cons, joins, conditions, and_self]

theorem blocksFrom_placed (parent : String) (index : Nat) (groups : List ComponentGroup)
    (bound : Nat) (ok : (Fragment.all (rowFragmentsFrom parent index groups) bound).fault = none)
    {k : Nat} {d : Draft Predicate} (block : (blocksFrom parent index groups bound)[k]? = some d) :
    ∃ group b, groups[k]? = some group ∧ d = placed parent (index + k) group b
      ∧ d.fault = none := by
  induction groups generalizing index bound k with
  | nil => simp [blocksFrom] at block
  | cons group rest ih =>
    rw [rowFragmentsFrom_cons] at ok
    obtain ⟨okFirst, okRest⟩ := Fragment.andThen_ok ok
    cases k with
    | zero =>
      simp only [blocksFrom, List.getElem?_cons_zero, Option.some.injEq] at block
      exact ⟨group, bound, rfl, block.symm, block ▸ okFirst⟩
    | succ k =>
      simp only [blocksFrom, List.getElem?_cons_succ] at block
      obtain ⟨g, b, found, same, clean⟩ := ih (index + 1) _ okRest block
      exact ⟨g, b, found, by rw [same, Nat.add_right_comm, Nat.add_assoc], clean⟩

def aliases (j : Nat) : Set String :=
  {n | n = "comp_" ++ Text.showNat j ∨ n = "comp_" ++ Text.showNat j ++ "_type"
    ∨ ∃ i, n = "comp_" ++ Text.showNat j ++ "_attr_" ++ Text.showNat i
      ∨ n = "comp_" ++ Text.showNat j ++ "_ver_attr_" ++ Text.showNat i}

theorem aliases_under (j : Nat) : aliases j ⊆ Under (rowName j) := by
  intro n member
  rcases member with rfl | rfl | ⟨i, rfl | rfl⟩
  · exact under_self _
  · simpa [rowName, String.append_assoc] using under_underscore (rowName j) "type"
  · have name := under_underscore (rowName j) ("attr_" ++ Text.showNat i)
    have mark : "_attr_" = "_" ++ "attr_" := rfl
    simpa only [mark, rowName, String.append_assoc] using name
  · have name := under_underscore (rowName j) ("ver_attr_" ++ Text.showNat i)
    have mark : "_ver_attr_" = "_" ++ "ver_attr_" := rfl
    simpa only [mark, rowName, String.append_assoc] using name

theorem innerRows_alias (j : Nat) (group : ComponentGroup) :
    ∀ n ∈ group.kindRows (lead j ++ "type") ++ group.filterNames (lead j), n ∈ aliases j := by
  intro n member
  rcases List.mem_append.mp member with kind | row
  · simp only [kindRows] at kind
    split at kind
    · rw [List.mem_singleton.mp kind]
      have mark : "_type" = "_" ++ "type" := rfl
      exact .inr (.inl (by simp only [mark, lead, rowName, String.append_assoc]))
    · simp at kind
  · rcases List.mem_append.mp row with plain | versioned
    · obtain ⟨i, _, rfl⟩ := List.mem_map.mp plain
      have mark : "_attr_" = "_" ++ ("attr" ++ "_") := rfl
      refine .inr (.inr ⟨i, .inl ?_⟩)
      simp only [mark, AttributeFilter.rowName, AttributeSource.stem, AttributeSource.isVersioned,
        lead, rowName, String.append_assoc, Bool.false_eq_true, ↓reduceIte]
    · obtain ⟨i, _, rfl⟩ := List.mem_map.mp versioned
      have mark : "_ver_attr_" = "_" ++ ("ver_attr" ++ "_") := rfl
      refine .inr (.inr ⟨i, .inr ?_⟩)
      simp only [mark, AttributeFilter.rowName, AttributeSource.stem, AttributeSource.isVersioned,
        lead, rowName, String.append_assoc, ↓reduceIte]

/-- What the group at position `j` adds is about its own rows. Only the join of its component
looks at the server, and a subquery has a name of its own within its join. -/
structure Own (parent : String) (j : Nat) (d : Draft Predicate) : Prop where
  names : ∀ join ∈ d.joins, join.name ∈ aliases j
  joins : ∀ join ∈ d.joins, ∀ m ∈ join.condition.mentions, m ≠ join.latest →
    m ∈ aliases j ∨ (m = parent ∧ join.name = rowName j)
  predicates : ∀ p ∈ d.conditions, ∀ m ∈ p.expr.mentions, m ∈ aliases j

theorem rowFragment_of_ok (parent : String) (j : Nat) (group : ComponentGroup) (bound : Nat)
    (ok : (rowFragment parent j group bound).fault = none) :
    ∃ d, d = clauses (rowName j) (lead j) (lead j ++ "type") group bound ∧ d.fault = none ∧
      rowFragment parent j group bound
        = ⟨rowJoin parent j :: d.joins, [.block d.conditions], d.values, none⟩ := by
  obtain ⟨both, whole⟩ := Fragment.asBlock_of_ok ok
  obtain ⟨-, clean⟩ := Fragment.andThen_ok both
  refine ⟨_, rfl, clean, ?_⟩
  rw [rowFragment, whole, Fragment.andThen_of_ok rfl]
  rfl

theorem placed_own (parent : String) (j : Nat) (group : ComponentGroup) (bound : Nat)
    (ok : (placed parent j group bound).fault = none) :
    Own parent j (placed parent j group bound) := by
  unfold placed at ok ⊢
  split
  · constructor <;> simp [Fragment.nothing]
  · next full =>
    rw [if_neg full] at ok
    obtain ⟨d, made, clean, whole⟩ := rowFragment_of_ok parent j group bound ok
    have inside : d.Scoped (innerNames (lead j) (lead j ++ "type")) {rowName j} := by
      rw [made]
      exact clauses_scoped _ _ _ group (kindName_apart j) bound
    have row : rowName j ∈ aliases j := .inl rfl
    have known : ∀ n ∈ Join.names d.joins, n ∈ aliases j := by
      intro n member
      have listed := (clauses_lists (rowName j) (lead j) (lead j ++ "type") group bound
        (made ▸ clean)).1
      rw [made, listed] at member
      exact innerRows_alias j group n member
    rw [whole]
    constructor
    · intro join member
      rcases List.mem_cons.mp member with rfl | member
      · exact row
      · exact known _ (List.mem_map_of_mem member)
    · intro join member m mention other
      rcases List.mem_cons.mp member with rfl | member
      · rcases Join.mentions_of_reference _ _ _ _ _ m mention with rfl | rfl
        · exact .inl row
        · exact .inr ⟨rfl, rfl⟩
      · rcases inside.join_known member mention with latest | outside | joined
        · exact absurd latest other
        · exact .inl (Set.mem_singleton_iff.mp outside ▸ row)
        · exact .inl (known m joined)
    · intro p member m mention
      rw [List.mem_singleton.mp member] at mention
      simp only [Predicate.expr, Expr.mentions, Fragment.mentions_all, List.mem_map,
        exists_exists_and_eq_and] at mention
      obtain ⟨clause, present, named⟩ := mention
      rcases inside.conditions clause present m named with outside | joined
      · exact Set.mem_singleton_iff.mp outside ▸ row
      · exact known m joined

end ComponentGroup

/-- The joined rows of a selection are apart, joins look back only, conditions mention what is
joined, and each filter is about a row of its own. -/
structure Sql.Selection.Isolated (table : String) (filters : List String) (s : Selection) :
    Prop where
  joinTexts : s.joinTexts = s.joins.map fun j => j.joined.text placeholder
  predicateTexts : s.predicateTexts = s.predicates.map fun p => p.expr.text placeholder
  distinct : (table :: Join.names s.joins).Nodup
  latest : ∀ n ∈ table :: Join.names s.joins, ∀ j ∈ s.joins, n ≠ j.latest
  joins : ∀ pre j post, s.joins = pre ++ j :: post → ∀ m ∈ j.condition.mentions,
    m = j.name ∨ m = j.latest ∨ m = table ∨ m ∈ Join.names pre
  predicates : ∀ p ∈ s.predicates, ∀ m ∈ p.expr.mentions, m = table ∨ m ∈ Join.names s.joins
  filters : filterRows s.predicates = filters
  apart : (s.predicates.flatMap Predicate.clauses).Pairwise fun a b =>
    a.filterRow?.isSome → b.filterRow?.isSome → ∀ m ∈ a.expr.mentions, m ∉ b.expr.mentions

theorem filter_mentions {clause : Clause} {row : String} (filter : clause.filterRow? = some row) :
    ∀ m ∈ clause.expr.mentions, m = row := by
  intro m mention
  cases clause with
  | equals column slot => simp [Clause.filterRow?] at filter
  | document name scope test =>
    simp only [Clause.filterRow?, Option.some.injEq] at filter
    exact filter ▸ AttributeFilter.document_mentions name scope test m mention

theorem isolated_of_scoped {p : Fragment Predicate} {own : Set String} {table : String}
    {names filters : List String} {s : Selection} (inside : p.Scoped own {table})
    (outside : table ∉ own) (lists : p.Lists names filters)
    (compiled : Selection.ofFragment p = .ok s) : s.Isolated table filters := by
  obtain ⟨ok, rfl⟩ := Selection.ofFragment_eq_ok compiled
  have scope := inside 0
  have rows := (lists 0 ok).2
  have notName : ∀ j ∈ (p 0).joins, table ≠ j.name ∧ table ≠ j.latest := fun j member =>
    ⟨fun same => outside (same ▸ (scope.names j member).1),
      fun same => outside (same ▸ (scope.names j member).2)⟩
  constructor
  · simp [Selection.joinTexts, Join.render_eq]
  · simp [Selection.predicateTexts, Predicate.render_eq]
  · refine List.nodup_cons.mpr ⟨fun member => ?_, scope.distinct⟩
    obtain ⟨j, present, same⟩ := List.mem_map.mp member
    exact (notName j present).1 same.symm
  · intro n member j present
    rcases List.mem_cons.mp member with rfl | joined
    · exact (notName j present).2
    · obtain ⟨i, earlier, rfl⟩ := List.mem_map.mp joined
      exact scope.latest i earlier j present
  · intro pre j post split m mention
    have joins := scope.joins
    rw [show (p 0).joins = _ from split] at joins
    simpa using scopedFrom_split joins m mention
  · exact scope.conditions
  · exact rows
  · have distinct : (filterRows (p 0).conditions).Nodup := scope.distinct.sublist scope.filters
    refine (List.pairwise_filterMap.mp distinct).imp ?_
    intro a b other someA someB m inA inB
    obtain ⟨x, rowA⟩ := Option.isSome_iff_exists.mp someA
    obtain ⟨y, rowB⟩ := Option.isSome_iff_exists.mp someB
    have same := (filter_mentions rowA m inA).symm.trans (filter_mentions rowB m inB)
    exact other x rowA y rowB same

namespace ComponentGroup

theorem filterNames_of_isEmpty {group : ComponentGroup} (nothing : group.isEmpty = true)
    (lead : String) : group.filterNames lead = [] := by
  simp only [isEmpty, Bool.and_eq_true, List.isEmpty_iff] at nothing
  simp [filterNames, AttributeFilter.rows, nothing.1.2, nothing.2]

def placedRows (j : Nat) (group : ComponentGroup) : List String :=
  if group.isEmpty then []
  else rowName j :: (group.kindRows (lead j ++ "type") ++ group.filterNames (lead j))

theorem placed_lists (parent : String) (j : Nat) (group : ComponentGroup) :
    (placed parent j group).Lists (group.placedRows j) (group.filterNames (lead j)) := by
  unfold placed placedRows
  split
  · next nothing =>
    rw [filterNames_of_isEmpty nothing]
    exact Fragment.nothing_lists
  · exact ((Fragment.joined_lists _).andThen (clauses_lists _ _ _ group)).asBlock

theorem rowFragmentsFrom_lists (parent : String) (index : Nat) (groups : List ComponentGroup) :
    (Fragment.all (rowFragmentsFrom parent index groups)).Lists
      ((groups.zipIdx index).flatMap fun (group, j) => group.placedRows j)
      ((groups.zipIdx index).flatMap fun (group, j) => group.filterNames (lead j)) := by
  induction groups generalizing index with
  | nil => exact Fragment.nothing_lists
  | cons group rest ih => exact (placed_lists parent index group).andThen (ih (index + 1))

theorem placed_conditions (parent : String) (j : Nat) (group : ComponentGroup) (bound : Nat)
    (ok : (placed parent j group bound).fault = none) :
    (placed parent j group bound).conditions.length = if group.isEmpty then 0 else 1 := by
  unfold placed at ok ⊢
  split
  · rfl
  · next full =>
    rw [if_neg full] at ok
    obtain ⟨d, -, -, whole⟩ := rowFragment_of_ok parent j group bound ok
    rw [whole]
    rfl

theorem blocksFrom_length (parent : String) (index : Nat) (groups : List ComponentGroup)
    (bound : Nat) : (blocksFrom parent index groups bound).length = groups.length := by
  induction groups generalizing index bound with
  | nil => rfl
  | cons group rest ih => simp [blocksFrom, ih]

end ComponentGroup

theorem givenText_lists (table column : String) (value : Option String) :
    (givenText table column value).Lists [] [] := by
  cases value with
  | none => exact Fragment.nothing_lists
  | some v => exact (Fragment.equals_lists _ _).singles

namespace ServerCriteria

def blocks (c : ServerCriteria) : List (Draft Predicate) :=
  ComponentGroup.blocksFrom table 0 c.components (c.ownFragment 0).values.length

def filterNames (c : ServerCriteria) : List String :=
  AttributeFilter.rows "" .server c.attributes
    ++ AttributeFilter.rows "" .serverVersioned c.versioned
    ++ c.components.zipIdx.flatMap fun (group, j) => group.filterNames (ComponentGroup.lead j)

/-- A selection is made of what is asked of the server and one block for each group that is not
empty, and no two blocks speak of the same row. -/
structure GroupsApart (c : ServerCriteria) (s : Selection) : Prop where
  count : c.blocks.length = c.components.length
  joins : s.joins = (c.ownFragment 0).joins ++ c.blocks.flatMap Draft.joins
  predicates : s.predicates = (c.ownFragment 0).conditions ++ c.blocks.flatMap Draft.conditions
  conditions : ∀ (j : Nat) (group : ComponentGroup) (d : Draft Predicate),
    c.components[j]? = some group → c.blocks[j]? = some d →
      d.conditions.length = if group.isEmpty then 0 else 1
  own : ∀ j d, c.blocks[j]? = some d → ComponentGroup.Own table j d
  apart : ∀ (j k : Nat) (d e : Draft Predicate), j ≠ k → c.blocks[j]? = some d →
    c.blocks[k]? = some e → ∀ p ∈ d.conditions, ∀ q ∈ e.conditions,
      ∀ m ∈ p.expr.mentions, m ∉ q.expr.mentions

theorem fragment_lists (c : ServerCriteria) :
    ∃ names, c.fragment.Lists names c.filterNames := by
  have plain := (AttributeFilter.fragments_lists .server table "" c.attributes).singles
  have versioned := (AttributeFilter.fragments_lists .serverVersioned table "" c.versioned).singles
  have groups := ComponentGroup.rowFragmentsFrom_lists table 0 c.components
  have filters := plain.andThen (versioned.andThen (groups.andThen Fragment.nothing_lists))
  have whole : c.fragment.Lists _ _ := (givenText_lists table "name" c.name).andThen
    ((givenText_lists table "facility_code" c.facilityCode).andThen filters)
  exact ⟨_, by simpa only [filterNames, List.nil_append, List.append_nil, List.append_assoc]
    using whole⟩

theorem groupsApart {c : ServerCriteria} {s : Selection}
    (compiled : Selection.ofFragment c.fragment = .ok s) : c.GroupsApart s := by
  obtain ⟨ok, rfl⟩ := Selection.ofFragment_eq_ok compiled
  rw [fragment_eq] at ok ⊢
  obtain ⟨okOwn, okGroups⟩ := Fragment.andThen_ok ok
  rw [Fragment.andThen_nothing, Nat.zero_add] at okGroups
  obtain ⟨joins, conditions⟩ :=
    ComponentGroup.rowFragmentsFrom_blocks table 0 c.components _ okGroups
  have placed := fun (k : Nat) (d : Draft Predicate) =>
    ComponentGroup.blocksFrom_placed table 0 c.components _ okGroups (k := k) (d := d)
  have own : ∀ j d, c.blocks[j]? = some d → ComponentGroup.Own table j d := by
    intro j d block
    obtain ⟨group, b, -, rfl, clean⟩ := placed j d block
    rw [Nat.zero_add] at clean ⊢
    exact ComponentGroup.placed_own table j group b clean
  rw [Fragment.andThen_of_ok okOwn, Fragment.andThen_nothing, Nat.zero_add]
  constructor
  · exact ComponentGroup.blocksFrom_length _ _ _ _
  · exact congrArg ((c.ownFragment 0).joins ++ ·) joins
  · exact congrArg ((c.ownFragment 0).conditions ++ ·) conditions
  · intro j group d found block
    obtain ⟨g, b, same, rfl, clean⟩ := placed j d block
    rw [found, Option.some.injEq] at same
    exact same ▸ ComponentGroup.placed_conditions _ _ g b clean
  · exact own
  · intro j k d e other left right p inD q inE m inP inQ
    have first := ComponentGroup.aliases_under j ((own j d left).predicates p inD m inP)
    have second := ComponentGroup.aliases_under k ((own k e right).predicates q inE m inQ)
    exact other (ComponentGroup.rowName_inj first second)

end ServerCriteria

/-- In every statement that joins rows, each alias is joined once, looked up only after it is
joined, and belongs to one filter or one group. -/
theorem aliases_isolated :
    (∀ (c : ServerCriteria) (s : Selection), Selection.ofFragment c.fragment = .ok s →
      s.Isolated ServerCriteria.table c.filterNames ∧ c.GroupsApart s)
    ∧ (∀ (c : ComponentCriteria) (s : Selection), Selection.ofFragment c.fragment = .ok s →
      s.Isolated ComponentCriteria.table (c.group.filterNames ""))
    ∧ (∀ (c : FirmwareSetCriteria) (s : Selection), Selection.ofFragment c.fragment = .ok s →
      s.Isolated FirmwareSetCriteria.table (AttributeFilter.rows "" .firmwareSet c.attributes)) := by
  refine ⟨fun c s compiled => ⟨?_, ServerCriteria.groupsApart compiled⟩, fun c s compiled => ?_,
    fun c s compiled => ?_⟩
  · obtain ⟨names, lists⟩ := c.fragment_lists
    exact isolated_of_scoped c.fragment_scoped ServerCriteria.table_not_name lists compiled
  · have server : (ComponentCriteria.serverFragment c.serverId).Lists [] [] := by
      cases c.serverId with
      | none => exact Fragment.nothing_lists
      | some id => exact (Fragment.equals_lists _ _).singles
    have group := ComponentGroup.clauses_lists ComponentCriteria.table "" ComponentCriteria.kindName
      c.group
    exact isolated_of_scoped c.fragment_scoped ComponentCriteria.table_not_name
      (server.andThen group.singles) compiled
  · have filters := AttributeFilter.fragments_lists .firmwareSet FirmwareSetCriteria.table ""
      c.attributes
    exact isolated_of_scoped c.fragment_scoped FirmwareSetCriteria.table_not_name
      ((givenText_lists _ _ _).andThen filters.singles) compiled

theorem aliases_isolated_of_sample :
    let filter : AttributeFilter := ⟨"fw", ["version"], some .equal, "1.2"⟩
    let group : ComponentGroup := ⟨none, some "Acme", none, none, some "nic", [filter], [filter]⟩
    let servers : ServerCriteria :=
      ⟨some "nemo", none, [filter, filter], [filter], [ComponentGroup.empty, group, group]⟩
    (∃ s, Selection.ofFragment servers.fragment = .ok s ∧
      s.Isolated ServerCriteria.table servers.filterNames ∧ servers.GroupsApart s)
    ∧ (∃ s, Selection.ofFragment (ComponentCriteria.fragment ⟨none, group⟩) = .ok s ∧
      s.Isolated ComponentCriteria.table (group.filterNames ""))
    ∧ (∃ s, Selection.ofFragment (FirmwareSetCriteria.fragment ⟨none, [filter]⟩) = .ok s ∧
      s.Isolated FirmwareSetCriteria.table (AttributeFilter.rows "" .firmwareSet [filter])) := by
  intro filter group servers
  exact ⟨⟨_, rfl, aliases_isolated.1 servers _ rfl⟩,
    ⟨_, rfl, aliases_isolated.2.1 ⟨none, group⟩ _ rfl⟩,
    ⟨_, rfl, aliases_isolated.2.2 ⟨none, [filter]⟩ _ rfl⟩⟩

end FleetInventory
