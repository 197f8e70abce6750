import FleetInventory.Proofs.Query.Reading
import FleetInventory.Proofs.Search.Scoping
import FleetInventory.Search.Plan

/-!
The shape of a request: which fields are given, how many filters and groups there are, how long
their key paths are and how they compare. Names, keys, values and other texts are not part of it.
Main statement: `sql_of_shape`, requests of one shape and order are sent as the same text, and no
text of a request becomes part of it.
-/
namespace FleetInventory

open Sql

structure FilterShape where
  keys : Nat
  comparison : Option Comparison
  deriving DecidableEq

def AttributeFilter.shape (filter : AttributeFilter) : FilterShape :=
  ⟨filter.keyPath.length, filter.comparison⟩

structure GroupShape where
  name : Bool
  vendor : Bool
  model : Bool
  serial : Bool
  kind : Bool
  attributes : List FilterShape
  versioned : List FilterShape
  deriving DecidableEq

def ComponentGroup.shape (group : ComponentGroup) : GroupShape where
  name := group.name.isSome
  vendor := group.vendor.isSome
  model := group.model.isSome
  serial := group.serial.isSome
  kind := group.kind.isSome
  attributes := group.attributes.map AttributeFilter.shape
  versioned := group.versioned.map AttributeFilter.shape

inductive Shape where
  | servers (name facilityCode : Bool) (attributes versioned : List FilterShape)
      (components : List GroupShape)
  | components (server : Bool) (group : GroupShape)
  | firmware (vendor model version : Bool)
  | firmwareSets (name : Bool) (attributes : List FilterShape)
  deriving DecidableEq

inductive ListCriteria where
  | servers (c : ServerCriteria)
  | components (c : ComponentCriteria)
  | firmware (c : FirmwareCriteria)
  | firmwareSets (c : FirmwareSetCriteria)

namespace ListCriteria

def table : ListCriteria → String
  | servers _ => ServerCriteria.table
  | components _ => ComponentCriteria.table
  | firmware _ => FirmwareCriteria.table
  | firmwareSets _ => FirmwareSetCriteria.table

def fragment : ListCriteria → Fragment Predicate
  | servers c => c.fragment
  | components c => c.fragment
  | firmware c => c.fragment
  | firmwareSets c => c.fragment

def shape : ListCriteria → Shape
  | servers c =>
    .servers c.name.isSome c.facilityCode.isSome (c.attributes.map AttributeFilter.shape)
      (c.versioned.map AttributeFilter.shape) (c.components.map ComponentGroup.shape)
  | components c => .components c.serverId.isSome c.group.shape
  | firmware c => .firmware c.vendor.isSome c.model.isSome c.version.isSome
  | firmwareSets c => .firmwareSets c.name.isSome (c.attributes.map AttributeFilter.shape)

def Filled : ListCriteria → Prop
  | servers c => ∀ group ∈ c.components, group.Filled
  | components c => c.group.Filled
  | firmware _ | firmwareSets _ => True

end ListCriteria

namespace Listing

def criteria (listing : Listing) (params : Params) : Except SearchFault ListCriteria :=
  match listing with
  | servers => (ServerCriteria.read params).map .servers
  | components => (ComponentCriteria.read params).map .components
  | firmware => .ok (.firmware (FirmwareCriteria.read params))
  | firmwareSets => (FirmwareSetCriteria.read params).map .firmwareSets
  | componentsOf server => .ok (.components (ComponentCriteria.ofServer server))

/-- The shape of a request. Which server's components are listed is not part of it. -/
def shape (listing : Listing) (query : String) : Except SearchFault Shape :=
  (listing.criteria (Params.parse query)).map ListCriteria.shape

end Listing

/-- Two fragments that add the same joins and conditions, and as many values. -/
def Sql.Fragment.Alike {α : Type} (p q : Fragment α) : Prop :=
  ∀ bound, (p bound).fault = none → (q bound).fault = none →
    (p bound).joins = (q bound).joins ∧ (p bound).conditions = (q bound).conditions ∧
      (p bound).values.length = (q bound).values.length

namespace Sql.Fragment

variable {α : Type} {p p' q q' : Fragment α}

theorem Alike.refl (p : Fragment α) : p.Alike p := fun _ _ _ => ⟨rfl, rfl, rfl⟩

theorem Alike.andThen (first : p.Alike p') (second : q.Alike q') :
    (p.andThen q).Alike (p'.andThen q') := by
  intro bound ok ok'
  obtain ⟨okFirst, okSecond⟩ := andThen_ok ok
  obtain ⟨okFirst', okSecond'⟩ := andThen_ok ok'
  obtain ⟨joins, conditions, length⟩ := first bound okFirst okFirst'
  rw [andThen_of_ok okFirst, andThen_of_ok okFirst', ← length]
  rw [← length] at okSecond'
  obtain ⟨moreJoins, moreConditions, moreLength⟩ := second _ okSecond okSecond'
  refine ⟨congrArg₂ (· ++ ·) joins moreJoins, congrArg₂ (· ++ ·) conditions moreConditions, ?_⟩
  simp only [Draft.append, List.length_append]
  exact congrArg₂ (· + ·) length moreLength

theorem Alike.singles {p p' : Fragment Clause} (alike : p.Alike p') :
    p.singles.Alike p'.singles := by
  intro bound ok ok'
  obtain ⟨clean, whole⟩ := singles_of_ok ok
  obtain ⟨clean', whole'⟩ := singles_of_ok ok'
  obtain ⟨joins, conditions, length⟩ := alike bound clean clean'
  rw [whole, whole']
  exact ⟨joins, congrArg (List.map Predicate.single) conditions, length⟩

theorem Alike.asBlock {p p' : Fragment Clause} (alike : p.Alike p') :
    p.asBlock.Alike p'.asBlock := by
  intro bound ok ok'
  obtain ⟨clean, whole⟩ := asBlock_of_ok ok
  obtain ⟨clean', whole'⟩ := asBlock_of_ok ok'
  obtain ⟨joins, conditions, length⟩ := alike bound clean clean'
  rw [whole, whole']
  exact ⟨joins, congrArg (fun clauses => [Predicate.block clauses]) conditions, length⟩

theorem equals_alike (column : Column) (a b : Value) : (equals column a).Alike (equals column b) :=
  fun _ _ _ => ⟨rfl, rfl, rfl⟩

end Sql.Fragment

namespace AttributeFilter

theorem documentTest_of_shape {f g : AttributeFilter} (same : f.shape = g.shape) (bound : Nat) :
    f.documentTest bound = g.documentTest bound ∧ f.testTexts.length = g.testTexts.length := by
  obtain ⟨scope, path, comparison, value⟩ := f
  obtain ⟨scope', path', comparison', value'⟩ := g
  simp only [shape, FilterShape.mk.injEq] at same
  obtain ⟨length, rfl⟩ := same
  cases path with
  | nil =>
    rw [List.length_nil, eq_comm, List.length_eq_zero_iff] at length
    subst length
    exact ⟨rfl, rfl⟩
  | cons key more =>
    cases path' with
    | nil => simp at length
    | cons key' more' =>
      have tail : more.length = more'.length := by simpa using length
      cases comparison <;> simp [documentTest, testTexts, tail]

theorem fragment_alike (source : AttributeSource) (parent name : String) {f g : AttributeFilter}
    (same : f.shape = g.shape) :
    (fragment source parent name f).Alike (fragment source parent name g) := by
  intro bound _ _
  obtain ⟨test, length⟩ := documentTest_of_shape same (bound + 1)
  simp [fragment, test, length]

theorem fragmentsFrom_alike (source : AttributeSource) (parent lead : String) (position : Nat)
    {fs gs : List AttributeFilter} (same : fs.map shape = gs.map shape) :
    (Fragment.all (fragmentsFrom source parent lead position fs)).Alike
      (Fragment.all (fragmentsFrom source parent lead position gs)) := by
  induction fs generalizing gs position with
  | nil =>
    rw [List.map_nil, eq_comm, List.map_eq_nil_iff] at same
    subst same
    exact .refl _
  | cons f rest ih =>
    cases gs with
    | nil => simp at same
    | cons g more =>
      simp only [List.map_cons, List.cons.injEq] at same
      exact (fragment_alike source parent _ same.1).andThen (ih (position + 1) same.2)

theorem fragments_alike (source : AttributeSource) (parent lead : String)
    {fs gs : List AttributeFilter} (same : fs.map shape = gs.map shape) :
    (fragments source parent lead fs).Alike (fragments source parent lead gs) := by
  unfold fragments
  cases firstFault? source.stem fs with
  | some fault =>
    intro bound ok
    contradiction
  | none =>
    cases firstFault? source.stem gs with
    | some fault =>
      intro bound _ ok
      contradiction
    | none => exact fragmentsFrom_alike source parent lead 0 same

end AttributeFilter

namespace ComponentGroup

theorem filter_of_filled {field : Option String} (filled : field ≠ some "") :
    field.filter (· ≠ "") = field := by
  cases field with
  | none => rfl
  | some value =>
    have full : value ≠ "" := fun blank => filled (congrArg some blank)
    simp [Option.filter, full]

theorem fields_columns_of_filled {group : ComponentGroup} (filled : group.Filled) :
    group.fields.map Prod.fst
      = [("name", group.name.isSome), ("vendor", group.vendor.isSome),
          ("model", group.model.isSome), ("serial", group.serial.isSome)].filterMap
        fun (column, given) => if given then some column else none := by
  simp only [fields, List.filterMap_cons, List.filterMap_nil, filter_of_filled filled.name,
    filter_of_filled filled.vendor, filter_of_filled filled.model, filter_of_filled filled.serial]
  cases group.name <;> cases group.vendor <;> cases group.model <;> cases group.serial <;> rfl

theorem fields_of_shape {g h : ComponentGroup} (left : g.Filled) (right : h.Filled)
    (same : g.shape = h.shape) : g.fields.map Prod.fst = h.fields.map Prod.fst := by
  simp only [shape, GroupShape.mk.injEq] at same
  rw [fields_columns_of_filled left, fields_columns_of_filled right, same.1, same.2.1, same.2.2.1,
    same.2.2.2.1]

theorem kind_of_shape {g h : ComponentGroup} (left : g.Filled) (right : h.Filled)
    (same : g.shape = h.shape) : g.kind?.isSome = h.kind?.isSome := by
  rw [kind?, kind?, filter_of_filled left.kind, filter_of_filled right.kind]
  exact congrArg GroupShape.kind same

theorem columns_alike (component : String) {fs gs : List (String × String)}
    (same : fs.map Prod.fst = gs.map Prod.fst) :
    (Fragment.all (fs.map fun (column, value) =>
      Fragment.equals (.of component column) (.text value))).Alike
    (Fragment.all (gs.map fun (column, value) =>
      Fragment.equals (.of component column) (.text value))) := by
  induction fs generalizing gs with
  | nil =>
    rw [List.map_nil, eq_comm, List.map_eq_nil_iff] at same
    subst same
    exact .refl _
  | cons f rest ih =>
    cases gs with
    | nil => simp at same
    | cons g more =>
      obtain ⟨column, value⟩ := f
      obtain ⟨column', value'⟩ := g
      simp only [List.map_cons, List.cons.injEq] at same
      obtain ⟨rfl, tail⟩ := same
      exact (Fragment.equals_alike _ _ _).andThen (ih tail)

theorem kindFragment_alike (component name : String) {g h : ComponentGroup}
    (same : g.kind?.isSome = h.kind?.isSome) :
    (kindFragment component name g).Alike (kindFragment component name h) := by
  unfold kindFragment
  cases left : g.kind? with
  | none =>
    cases right : h.kind? with
    | none => exact .refl _
    | some slug => simp [left, right] at same
  | some slug =>
    cases right : h.kind? with
    | none => simp [left, right] at same
    | some other => exact (Fragment.Alike.refl _).andThen (Fragment.equals_alike _ _ _)

theorem clauses_alike (component lead kindName : String) {g h : ComponentGroup} (left : g.Filled)
    (right : h.Filled) (same : g.shape = h.shape) :
    (clauses component lead kindName g).Alike (clauses component lead kindName h) := by
  rw [clauses_eq, clauses_eq]
  have plain := AttributeFilter.fragments_alike .component component lead
    (congrArg GroupShape.attributes same)
  have versioned := AttributeFilter.fragments_alike .componentVersioned component lead
    (congrArg GroupShape.versioned same)
  exact (columns_alike component (fields_of_shape left right same)).andThen
    ((kindFragment_alike component kindName (kind_of_shape left right same)).andThen
      (plain.andThen (versioned.andThen (.refl _))))

theorem isEmpty_of_shape {g h : ComponentGroup} (left : g.Filled) (right : h.Filled)
    (same : g.shape = h.shape) : g.isEmpty = h.isEmpty := by
  have fields := congrArg List.isEmpty (fields_of_shape left right same)
  have attributes := congrArg List.isEmpty (congrArg GroupShape.attributes same)
  have versioned := congrArg List.isEmpty (congrArg GroupShape.versioned same)
  have kind := kind_of_shape left right same
  simp only [shape, List.isEmpty_map] at fields attributes versioned
  simp only [isEmpty, fields, attributes, versioned, ← Option.not_isSome, kind]

theorem placed_alike (parent : String) (j : Nat) {g h : ComponentGroup} (left : g.Filled)
    (right : h.Filled) (same : g.shape = h.shape) :
    (placed parent j g).Alike (placed parent j h) := by
  unfold placed
  rw [isEmpty_of_shape left right same]
  split
  · exact .refl _
  · exact ((Fragment.Alike.refl _).andThen (clauses_alike _ _ _ left right same)).asBlock

theorem rowFragmentsFrom_alike (parent : String) (index : Nat) {gs hs : List ComponentGroup}
    (left : ∀ g ∈ gs, g.Filled) (right : ∀ h ∈ hs, h.Filled) (same : gs.map shape = hs.map shape) :
    (Fragment.all (rowFragmentsFrom parent index gs)).Alike
      (Fragment.all (rowFragmentsFrom parent index hs)) := by
  induction gs generalizing hs index with
  | nil =>
    rw [List.map_nil, eq_comm, List.map_eq_nil_iff] at same
    subst same
    exact .refl _
  | cons g rest ih =>
    cases hs with
    | nil => simp at same
    | cons h more =>
      simp only [List.map_cons, List.cons.injEq] at same
      have head := placed_alike parent index (left g List.mem_cons_self)
        (right h List.mem_cons_self) same.1
      exact head.andThen (ih (index + 1) (fun x member => left x (List.mem_cons_of_mem _ member))
        (fun x member => right x (List.mem_cons_of_mem _ member)) same.2)

end ComponentGroup

theorem givenText_alike (table column : String) {a b : Option String}
    (same : a.isSome = b.isSome) : (givenText table column a).Alike (givenText table column b) := by
  cases a with
  | none =>
    cases b with
    | none => exact .refl _
    | some v => simp at same
  | some u =>
    cases b with
    | none => simp at same
    | some v => exact (Fragment.equals_alike _ _ _).singles

namespace ListCriteria

theorem alike_of_shape {k l : ListCriteria} (left : k.Filled) (right : l.Filled)
    (same : k.shape = l.shape) : k.fragment.Alike l.fragment ∧ k.table = l.table := by
  cases k with
  | servers c =>
    cases l with
    | servers d =>
      simp only [shape, Shape.servers.injEq] at same
      obtain ⟨name, facility, attributes, versioned, components⟩ := same
      have groups := ComponentGroup.rowFragmentsFrom_alike ServerCriteria.table 0 left right
        components
      have plain := (AttributeFilter.fragments_alike .server ServerCriteria.table ""
        attributes).singles
      have newest := (AttributeFilter.fragments_alike .serverVersioned ServerCriteria.table ""
        versioned).singles
      exact ⟨(givenText_alike _ _ name).andThen ((givenText_alike _ _ facility).andThen
        (plain.andThen (newest.andThen (groups.andThen (.refl _))))), rfl⟩
    | _ => simp [shape] at same
  | components c =>
    cases l with
    | components d =>
      simp only [shape, Shape.components.injEq] at same
      obtain ⟨server, group⟩ := same
      have servers : (ComponentCriteria.serverFragment c.serverId).Alike
          (ComponentCriteria.serverFragment d.serverId) := by
        cases first : c.serverId <;> cases second : d.serverId
        · exact .refl _
        · simp [first, second] at server
        · simp [first, second] at server
        · exact (Fragment.equals_alike _ _ _).singles
      have groups := ComponentGroup.clauses_alike ComponentCriteria.table ""
        (ComponentCriteria.table ++ "_type") left right group
      exact ⟨servers.andThen groups.singles, rfl⟩
    | _ => simp [shape] at same
  | firmware c =>
    cases l with
    | firmware d =>
      simp only [shape, Shape.firmware.injEq] at same
      obtain ⟨vendor, model, version⟩ := same
      exact ⟨(givenText_alike _ _ vendor).andThen ((givenText_alike _ _ model).andThen
        ((givenText_alike _ _ version).andThen (.refl _))), rfl⟩
    | _ => simp [shape] at same
  | firmwareSets c =>
    cases l with
    | firmwareSets d =>
      simp only [shape, Shape.firmwareSets.injEq] at same
      obtain ⟨name, attributes⟩ := same
      have filters := (AttributeFilter.fragments_alike .firmwareSet FirmwareSetCriteria.table ""
        attributes).singles
      exact ⟨(givenText_alike _ _ name).andThen filters, rfl⟩
    | _ => simp [shape] at same

end ListCriteria

namespace Listing

theorem fragment_eq (listing : Listing) (params : Params) :
    listing.fragment params = (listing.criteria params).map ListCriteria.fragment := by
  have twice : ∀ {α : Type} (read : Except SearchFault α) (f : α → ListCriteria),
      (read.map f).map ListCriteria.fragment = read.map fun c => (f c).fragment := by
    intro α read f
    cases read <;> rfl
  cases listing with
  | servers | components | firmwareSets => rw [criteria, twice]; rfl
  | firmware | componentsOf server => rfl

theorem criteria_filled {listing : Listing} {params : Params} {k : ListCriteria}
    (read : listing.criteria params = .ok k) : k.Filled ∧ listing.table = k.table := by
  have back : ∀ {α : Type} {made : Except SearchFault α} {f : α → ListCriteria},
      made.map f = .ok k → ∃ c, made = .ok c ∧ f c = k := by
    intro α made f ok
    cases made with
    | error e => simp [Except.map] at ok
    | ok c => exact ⟨c, rfl, Except.ok.inj ok⟩
  cases listing with
  | servers =>
    obtain ⟨c, made, rfl⟩ := back read
    exact ⟨ServerCriteria.read_filled made, rfl⟩
  | components =>
    obtain ⟨c, made, rfl⟩ := back read
    exact ⟨ComponentCriteria.read_filled made, rfl⟩
  | firmware =>
    cases read
    exact ⟨trivial, rfl⟩
  | firmwareSets =>
    obtain ⟨c, made, rfl⟩ := back read
    exact ⟨trivial, rfl⟩
  | componentsOf server =>
    cases read
    exact ⟨⟨nofun, nofun, nofun, nofun, nofun⟩, rfl⟩

end Listing

namespace Sql.Selection

theorem sql_congr {s t : Selection} (joins : s.joins = t.joins)
    (predicates : s.predicates = t.predicates) (length : s.values.length = t.values.length)
    (table order : String) :
    s.countSql table = t.countSql table ∧ s.pageSql table order = t.pageSql table order := by
  have source : s.source table = t.source table := by
    simp only [Selection.source, joinTexts, predicateTexts, joins, predicates]
  delta countSql pageSql
  simp only [source, limitSlot, offsetSlot, length, and_self]

end Sql.Selection

namespace Plan

theorem ofQuery_eq_ok {listing : Listing} {query : String} {plan : Plan}
    (planned : ofQuery listing query = .ok plan) :
    ∃ k, listing.criteria (Params.parse query) = .ok k ∧
      Selection.ofFragment k.fragment = .ok plan.selection ∧
      listing.order (Params.parse query) = .ok plan.order ∧ plan.listing = listing := by
  obtain ⟨order, ordered, planned⟩ := bind_eq_ok.mp planned
  obtain ⟨selection, selected, planned⟩ := bind_eq_ok.mp planned
  cases planned
  rw [Listing.select, Listing.fragment_eq] at selected
  cases read : listing.criteria (Params.parse query) with
  | error e => simp [read, Except.map, Except.bind] at selected
  | ok k =>
    rw [read] at selected
    exact ⟨k, rfl, selected, ordered, rfl⟩

end Plan

theorem SortKey.read_allowed {allowed : List String} {raw : Option String} {key : SortKey}
    (read : SortKey.read allowed raw = .ok (some key)) : key.column ∈ allowed := by
  cases raw with
  | none => simp [SortKey.read] at read
  | some text =>
    rw [SortKey.read] at read
    generalize Text.trim text = trimmed at read
    cases parts : SortKey.split trimmed with
    | mk column descending =>
      simp only [parts] at read
      split at read
      · simp at read
      · split at read
        · next known =>
          rw [← Option.some.inj (Except.ok.inj read)]
          exact known
        · simp at read

/-- Requests of one shape and one order are sent as the same text, whatever their names, keys,
values and fields are. The order they are sent with is one of the columns that may be named. -/
theorem sql_of_shape :
    (∀ (l l' : Listing) (query query' : String) (plan plan' : Plan),
      Plan.ofQuery l query = .ok plan → Plan.ofQuery l' query' = .ok plan' →
      l.shape query = l'.shape query' → plan.order = plan'.order →
        plan.countSql = plan'.countSql ∧ plan.pageSql = plan'.pageSql)
    ∧ (∀ (l : Listing) (query : String) (plan : Plan), Plan.ofQuery l query = .ok plan →
      ∃ column direction, plan.orderSql = l.table ++ "." ++ column ++ " " ++ direction ++ ", "
          ++ l.table ++ ".id ASC"
        ∧ (column ∈ l.sortColumns ∧ (direction = "ASC" ∨ direction = "DESC")
          ∨ column = Listing.defaultColumn ∧ direction = "ASC")
        ∧ plan.pageSql = "SELECT DISTINCT " ++ l.table ++ ".* FROM "
          ++ plan.selection.source l.table ++ " ORDER BY " ++ plan.orderSql
          ++ " LIMIT " ++ placeholder plan.selection.limitSlot
          ++ " OFFSET " ++ placeholder plan.selection.offsetSlot) := by
  constructor
  · intro l l' query query' plan plan' planned planned' same order
    obtain ⟨k, read, selected, -, rfl⟩ := Plan.ofQuery_eq_ok planned
    obtain ⟨k', read', selected', -, rfl⟩ := Plan.ofQuery_eq_ok planned'
    obtain ⟨filled, table⟩ := Listing.criteria_filled read
    obtain ⟨filled', table'⟩ := Listing.criteria_filled read'
    have shapes : k.shape = k'.shape := by simpa [Listing.shape, read, read', Except.map] using same
    obtain ⟨alike, tables⟩ := ListCriteria.alike_of_shape filled filled' shapes
    obtain ⟨ok, whole⟩ := Selection.ofFragment_eq_ok selected
    obtain ⟨ok', whole'⟩ := Selection.ofFragment_eq_ok selected'
    obtain ⟨joins, conditions, length⟩ := alike 0 ok ok'
    have congr := Selection.sql_congr (s := plan.selection) (t := plan'.selection)
      (by rw [whole, whole', joins]) (by rw [whole, whole', conditions])
      (by rw [whole, whole', length])
    have named : plan.listing.table = plan'.listing.table := by rw [table, table', tables]
    rw [Plan.countSql, Plan.countSql, Plan.pageSql, Plan.pageSql, Plan.orderSql, Plan.orderSql,
      named, order]
    exact congr _ _
  · intro l query plan planned
    obtain ⟨k, -, -, ordered, rfl⟩ := Plan.ofQuery_eq_ok planned
    cases key : plan.order with
    | none =>
      refine ⟨Listing.defaultColumn, "ASC", ?_, .inr ⟨rfl, rfl⟩, rfl⟩
      rw [Plan.orderSql, key]
      rfl
    | some sort =>
      rw [key] at ordered
      refine ⟨sort.column, SortKey.direction sort.descending, ?_,
        .inl ⟨SortKey.read_allowed ordered, ?_⟩, rfl⟩
      · rw [Plan.orderSql, key]
        rfl
      · cases sort.descending
        · exact .inl rfl
        · exact .inr rfl

theorem sql_of_shape_of_hostile_text :
    let calm := "name=a&attr=n~k~eq~1&sc_0[model]=x&orderby=-name"
    let hostile := "name=%249;--&attr='~k'~eq~OR 1&sc_0[model]=') OR (''='&orderby=-name"
    ∃ plan plan', Plan.ofQuery .servers calm = .ok plan ∧
      Plan.ofQuery .servers hostile = .ok plan' ∧
      plan.countSql = plan'.countSql ∧ plan.pageSql = plan'.pageSql ∧
      plan'.orderSql = "servers.name DESC, servers.id ASC" ∧
      ∃ column direction, plan'.orderSql = Listing.servers.table ++ "." ++ column ++ " " ++ direction
          ++ ", " ++ Listing.servers.table ++ ".id ASC" ∧
        (column ∈ Listing.servers.sortColumns ∧ (direction = "ASC" ∨ direction = "DESC")
          ∨ column = Listing.defaultColumn ∧ direction = "ASC") := by
  intro calm hostile
  have planned : ∀ read : Except SearchFault Plan, read.toOption.isSome = true →
      ∃ plan, read = .ok plan := by
    intro read some
    cases read with
    | error e => contradiction
    | ok plan => exact ⟨plan, rfl⟩
  obtain ⟨plan, first⟩ := planned (Plan.ofQuery .servers calm) (by decide +kernel)
  obtain ⟨plan', second⟩ := planned (Plan.ofQuery .servers hostile) (by decide +kernel)
  have shape : Listing.servers.shape calm = .ok (.servers true false [⟨1, some .equal⟩] []
      [⟨false, false, true, false, false, [], []⟩]) := by decide +kernel
  have shape' : Listing.servers.shape hostile = .ok (.servers true false [⟨1, some .equal⟩] []
      [⟨false, false, true, false, false, [], []⟩]) := by decide +kernel
  have order : Listing.servers.order (Params.parse calm) = .ok (some ⟨"name", true⟩) := by
    decide +kernel
  have order' : Listing.servers.order (Params.parse hostile) = .ok (some ⟨"name", true⟩) := by
    decide +kernel
  obtain ⟨-, -, -, ordered, -⟩ := Plan.ofQuery_eq_ok first
  obtain ⟨-, -, -, ordered', listing⟩ := Plan.ofQuery_eq_ok second
  have descending := Except.ok.inj (order'.symm.trans ordered')
  have same : plan.order = plan'.order :=
    (Except.ok.inj (order.symm.trans ordered)).symm.trans descending
  obtain ⟨count, page⟩ := sql_of_shape.1 _ _ _ _ _ _ first second
    (shape.trans shape'.symm) same
  obtain ⟨column, direction, text, allowed, -⟩ := sql_of_shape.2 _ _ _ second
  refine ⟨plan, plan', first, second, count, page, ?_, column, direction, text, allowed⟩
  rw [Plan.orderSql, listing, ← descending]
  rfl

end FleetInventory
