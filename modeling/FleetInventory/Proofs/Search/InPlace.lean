import FleetInventory.Proofs.Search.Scoping
import FleetInventory.Proofs.Sql.Resolving

/-!
List statements written with their values in place. The texts are put together from the criteria
alone, without slots and without counting; `quote` says how a value is written. Main statement:
`slots_resolve`, the statements that bind their values come to these texts.
-/
namespace FleetInventory

open Sql

namespace AttributeFilter

def writtenJoin (quote : Value → String) (source : AttributeSource) (parent name : String)
    (filter : AttributeFilter) : String :=
  "LEFT OUTER JOIN " ++ source.table ++ " AS " ++ name ++ " ON " ++ name ++ "."
    ++ source.ownerColumn ++ " = " ++ parent ++ ".id"
    ++ if source.isVersioned then
        " AND " ++ name ++ ".created_at = (SELECT MAX(" ++ name ++ "_latest.created_at) FROM "
          ++ source.table ++ " AS " ++ name ++ "_latest WHERE " ++ name ++ "_latest."
          ++ source.ownerColumn ++ " = " ++ parent ++ ".id AND " ++ name
          ++ "_latest.namespace = " ++ quote (.text filter.scope) ++ ")"
      else ""

def writtenTest (quote : Value → String) (name : String) (filter : AttributeFilter) :
    Option String :=
  let keys := filter.keyPath.map fun key => quote (.text key)
  match keys.getLast?, filter.comparison with
  | none, _ => none
  | some last, none =>
    some ("(" ++ keys.dropLast.foldl (fun text key => text ++ " -> " ++ key) (name ++ ".data")
      ++ ") ? " ++ last)
  | some _, some c =>
    some (comparisonText ("jsonb_extract_path_text(" ++ name ++ ".data, "
      ++ String.intercalate ", " keys ++ ")") (quote (.text filter.value)) c)

def writtenCondition (quote : Value → String) (name : String) (filter : AttributeFilter) : String :=
  let within := name ++ ".namespace = " ++ quote (.text filter.scope)
  match filter.writtenTest quote name with
  | some tested => "(" ++ within ++ " AND " ++ tested ++ ")"
  | none => within

def writtenFrom (quote : Value → String) (source : AttributeSource) (parent lead : String)
    (position : Nat) (filters : List AttributeFilter) : Written where
  joins := (filters.zipIdx position).map fun (filter, i) =>
    filter.writtenJoin quote source parent (lead ++ source.stem ++ "_" ++ Text.showNat i)
  conditions := (filters.zipIdx position).map fun (filter, i) =>
    filter.writtenCondition quote (lead ++ source.stem ++ "_" ++ Text.showNat i)

end AttributeFilter

namespace ComponentGroup

def writtenFilled (quote : Value → String) (component column : String) :
    Option String → List String
  | some value =>
    if value = "" then [] else [component ++ "." ++ column ++ " = " ++ quote (.text value)]
  | none => []

def writtenFields (quote : Value → String) (component : String) (group : ComponentGroup) :
    Written :=
  ⟨[], writtenFilled quote component "name" group.name
    ++ writtenFilled quote component "vendor" group.vendor
    ++ writtenFilled quote component "model" group.model
    ++ writtenFilled quote component "serial" group.serial⟩

def writtenKind (quote : Value → String) (component name : String) (group : ComponentGroup) :
    Written :=
  match group.kind with
  | some slug =>
    if slug = "" then .nothing
    else ⟨["LEFT OUTER JOIN server_component_types AS " ++ name ++ " ON " ++ name ++ ".id = "
      ++ component ++ ".server_component_type_id"],
      [name ++ ".slug = " ++ quote (.text slug)]⟩
  | none => .nothing

def written (quote : Value → String) (component lead kindName : String) (group : ComponentGroup) :
    Written :=
  .all [group.writtenFields quote component, group.writtenKind quote component kindName,
    AttributeFilter.writtenFrom quote .component component lead 0 group.attributes,
    AttributeFilter.writtenFrom quote .componentVersioned component lead 0 group.versioned]

def writtenRow (parent row : String) : String :=
  "LEFT OUTER JOIN server_components AS " ++ row ++ " ON " ++ row ++ ".server_id = " ++ parent
    ++ ".id"

/-- The group at a position of a search for servers, as one condition in brackets if it has any. -/
def writtenAt (quote : Value → String) (parent : String) (j : Nat) (group : ComponentGroup) :
    Written :=
  let row := "comp_" ++ Text.showNat j
  let inner := group.written quote row (row ++ "_") (row ++ "_type")
  if inner.conditions = [] then .nothing
  else (Written.append ⟨[writtenRow parent row], []⟩ inner).asBlock

end ComponentGroup

def writtenGiven (quote : Value → String) (table column : String) (value : Option String) :
    Written :=
  ⟨[], (value.map fun v => table ++ "." ++ column ++ " = " ++ quote (.text v)).toList⟩

def ServerCriteria.written (quote : Value → String) (c : ServerCriteria) : Written :=
  .all [writtenGiven quote "servers" "name" c.name,
    writtenGiven quote "servers" "facility_code" c.facilityCode,
    AttributeFilter.writtenFrom quote .server "servers" "" 0 c.attributes,
    AttributeFilter.writtenFrom quote .serverVersioned "servers" "" 0 c.versioned,
    .all (c.components.zipIdx.map fun (group, j) => group.writtenAt quote "servers" j)]

def ComponentCriteria.written (quote : Value → String) (c : ComponentCriteria) : Written :=
  Written.append
    ⟨[], (c.serverId.map fun id => "server_components.server_id = " ++ quote (.uuid id)).toList⟩
    (c.group.written quote "server_components" "" "server_components_type")

def FirmwareSetCriteria.written (quote : Value → String) (c : FirmwareSetCriteria) : Written :=
  Written.append (writtenGiven quote "component_firmware_set" "name" c.name)
    (AttributeFilter.writtenFrom quote .firmwareSet "component_firmware_set" "" 0 c.attributes)

def FirmwareCriteria.written (quote : Value → String) (c : FirmwareCriteria) : Written :=
  .all [writtenGiven quote "component_firmware_version" "vendor" c.vendor,
    writtenGiven quote "component_firmware_version" "model" c.model,
    writtenGiven quote "component_firmware_version" "version" c.version]

theorem Text.showNat_plain (n : Nat) : '$' ∉ (Text.showNat n).toList := by
  intro member
  rw [showNat_toList] at member
  exact absurd (decimal_isDigit member) (by decide)

variable (quote : Value → String)

namespace AttributeFilter

theorem join_text (source : AttributeSource) (parent name : String) (filter : AttributeFilter)
    {hole : Nat → String} {scope : Nat} (shows : hole scope = quote (.text filter.scope)) :
    (join source parent name scope).joined.text hole
      = filter.writtenJoin quote source parent name := by
  have id : ".id" = "." ++ "id" := rfl
  rw [← Join.render_eq]
  delta writtenJoin
  cases versioned : source.isVersioned with
  | false =>
    delta Join.render
    simp only [join, versioned, Column.render_of, id, Bool.false_eq_true, ↓reduceIte,
      String.append_assoc]
  | true =>
    have created : ".created_at = (SELECT MAX(" = ".created_at = " ++ "(SELECT MAX(" := rfl
    have newest : "_latest.created_at) FROM " = "_latest" ++ ".created_at) FROM " := rfl
    have named : "_latest WHERE " = "_latest" ++ " WHERE " := rfl
    have owned : "_latest." = "_latest" ++ "." := rfl
    have linked : ".id AND " = "." ++ ("id" ++ " AND ") := rfl
    have within : "_latest.namespace = " = "_latest" ++ ".namespace = " := rfl
    delta Join.render Join.newestText
    simp only [join, versioned, Join.latest, Column.render_of, id, created, newest, named, owned,
      linked, within, shows, ↓reduceIte, String.append_assoc]

theorem pathText_map (hole : Nat → String) (start : String) (slots : List Nat) :
    pathText hole start slots
      = (slots.map hole).foldl (fun text key => text ++ " -> " ++ key) start := by
  rw [pathText, List.foldl_map]

theorem test_text (filter : AttributeFilter) {bound : Nat} {values : List Value}
    (binds : Binds values bound (filter.testTexts.map Value.text)) (name : String) :
    (filter.documentTest bound).render? (shown quote values) name
      = filter.writtenTest quote name := by
  obtain ⟨scope, path, comparison, value⟩ := filter
  cases path with
  | nil => rfl
  | cons key more =>
    cases comparison with
    | none =>
      obtain ⟨parents, last, split, count⟩ := path_split key more
      obtain ⟨first, one⟩ := Binds.last parents last
        (by simpa [testTexts, split] using binds)
      have slot := shown_of quote one
      have keys := shown_texts quote parents first
      rw [count] at slot keys
      simp only [documentTest, DocumentTest.render?, writtenTest, split, pathText_map, keys,
        List.map_append, List.map_cons, List.map_nil, List.getLast?_concat, List.dropLast_concat]
      rw [Nat.add_right_comm, slot]
    | some c =>
      obtain ⟨first, one⟩ := Binds.last (key :: more) value
        (by simpa [testTexts] using binds)
      have slot := shown_of quote one
      have keys := shown_texts quote (key :: more) first
      have last := List.getLast?_eq_some_getLast (l := (key :: more).map fun text =>
        quote (.text text)) (by simp)
      simp only [documentTest, DocumentTest.render?, writtenTest, keys, last]
      rw [Nat.add_right_comm, slot]

theorem condition_text (filter : AttributeFilter) {bound : Nat} {values : List Value}
    (binds : Binds values bound ((filter.scope :: filter.testTexts).map Value.text))
    (name : String) :
    (Clause.document name (bound + 1) (filter.documentTest (bound + 1))).expr.text
        (shown quote values) = filter.writtenCondition quote name := by
  obtain ⟨first, later⟩ := Binds.cons binds
  have slot := shown_of quote first
  rw [← Clause.render_eq, Clause.render, test_text quote filter later name, slot, writtenCondition]
  cases filter.writtenTest quote name with
  | none => rfl
  | some tested => simp [conjunction, String.append_assoc]

theorem test_slots (filter : AttributeFilter) (bound : Nat) (name : String) (n : Nat) :
    (∃ e, (filter.documentTest bound).expr? name = some e ∧ n ∈ e.template.slots) ↔
      bound < n ∧ n ≤ bound + filter.testTexts.length := by
  obtain ⟨scope, path, comparison, value⟩ := filter
  cases path with
  | nil =>
    simp [documentTest, DocumentTest.expr?, testTexts]
  | cons key more =>
    cases comparison with
    | none =>
      simp only [documentTest, DocumentTest.expr?, Option.some.injEq, exists_eq_left', testTexts,
        Expr.template, Template.slots_append, Expr.slots_path, Template.slots_ofText,
        Template.slots_slot_cons, Template.slots_nil, List.nil_append, List.mem_append,
        List.mem_singleton, List.mem_range'_1, List.length_cons]
      omega
    | some c =>
      simp only [documentTest, DocumentTest.expr?, Option.some.injEq, exists_eq_left', testTexts,
        Expr.slots_comparison, Expr.template, Template.slots_append, Template.slots_intercalate,
        Template.slots_ofText, Template.slots_slot_cons, Template.slots_nil, List.nil_append,
        List.append_nil, List.mem_append, List.mem_singleton, List.mem_range'_1,
        List.length_cons, List.length_append, List.length_nil]
      omega

theorem condition_slots (filter : AttributeFilter) (bound : Nat) (name : String) (n : Nat) :
    n ∈ (Clause.document name (bound + 1)
        (filter.documentTest (bound + 1))).expr.template.slots ↔
      bound < n ∧ n ≤ bound + 1 + filter.testTexts.length := by
  have tested := test_slots filter (bound + 1) name n
  rw [Clause.expr]
  cases test : (filter.documentTest (bound + 1)).expr? name with
  | none =>
    simp only [test, Expr.template, Template.slots_append, Template.slots_ofText,
      Template.slots_slot_cons, Template.slots_nil, List.nil_append, List.mem_singleton,
      reduceCtorEq, false_and, exists_false, false_iff] at tested ⊢
    omega
  | some e =>
    simp only [test, Option.some.injEq, exists_eq_left', Expr.template, Template.slots_append,
      Template.slots_ofText, Template.slots_slot_cons, Template.slots_nil, List.nil_append,
      List.append_nil, List.mem_append, List.mem_singleton] at tested ⊢
    rw [tested]
    omega

theorem condition_plain (scope : Nat) {name : String} (test : DocumentTest)
    (plain : '$' ∉ name.toList) :
    (Clause.document name scope test).expr.template.Plain := by
  refine Expr.plain _ fun word member => ?_
  have words : word = (Column.of name "namespace").render ∨
      word = (Column.of name "data").render := by
    cases test with
    | anything => exact .inl (by simpa [Clause.expr, DocumentTest.expr?, Expr.words] using member)
    | hasKey parents key =>
      simpa [Clause.expr, DocumentTest.expr?, Expr.words, Expr.words_path] using member
    | compares path c value =>
      simpa [Clause.expr, DocumentTest.expr?, Expr.words, Expr.words_comparison] using member
  rcases words with rfl | rfl <;> simp [Column.render_of, plain]

theorem join_slots (source : AttributeSource) (parent name : String) (scope n : Nat)
    (member : n ∈ (join source parent name scope).joined.template.slots) : n = scope := by
  cases versioned : source.isVersioned with
  | false => simp [join, versioned, Join.joined, Joined.template, Join.condition, Expr.template]
      at member
  | true => simpa [join, versioned, Join.joined, Joined.template, Join.condition, Join.newest,
      Expr.template] using member

theorem join_plain (source : AttributeSource) {parent name : String} (scope : Nat)
    (first : '$' ∉ parent.toList) (second : '$' ∉ name.toList) :
    (join source parent name scope).joined.template.Plain := by
  have table : '$' ∉ source.table.toList := by cases source <;> decide
  have owner : '$' ∉ source.ownerColumn.toList := by cases source <;> decide
  cases versioned : source.isVersioned <;>
    simp [join, versioned, Join.joined, Joined.template, Join.condition, Join.newest, Join.latest,
      Expr.template, Column.render_of, table, owner, first, second]

theorem fragment_writes (source : AttributeSource) {parent name : String}
    (filter : AttributeFilter) (first : '$' ∉ parent.toList) (second : '$' ∉ name.toList) :
    (fragment source parent name filter).Writes quote
      ⟨[filter.writtenJoin quote source parent name], [filter.writtenCondition quote name]⟩ := by
  intro bound _
  constructor
  · intro values binds
    have shows := shown_of quote (Binds.cons binds).1
    simp only [fragment, List.map_cons, List.map_nil,
      join_text quote source parent name filter shows]
  · intro values binds
    exact congrArg (fun text => [text]) (condition_text quote filter binds name)
  · intro n
    have slots := condition_slots filter bound name n
    have linked := join_slots source parent name (bound + 1) n
    have length : (fragment source parent name filter bound).values.length
        = filter.testTexts.length + 1 := by simp [fragment]
    have templates : (fragment source parent name filter bound).templates
        = [(join source parent name (bound + 1)).joined.template, (Clause.document name (bound + 1)
          (filter.documentTest (bound + 1))).expr.template] := rfl
    rw [templates, length]
    simp only [List.mem_cons, List.not_mem_nil, or_false, exists_eq_or_imp, exists_eq_left, slots]
    constructor
    · intro known
      rcases known with own | ⟨low, high⟩
      · have scope := linked own
        omega
      · omega
    · intro range
      exact .inr (by omega)
  · intro x member
    rcases List.mem_append.mp member with join | condition
    · rw [List.mem_singleton.mp join]
      exact join_plain source (bound + 1) first second
    · rw [List.mem_singleton.mp condition]
      exact condition_plain (bound + 1) _ second

theorem rowName_plain {lead : String} (source : AttributeSource) (position : Nat)
    (plain : '$' ∉ lead.toList) : '$' ∉ (rowName lead source position).toList := by
  have stem : '$' ∉ source.stem.toList := by cases source <;> decide
  simp [rowName, plain, stem, Text.showNat_plain position]

theorem fragmentsFrom_writes (source : AttributeSource) {parent : String} (lead : String)
    (position : Nat) (filters : List AttributeFilter) (first : '$' ∉ parent.toList)
    (second : '$' ∉ lead.toList) :
    (Fragment.all (fragmentsFrom source parent lead position filters)).Writes quote
      (writtenFrom quote source parent lead position filters) := by
  induction filters generalizing position with
  | nil => exact Fragment.nothing_writes
  | cons filter rest ih =>
    have head := fragment_writes quote source filter first
      (rowName_plain source position second)
    exact head.andThen (ih (position + 1))

theorem fragments_writes (source : AttributeSource) {parent : String} (lead : String)
    (filters : List AttributeFilter) (first : '$' ∉ parent.toList) (second : '$' ∉ lead.toList) :
    (fragments source parent lead filters).Writes quote
      (writtenFrom quote source parent lead 0 filters) := by
  unfold fragments
  split
  · exact Fragment.refused_writes _
  · exact fragmentsFrom_writes quote source lead 0 filters first second

end AttributeFilter

namespace ComponentGroup

theorem writtenFilled_eq (component column : String) (value : Option String) :
    writtenFilled quote component column value = ((value.filter (· ≠ "")).map fun v =>
      component ++ "." ++ column ++ " = " ++ quote (.text v)).toList := by
  cases value with
  | none => rfl
  | some v => by_cases empty : v = "" <;> simp [writtenFilled, Option.filter, empty]

theorem writtenFields_eq (component : String) (group : ComponentGroup) :
    group.writtenFields quote component = ⟨[], group.fields.map fun (column, value) =>
      component ++ "." ++ column ++ " = " ++ quote (.text value)⟩ := by
  simp only [writtenFields, writtenFilled_eq, fields, List.filterMap_cons, List.filterMap_nil]
  cases group.name.filter (· ≠ "") <;> cases group.vendor.filter (· ≠ "") <;>
    cases group.model.filter (· ≠ "") <;> cases group.serial.filter (· ≠ "") <;> rfl

theorem writtenKind_eq (component name : String) (group : ComponentGroup) :
    group.writtenKind quote component name = (group.kind?.map fun slug => Written.mk
      ["LEFT OUTER JOIN server_component_types AS " ++ name ++ " ON " ++ name ++ ".id = "
        ++ component ++ ".server_component_type_id"]
      [name ++ ".slug = " ++ quote (.text slug)]).getD .nothing := by
  unfold writtenKind kind?
  cases group.kind with
  | none => rfl
  | some slug => by_cases empty : slug = "" <;> simp [Option.filter, empty]

/-- A group that asks for nothing has no conditions, and only such a group has none. -/
theorem conditions_written_eq_nil {component lead kindName : String} {group : ComponentGroup} :
    (group.written quote component lead kindName).conditions = [] ↔ group.isEmpty = true := by
  have kind : (group.writtenKind quote component kindName).conditions = []
      ↔ group.kind?.isNone = true := by
    rw [writtenKind_eq]
    cases group.kind? <;> simp [Written.nothing]
  simp [written, Written.all, Written.append, Written.nothing, writtenFields_eq, kind,
    AttributeFilter.writtenFrom, isEmpty, and_assoc]

theorem fields_columns (group : ComponentGroup) :
    ∀ field ∈ group.fields, field.1 ∈ ["name", "vendor", "model", "serial"] := by
  intro field member
  obtain ⟨⟨column, value⟩, listed, given⟩ := List.mem_filterMap.mp member
  obtain ⟨v, -, rfl⟩ := Option.map_eq_some_iff.mp given
  have columns := List.mem_map_of_mem (f := Prod.fst) listed
  exact columns

theorem fields_plain (group : ComponentGroup) :
    ∀ field ∈ group.fields, '$' ∉ field.1.toList := by
  have each : ∀ column ∈ ["name", "vendor", "model", "serial"], '$' ∉ column.toList := by decide
  exact fun field member => each _ (group.fields_columns field member)

theorem columns_writes {component : String} {fields : List (String × String)}
    (first : '$' ∉ component.toList) (second : ∀ field ∈ fields, '$' ∉ field.1.toList) :
    (Fragment.all (fields.map fun (column, value) =>
      Fragment.equals (.of component column) (.text value))).Writes quote
        ⟨[], fields.map fun (column, value) =>
          component ++ "." ++ column ++ " = " ++ quote (.text value)⟩ := by
  induction fields with
  | nil => exact Fragment.nothing_writes
  | cons field rest ih =>
    have head := Fragment.equals_writes quote (.text field.2) first
      (second field List.mem_cons_self)
    exact head.andThen (ih fun other member => second other (List.mem_cons_of_mem _ member))

theorem kindFragment_writes {component name : String} (group : ComponentGroup)
    (first : '$' ∉ component.toList) (second : '$' ∉ name.toList) :
    (kindFragment component name group).Writes quote (group.writtenKind quote component name) := by
  rw [kindFragment, writtenKind_eq]
  cases group.kind? with
  | none => exact Fragment.nothing_writes
  | some slug =>
    have joined : (Fragment.joined (kindJoin component name) : Fragment Clause).Writes quote _ :=
      Fragment.joined_writes quote (by decide) second (by decide) first (by decide)
    have slugs : (Fragment.equals (.of name "slug") (.text slug)).Writes quote _ :=
      Fragment.equals_writes quote (.text slug) second (by decide)
    have both := joined.andThen slugs
    have start : "LEFT OUTER JOIN server_component_types AS "
        = "LEFT OUTER JOIN " ++ ("server_component_types" ++ " AS ") := rfl
    have id : ".id = " = "." ++ ("id" ++ " = ") := rfl
    have kind : ".server_component_type_id" = "." ++ "server_component_type_id" := rfl
    have slugged : ".slug = " = "." ++ ("slug" ++ " = ") := rfl
    simp only [Written.append, List.append_nil, List.nil_append, kindTable, String.append_assoc]
      at both
    simp only [start, id, kind, slugged, String.append_assoc]
    exact both

theorem clauses_writes {component : String} (lead kindName : String) (group : ComponentGroup)
    (first : '$' ∉ component.toList) (second : '$' ∉ lead.toList) (third : '$' ∉ kindName.toList) :
    (clauses component lead kindName group).Writes quote
      (group.written quote component lead kindName) := by
  have plain := AttributeFilter.fragments_writes quote .component lead group.attributes first
    second
  have versioned := AttributeFilter.fragments_writes quote .componentVersioned lead
    group.versioned first second
  have kind := kindFragment_writes quote group first third
  rw [clauses_eq, written, writtenFields_eq]
  exact (columns_writes quote first group.fields_plain).andThen
    (kind.andThen (plain.andThen (versioned.andThen Fragment.nothing_writes)))

theorem rowName_plain (j : Nat) : '$' ∉ (rowName j).toList := by
  simp [rowName, Text.showNat_plain j]

theorem lead_plain (j : Nat) : '$' ∉ (lead j).toList := by
  simp [lead, rowName_plain j]

theorem writtenRow_eq (parent row : String) :
    writtenRow parent row = "LEFT OUTER JOIN " ++ table ++ " AS " ++ row ++ " ON " ++ row ++ "."
      ++ "server_id" ++ " = " ++ parent ++ "." ++ "id" := by
  have start : "LEFT OUTER JOIN server_components AS "
      = "LEFT OUTER JOIN " ++ ("server_components" ++ " AS ") := rfl
  have server : ".server_id = " = "." ++ ("server_id" ++ " = ") := rfl
  have id : ".id" = "." ++ "id" := rfl
  delta writtenRow
  simp only [start, server, id, table, String.append_assoc]

theorem placed_writes {parent : String} (j : Nat) (group : ComponentGroup)
    (plain : '$' ∉ parent.toList) :
    (placed parent j group).Writes quote (group.writtenAt quote parent j) := by
  unfold placed writtenAt
  simp only [conditions_written_eq_nil]
  split
  · exact Fragment.nothing_writes
  · have joined : (Fragment.joined (rowJoin parent j) : Fragment Clause).Writes quote _ :=
      Fragment.joined_writes quote (by decide) (rowName_plain j) (by decide) plain (by decide)
    have kind : '$' ∉ (lead j ++ "type").toList := by simp [lead_plain j]
    have inner := clauses_writes quote (lead j) (lead j ++ "type") group (rowName_plain j)
      (lead_plain j) kind
    have named : "_type" = "_" ++ "type" := rfl
    have kindName : rowName j ++ "_type" = lead j ++ "type" := by
      simp only [lead, named, String.append_assoc]
    change (rowFragment parent j group).Writes quote (Written.append
      ⟨[writtenRow parent (rowName j)], []⟩
      (group.written quote (rowName j) (lead j) (rowName j ++ "_type"))).asBlock
    rw [writtenRow_eq, kindName]
    exact (joined.andThen inner).asBlock

theorem rowFragmentsFrom_writes {parent : String} (index : Nat) (groups : List ComponentGroup)
    (plain : '$' ∉ parent.toList) :
    (Fragment.all (rowFragmentsFrom parent index groups)).Writes quote
      (.all ((groups.zipIdx index).map fun (group, j) => group.writtenAt quote parent j)) := by
  induction groups generalizing index with
  | nil => exact Fragment.nothing_writes
  | cons group rest ih => exact (placed_writes quote index group plain).andThen (ih (index + 1))

end ComponentGroup

theorem givenText_writes {table column : String} (value : Option String)
    (first : '$' ∉ table.toList) (second : '$' ∉ column.toList) :
    (givenText table column value).Writes quote (writtenGiven quote table column value) := by
  cases value with
  | none => exact Fragment.nothing_writes
  | some v => exact (Fragment.equals_writes quote (.text v) first second).singles

theorem ServerCriteria.fragment_writes (c : ServerCriteria) :
    c.fragment.Writes quote (c.written quote) := by
  have plain : '$' ∉ ServerCriteria.table.toList := by decide
  have filters := (AttributeFilter.fragments_writes quote .server "" c.attributes plain
    (by decide)).singles
  have versioned := (AttributeFilter.fragments_writes quote .serverVersioned "" c.versioned plain
    (by decide)).singles
  have groups := ComponentGroup.rowFragmentsFrom_writes quote 0 c.components plain
  exact (givenText_writes quote c.name plain (by decide)).andThen
    ((givenText_writes quote c.facilityCode plain (by decide)).andThen
      (filters.andThen (versioned.andThen (groups.andThen Fragment.nothing_writes))))

theorem ComponentCriteria.fragment_writes (c : ComponentCriteria) :
    c.fragment.Writes quote (c.written quote) := by
  have plain : '$' ∉ ComponentCriteria.table.toList := by decide
  have server : (serverFragment c.serverId).Writes quote ⟨[], (c.serverId.map fun id =>
      "server_components.server_id = " ++ quote (.uuid id)).toList⟩ := by
    cases c.serverId with
    | none => exact Fragment.nothing_writes
    | some id => exact (Fragment.equals_writes quote (.uuid id) plain (by decide)).singles
  have group := ComponentGroup.clauses_writes quote "" (table ++ "_type") c.group plain
    (by decide) (by decide)
  exact server.andThen group.singles

theorem FirmwareSetCriteria.fragment_writes (c : FirmwareSetCriteria) :
    c.fragment.Writes quote (c.written quote) := by
  have plain : '$' ∉ FirmwareSetCriteria.table.toList := by decide
  have filters := AttributeFilter.fragments_writes quote .firmwareSet "" c.attributes plain
    (by decide)
  exact (givenText_writes quote c.name plain (by decide)).andThen filters.singles

theorem FirmwareCriteria.fragment_writes (c : FirmwareCriteria) :
    c.fragment.Writes quote (c.written quote) := by
  have plain : '$' ∉ FirmwareCriteria.table.toList := by decide
  exact (givenText_writes quote c.vendor plain (by decide)).andThen
    ((givenText_writes quote c.model plain (by decide)).andThen
      ((givenText_writes quote c.version plain (by decide)).andThen Fragment.nothing_writes))

/-- In the statements of all lists every placeholder stands for the value that is meant, and every
value is used. -/
theorem slots_resolve :
    (∀ (c : ServerCriteria) (s : Selection), Selection.ofFragment c.fragment = .ok s →
      s.Resolves quote (c.written quote))
    ∧ (∀ (c : ComponentCriteria) (s : Selection), Selection.ofFragment c.fragment = .ok s →
      s.Resolves quote (c.written quote))
    ∧ (∀ (c : FirmwareSetCriteria) (s : Selection), Selection.ofFragment c.fragment = .ok s →
      s.Resolves quote (c.written quote))
    ∧ (∀ (c : FirmwareCriteria) (s : Selection), Selection.ofFragment c.fragment = .ok s →
      s.Resolves quote (c.written quote)) :=
  ⟨fun c _ compiled => Selection.resolves_of_writes compiled (c.fragment_writes quote),
    fun c _ compiled => Selection.resolves_of_writes compiled (c.fragment_writes quote),
    fun c _ compiled => Selection.resolves_of_writes compiled (c.fragment_writes quote),
    fun c _ compiled => Selection.resolves_of_writes compiled (c.fragment_writes quote)⟩

theorem slots_resolve_of_sample :
    let quote : Value → String := fun value => match value with
      | .text s => "'" ++ s ++ "'"
      | .int n => Text.showInt n
      | .uuid _ => "id"
    let filter : AttributeFilter := ⟨"$2", ["version", "$1"], none, ""⟩
    let compared : AttributeFilter := ⟨"fw", ["version"], some .greater, "12"⟩
    let group : ComponentGroup :=
      ⟨none, some "Acme", none, none, some "nic", [filter], [compared]⟩
    let servers : ServerCriteria :=
      ⟨some "nemo", none, [filter, compared], [compared], [ComponentGroup.empty, group]⟩
    (∃ s, Selection.ofFragment servers.fragment = .ok s ∧ s.Resolves quote (servers.written quote))
    ∧ (∃ s, Selection.ofFragment (ComponentCriteria.fragment ⟨none, group⟩) = .ok s ∧
      s.Resolves quote (ComponentCriteria.written quote ⟨none, group⟩))
    ∧ (∃ s, Selection.ofFragment (FirmwareSetCriteria.fragment ⟨some "a", [filter]⟩) = .ok s ∧
      s.Resolves quote (FirmwareSetCriteria.written quote ⟨some "a", [filter]⟩))
    ∧ (∃ s, Selection.ofFragment (FirmwareCriteria.fragment ⟨some "a", none, some "1"⟩) = .ok s ∧
      s.Resolves quote (FirmwareCriteria.written quote ⟨some "a", none, some "1"⟩)) := by
  intro quote filter compared group servers
  exact ⟨⟨_, rfl, (slots_resolve quote).1 servers _ rfl⟩,
    ⟨_, rfl, (slots_resolve quote).2.1 ⟨none, group⟩ _ rfl⟩,
    ⟨_, rfl, (slots_resolve quote).2.2.1 ⟨some "a", [filter]⟩ _ rfl⟩,
    ⟨_, rfl, (slots_resolve quote).2.2.2 ⟨some "a", none, some "1"⟩ _ rfl⟩⟩

end FleetInventory
