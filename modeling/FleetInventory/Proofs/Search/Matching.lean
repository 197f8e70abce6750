import FleetInventory.Proofs.Sql.Meaning
import FleetInventory.Search.Criteria

/-!
When a record meets the criteria of a search, said of the records alone: nothing here speaks of
joins, slots or statements. Every filter needs a row of its own, every group one component.
-/
namespace FleetInventory

open Sql

variable {D : Type}

namespace Sql

namespace Operators

def text (m : Operators D) (s : String) : D := m.bound (.text s)

def descend (m : Operators D) (document : Option D) (keys : List String) : Option D :=
  keys.foldl (fun d key => d.bind fun x => m.child x (m.text key)) document

def Compares (m : Operators D) : Comparison → D → D → Prop
  | .equal, found, value => found = value
  | .like, found, value => m.like found value = some true
  | .greater, found, value => m.greater found value = some true
  | .less, found, value => m.less found value = some true

end Operators
end Sql

namespace AttributeFilter

/-- The test of a filter on the document of a row. Without a key path there is none; without a
comparison the last key must be there, under those before it. -/
def Passes (m : Operators D) (filter : AttributeFilter) (row : Tuple D) : Prop :=
  filter.keyPath = [] ∨
    match filter.comparison with
    | none => ∃ parents key document, filter.keyPath = parents ++ [key] ∧
        m.descend (row "data") parents = some document ∧ m.hasKey document (m.text key) = some true
    | some c => ∃ document found, row.Has "data" document ∧
        m.textAt document (filter.keyPath.map m.text) = some found ∧
        m.Compares c found (m.text filter.value)

def InScope (m : Operators D) (filter : AttributeFilter) (column : String) (owner row : Tuple D) :
    Prop :=
  row.Refers column owner "id" ∧ row.Has "namespace" (m.text filter.scope)

def MetBy (m : Operators D) (filter : AttributeFilter) (rows : List (Tuple D)) (column : String)
    (owner : Tuple D) : Prop :=
  ∃ row ∈ rows, filter.InScope m column owner row ∧ filter.Passes m row

/-- No row of the same owner and namespace was created later. -/
def Newest [LinearOrder D] (m : Operators D) (filter : AttributeFilter) (rows : List (Tuple D))
    (column : String) (owner row : Tuple D) : Prop :=
  ∃ time, row.Has "created_at" time ∧
    ∀ other ∈ rows, filter.InScope m column owner other →
      ∀ late, other.Has "created_at" late → late ≤ time

def MetByNewest [LinearOrder D] (m : Operators D) (filter : AttributeFilter)
    (rows : List (Tuple D)) (column : String) (owner : Tuple D) : Prop :=
  ∃ row ∈ rows, filter.InScope m column owner row ∧ filter.Newest m rows column owner row ∧
    filter.Passes m row

end AttributeFilter

/-- A field that is asked for, and not as the empty text, is the column's value. -/
def Asked (m : Operators D) (row : Tuple D) (column : String) (field : Option String) : Prop :=
  ∀ value, field = some value → value ≠ "" → row.Has column (m.text value)

structure ComponentGroup.MetBy [LinearOrder D] (m : Operators D) (db : Database D)
    (group : ComponentGroup) (component : Tuple D) : Prop where
  name : Asked m component "name" group.name
  vendor : Asked m component "vendor" group.vendor
  model : Asked m component "model" group.model
  serial : Asked m component "serial" group.serial
  kind : ∀ slug, group.kind = some slug → slug ≠ "" → ∃ row ∈ db "server_component_types",
    row.Refers "id" component "server_component_type_id" ∧ row.Has "slug" (m.text slug)
  attributes : ∀ filter ∈ group.attributes,
    filter.MetBy m (db "attributes") "server_component_id" component
  versioned : ∀ filter ∈ group.versioned,
    filter.MetByNewest m (db "versioned_attributes") "server_component_id" component

/-- All that a search asks of a server. Each group needs one of its components. -/
structure ServerCriteria.MetBy [LinearOrder D] (m : Operators D) (db : Database D)
    (c : ServerCriteria) (server : Tuple D) : Prop where
  name : ∀ value, c.name = some value → server.Has "name" (m.text value)
  facilityCode : ∀ value, c.facilityCode = some value →
    server.Has "facility_code" (m.text value)
  attributes : ∀ filter ∈ c.attributes, filter.MetBy m (db "attributes") "server_id" server
  versioned : ∀ filter ∈ c.versioned,
    filter.MetByNewest m (db "versioned_attributes") "server_id" server
  components : ∀ group ∈ c.components, group.isEmpty = false →
    ∃ component ∈ db "server_components", component.Refers "server_id" server "id" ∧
      group.MetBy m db component

end FleetInventory
