import FleetInventory.AttributeFilter
import FleetInventory.Text.Numeral

/-!
Component match groups: what one single component must satisfy. Group i of a request is written in
the parameters `sc_i[field]`, `sc_i_attr` and `sc_i_ver_attr`; the groups of a request are those
below the first index that has no parameter.
-/
namespace FleetInventory

structure ComponentGroup where
  name : Option String
  vendor : Option String
  model : Option String
  serial : Option String
  kind : Option String
  attributes : List AttributeFilter
  versioned : List AttributeFilter
  deriving DecidableEq

namespace ComponentGroup

def empty : ComponentGroup := ⟨none, none, none, none, none, [], []⟩

/-- The given fields that are not empty, as columns of the component's row with their values. -/
def fields (group : ComponentGroup) : List (String × String) :=
  [("name", group.name), ("vendor", group.vendor), ("model", group.model),
    ("serial", group.serial)].filterMap fun (column, value) =>
      (value.filter (· ≠ "")).map fun v => (column, v)

def kind? (group : ComponentGroup) : Option String := group.kind.filter (· ≠ "")

def isEmpty (group : ComponentGroup) : Bool :=
  group.fields.isEmpty && group.kind?.isNone && group.attributes.isEmpty
    && group.versioned.isEmpty

def stem (index : Nat) : String := "sc_" ++ Text.showNat index
def fieldStem (index : Nat) : String := stem index ++ "["
def fieldParam (index : Nat) (field : String) : String := fieldStem index ++ field ++ "]"
def attributeParam (index : Nat) : String := stem index ++ "_attr"
def versionedParam (index : Nat) : String := stem index ++ "_ver_attr"

def present (params : Params) (index : Nat) : Bool :=
  params.hasStem (fieldStem index) || params.has (attributeParam index)
    || params.has (versionedParam index)

def readOne (params : Params) (index : Nat) : Except SearchFault ComponentGroup := do
  let field (name : String) := params.filled? (fieldParam index name)
  let attributes ← AttributeFilter.readAll params (attributeParam index)
  let versioned ← AttributeFilter.readAll params (versionedParam index)
  return {
    name := field "name"
    vendor := field "vendor"
    model := field "model"
    serial := field "serial"
    kind := field "type"
    attributes := attributes
    versioned := versioned }

/-- The indexes below the first one without parameters. A parameter belongs to one index at most,
so there are no more of them than parameters. -/
def indexes (params : Params) : List Nat :=
  (List.range (params.pairs.length + 1)).takeWhile (present params)

def readAll (params : Params) : Except SearchFault (List ComponentGroup) := do
  let groups ← (indexes params).mapM (readOne params)
  return groups.filter (!·.isEmpty)

/-- The group as parameters: its fields, empty ones included, then its filters. -/
def pushTo (params : Params) (index : Nat) (group : ComponentGroup) : Params :=
  let fields := [("name", group.name), ("vendor", group.vendor), ("model", group.model),
    ("serial", group.serial), ("type", group.kind)].filterMap fun (field, value) =>
      value.map fun v => (fieldParam index field, v)
  let attributes := group.attributes.map fun f => (attributeParam index, f.encode)
  let versioned := group.versioned.map fun f => (versionedParam index, f.encode)
  ⟨params.pairs ++ fields ++ attributes ++ versioned⟩

end ComponentGroup
end FleetInventory
