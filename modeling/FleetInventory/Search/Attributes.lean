import FleetInventory.Sql.Fragment

/-!
Attribute filters in a selection. Every filter joins its own row, so two filters never share one,
even on the same namespace. On versioned tables only the newest row of an owner and namespace
takes part.
-/
namespace FleetInventory

inductive AttributeSource where
  | server
  | serverVersioned
  | component
  | componentVersioned
  | firmwareSet
  deriving DecidableEq

namespace AttributeSource

def table : AttributeSource → String
  | server | component => "attributes"
  | serverVersioned | componentVersioned => "versioned_attributes"
  | firmwareSet => "attributes_firmware_set"

def ownerColumn : AttributeSource → String
  | server | serverVersioned => "server_id"
  | component | componentVersioned => "server_component_id"
  | firmwareSet => "firmware_set_id"

def isVersioned : AttributeSource → Bool
  | serverVersioned | componentVersioned => true
  | _ => false

def stem (source : AttributeSource) : String := if source.isVersioned then "ver_attr" else "attr"

end AttributeSource

namespace AttributeFilter

open Sql

/-- The texts a filter binds after its namespace. Without a key path there is nothing to test, so
a comparison binds nothing. -/
def testTexts (filter : AttributeFilter) : List String :=
  match filter.keyPath, filter.comparison with
  | [], _ => []
  | path, none => path
  | path, some _ => path ++ [filter.value]

def documentTest (filter : AttributeFilter) (bound : Nat) : DocumentTest :=
  match filter.keyPath, filter.comparison with
  | [], _ => .anything
  | _ :: more, none => .hasKey (List.range' (bound + 1) more.length) (bound + 1 + more.length)
  | path, some c => .compares (List.range' (bound + 1) path.length) c (bound + 1 + path.length)

def join (source : AttributeSource) (parent name : String) (scope : Nat) : Join where
  table := source.table
  name := name
  column := source.ownerColumn
  target := .of parent "id"
  newestIn := if source.isVersioned then some scope else none

def fragment (source : AttributeSource) (parent name : String) (filter : AttributeFilter) :
    Fragment Clause :=
  fun bound =>
    { joins := [join source parent name (bound + 1)]
      conditions := [.document name (bound + 1) (filter.documentTest (bound + 1))]
      values := (filter.scope :: filter.testTexts).map .text
      fault := none }

def firstFault? (param : String) (filters : List AttributeFilter) : Option SearchFault :=
  filters.findSome? fun filter =>
    match filter.check param with
    | .error fault => some fault
    | .ok _ => none

def rowName (lead : String) (source : AttributeSource) (position : Nat) : String :=
  lead ++ source.stem ++ "_" ++ Text.showNat position

def fragmentsFrom (source : AttributeSource) (parent lead : String) :
    Nat → List AttributeFilter → List (Fragment Clause)
  | _, [] => []
  | position, filter :: rest =>
    fragment source parent (rowName lead source position) filter
      :: fragmentsFrom source parent lead (position + 1) rest

/-- All filters of a list, checked before the first is added. The joined rows are named
`<lead>attr_0`, `<lead>attr_1` and so on, or `<lead>ver_attr_0` on versioned tables. -/
def fragments (source : AttributeSource) (parent lead : String) (filters : List AttributeFilter) :
    Fragment Clause :=
  match firstFault? source.stem filters with
  | some fault => Fragment.refused fault
  | none => Fragment.all (fragmentsFrom source parent lead 0 filters)

end AttributeFilter
end FleetInventory
