import FleetInventory.ComponentGroup.Basic
import FleetInventory.Search.Attributes

/-!
Component groups in a selection. Group j of a server search joins a component row of its own, and
every condition of the group, filters on its attributes included, is about that row. In a search
for components the conditions are about the listed rows themselves.
-/
namespace FleetInventory.ComponentGroup

open Sql

def table : String := "server_components"
def kindTable : String := "server_component_types"

def fieldFragments (component : String) (group : ComponentGroup) : List (Fragment Clause) :=
  group.fields.map fun (column, value) => Fragment.equals (.of component column) (.text value)

def kindJoin (component name : String) : Join where
  table := kindTable
  name := name
  column := "id"
  target := .of component "server_component_type_id"
  newestIn := none

def kindFragment (component name : String) (group : ComponentGroup) : Fragment Clause :=
  match group.kind? with
  | some slug =>
    (Fragment.joined (kindJoin component name)).andThen
      (Fragment.equals (.of name "slug") (.text slug))
  | none => Fragment.nothing

/-- The conditions of a group on the component row `component`. Rows joined for attributes have
names that begin with `lead`, the row of the component type is `kindName`. -/
def clauses (component lead kindName : String) (group : ComponentGroup) : Fragment Clause :=
  Fragment.all (fieldFragments component group
    ++ [kindFragment component kindName group,
      AttributeFilter.fragments .component component lead group.attributes,
      AttributeFilter.fragments .componentVersioned component lead group.versioned])

def rowName (index : Nat) : String := "comp_" ++ Text.showNat index
def lead (index : Nat) : String := rowName index ++ "_"

def rowJoin (parent : String) (index : Nat) : Join where
  table := table
  name := rowName index
  column := "server_id"
  target := .of parent "id"
  newestIn := none

def rowFragment (parent : String) (index : Nat) (group : ComponentGroup) : Fragment Predicate :=
  ((Fragment.joined (rowJoin parent index)).andThen
    (clauses (rowName index) (lead index) (lead index ++ "type") group)).asBlock

/-- Empty groups ask for nothing, but keep their position. -/
def rowFragmentsFrom (parent : String) : Nat → List ComponentGroup → List (Fragment Predicate)
  | _, [] => []
  | index, group :: rest =>
    (if group.isEmpty then Fragment.nothing else rowFragment parent index group)
      :: rowFragmentsFrom parent (index + 1) rest

def rowFragments (parent : String) (groups : List ComponentGroup) : Fragment Predicate :=
  Fragment.all (rowFragmentsFrom parent 0 groups)

def listedFragment (component : String) (group : ComponentGroup) : Fragment Predicate :=
  (clauses component "" (component ++ "_type") group).singles

end FleetInventory.ComponentGroup
