import FleetInventory.AttributeFilter
import FleetInventory.Text.Numeral
import FleetInventory.Text.Split
import FleetInventory.Uuid

/-!
The joins and conditions of a list statement. A condition never holds a user's value: it names the
slot of a bound value, counted from one. Names of tables, joined rows and columns are fixed here.
-/
namespace FleetInventory.Sql

inductive Value where
  | text (s : String)
  | int (n : Int)
  | uuid (id : Uuid)
  deriving DecidableEq

structure Column where
  owner : Option String
  name : String
  deriving DecidableEq

namespace Column

def of (owner name : String) : Column := ⟨some owner, name⟩

def ofText (text : String) : Column :=
  match Text.cutAt '.' text with
  | some (owner, name) => of owner name
  | none => ⟨none, text⟩

def render (column : Column) : String :=
  match column.owner with
  | some owner => owner ++ "." ++ column.name
  | none => column.name

end Column

/-- A left outer join of `table` as `name`, on its `column` being the `target`. With `newestIn` the
row must also be the newest of its owner in the namespace bound to that slot. -/
structure Join where
  table : String
  name : String
  column : String
  target : Column
  newestIn : Option Nat
  deriving DecidableEq

inductive DocumentTest where
  | anything
  | hasKey (parents : List Nat) (key : Nat)
  | compares (path : List Nat) (comparison : Comparison) (value : Nat)
  deriving DecidableEq

inductive Clause where
  | equals (column : Column) (slot : Nat)
  /-- The row of `name` is of the namespace in slot `scope` and its document passes the test. -/
  | document (name : String) (scope : Nat) (test : DocumentTest)
  deriving DecidableEq

/-- One condition of a statement: a clause, or a block of clauses about one component. -/
inductive Predicate where
  | single (clause : Clause)
  | block (clauses : List Clause)
  deriving DecidableEq

structure Selection where
  joins : List Join
  predicates : List Predicate
  values : List Value
  deriving DecidableEq

def Selection.everything : Selection := ⟨[], [], []⟩

end FleetInventory.Sql
