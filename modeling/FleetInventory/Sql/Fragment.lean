import FleetInventory.Sql.Basic

/-!
Building a selection from fragments. A fragment says what it adds, given how many values are bound
before it; fragments are put together one after another, and the first fault stops the rest. What
was added before the fault stays.
-/
namespace FleetInventory.Sql

structure Draft (α : Type) where
  joins : List Join
  conditions : List α
  values : List Value
  fault : Option SearchFault

abbrev Fragment (α : Type) := Nat → Draft α

namespace Fragment

variable {α β : Type}

def nothing : Fragment α := fun _ => ⟨[], [], [], none⟩

def refused (fault : SearchFault) : Fragment α := fun _ => ⟨[], [], [], some fault⟩

def joined (join : Join) : Fragment α := fun _ => ⟨[join], [], [], none⟩

def equals (column : Column) (value : Value) : Fragment Clause := fun bound =>
  ⟨[], [.equals column (bound + 1)], [value], none⟩

def andThen (p q : Fragment α) : Fragment α := fun bound =>
  let d := p bound
  match d.fault with
  | some _ => d
  | none =>
    let e := q (bound + d.values.length)
    ⟨d.joins ++ e.joins, d.conditions ++ e.conditions, d.values ++ e.values, e.fault⟩

def all : List (Fragment α) → Fragment α
  | [] => nothing
  | p :: rest => p.andThen (all rest)

/-- Turns the finished conditions of a fragment into those of a larger one; unfinished conditions
are dropped. -/
def finish (f : List α → List β) (p : Fragment α) : Fragment β := fun bound =>
  let d := p bound
  ⟨d.joins, if d.fault.isSome then [] else f d.conditions, d.values, d.fault⟩

def singles (p : Fragment Clause) : Fragment Predicate := p.finish (·.map .single)

def asBlock (p : Fragment Clause) : Fragment Predicate := p.finish fun clauses => [.block clauses]

end Fragment

namespace Selection

/-- Adds a fragment, or as much of it as comes before its fault. -/
def add (s : Selection) (p : Fragment Predicate) : Selection × Option SearchFault :=
  let d := p s.values.length
  (⟨s.joins ++ d.joins, s.predicates ++ d.conditions, s.values ++ d.values⟩, d.fault)

def bind (s : Selection) (value : Value) : Selection × Nat :=
  ({ s with values := s.values ++ [value] }, s.values.length + 1)

def ofFragment (p : Fragment Predicate) : Except SearchFault Selection :=
  match everything.add p with
  | (_, some fault) => .error fault
  | (selection, none) => .ok selection

end Selection
end FleetInventory.Sql
