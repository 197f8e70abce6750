import FleetInventory.Proofs.Sql.Fragment
import FleetInventory.Search.Criteria

/-!
Searches that can not be refused. The one fault of a fragment is a filter without a namespace, so
criteria whose filters all have one always become a statement.
-/
namespace FleetInventory

open Sql

namespace Sql

namespace Fragment

variable {α : Type} {p q : Fragment α}

/-- However many values are bound before it, the fragment has no fault. -/
def Faultless (p : Fragment α) : Prop := ∀ bound, (p bound).fault = none

theorem nothing_faultless : (nothing : Fragment α).Faultless := fun _ => rfl

theorem joined_faultless (join : Join) : (joined join : Fragment α).Faultless := fun _ => rfl

theorem equals_faultless (column : Column) (value : Value) : (equals column value).Faultless :=
  fun _ => rfl

theorem Faultless.andThen (first : p.Faultless) (second : q.Faultless) :
    (p.andThen q).Faultless := by
  intro bound
  rw [andThen_of_ok (first bound)]
  exact second _

theorem all_faultless {ps : List (Fragment α)} (each : ∀ p ∈ ps, p.Faultless) :
    (all ps).Faultless := by
  induction ps with
  | nil => exact nothing_faultless
  | cons p rest ih =>
    have first : p.Faultless := each p List.mem_cons_self
    exact first.andThen (ih fun q member => each q (List.mem_cons_of_mem _ member))

theorem Faultless.singles {p : Fragment Clause} (clean : p.Faultless) : p.singles.Faultless := clean

theorem Faultless.asBlock {p : Fragment Clause} (clean : p.Faultless) : p.asBlock.Faultless := clean

end Fragment

theorem Selection.ofFragment_of_faultless {p : Fragment Predicate} (clean : p.Faultless) :
    ∃ s, Selection.ofFragment p = .ok s := by
  refine ⟨⟨(p 0).joins, (p 0).conditions, (p 0).values⟩, ?_⟩
  simp [ofFragment, add, everything, clean 0]

end Sql

namespace AttributeFilter

def Named (filters : List AttributeFilter) : Prop := ∀ filter ∈ filters, filter.scope ≠ ""

theorem firstFault?_of_named {filters : List AttributeFilter} (named : Named filters)
    (param : String) : firstFault? param filters = none := by
  refine List.findSome?_eq_none_iff.mpr fun filter member => ?_
  simp [check, named filter member]

theorem fragmentsFrom_faultless (source : AttributeSource) (parent lead : String) (position : Nat)
    (filters : List AttributeFilter) :
    ∀ p ∈ fragmentsFrom source parent lead position filters, p.Faultless := by
  induction filters generalizing position with
  | nil => exact nofun
  | cons filter rest ih =>
    intro p member
    rcases List.mem_cons.mp member with rfl | member
    · exact fun _ => rfl
    · exact ih (position + 1) p member

theorem fragments_faultless (source : AttributeSource) (parent lead : String)
    {filters : List AttributeFilter} (named : Named filters) :
    (fragments source parent lead filters).Faultless := by
  rw [fragments, firstFault?_of_named named]
  exact Fragment.all_faultless (fragmentsFrom_faultless source parent lead 0 filters)

end AttributeFilter

namespace ComponentGroup

structure Named (group : ComponentGroup) : Prop where
  attributes : AttributeFilter.Named group.attributes
  versioned : AttributeFilter.Named group.versioned

theorem kindFragment_faultless (component name : String) (group : ComponentGroup) :
    (kindFragment component name group).Faultless := by
  unfold kindFragment
  split
  · exact (Fragment.joined_faultless _).andThen (Fragment.equals_faultless _ _)
  · exact Fragment.nothing_faultless

theorem clauses_faultless (component lead kindName : String) {group : ComponentGroup}
    (named : group.Named) : (clauses component lead kindName group).Faultless := by
  apply Fragment.all_faultless
  intro p member
  rcases List.mem_append.mp member with field | other
  · obtain ⟨pair, -, rfl⟩ := List.mem_map.mp field
    exact Fragment.equals_faultless _ _
  · simp only [List.mem_cons, List.not_mem_nil, or_false] at other
    rcases other with rfl | rfl | rfl
    · exact kindFragment_faultless component kindName group
    · exact AttributeFilter.fragments_faultless _ _ _ named.attributes
    · exact AttributeFilter.fragments_faultless _ _ _ named.versioned

theorem rowFragment_faultless (parent : String) (index : Nat) {group : ComponentGroup}
    (named : group.Named) : (rowFragment parent index group).Faultless :=
  ((Fragment.joined_faultless _).andThen (clauses_faultless _ _ _ named)).asBlock

theorem rowFragments_faultless (parent : String) {groups : List ComponentGroup}
    (named : ∀ group ∈ groups, group.Named) : (rowFragments parent groups).Faultless := by
  have each : ∀ index, ∀ p ∈ rowFragmentsFrom parent index groups, p.Faultless := by
    induction groups with
    | nil => exact fun _ => nofun
    | cons group rest ih =>
      intro index p member
      have first : group.Named := named group List.mem_cons_self
      rcases List.mem_cons.mp member with rfl | member
      · split
        · exact Fragment.nothing_faultless
        · exact rowFragment_faultless parent index first
      · exact ih (fun g inside => named g (List.mem_cons_of_mem _ inside)) (index + 1) p member
  exact Fragment.all_faultless (each 0)

end ComponentGroup

theorem givenText_faultless (table column : String) (value : Option String) :
    (givenText table column value).Faultless := by
  cases value with
  | none => exact Fragment.nothing_faultless
  | some v => exact (Fragment.equals_faultless _ _).singles

theorem ServerCriteria.fragment_faultless {c : ServerCriteria}
    (attributes : AttributeFilter.Named c.attributes)
    (versioned : AttributeFilter.Named c.versioned) (groups : ∀ group ∈ c.components, group.Named) :
    c.fragment.Faultless := by
  apply Fragment.all_faultless
  intro p member
  simp only [List.mem_cons, List.not_mem_nil, or_false] at member
  rcases member with rfl | rfl | rfl | rfl | rfl
  · exact givenText_faultless _ _ _
  · exact givenText_faultless _ _ _
  · exact (AttributeFilter.fragments_faultless _ _ _ attributes).singles
  · exact (AttributeFilter.fragments_faultless _ _ _ versioned).singles
  · exact ComponentGroup.rowFragments_faultless _ groups

theorem ComponentCriteria.fragment_faultless {c : ComponentCriteria} (named : c.group.Named) :
    c.fragment.Faultless := by
  have own : (serverFragment c.serverId).Faultless := by
    cases c.serverId with
    | none => exact Fragment.nothing_faultless
    | some id => exact (Fragment.equals_faultless _ _).singles
  exact own.andThen (ComponentGroup.clauses_faultless _ _ _ named).singles

theorem FirmwareSetCriteria.fragment_faultless {c : FirmwareSetCriteria}
    (named : AttributeFilter.Named c.attributes) : c.fragment.Faultless :=
  (givenText_faultless _ _ _).andThen (AttributeFilter.fragments_faultless _ _ _ named).singles

end FleetInventory
