import Mathlib.Data.List.Forall2
import FleetInventory.Search.Criteria

/-!
What is read from parameters: no field of a component group is read as the empty text, and every
group is read at one index.
-/
namespace FleetInventory

theorem bind_eq_ok {α β ε : Type} {x : Except ε α} {f : α → Except ε β} {b : β} :
    x >>= f = .ok b ↔ ∃ a, x = .ok a ∧ f a = .ok b := by
  cases x with
  | error e => simp [bind, Except.bind]
  | ok a => simp [bind, Except.bind]

theorem mapM_eq_ok {α β ε : Type} {f : α → Except ε β} {xs : List α} {ys : List β} :
    xs.mapM f = .ok ys ↔ List.Forall₂ (fun x y => f x = .ok y) xs ys := by
  constructor
  · intro read
    induction xs generalizing ys with
    | nil =>
      cases read
      exact .nil
    | cons x rest ih =>
      rw [List.mapM_cons] at read
      obtain ⟨y, first, read⟩ := bind_eq_ok.mp read
      obtain ⟨more, later, read⟩ := bind_eq_ok.mp read
      cases read
      exact .cons first (ih later)
  · intro each
    induction each with
    | nil => rfl
    | cons first _ ih =>
      rw [List.mapM_cons, first, ih]
      rfl

theorem exists_of_forall₂ {α β : Type} {R : α → β → Prop} {xs : List α} {ys : List β}
    (each : List.Forall₂ R xs ys) : ∀ y ∈ ys, ∃ x ∈ xs, R x y := by
  induction each with
  | nil => exact nofun
  | @cons x y rest others first _ ih =>
    intro z member
    rcases List.mem_cons.mp member with rfl | member
    · exact ⟨x, List.mem_cons_self, first⟩
    · obtain ⟨w, inside, related⟩ := ih z member
      exact ⟨w, List.mem_cons_of_mem _ inside, related⟩

theorem mem_of_mapM {α β ε : Type} {f : α → Except ε β} {xs : List α} {ys : List β}
    (read : xs.mapM f = .ok ys) : ∀ y ∈ ys, ∃ x ∈ xs, f x = .ok y :=
  exists_of_forall₂ (mapM_eq_ok.mp read)

theorem filled?_ne_empty (params : Params) (key : String) : params.filled? key ≠ some "" := by
  intro same
  have member := List.mem_of_getLast? same
  simp at member

namespace ComponentGroup

structure Filled (group : ComponentGroup) : Prop where
  name : group.name ≠ some ""
  vendor : group.vendor ≠ some ""
  model : group.model ≠ some ""
  serial : group.serial ≠ some ""
  kind : group.kind ≠ some ""

theorem readOne_filled {params : Params} {index : Nat} {group : ComponentGroup}
    (read : readOne params index = .ok group) : group.Filled := by
  obtain ⟨attributes, -, read⟩ := bind_eq_ok.mp read
  obtain ⟨versioned, -, read⟩ := bind_eq_ok.mp read
  cases read
  constructor <;> exact filled?_ne_empty _ _

theorem readAll_filled {params : Params} {groups : List ComponentGroup}
    (read : readAll params = .ok groups) : ∀ group ∈ groups, group.Filled := by
  obtain ⟨all, every, kept⟩ := bind_eq_ok.mp read
  cases kept
  intro group member
  obtain ⟨index, -, one⟩ := mem_of_mapM every group (List.mem_filter.mp member).1
  exact readOne_filled one

end ComponentGroup

theorem ServerCriteria.read_filled {params : Params} {c : ServerCriteria}
    (read : ServerCriteria.read params = .ok c) : ∀ group ∈ c.components, group.Filled := by
  obtain ⟨attributes, -, read⟩ := bind_eq_ok.mp read
  obtain ⟨versioned, -, read⟩ := bind_eq_ok.mp read
  obtain ⟨components, groups, read⟩ := bind_eq_ok.mp read
  cases read
  exact ComponentGroup.readAll_filled groups

theorem ComponentCriteria.read_filled {params : Params} {c : ComponentCriteria}
    (read : ComponentCriteria.read params = .ok c) : c.group.Filled := by
  obtain ⟨attributes, -, read⟩ := bind_eq_ok.mp read
  obtain ⟨versioned, -, read⟩ := bind_eq_ok.mp read
  cases read
  constructor <;> exact filled?_ne_empty _ _

end FleetInventory
