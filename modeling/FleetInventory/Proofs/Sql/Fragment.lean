import FleetInventory.Sql.Fragment

/-!
Laws of putting fragments together: it is associative, nothing is its unit, and where no fault
arises a fragment put together adds what its two parts add. The values of each part stand among
all values of the statement, after those bound before.
-/
namespace FleetInventory.Sql

variable {α β : Type}

/-- Among all values these stand in the slots that follow the first `bound` ones. -/
def Binds (all : List Value) (bound : Nat) (values : List Value) : Prop :=
  ∀ i value, values[i]? = some value → all[bound + i]? = some value

section Binds

variable {all : List Value} {bound : Nat}

theorem binds_all (values : List Value) : Binds values 0 values := by
  intro i value found
  rwa [Nat.zero_add]

theorem binds_append {xs ys : List Value} (both : Binds all bound (xs ++ ys)) :
    Binds all bound xs ∧ Binds all (bound + xs.length) ys := by
  constructor
  · intro i value found
    obtain ⟨inside, -⟩ := List.getElem?_eq_some_iff.mp found
    exact both i value (by rw [List.getElem?_append_left inside, found])
  · intro i value found
    have placed := both (xs.length + i) value (by
      rw [List.getElem?_append_right (Nat.le_add_right _ _), Nat.add_sub_cancel_left, found])
    rwa [Nat.add_assoc]

theorem binds_between (pre values post : List Value) :
    Binds (pre ++ (values ++ post)) pre.length values := by
  intro i value found
  obtain ⟨inside, -⟩ := List.getElem?_eq_some_iff.mp found
  rw [List.getElem?_append_right (Nat.le_add_right _ _), Nat.add_sub_cancel_left,
    List.getElem?_append_left inside, found]

theorem Binds.cons {value : Value} {rest : List Value} (binds : Binds all bound (value :: rest)) :
    all[bound]? = some value ∧ Binds all (bound + 1) rest :=
  ⟨binds 0 value rfl, (binds_append (show Binds all bound ([value] ++ rest) from binds)).2⟩

theorem Binds.last (texts : List String) (last : String)
    (binds : Binds all bound ((texts ++ [last]).map Value.text)) :
    Binds all bound (texts.map Value.text) ∧ all[bound + texts.length]? = some (.text last) := by
  rw [List.map_append] at binds
  obtain ⟨first, one⟩ := binds_append binds
  rw [List.length_map] at one
  exact ⟨first, (Binds.cons one).1⟩

end Binds

def Draft.append (d e : Draft α) : Draft α :=
  ⟨d.joins ++ e.joins, d.conditions ++ e.conditions, d.values ++ e.values, e.fault⟩

theorem Draft.append_assoc (d e f : Draft α) : (d.append e).append f = d.append (e.append f) := by
  simp only [append, List.append_assoc]

namespace Fragment

theorem andThen_of_fault {p : Fragment α} {bound : Nat} {fault : SearchFault}
    (failed : (p bound).fault = some fault) (q : Fragment α) : p.andThen q bound = p bound := by
  simp [andThen, failed]

theorem andThen_of_ok {p : Fragment α} {bound : Nat} (ok : (p bound).fault = none)
    (q : Fragment α) :
    p.andThen q bound = (p bound).append (q (bound + (p bound).values.length)) := by
  simp [andThen, ok, Draft.append]

theorem andThen_ok {p q : Fragment α} {bound : Nat} (ok : (p.andThen q bound).fault = none) :
    (p bound).fault = none ∧ (q (bound + (p bound).values.length)).fault = none := by
  cases first : (p bound).fault with
  | some fault =>
    rw [andThen_of_fault first, first] at ok
    contradiction
  | none =>
    rw [andThen_of_ok first] at ok
    exact ⟨rfl, ok⟩

theorem andThen_assoc (p q r : Fragment α) : (p.andThen q).andThen r = p.andThen (q.andThen r) := by
  funext bound
  cases first : (p bound).fault with
  | some fault =>
    have failed := andThen_of_fault first q
    rw [andThen_of_fault first, andThen_of_fault (failed ▸ first), failed]
  | none =>
    cases second : (q (bound + (p bound).values.length)).fault with
    | some fault => simp [andThen, first, second]
    | none => simp [andThen, first, second, Nat.add_assoc]

theorem nothing_andThen (p : Fragment α) : nothing.andThen p = p := by
  funext bound
  simp [andThen, nothing]

theorem andThen_nothing (p : Fragment α) : p.andThen nothing = p := by
  funext bound
  cases ok : (p bound).fault with
  | some fault => exact andThen_of_fault ok _
  | none =>
    rw [andThen_of_ok ok]
    simp only [Draft.append, nothing, List.append_nil, ← ok]

theorem singles_of_ok {p : Fragment Clause} {bound : Nat} (ok : (p.singles bound).fault = none) :
    (p bound).fault = none ∧ p.singles bound
      = ⟨(p bound).joins, (p bound).conditions.map .single, (p bound).values, none⟩ := by
  have clean : (p bound).fault = none := ok
  exact ⟨clean, by simp [singles, finish, clean]⟩

theorem asBlock_of_ok {p : Fragment Clause} {bound : Nat} (ok : (p.asBlock bound).fault = none) :
    (p bound).fault = none ∧ p.asBlock bound
      = ⟨(p bound).joins, [.block (p bound).conditions], (p bound).values, none⟩ := by
  have clean : (p bound).fault = none := ok
  exact ⟨clean, by simp [asBlock, finish, clean]⟩

/-- With a fault a fragment keeps its joins and values, and no condition is made of its clauses. -/
theorem finish_of_fault {p : Fragment α} {bound : Nat} {fault : SearchFault}
    (failed : (p bound).fault = some fault) (f : List α → List β) :
    p.finish f bound = ⟨(p bound).joins, [], (p bound).values, some fault⟩ := by
  simp [finish, failed]

theorem all_append (ps qs : List (Fragment α)) : all (ps ++ qs) = (all ps).andThen (all qs) := by
  induction ps with
  | nil => exact (nothing_andThen _).symm
  | cons p rest ih => rw [List.cons_append, all, all, ih, andThen_assoc]

end Fragment

theorem Selection.ofFragment_eq_ok {p : Fragment Predicate} {s : Selection}
    (compiled : Selection.ofFragment p = .ok s) :
    (p 0).fault = none ∧ s = ⟨(p 0).joins, (p 0).conditions, (p 0).values⟩ := by
  simp only [ofFragment, add, everything, List.length_nil, List.nil_append] at compiled
  cases ok : (p 0).fault with
  | some fault => simp [ok] at compiled
  | none =>
    simp only [ok, Except.ok.injEq] at compiled
    exact ⟨rfl, compiled.symm⟩

end FleetInventory.Sql
