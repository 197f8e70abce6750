import FleetInventory.Proofs.Search.Agreement

/-!
The order of parameters. Everything a list request asks for is read from the values of single keys,
so parameters of different keys may be mixed in any way. Main statement: `plan_reads_values`.
-/
namespace FleetInventory

/-- The third list is made of the first two, each in its own order. -/
inductive Merged : (one other merged : List (String × String)) → Prop
  | nil : Merged [] [] []
  | left {pair : String × String} {one other merged : List (String × String)}
      (rest : Merged one other merged) : Merged (pair :: one) other (pair :: merged)
  | right {pair : String × String} {one other merged : List (String × String)}
      (rest : Merged one other merged) : Merged one (pair :: other) (pair :: merged)

namespace Params

theorem values_cons (pair : String × String) (pairs : List (String × String)) (key : String) :
    values ⟨pair :: pairs⟩ key
      = (if pair.1 = key then [pair.2] else []) ++ values ⟨pairs⟩ key := by
  by_cases same : pair.1 = key <;> simp [values, same]

theorem values_merged {one other merged : List (String × String)} (whole : Merged one other merged)
    (apart : ∀ x ∈ one, ∀ y ∈ other, x.1 ≠ y.1) (key : String) :
    values ⟨merged⟩ key = values ⟨one⟩ key ++ values ⟨other⟩ key := by
  induction whole with
  | nil => rfl
  | left rest ih =>
    rw [values_cons, values_cons, List.append_assoc,
      ih fun x member => apart x (List.mem_cons_of_mem _ member)]
  | @right pair one other merged rest ih =>
    have later := ih fun x inside y member => apart x inside y (List.mem_cons_of_mem _ member)
    rw [values_cons, values_cons, later]
    split
    · next same =>
      have none : values ⟨one⟩ key = [] := by
        apply Classical.byContradiction
        intro some
        obtain ⟨x, inside, named⟩ := List.mem_map.mp (mem_keys_iff.mpr some)
        exact apart x inside pair List.mem_cons_self (named.trans same.symm)
      rw [none, List.nil_append, List.nil_append]
    · rfl

theorem agree_of_values {p q : Params} (same : ∀ key, p.values key = q.values key) : p.Agree q :=
  fun key _ => same key

end Params

theorem PageRequest.read_congr {p q : Params} (same : ∀ key, p.values key = q.values key) :
    read p = read q := by
  have filled : ∀ key, p.filled? key = q.filled? key := fun key => Params.filled?_congr (same key)
  simp only [read, number, filled]

theorem Plan.ofParams_of_values (listing : Listing) {p q : Params}
    (same : ∀ key, p.values key = q.values key) : ofParams listing p = ofParams listing q := by
  rw [ofParams_congr listing (Params.agree_of_values same), PageRequest.read_congr same]
  cases planned : ofParams listing q with
  | error fault => rfl
  | ok plan =>
    obtain ⟨order, selection, -, -, rfl⟩ := ofParams_eq_ok.mp planned
    rfl

/-- Two query strings in which every key has the same values are refused alike or have one plan, with
its statements, values, order and window. So where a group of parameters stands among those of other
keys makes no difference. -/
theorem plan_reads_values (listing : Listing) :
    (∀ a b : String, (∀ key, (Params.parse a).values key = (Params.parse b).values key) →
      Plan.ofQuery listing a = Plan.ofQuery listing b)
    ∧ ∀ (group others : List (String × String)) (a b : String),
      (∀ x ∈ group, ∀ y ∈ others, x.1 ≠ y.1) → Merged group others (Params.parse a).pairs →
      Merged group others (Params.parse b).pairs →
        Plan.ofQuery listing a = Plan.ofQuery listing b := by
  constructor
  · intro a b same
    exact Plan.ofParams_of_values listing same
  · intro group others a b apart first second
    refine Plan.ofParams_of_values listing fun key => ?_
    exact (Params.values_merged first apart key).trans (Params.values_merged second apart key).symm

/-- A group before, among and after filters and paging. -/
theorem plan_reads_values_of_scattered_group :
    let group := [("sc_0[model]", "x"), ("sc_0_attr", "m")]
    let others := [("attr", "n~k"), ("limit", "5"), ("attr", "n~j"), ("page", "3")]
    let a := "sc_0[model]=x&attr=n~k&limit=5&attr=n~j&page=3&sc_0_attr=m"
    let b := "attr=n~k&sc_0%5Bmodel%5D=x&sc_0_attr=m&limit=5&attr=n~j&page=3"
    (∀ x ∈ group, ∀ y ∈ others, x.1 ≠ y.1) ∧ Merged group others (Params.parse a).pairs
      ∧ Merged group others (Params.parse b).pairs
      ∧ (∀ key, (Params.parse a).values key = (Params.parse b).values key)
      ∧ Plan.ofQuery .components a = Plan.ofQuery .components b
      ∧ Plan.ofQuery .servers a = Plan.ofQuery .servers b
      ∧ (Plan.ofQuery .servers b).toOption.map (·.window) = some ⟨5, 10, .pages⟩ := by
  intro group others a b
  have apart : ∀ x ∈ group, ∀ y ∈ others, x.1 ≠ y.1 := by decide
  have first : Merged group others (Params.parse a).pairs := by
    have read : (Params.parse a).pairs = [("sc_0[model]", "x"), ("attr", "n~k"), ("limit", "5"),
        ("attr", "n~j"), ("page", "3"), ("sc_0_attr", "m")] := by decide +kernel
    rw [read]
    exact .left (.right (.right (.right (.right (.left .nil)))))
  have second : Merged group others (Params.parse b).pairs := by
    have read : (Params.parse b).pairs = [("attr", "n~k"), ("sc_0[model]", "x"),
        ("sc_0_attr", "m"), ("limit", "5"), ("attr", "n~j"), ("page", "3")] := by decide +kernel
    rw [read]
    exact .right (.left (.left (.right (.right (.right .nil)))))
  have same : ∀ key, (Params.parse a).values key = (Params.parse b).values key := fun key =>
    (Params.values_merged first apart key).trans (Params.values_merged second apart key).symm
  exact ⟨apart, first, second, same, (plan_reads_values .components).1 a b same,
    (plan_reads_values .servers).2 group others a b apart first second, by decide +kernel⟩

end FleetInventory
