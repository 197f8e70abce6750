import FleetInventory.Proofs.Sql.Expression
import FleetInventory.Proofs.Sql.Fragment
import Mathlib.Data.Set.Insert

/-!
Which rows a fragment may name. A scoped fragment joins rows under names of its own, each once; a
join mentions itself, what the fragment is given from outside, and rows joined before it. Fragments
with names of their own stay scoped when they are put together.
-/
namespace FleetInventory.Sql

class Condition (α : Type) where
  expr : α → Expr .truth
  clauses : α → List Clause

def Predicate.clauses : Predicate → List Clause
  | single clause => [clause]
  | block clauses => clauses

instance : Condition Clause := ⟨Clause.expr, fun clause => [clause]⟩
instance : Condition Predicate := ⟨Predicate.expr, Predicate.clauses⟩

def Clause.filterRow? : Clause → Option String
  | equals _ _ => none
  | document name _ _ => some name

def filterRows {α : Type} [Condition α] (conditions : List α) : List String :=
  (conditions.flatMap Condition.clauses).filterMap Clause.filterRow?

def Join.names (joins : List Join) : List String := joins.map Join.name

theorem Join.mentions_of_reference (table name column parent field : String) :
    ∀ m ∈ (⟨table, name, column, .of parent field, none⟩ : Join).condition.mentions,
      m = name ∨ m = parent := by
  intro m mention
  simpa [Join.condition, Expr.mentions, Column.of] using mention

/-- Every join mentions only itself, its own subquery, the rows outside and those joined before. -/
def ScopedFrom (outer : Set String) (seen : List String) : List Join → Prop
  | [] => True
  | j :: rest =>
    (∀ m ∈ j.condition.mentions, m = j.name ∨ m = j.latest ∨ m ∈ outer ∨ m ∈ seen)
      ∧ ScopedFrom outer (seen ++ [j.name]) rest

structure Draft.Scoped {α : Type} [Condition α] (own outer : Set String) (d : Draft α) : Prop where
  names : ∀ j ∈ d.joins, j.name ∈ own ∧ j.latest ∈ own
  distinct : (Join.names d.joins).Nodup
  latest : ∀ i ∈ d.joins, ∀ j ∈ d.joins, i.name ≠ j.latest
  joins : ScopedFrom outer [] d.joins
  conditions : ∀ c ∈ d.conditions, ∀ m ∈ (Condition.expr c).mentions,
    m ∈ outer ∨ m ∈ Join.names d.joins
  filters : (filterRows d.conditions).Sublist (Join.names d.joins)

theorem filterRows_append {α : Type} [Condition α] (cs ds : List α) :
    filterRows (cs ++ ds) = filterRows cs ++ filterRows ds := by
  simp [filterRows]

def Fragment.Scoped {α : Type} [Condition α] (own outer : Set String) (p : Fragment α) : Prop :=
  ∀ bound, (p bound).Scoped own outer

theorem scopedFrom_append {outer : Set String} {seen : List String} {js ks : List Join}
    (first : ScopedFrom outer seen js) (second : ScopedFrom outer (seen ++ Join.names js) ks) :
    ScopedFrom outer seen (js ++ ks) := by
  induction js generalizing seen with
  | nil => simpa [Join.names] using second
  | cons j rest ih =>
    refine ⟨first.1, ih first.2 ?_⟩
    simpa [Join.names, List.append_assoc] using second

/-- Rows that are joined before may as well count as outside, and the other way round. -/
theorem scopedFrom_mono {outer wider : Set String} {seen more : List String} {js : List Join}
    (inside : ScopedFrom outer seen js) (grows : ∀ m, m ∈ outer ∨ m ∈ seen → m ∈ wider ∨ m ∈ more) :
    ScopedFrom wider more js := by
  induction js generalizing seen more with
  | nil => trivial
  | cons j rest ih =>
    refine ⟨?_, ih inside.2 ?_⟩
    · intro m member
      rcases inside.1 m member with self | latest | known
      · exact .inl self
      · exact .inr (.inl latest)
      · exact .inr (.inr (grows m known))
    · intro m known
      rcases known with outside | before
      · exact (grows m (.inl outside)).imp_right (List.mem_append_left _)
      · rcases List.mem_append.mp before with before | self
        · exact (grows m (.inr before)).imp_right (List.mem_append_left _)
        · exact .inr (List.mem_append_right _ self)

theorem scopedFrom_split {outer : Set String} {seen : List String} {pre post : List Join} {j : Join}
    (inside : ScopedFrom outer seen (pre ++ j :: post)) :
    ∀ m ∈ j.condition.mentions,
      m = j.name ∨ m = j.latest ∨ m ∈ outer ∨ m ∈ seen ++ Join.names pre := by
  induction pre generalizing seen with
  | nil => simpa [Join.names] using inside.1
  | cons i rest ih =>
    have tail := ih inside.2
    simpa [Join.names, List.append_assoc] using tail

namespace Draft.Scoped

variable {α : Type} [Condition α] {own more outer inner : Set String} {d e : Draft α}

theorem widen (inside : d.Scoped own outer) (wider : own ⊆ more) : d.Scoped more outer where
  names j member := ⟨wider (inside.names j member).1, wider (inside.names j member).2⟩
  distinct := inside.distinct
  latest := inside.latest
  joins := inside.joins
  conditions := inside.conditions
  filters := inside.filters

theorem join_known (inside : d.Scoped own outer) {j : Join} (member : j ∈ d.joins) {m : String}
    (mention : m ∈ j.condition.mentions) :
    m = j.latest ∨ m ∈ outer ∨ m ∈ Join.names d.joins := by
  obtain ⟨pre, post, split⟩ := List.append_of_mem member
  have joins := inside.joins
  rw [split] at joins
  rcases scopedFrom_split joins m mention with rfl | latest | outside | before
  · exact .inr (.inr (List.mem_map_of_mem member))
  · exact .inl latest
  · exact .inr (.inl outside)
  · refine .inr (.inr ?_)
    rw [split, Join.names, List.map_append]
    exact List.mem_append_left _ before

theorem join_mentions (inside : d.Scoped own outer) {j : Join} (member : j ∈ d.joins) {m : String}
    (mention : m ∈ j.condition.mentions) : m ∈ own ∪ outer := by
  rcases inside.join_known member mention with rfl | outside | joined
  · exact .inl (inside.names j member).2
  · exact .inr outside
  · obtain ⟨i, present, rfl⟩ := List.mem_map.mp joined
    exact .inl (inside.names i present).1

theorem condition_mentions (inside : d.Scoped own outer) {c : α} (member : c ∈ d.conditions)
    {m : String} (mention : m ∈ (Condition.expr c).mentions) : m ∈ own ∪ outer := by
  rcases inside.conditions c member m mention with outside | joined
  · exact .inr outside
  · obtain ⟨j, present, rfl⟩ := List.mem_map.mp joined
    exact .inl (inside.names j present).1

theorem append (first : d.Scoped own outer) (second : e.Scoped more inner)
    (apart : ∀ n ∈ own, n ∉ more) (given : ∀ n ∈ inner, n ∈ outer ∨ n ∈ Join.names d.joins)
    (fault : Option SearchFault) (values : List Value) :
    Draft.Scoped (own ∪ more) outer
      ⟨d.joins ++ e.joins, d.conditions ++ e.conditions, values, fault⟩ where
  names j member := by
    rcases List.mem_append.mp member with member | member
    · exact (first.names j member).imp .inl .inl
    · exact (second.names j member).imp .inr .inr
  distinct := by
    simp only [Join.names, List.map_append, List.nodup_append]
    refine ⟨first.distinct, second.distinct, ?_⟩
    intro m left n right same
    obtain ⟨i, before, rfl⟩ := List.mem_map.mp left
    obtain ⟨j, after, rfl⟩ := List.mem_map.mp right
    exact apart _ (first.names i before).1 (same ▸ (second.names j after).1)
  latest i left j right := by
    intro same
    rcases List.mem_append.mp left with left | left <;>
      rcases List.mem_append.mp right with right | right
    · exact first.latest i left j right same
    · exact apart _ (first.names i left).1 (same ▸ (second.names j right).2)
    · exact apart _ (first.names j right).2 (same ▸ (second.names i left).1)
    · exact second.latest i left j right same
  joins := by
    refine scopedFrom_append first.joins (scopedFrom_mono second.joins ?_)
    intro m known
    rcases known with known | known
    · simpa using given m known
    · simp at known
  conditions c member m mention := by
    simp only [Join.names, List.map_append, List.mem_append]
    rcases List.mem_append.mp member with member | member
    · exact (first.conditions c member m mention).imp_right .inl
    · rcases second.conditions c member m mention with known | joined
      · exact (given m known).imp_right .inl
      · exact .inr (.inr joined)
  filters := by
    simp only [filterRows_append, Join.names, List.map_append]
    exact first.filters.append second.filters

end Draft.Scoped

namespace Fragment

variable {α : Type} [Condition α] {own more outer : Set String} {p q : Fragment α}

theorem Scoped.widen (inside : p.Scoped own outer) (wider : own ⊆ more) : p.Scoped more outer :=
  fun bound => (inside bound).widen wider

theorem nothing_scoped (own : Set String) : (nothing : Fragment α).Scoped own outer := by
  intro bound
  constructor <;> simp [nothing, Join.names, ScopedFrom, filterRows]

theorem refused_scoped (fault : SearchFault) : (refused fault : Fragment α).Scoped own outer := by
  intro bound
  constructor <;> simp [refused, Join.names, ScopedFrom, filterRows]

theorem Scoped.andThen (first : p.Scoped own outer) (second : q.Scoped more outer)
    (apart : ∀ n ∈ own, n ∉ more) : (p.andThen q).Scoped (own ∪ more) outer := by
  intro bound
  simp only [Fragment.andThen]
  split
  · exact (first bound).widen Set.subset_union_left
  · exact (first bound).append (second _) apart (fun n known => .inl known) _ _

theorem joined_andThen_scoped (j : Join) (self : j.name ∈ own ∧ j.latest ∈ own)
    (other : j.name ≠ j.latest)
    (mentions : ∀ m ∈ j.condition.mentions, m = j.name ∨ m = j.latest ∨ m ∈ outer)
    (second : q.Scoped more {j.name}) (apart : ∀ n ∈ own, n ∉ more) :
    ((joined j).andThen q).Scoped (own ∪ more) outer := by
  intro bound
  have first : (⟨[j], [], [], none⟩ : Draft α).Scoped own outer := by
    constructor
    · simpa using self
    · simp [Join.names]
    · simpa using other
    · simpa [ScopedFrom] using mentions
    · simp
    · simp [filterRows]
  exact first.append (second _) apart (fun n same => .inr (List.mem_singleton.mpr same)) _ _

theorem equals_scoped (column : Column) (value : Value)
    (known : ∀ m ∈ column.owner.toList, m ∈ outer) :
    (equals column value).Scoped own outer := by
  intro bound
  constructor
  · simp [equals]
  · simp [equals, Join.names]
  · simp [equals]
  · simp [equals, ScopedFrom]
  · intro c member m mention
    simp only [equals, List.mem_singleton] at member
    subst c
    simp only [Condition.expr, Clause.expr, Expr.mentions, List.append_nil] at mention
    exact .inl (known m mention)
  · exact List.nil_sublist _

theorem filterRows_singles (clauses : List Clause) :
    filterRows (clauses.map Predicate.single) = filterRows clauses := by
  simp [filterRows, List.flatMap_map, Condition.clauses, Predicate.clauses]

theorem filterRows_block (clauses : List Clause) :
    filterRows [Predicate.block clauses] = filterRows clauses := by
  simp [filterRows, Condition.clauses, Predicate.clauses]

theorem Scoped.singles {p : Fragment Clause} (inside : p.Scoped own outer) :
    p.singles.Scoped own outer := by
  intro bound
  refine ⟨(inside bound).names, (inside bound).distinct, (inside bound).latest,
    (inside bound).joins, ?_, ?_⟩
  · intro c member m mention
    simp only [Fragment.singles, finish] at member ⊢
    split at member
    · simp at member
    · obtain ⟨clause, present, rfl⟩ := List.mem_map.mp member
      exact (inside bound).conditions clause present m mention
  · simp only [Fragment.singles, finish]
    split
    · simp [filterRows]
    · exact filterRows_singles (p bound).conditions ▸ (inside bound).filters

theorem mentions_all (es : List (Expr .truth)) (m : String) :
    m ∈ (Expr.all es).mentions ↔ ∃ e ∈ es, m ∈ e.mentions := by
  induction es with
  | nil => simp [Expr.all, Expr.mentions]
  | cons e rest ih =>
    cases rest with
    | nil => simp [Expr.all]
    | cons f more =>
      simp only [Expr.all, Expr.mentions, List.mem_append, ih]
      simp

theorem Scoped.asBlock {p : Fragment Clause} (inside : p.Scoped own outer) :
    p.asBlock.Scoped own outer := by
  intro bound
  refine ⟨(inside bound).names, (inside bound).distinct, (inside bound).latest,
    (inside bound).joins, ?_, ?_⟩
  · intro c member m mention
    simp only [Fragment.asBlock, finish] at member ⊢
    split at member
    · simp at member
    · rw [List.mem_singleton] at member
      subst c
      simp only [Condition.expr, Predicate.expr, Expr.mentions, mentions_all] at mention
      obtain ⟨e, member, named⟩ := mention
      obtain ⟨clause, present, rfl⟩ := List.mem_map.mp member
      exact (inside bound).conditions clause present m named
  · simp only [Fragment.asBlock, finish]
    split
    · simp [filterRows]
    · exact filterRows_block (p bound).conditions ▸ (inside bound).filters

end Fragment
end FleetInventory.Sql
