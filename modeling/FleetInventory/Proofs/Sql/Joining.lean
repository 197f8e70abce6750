import FleetInventory.Proofs.Sql.Meaning
import FleetInventory.Proofs.Sql.Scope

/-!
Left outer joins and conditions, one part after another. A scope meets joins and conditions if
some way of joining rows to it makes all conditions hold. Parts that join names of their own and
look only at these and at rows outside are met independently of each other.
-/
namespace FleetInventory.Sql

variable {D : Type}

theorem update_agree {known : Set String} {σ τ : Scope D} (agree : ∀ n ∈ known, σ n = τ n)
    (name : String) (r : Tuple D) :
    ∀ n ∈ known, Function.update σ name r n = Function.update τ name r n := by
  intro n member
  by_cases same : n = name
  · rw [same, Function.update_self, Function.update_self]
  · rw [Function.update_of_ne same, Function.update_of_ne same, agree n member]

variable [LinearOrder D] {w : Session D}

/-- A row that a join may put beside a scope: one that satisfies its condition, or the row of nulls
where none does. -/
def Joined.Partner (w : Session D) (j : Joined) (σ : Scope D) (r : Tuple D) : Prop :=
  (r ∈ w.tables j.table ∧ j.condition.Holds w (Function.update σ j.name r)) ∨
    ((∀ s ∈ w.tables j.table, ¬ j.condition.Holds w (Function.update σ j.name s)) ∧ r = Tuple.null)

theorem mem_extend (j : Joined) (σ τ : Scope D) :
    τ ∈ j.extend w σ ↔ ∃ r, j.Partner w σ r ∧ τ = Function.update σ j.name r := by
  unfold Joined.extend
  split
  · next none =>
    simp only [List.filter_eq_nil_iff] at none
    constructor
    · intro member
      exact ⟨Tuple.null, .inr ⟨none, rfl⟩, List.mem_singleton.mp member⟩
    · intro found
      obtain ⟨r, ⟨member, met⟩ | ⟨-, rfl⟩, rfl⟩ := found
      · exact absurd met (none r member)
      · exact List.mem_singleton_self _
  · next partners some =>
    have matching : ∀ r, r ∈ (w.tables j.table).filter (fun r =>
        holds (j.condition.eval w (Function.update σ j.name r))) ↔
        r ∈ w.tables j.table ∧ j.condition.Holds w (Function.update σ j.name r) := by
      intro r
      rw [List.mem_filter, Expr.Holds]
    simp only [List.mem_map, matching]
    constructor
    · intro found
      obtain ⟨r, both, rfl⟩ := found
      exact ⟨r, .inl both, rfl⟩
    · intro found
      obtain ⟨r, both | ⟨alone, -⟩, rfl⟩ := found
      · exact ⟨r, both, rfl⟩
      · obtain ⟨s, member⟩ := List.exists_mem_of_ne_nil _ some
        rw [matching] at member
        exact absurd member.2 (alone s member.1)

theorem mem_joinAll (joins : List Joined) (scopes : List (Scope D)) (τ : Scope D) :
    τ ∈ joinAll w joins scopes ↔ ∃ σ ∈ scopes, τ ∈ joinAll w joins [σ] := by
  induction joins generalizing scopes with
  | nil => simp [joinAll]
  | cons j rest ih =>
    change τ ∈ joinAll w rest (scopes.flatMap (j.extend w)) ↔
      ∃ σ ∈ scopes, τ ∈ joinAll w rest ([σ].flatMap (j.extend w))
    rw [ih]
    constructor
    · intro found
      obtain ⟨ρ, extended, reached⟩ := found
      obtain ⟨σ, member, step⟩ := List.mem_flatMap.mp extended
      exact ⟨σ, member, (ih _).mpr ⟨ρ, by simpa using step, reached⟩⟩
    · intro found
      obtain ⟨σ, member, reached⟩ := found
      obtain ⟨ρ, step, reached⟩ := (ih _).mp reached
      exact ⟨ρ, List.mem_flatMap.mpr ⟨σ, member, by simpa using step⟩, reached⟩

theorem mem_joinAll_nil (σ τ : Scope D) : τ ∈ joinAll w [] [σ] ↔ τ = σ := List.mem_singleton

theorem mem_joinAll_cons (j : Joined) (rest : List Joined) (σ τ : Scope D) :
    τ ∈ joinAll w (j :: rest) [σ] ↔
      ∃ r, j.Partner w σ r ∧ τ ∈ joinAll w rest [Function.update σ j.name r] := by
  change τ ∈ joinAll w rest ([σ].flatMap (j.extend w)) ↔ _
  rw [mem_joinAll]
  simp only [List.flatMap_singleton, mem_extend]
  constructor
  · intro found
    obtain ⟨ρ, ⟨r, partner, rfl⟩, reached⟩ := found
    exact ⟨r, partner, reached⟩
  · intro found
    obtain ⟨r, partner, reached⟩ := found
    exact ⟨_, ⟨r, partner, rfl⟩, reached⟩

theorem mem_joinAll_append (js ks : List Joined) (σ τ : Scope D) :
    τ ∈ joinAll w (js ++ ks) [σ] ↔ ∃ ρ ∈ joinAll w js [σ], τ ∈ joinAll w ks [ρ] := by
  rw [← mem_joinAll]
  simp only [joinAll, List.foldl_append]

/-- Joining changes the rows of the names it joins, and no others. -/
theorem joinAll_frame {joins : List Joined} {n : String} (other : ∀ j ∈ joins, j.name ≠ n)
    {σ τ : Scope D} (reached : τ ∈ joinAll w joins [σ]) : τ n = σ n := by
  induction joins generalizing σ with
  | nil => rw [(mem_joinAll_nil σ τ).mp reached]
  | cons j rest ih =>
    obtain ⟨r, -, onward⟩ := (mem_joinAll_cons j rest σ τ).mp reached
    rw [ih (fun k member => other k (List.mem_cons_of_mem _ member)) onward]
    exact Function.update_of_ne (other j List.mem_cons_self).symm r σ

theorem joinAll_outside {joins : List Joined} {own : Set String}
    (names : ∀ j ∈ joins, j.name ∈ own) {n : String} (outside : n ∉ own) {σ τ : Scope D}
    (reached : τ ∈ joinAll w joins [σ]) : τ n = σ n := by
  refine joinAll_frame ?_ reached
  intro j member same
  exact outside (same ▸ names j member)

theorem partner_agree {j : Joined} {known : Set String}
    (mentions : ∀ m ∈ j.condition.mentions, m ∈ known) {σ τ : Scope D}
    (agree : ∀ n ∈ known, σ n = τ n) {r : Tuple D} (partner : j.Partner w σ r) :
    j.Partner w τ r := by
  have same : ∀ s, j.condition.Holds w (Function.update σ j.name s) ↔
      j.condition.Holds w (Function.update τ j.name s) := fun s =>
    holds_agree _ fun m mention => update_agree agree j.name s m (mentions m mention)
  simpa only [Joined.Partner, same] using partner

theorem joinAll_agree {joins : List Joined} {known : Set String}
    (mentions : ∀ j ∈ joins, ∀ m ∈ j.condition.mentions, m ∈ known) {σ τ ρ : Scope D}
    (agree : ∀ n ∈ known, σ n = τ n) (reached : ρ ∈ joinAll w joins [σ]) :
    ∃ π ∈ joinAll w joins [τ], ∀ n ∈ known, ρ n = π n := by
  induction joins generalizing σ τ with
  | nil =>
    rw [mem_joinAll_nil] at reached
    exact ⟨τ, List.mem_singleton_self _, reached ▸ agree⟩
  | cons j rest ih =>
    obtain ⟨r, partner, onward⟩ := (mem_joinAll_cons j rest σ ρ).mp reached
    obtain ⟨π, member, same⟩ := ih (fun k later => mentions k (List.mem_cons_of_mem _ later))
      (update_agree agree j.name r) onward
    have again := partner_agree (mentions j List.mem_cons_self) agree partner
    exact ⟨π, (mem_joinAll_cons j rest τ π).mpr ⟨r, again, member⟩, same⟩

/-- Some way of joining rows to the scope makes all conditions hold. -/
def Met (w : Session D) (joins : List Joined) (conditions : List (Expr .truth)) (σ : Scope D) :
    Prop :=
  ∃ τ ∈ joinAll w joins [σ], ∀ c ∈ conditions, c.Holds w τ

theorem met_nil (conditions : List (Expr .truth)) (σ : Scope D) :
    Met w [] conditions σ ↔ ∀ c ∈ conditions, c.Holds w σ := by
  simp only [Met, mem_joinAll_nil, exists_eq_left]

theorem met_cons (j : Joined) (rest : List Joined) (conditions : List (Expr .truth))
    (σ : Scope D) :
    Met w (j :: rest) conditions σ ↔
      ∃ r, j.Partner w σ r ∧ Met w rest conditions (Function.update σ j.name r) := by
  simp only [Met, mem_joinAll_cons]
  constructor
  · intro found
    obtain ⟨τ, ⟨r, partner, reached⟩, met⟩ := found
    exact ⟨r, partner, τ, reached, met⟩
  · intro found
    obtain ⟨r, partner, τ, reached, met⟩ := found
    exact ⟨τ, ⟨r, partner, reached⟩, met⟩

/-- Joins and conditions that join names in `own` and mention nothing but these and `outer`. -/
structure Enclosed (own outer : Set String) (joins : List Joined)
    (conditions : List (Expr .truth)) : Prop where
  names : ∀ j ∈ joins, j.name ∈ own
  joins : ∀ j ∈ joins, ∀ m ∈ j.condition.mentions, m ∈ own ∪ outer
  conditions : ∀ c ∈ conditions, ∀ m ∈ c.mentions, m ∈ own ∪ outer

theorem met_append {own more outer : Set String} {js ks : List Joined} {cs ds : List (Expr .truth)}
    (first : Enclosed own outer js cs) (second : Enclosed more outer ks ds)
    (apart : ∀ n ∈ own, n ∉ more) (outside : ∀ n ∈ outer, n ∉ own ∧ n ∉ more) (σ : Scope D) :
    Met w (js ++ ks) (cs ++ ds) σ ↔ Met w js cs σ ∧ Met w ks ds σ := by
  have notMore : ∀ n ∈ own ∪ outer, n ∉ more := by
    intro n known
    rcases known with inside | given
    · exact apart n inside
    · exact (outside n given).2
  have notOwn : ∀ n ∈ more ∪ outer, n ∉ own := by
    intro n known earlier
    rcases known with inside | given
    · exact apart n earlier inside
    · exact (outside n given).1 earlier
  -- later joins leave alone what the first conditions mention, earlier ones what the second need
  have kept : ∀ {ρ τ : Scope D}, τ ∈ joinAll w ks [ρ] → ∀ n ∈ own ∪ outer, τ n = ρ n :=
    fun reached n known => joinAll_outside second.names (notMore n known) reached
  have untouched : ∀ {ρ : Scope D}, ρ ∈ joinAll w js [σ] → ∀ n ∈ more ∪ outer, ρ n = σ n :=
    fun reached n known => joinAll_outside first.names (notOwn n known) reached
  constructor
  · intro found
    obtain ⟨τ, reached, met⟩ := found
    obtain ⟨ρ, before, after⟩ := (mem_joinAll_append js ks σ τ).mp reached
    refine ⟨⟨ρ, before, fun c member => ?_⟩, ?_⟩
    · refine (holds_agree c fun m mention => ?_).mp (met c (List.mem_append_left _ member))
      exact kept after m (first.conditions c member m mention)
    · obtain ⟨π, again, same⟩ := joinAll_agree second.joins (untouched before) after
      refine ⟨π, again, fun d member => ?_⟩
      refine (holds_agree d fun m mention => ?_).mp (met d (List.mem_append_right _ member))
      exact same m (second.conditions d member m mention)
  · intro found
    obtain ⟨⟨ρ, before, metFirst⟩, ⟨π, alone, metSecond⟩⟩ := found
    obtain ⟨τ, after, same⟩ := joinAll_agree second.joins
      (fun n known => (untouched before n known).symm) alone
    refine ⟨τ, (mem_joinAll_append js ks σ τ).mpr ⟨ρ, before, after⟩, fun c member => ?_⟩
    rcases List.mem_append.mp member with member | member
    · refine (holds_agree c fun m mention => ?_).mpr (metFirst c member)
      exact kept after m (first.conditions c member m mention)
    · refine (holds_agree c fun m mention => ?_).mp (metSecond c member)
      exact same m (second.conditions c member m mention)

theorem mem_selected (q : Query) (other : ∀ j ∈ q.joins, j.name ≠ q.table) (row : Tuple D) :
    row ∈ q.selected w ↔ row ∈ w.tables q.table ∧
      Met w q.joins q.conditions (Function.update (fun _ => Tuple.null) q.table row) := by
  have every : ∀ τ, holds ((Expr.all q.conditions).eval w τ) = true ↔
      ∀ c ∈ q.conditions, c.Holds w τ := fun τ => holds_all q.conditions τ
  simp only [Query.selected, List.mem_map, List.mem_filter, every]
  constructor
  · intro found
    obtain ⟨τ, ⟨reached, met⟩, rfl⟩ := found
    obtain ⟨σ, start, onward⟩ := (mem_joinAll q.joins _ τ).mp reached
    obtain ⟨r, member, rfl⟩ := List.mem_map.mp start
    have own : τ q.table = r := by
      rw [joinAll_frame other onward, Function.update_self]
    exact ⟨own.symm ▸ member, τ, own.symm ▸ onward, met⟩
  · intro found
    obtain ⟨member, τ, reached, met⟩ := found
    refine ⟨τ, ⟨(mem_joinAll q.joins _ τ).mpr ⟨_, List.mem_map_of_mem member, reached⟩, met⟩, ?_⟩
    rw [joinAll_frame other reached, Function.update_self]

end FleetInventory.Sql
