import FleetInventory.Proofs.Sql.Resolving

/-!
Selections that grow. Whatever is added to a selection, with or without a fault, stands after what
is there already, and every slot of its texts is bound by then.
-/
namespace FleetInventory.Sql

open Template

/-- The slots of a draft that comes after `bound` values are those of its own values, and nothing
else in its texts reads as a placeholder. This is asked of a draft with a fault, too. -/
structure Draft.Sound {α : Type} [Condition α] (bound : Nat) (d : Draft α) : Prop where
  slots : ∀ x ∈ d.templates, ∀ n ∈ x.slots, bound < n ∧ n ≤ bound + d.values.length
  plain : ∀ x ∈ d.templates, x.Plain

def Fragment.Sound {α : Type} [Condition α] (p : Fragment α) : Prop :=
  ∀ bound, (p bound).Sound bound

theorem Draft.Sound.append {α : Type} [Condition α] {bound : Nat} {d e : Draft α}
    (first : d.Sound bound) (second : e.Sound (bound + d.values.length)) :
    (d.append e).Sound bound where
  slots x member n slot := by
    have length : (d.append e).values.length = d.values.length + e.values.length := by
      simp [Draft.append]
    rcases (mem_templates_append d e _ _ x).mp member with member | member
    · have range := first.slots x member n slot
      omega
    · have range := second.slots x member n slot
      omega
  plain x member := by
    rcases (mem_templates_append d e _ _ x).mp member with member | member
    · exact first.plain x member
    · exact second.plain x member

namespace Fragment

variable {α : Type} [Condition α] {p q : Fragment α}

theorem nothing_sound : (nothing : Fragment α).Sound := fun _ => ⟨nofun, nofun⟩

theorem refused_sound (fault : SearchFault) : (refused fault : Fragment α).Sound :=
  fun _ => ⟨nofun, nofun⟩

theorem Sound.andThen (first : p.Sound) (second : q.Sound) : (p.andThen q).Sound := by
  intro bound
  cases stopped : (p bound).fault with
  | some fault =>
    rw [andThen_of_fault stopped]
    exact first bound
  | none =>
    rw [andThen_of_ok stopped]
    exact (first bound).append (second _)

theorem Writes.sound {quote : Value → String} {t : Written} (writes : p.Writes quote t)
    (clean : ∀ bound, (p bound).fault = none) : p.Sound := fun bound =>
  ⟨fun x member n slot => ((writes bound (clean bound)).slots n).mp ⟨x, member, slot⟩,
    (writes bound (clean bound)).plain⟩

/-- The conditions of a larger fragment are sound if they show no more than the clauses they are
made of. A fault drops them. -/
theorem Sound.finish {p : Fragment Clause} {f : List Clause → List Predicate} (sound : p.Sound)
    (slots : ∀ cs, ∀ c ∈ f cs, ∀ n ∈ c.expr.template.slots, ∃ d ∈ cs, n ∈ d.expr.template.slots)
    (plain : ∀ cs, (∀ d ∈ cs, d.expr.template.Plain) → ∀ c ∈ f cs, c.expr.template.Plain) :
    (p.finish f).Sound := by
  intro bound
  have kept : ∀ c ∈ (p.finish f bound).conditions, c ∈ f (p bound).conditions := by
    intro c member
    simp only [Fragment.finish] at member
    split at member
    · contradiction
    · exact member
  have clause : ∀ d ∈ (p bound).conditions, d.expr.template ∈ (p bound).templates :=
    fun d present => List.mem_append_right _ (List.mem_map_of_mem present)
  constructor
  · intro x member n slot
    rcases List.mem_append.mp member with join | condition
    · exact (sound bound).slots x (List.mem_append_left _ join) n slot
    · obtain ⟨c, present, rfl⟩ := List.mem_map.mp condition
      obtain ⟨d, inside, shows⟩ := slots _ c (kept c present) n slot
      exact (sound bound).slots _ (clause d inside) n shows
  · intro x member
    rcases List.mem_append.mp member with join | condition
    · exact (sound bound).plain x (List.mem_append_left _ join)
    · obtain ⟨c, present, rfl⟩ := List.mem_map.mp condition
      exact plain _ (fun d inside => (sound bound).plain _ (clause d inside)) c (kept c present)

theorem Sound.singles {p : Fragment Clause} (sound : p.Sound) : p.singles.Sound := by
  refine sound.finish (fun cs c member n slot => ?_) (fun cs plain c member => ?_)
  · obtain ⟨d, present, rfl⟩ := List.mem_map.mp member
    exact ⟨d, present, slot⟩
  · obtain ⟨d, present, rfl⟩ := List.mem_map.mp member
    exact plain d present

theorem Sound.asBlock {p : Fragment Clause} (sound : p.Sound) : p.asBlock.Sound := by
  refine sound.finish (fun cs c member n slot => ?_) (fun cs plain c member => ?_)
  · rw [List.mem_singleton.mp member, Predicate.slots_block] at slot
    exact List.mem_flatMap.mp slot
  · rw [List.mem_singleton.mp member]
    exact Predicate.plain_block plain

theorem equals_sound {column : Column} (value : Value) (plain : '$' ∉ column.render.toList) :
    (equals column value).Sound := by
  intro bound
  constructor
  · simp [equals, Draft.templates, Condition.expr, Clause.expr, Expr.template]
  · simp [equals, Draft.templates, Condition.expr, Clause.expr, Expr.template, plain]

end Fragment

namespace Selection

/-- The later selection has all of the earlier one, and what it has besides comes after. -/
structure Extends (s t : Selection) : Prop where
  joins : s.joins <+: t.joins
  predicates : s.predicates <+: t.predicates
  values : s.values <+: t.values

theorem Extends.refl (s : Selection) : s.Extends s :=
  ⟨List.prefix_refl _, List.prefix_refl _, List.prefix_refl _⟩

theorem Extends.trans {s t u : Selection} (first : s.Extends t) (second : t.Extends u) :
    s.Extends u :=
  ⟨first.joins.trans second.joins, first.predicates.trans second.predicates,
    first.values.trans second.values⟩

theorem add_extends (s : Selection) (p : Fragment Predicate) : s.Extends (s.add p).1 :=
  ⟨List.prefix_append _ _, List.prefix_append _ _, List.prefix_append _ _⟩

theorem bind_extends (s : Selection) (value : Value) : s.Extends (s.bind value).1 :=
  ⟨List.prefix_refl _, List.prefix_refl _, List.prefix_append _ _⟩

def Closed (s : Selection) : Prop :=
  ∀ text ∈ s.joinTexts ++ s.predicateTexts, ∀ n ∈ slotsOf text, 1 ≤ n ∧ n ≤ s.values.length

theorem everything_closed : everything.Closed := nofun

theorem bind_closed {s : Selection} (closed : s.Closed) (value : Value) :
    (s.bind value).1.Closed := by
  intro text member n slot
  have range := closed text member n slot
  simp only [bind, List.length_append]
  omega

theorem add_closed {s : Selection} {p : Fragment Predicate} (closed : s.Closed) (sound : p.Sound) :
    (s.add p).1.Closed := by
  have length : (s.add p).1.values.length
      = s.values.length + (p s.values.length).values.length := by simp [add]
  have added := sound s.values.length
  have texts := exists_slotsOf_texts (s := ⟨(p s.values.length).joins,
    (p s.values.length).conditions, []⟩) rfl rfl added.plain
  have old : ∀ text ∈ s.joinTexts ++ s.predicateTexts, ∀ n ∈ slotsOf text,
      1 ≤ n ∧ n ≤ (s.add p).1.values.length := by
    intro text member n slot
    have range := closed text member n slot
    omega
  intro text member n slot
  simp only [joinTexts, predicateTexts, add, List.map_append, List.mem_append] at member
  rcases member with (join | join) | (condition | condition)
  · exact old text (List.mem_append_left _ join) n slot
  · obtain ⟨x, present, inside⟩ := (texts n).mp ⟨text, List.mem_append_left _ join, slot⟩
    have range := added.slots x present n inside
    omega
  · exact old text (List.mem_append_right _ condition) n slot
  · obtain ⟨x, present, inside⟩ := (texts n).mp ⟨text, List.mem_append_right _ condition, slot⟩
    have range := added.slots x present n inside
    omega

end Selection
end FleetInventory.Sql
