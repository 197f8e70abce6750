import FleetInventory.Paging.Window
import FleetInventory.Proofs.Sql.Placeholder
import FleetInventory.Proofs.Sql.Scope

/-!
Statements with their values written in place. A fragment writes certain texts if these are what
is left once its slots are shown as its values, if its slots are exactly those of its values, and
if nothing else in its texts reads as a placeholder. All three are kept when fragments are put
together, so they hold of the whole statement.
-/
namespace FleetInventory.Sql

structure Written where
  joins : List String
  conditions : List String

namespace Written

def nothing : Written := ⟨[], []⟩

def append (s t : Written) : Written := ⟨s.joins ++ t.joins, s.conditions ++ t.conditions⟩

def all (ts : List Written) : Written := ts.foldr append nothing

def asBlock (t : Written) : Written := ⟨t.joins, ["(" ++ conjunction t.conditions ++ ")"]⟩

def source (t : Written) (table : String) : String :=
  table ++ String.join (t.joins.map (" " ++ ·))
    ++ if t.conditions.isEmpty then "" else " WHERE " ++ conjunction t.conditions

end Written

/-- A slot shown as the value it binds; without one it stays a placeholder. -/
def shown (quote : Value → String) (values : List Value) : Nat → String
  | 0 => placeholder 0
  | n + 1 => (values[n]?.map quote).getD (placeholder (n + 1))

theorem shown_of (quote : Value → String) {values : List Value} {n : Nat} {value : Value}
    (bound : values[n]? = some value) : shown quote values (n + 1) = quote value := by
  simp [shown, bound]

theorem shown_texts (quote : Value → String) {values : List Value} {bound : Nat}
    (texts : List String) (binds : Binds values bound (texts.map Value.text)) :
    (List.range' (bound + 1) texts.length).map (shown quote values)
      = texts.map fun text => quote (.text text) := by
  induction texts generalizing bound with
  | nil => rfl
  | cons text rest ih =>
    obtain ⟨first, later⟩ := Binds.cons binds
    simp only [List.length_cons, List.range'_succ, List.map_cons, shown_of quote first, ih later]

theorem Joined.spaced (j : Joined) : j.template.Spaced :=
  Template.spaced_ofText_append _ j.condition.spaced

namespace Draft

variable {α : Type} [Condition α]

def templates (d : Draft α) : List Template :=
  d.joins.map (fun j => j.joined.template) ++ d.conditions.map fun c => (Condition.expr c).template

/-- The draft of a fragment that comes after `bound` values, and what it writes. -/
structure Writes (quote : Value → String) (bound : Nat) (d : Draft α) (t : Written) : Prop where
  joins : ∀ values, Binds values bound d.values →
    d.joins.map (fun j => j.joined.text (shown quote values)) = t.joins
  conditions : ∀ values, Binds values bound d.values →
    d.conditions.map (fun c => (Condition.expr c).text (shown quote values)) = t.conditions
  slots : ∀ n, (∃ x ∈ d.templates, n ∈ x.slots) ↔ bound < n ∧ n ≤ bound + d.values.length
  plain : ∀ x ∈ d.templates, x.Plain

theorem mem_templates_append (d e : Draft α) (fault : Option SearchFault) (values : List Value)
    (x : Template) :
    x ∈ templates ⟨d.joins ++ e.joins, d.conditions ++ e.conditions, values, fault⟩ ↔
      x ∈ d.templates ∨ x ∈ e.templates := by
  simp only [templates, List.map_append, List.mem_append]
  grind

theorem Writes.append {quote : Value → String} {bound : Nat} {d e : Draft α} {s t : Written}
    (first : d.Writes quote bound s) (second : e.Writes quote (bound + d.values.length) t) :
    (d.append e).Writes quote bound (s.append t) where
  joins values binds := by
    obtain ⟨left, right⟩ := binds_append binds
    simp only [Draft.append, List.map_append, Written.append, first.joins values left,
      second.joins values right]
  conditions values binds := by
    obtain ⟨left, right⟩ := binds_append binds
    simp only [Draft.append, List.map_append, Written.append, first.conditions values left,
      second.conditions values right]
  slots n := by
    simp only [Draft.append, mem_templates_append, or_and_right, exists_or, first.slots,
      second.slots, List.length_append]
    omega
  plain x member := by
    rcases (mem_templates_append d e _ _ x).mp member with member | member
    · exact first.plain x member
    · exact second.plain x member

end Draft

def Fragment.Writes {α : Type} [Condition α] (quote : Value → String) (p : Fragment α)
    (t : Written) : Prop :=
  ∀ bound, (p bound).fault = none → (p bound).Writes quote bound t

theorem Predicate.slots_block (clauses : List Clause) :
    (Predicate.block clauses).expr.template.slots
      = clauses.flatMap fun c => c.expr.template.slots := by
  simp [Predicate.expr, Expr.template, Expr.slots_all, List.flatMap_map]

theorem Predicate.plain_block {clauses : List Clause}
    (each : ∀ c ∈ clauses, c.expr.template.Plain) :
    (Predicate.block clauses).expr.template.Plain := by
  have exprs : ∀ e ∈ clauses.map Clause.expr, e.template.Plain := by
    intro e present
    obtain ⟨c, condition, rfl⟩ := List.mem_map.mp present
    exact each c condition
  simpa [Predicate.expr, Expr.template] using Expr.plain_all exprs

namespace Fragment

variable {α : Type} [Condition α] {quote : Value → String} {p q : Fragment α} {s t : Written}

theorem nothing_writes : (nothing : Fragment α).Writes quote .nothing := by
  intro bound _
  constructor
  · simp [nothing, Written.nothing]
  · simp [nothing, Written.nothing]
  · simp [nothing, Draft.templates]
  · simp [nothing, Draft.templates]

theorem refused_writes (fault : SearchFault) : (refused fault : Fragment α).Writes quote t := by
  intro bound ok
  contradiction

theorem Writes.andThen (first : p.Writes quote s) (second : q.Writes quote t) :
    (p.andThen q).Writes quote (s.append t) := by
  intro bound ok
  obtain ⟨okFirst, okSecond⟩ := andThen_ok ok
  rw [andThen_of_ok okFirst]
  exact (first bound okFirst).append (second _ okSecond)

theorem joined_writes (quote : Value → String) {table name column parent field : String}
    (first : '$' ∉ table.toList) (second : '$' ∉ name.toList) (third : '$' ∉ column.toList)
    (fourth : '$' ∉ parent.toList) (fifth : '$' ∉ field.toList) :
    (joined ⟨table, name, column, .of parent field, none⟩ : Fragment α).Writes quote
      ⟨["LEFT OUTER JOIN " ++ table ++ " AS " ++ name ++ " ON " ++ name ++ "." ++ column ++ " = "
        ++ parent ++ "." ++ field], []⟩ := by
  intro bound _
  constructor
  · intro values _
    have text := Join.joined_text (shown quote values) ⟨table, name, column, .of parent field, none⟩
    rw [Join.condition_text] at text
    simp only [Column.render_of, String.append_empty, String.append_assoc] at text
    simp only [joined, List.map_cons, List.map_nil, text, String.append_assoc]
  · simp [joined]
  · simp [joined, Draft.templates, Join.joined, Joined.template, Join.condition, Expr.template]
  · simp [joined, Draft.templates, Join.joined, Joined.template, Join.condition, Expr.template,
      Column.render_of, first, second, third, fourth, fifth]

theorem equals_writes (quote : Value → String) {owner name : String} (value : Value)
    (first : '$' ∉ owner.toList) (second : '$' ∉ name.toList) :
    (equals (.of owner name) value).Writes quote
      ⟨[], [owner ++ "." ++ name ++ " = " ++ quote value]⟩ := by
  intro bound _
  constructor
  · simp [equals]
  · intro values binds
    have held : Binds values bound [value] := binds
    have slot := shown_of quote held.cons.1
    simp [equals, Condition.expr, Clause.expr, slot, Column.render_of, String.append_assoc]
  · intro n
    simp [equals, Draft.templates, Condition.expr, Clause.expr, Expr.template]
    omega
  · simp [equals, Draft.templates, Condition.expr, Clause.expr, Expr.template, Column.render_of,
      first, second]

theorem Writes.singles {p : Fragment Clause} (writes : p.Writes quote t) :
    p.singles.Writes quote t := by
  intro bound ok
  obtain ⟨clean, whole⟩ := singles_of_ok ok
  have inner := writes bound clean
  have templates : (p.singles bound).templates = (p bound).templates := by
    rw [whole, Draft.templates, List.map_map]
    rfl
  refine ⟨?_, ?_, templates ▸ inner.slots, templates ▸ inner.plain⟩
  · exact inner.joins
  · intro values binds
    rw [whole] at binds ⊢
    rw [← inner.conditions values binds, List.map_map]
    rfl

theorem Writes.asBlock {p : Fragment Clause} (writes : p.Writes quote t) :
    p.asBlock.Writes quote t.asBlock := by
  intro bound ok
  obtain ⟨clean, whole⟩ := asBlock_of_ok ok
  have inner := writes bound clean
  rw [whole]
  constructor
  · exact inner.joins
  · intro values binds
    rw [List.map_singleton, Written.asBlock, ← inner.conditions values binds]
    simp only [Condition.expr, Predicate.expr, Expr.text_enclosed, Expr.text_all, List.map_map]
    rfl
  · intro n
    have block : (Condition.expr (Predicate.block (p bound).conditions)).template.slots = _ :=
      Predicate.slots_block _
    rw [← inner.slots n]
    simp only [Draft.templates, List.mem_append, or_and_right, exists_or, List.map_singleton,
      List.mem_singleton, exists_eq_left, block, List.mem_flatMap, List.mem_map,
      exists_exists_and_eq_and]
    exact Iff.rfl
  · intro x member
    rcases List.mem_append.mp member with join | block
    · exact inner.plain x (List.mem_append_left _ join)
    · rw [List.mem_singleton.mp block]
      exact Predicate.plain_block fun c condition =>
        inner.plain _ (List.mem_append_right _ (List.mem_map_of_mem condition))

end Fragment

open Template

theorem Draft.spaced_templates (d : Draft Predicate) : ∀ x ∈ d.templates, Spaced x := by
  intro x member
  rcases List.mem_append.mp member with join | condition
  · obtain ⟨j, -, rfl⟩ := List.mem_map.mp join
    exact j.joined.spaced
  · obtain ⟨c, -, rfl⟩ := List.mem_map.mp condition
    exact Expr.spaced _

theorem Draft.Writes.shown_conditions {quote : Value → String} {bound : Nat} {d : Draft Predicate}
    {t : Written} (writes : d.Writes quote bound t) {values : List Value}
    (binds : Binds values bound d.values) :
    (d.conditions.map (Predicate.render placeholder)).map (substitute (shown quote values))
      = t.conditions := by
  rw [← writes.conditions values binds, List.map_map]
  refine List.map_congr_left fun c member => ?_
  rw [Function.comp_apply, Predicate.render_eq]
  exact substitute_fill _ _
    (writes.plain _ (List.mem_append_right _ (List.mem_map_of_mem member))) c.expr.spaced

theorem fill_flatMap {α : Type} (hole : Nat → String) (f : α → Template) (xs : List α) :
    fill hole (xs.flatMap f) = String.join (xs.map fun x => fill hole (f x)) := by
  induction xs with
  | nil => rfl
  | cons x rest ih => rw [List.flatMap_cons, fill_append, ih, List.map_cons, String.join_cons]

theorem spaced_flatMap {α : Type} (f : α → Template) (xs : List α) {last : Template}
    (each : ∀ x ∈ xs, Spaced (f x)) (spaced : Spaced last) (ends : startsDigit last = false) :
    Spaced (xs.flatMap (fun x => ofText " " ++ f x) ++ last) ∧
      startsDigit (xs.flatMap (fun x => ofText " " ++ f x) ++ last) = false := by
  induction xs with
  | nil => exact ⟨spaced, ends⟩
  | cons x rest ih =>
    obtain ⟨tail, apart⟩ := ih fun y member => each y (List.mem_cons_of_mem _ member)
    rw [List.flatMap_cons, List.append_assoc]
    refine ⟨spaced_append (spaced_ofText_append " " (each x List.mem_cons_self)) tail apart, ?_⟩
    rw [List.append_assoc]
    exact startsDigit_ofText_append " " _ (by decide)

namespace Query

def restriction (q : Query) : Template :=
  if q.conditions.isEmpty then [] else ofText " WHERE " ++ (Expr.all q.conditions).template

def template (q : Query) : Template :=
  ofText q.table ++ (q.joins.flatMap (fun j => ofText " " ++ j.template) ++ q.restriction)

theorem fill_template (hole : Nat → String) (q : Query) : q.template.fill hole = q.text hole := by
  have joins : ∀ j : Joined, fill hole (ofText " " ++ j.template) = " " ++ j.text hole := by
    intro j
    rw [fill_append, fill_ofText, Joined.text]
  rw [template, fill_append, fill_append, fill_ofText, fill_flatMap, text, String.append_assoc]
  simp only [joins, restriction]
  split
  · rfl
  · rw [fill_append, fill_ofText, Expr.text]

theorem spaced (q : Query) : q.template.Spaced := by
  have restricted : q.restriction.Spaced ∧ q.restriction.startsDigit = false := by
    unfold restriction
    split
    · exact ⟨spaced_nil, rfl⟩
    · exact ⟨spaced_ofText_append _ (Expr.spaced _),
        startsDigit_ofText_append " WHERE " _ (by decide)⟩
  exact spaced_ofText_append _ (spaced_flatMap Joined.template q.joins
    (fun j _ => j.spaced) restricted.1 restricted.2).1

theorem plain {q : Query} (table : '$' ∉ q.table.toList) (joins : ∀ j ∈ q.joins, j.template.Plain)
    (conditions : ∀ c ∈ q.conditions, c.template.Plain) : q.template.Plain := by
  have joined : Plain (q.joins.flatMap fun j => ofText " " ++ j.template) := by
    intro member
    obtain ⟨j, present, inside⟩ := List.mem_flatMap.mp member
    have first : Plain (ofText " " ++ j.template) := by simpa using joins j present
    exact first inside
  have restricted : q.restriction.Plain := by
    unfold restriction
    split
    · simp [Plain]
    · simpa using Expr.plain_all conditions
  simp only [template, plain_append, plain_ofText]
  exact ⟨table, joined, restricted⟩

end Query

namespace Selection

def pageTemplate (s : Selection) (table order : String) : Template :=
  ofText ("SELECT DISTINCT " ++ table ++ ".* FROM ") ++ (s.query table).template
    ++ (ofText (" ORDER BY " ++ order ++ " LIMIT ")
      ++ ([.slot s.limitSlot] ++ (ofText " OFFSET " ++ [.slot s.offsetSlot])))

theorem fill_pageTemplate (hole : Nat → String) (s : Selection) (table order : String) :
    (s.pageTemplate table order).fill hole
      = "SELECT DISTINCT " ++ table ++ ".* FROM " ++ (s.query table).text hole ++ " ORDER BY "
        ++ order ++ " LIMIT " ++ hole s.limitSlot ++ " OFFSET " ++ hole s.offsetSlot := by
  simp only [pageTemplate, fill_append, fill_ofText, fill_slot, Query.fill_template,
    String.append_assoc]

theorem pageSql_eq (s : Selection) (table order : String) :
    s.pageSql table order = (s.pageTemplate table order).fill placeholder := by
  rw [fill_pageTemplate, ← source_eq]
  delta pageSql
  rfl

theorem spaced_pageTemplate (s : Selection) (table order : String) :
    (s.pageTemplate table order).Spaced := by
  have slots := spaced_between " OFFSET " (spaced_slot s.limitSlot) (spaced_slot s.offsetSlot)
    (by decide)
  have blank : divides (" ORDER BY " ++ order ++ " LIMIT ") = true := by simp [divides]
  unfold pageTemplate
  exact spaced_between _ (spaced_ofText_append _ (s.query table).spaced) slots blank

/-- The placeholders of a statement stand for its values, as the written texts say. Limit and
offset of the page take the two slots that follow. -/
structure Resolves (s : Selection) (quote : Value → String) (t : Written) : Prop where
  joins : s.joinTexts.map (substitute (shown quote s.values)) = t.joins
  conditions : s.predicateTexts.map (substitute (shown quote s.values)) = t.conditions
  slots : ∀ n, (∃ text ∈ s.joinTexts ++ s.predicateTexts, n ∈ slotsOf text) ↔
    1 ≤ n ∧ n ≤ s.values.length
  window : ∀ table order, ∃ rest, s.pageSql table order
    = rest ++ " LIMIT " ++ placeholder (s.values.length + 1)
      ++ " OFFSET " ++ placeholder (s.values.length + 2)
  page : ∀ (table order : String) (window : Window), '$' ∉ table.toList → '$' ∉ order.toList →
    substitute (shown quote (s.pageValues window.limit window.offset)) (s.pageSql table order)
      = "SELECT DISTINCT " ++ table ++ ".* FROM " ++ t.source table ++ " ORDER BY " ++ order
        ++ " LIMIT " ++ quote (.int window.limit) ++ " OFFSET " ++ quote (.int window.offset)

theorem texts_eq {s : Selection} {d : Draft Predicate} (joins : s.joins = d.joins)
    (conditions : s.predicates = d.conditions) :
    s.joinTexts ++ s.predicateTexts = d.templates.map (fill placeholder) := by
  simp only [joinTexts, predicateTexts, Draft.templates, joins, conditions, List.map_append,
    List.map_map]
  refine congrArg₂ _ (List.map_congr_left fun j _ => ?_) (List.map_congr_left fun c _ => ?_)
  · exact j.render_eq placeholder
  · exact c.render_eq placeholder

theorem exists_slotsOf_texts {s : Selection} {d : Draft Predicate} (joins : s.joins = d.joins)
    (conditions : s.predicates = d.conditions) (plain : ∀ x ∈ d.templates, x.Plain) (n : Nat) :
    (∃ text ∈ s.joinTexts ++ s.predicateTexts, n ∈ slotsOf text)
      ↔ ∃ x ∈ d.templates, n ∈ x.slots := by
  rw [texts_eq joins conditions]
  simp only [List.mem_map, exists_exists_and_eq_and]
  refine exists_congr fun x => and_congr_right fun member => ?_
  rw [slotsOf_fill x (plain x member) (d.spaced_templates x member)]

theorem query_text_written {s : Selection} {hole : Nat → String} {t : Written} (table : String)
    (joins : s.joins.map (fun j => j.joined.text hole) = t.joins)
    (conditions : s.predicates.map (fun c => c.expr.text hole) = t.conditions) :
    (s.query table).text hole = t.source table := by
  simp only [Query.text, query, Written.source, ← joins, ← conditions, List.map_map,
    List.isEmpty_map, Expr.text_all]
  rfl

theorem resolves_of_writes {p : Fragment Predicate} {quote : Value → String} {t : Written}
    {s : Selection} (compiled : Selection.ofFragment p = .ok s) (writes : p.Writes quote t) :
    s.Resolves quote t := by
  obtain ⟨ok, rfl⟩ := Selection.ofFragment_eq_ok compiled
  have draft := writes 0 ok
  have joinPlain : ∀ j ∈ (p 0).joins, j.joined.template.Plain := fun j member =>
    draft.plain _ (List.mem_append_left _ (List.mem_map_of_mem member))
  have conditionPlain : ∀ c ∈ (p 0).conditions, c.expr.template.Plain := fun c member =>
    draft.plain _ (List.mem_append_right _ (List.mem_map_of_mem member))
  constructor
  · rw [← draft.joins _ (binds_all _), joinTexts, List.map_map]
    refine List.map_congr_left fun j member => ?_
    rw [Function.comp_apply, Join.render_eq]
    exact substitute_fill _ _ (joinPlain j member) j.joined.spaced
  · exact draft.shown_conditions (binds_all _)
  · intro n
    refine Iff.trans ?_ ((draft.slots n).trans (by rw [Nat.zero_add]; exact Iff.rfl))
    exact exists_slotsOf_texts rfl rfl draft.plain n
  · intro table order
    exact ⟨_, rfl⟩
  · intro table order window tablePlain orderPlain
    have plain :
        Plain (pageTemplate ⟨(p 0).joins, (p 0).conditions, (p 0).values⟩ table order) := by
      have query := Query.plain (q := query ⟨(p 0).joins, (p 0).conditions, (p 0).values⟩ table)
        tablePlain (by simpa [query] using joinPlain) (by simpa [query] using conditionPlain)
      simpa [pageTemplate, tablePlain, orderPlain] using query
    have binds : Binds (pageValues ⟨(p 0).joins, (p 0).conditions, (p 0).values⟩ window.limit
        window.offset) 0 (p 0).values := (binds_append (binds_all _)).1
    have limit : (pageValues ⟨(p 0).joins, (p 0).conditions, (p 0).values⟩ window.limit
        window.offset)[(p 0).values.length]? = some (.int window.limit) := by simp [pageValues]
    have offset : (pageValues ⟨(p 0).joins, (p 0).conditions, (p 0).values⟩ window.limit
        window.offset)[(p 0).values.length + 1]? = some (.int window.offset) := by
      simp [pageValues]
    rw [pageSql_eq, substitute_fill _ _ plain (spaced_pageTemplate _ _ _), fill_pageTemplate,
      query_text_written table (draft.joins _ binds) (draft.conditions _ binds), limitSlot,
      offsetSlot, shown_of quote limit, shown_of quote offset]

end Selection
end FleetInventory.Sql
