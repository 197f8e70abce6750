import FleetInventory.Proofs.Sql.Template

/-!
The conditions of a statement as SQL expressions. Joins and clauses are given the expression they
are written as, and the main statements say that the written text is the text of that expression.
So what an expression means, and which rows it mentions, is said of the text that is sent.
-/
namespace FleetInventory.Sql

inductive Kind where
  | scalar
  | truth

/-- An expression of either kind. `greatest` is the subquery that takes the greatest value of a
column over the rows of a table that satisfy a condition. -/
inductive Expr : Kind → Type where
  | column (c : Column) : Expr .scalar
  | slot (n : Nat) : Expr .scalar
  | child (document key : Expr .scalar) : Expr .scalar
  | textAt (document : Expr .scalar) (path : List Nat) : Expr .scalar
  | greatest (field table name : String) (condition : Expr .truth) : Expr .scalar
  | equal (a b : Expr .scalar) : Expr .truth
  | like (a b : Expr .scalar) : Expr .truth
  | greater (a b : Expr .scalar) : Expr .truth
  | less (a b : Expr .scalar) : Expr .truth
  | hasKey (document key : Expr .scalar) : Expr .truth
  /-- No condition, written as nothing. -/
  | always : Expr .truth
  | both (a b : Expr .truth) : Expr .truth
  | enclosed (a : Expr .truth) : Expr .truth

namespace Expr

open Template

def template : {k : Kind} → Expr k → Template
  | _, column c => ofText c.render
  | _, slot n => [.slot n]
  | _, child document key => document.template ++ (ofText " -> " ++ key.template)
  | _, textAt document path =>
    ofText "jsonb_extract_path_text(" ++ document.template ++ (ofText ", "
      ++ ((ofText ", ").intercalate (path.map fun n => [.slot n]) ++ ofText ")"))
  | _, greatest field table name condition =>
    ofText ("(SELECT MAX(" ++ name ++ "." ++ field ++ ") FROM " ++ table ++ " AS " ++ name
      ++ " WHERE ") ++ condition.template ++ ofText ")"
  | _, equal a b => a.template ++ (ofText " = " ++ b.template)
  | _, like a b => a.template ++ (ofText " LIKE " ++ b.template)
  | _, greater a b =>
    ofText "(" ++ a.template ++ (ofText ")::int > " ++ b.template) ++ ofText "::int"
  | _, less a b =>
    ofText "(" ++ a.template ++ (ofText ")::int < " ++ b.template) ++ ofText "::int"
  | _, hasKey document key =>
    ofText "(" ++ document.template ++ (ofText ") ? " ++ key.template)
  | _, always => []
  | _, both a b => a.template ++ (ofText " AND " ++ b.template)
  | _, enclosed a => ofText "(" ++ a.template ++ ofText ")"

def text {k : Kind} (hole : Nat → String) (e : Expr k) : String := e.template.fill hole

/-- The tables and joined rows an expression names, those of its subqueries included. -/
def mentions : {k : Kind} → Expr k → List String
  | _, column c => c.owner.toList
  | _, slot _ => []
  | _, child document key => document.mentions ++ key.mentions
  | _, textAt document _ => document.mentions
  | _, greatest _ _ name condition => name :: condition.mentions
  | _, equal a b | _, like a b | _, greater a b | _, less a b => a.mentions ++ b.mentions
  | _, hasKey document key => document.mentions ++ key.mentions
  | _, always => []
  | _, both a b => a.mentions ++ b.mentions
  | _, enclosed a => a.mentions

def all : List (Expr .truth) → Expr .truth
  | [] => always
  | [e] => e
  | e :: f :: more => both e (all (f :: more))

def comparison (extracted value : Expr .scalar) : Comparison → Expr .truth
  | .equal => equal extracted value
  | .like => like extracted value
  | .greater => greater extracted value
  | .less => less extracted value

end Expr

def DocumentTest.expr? (name : String) : DocumentTest → Option (Expr .truth)
  | anything => none
  | hasKey parents key =>
    some (.hasKey (parents.foldl (fun e n => .child e (.slot n)) (.column (.of name "data")))
      (.slot key))
  | compares path comparison value =>
    some (Expr.comparison (.textAt (.column (.of name "data")) path) (.slot value) comparison)

def Clause.expr : Clause → Expr .truth
  | equals column slot => .equal (.column column) (.slot slot)
  | document name scope test =>
    let within := .equal (.column (.of name "namespace")) (.slot scope)
    match test.expr? name with
    | some tested => .enclosed (.both within tested)
    | none => within

def Predicate.expr : Predicate → Expr .truth
  | single clause => clause.expr
  | block clauses => .enclosed (Expr.all (clauses.map Clause.expr))

def Join.newest (join : Join) (scope : Nat) : Expr .scalar :=
  .greatest "created_at" join.table join.latest
    (.both (.equal (.column (.of join.latest join.column)) (.column join.target))
      (.equal (.column (.of join.latest "namespace")) (.slot scope)))

def Join.condition (join : Join) : Expr .truth :=
  let linked := .equal (.column (.of join.name join.column)) (.column join.target)
  match join.newestIn with
  | some scope => .both linked (.equal (.column (.of join.name "created_at")) (join.newest scope))
  | none => linked

structure Joined where
  table : String
  name : String
  condition : Expr .truth

def Joined.template (j : Joined) : Template :=
  .ofText ("LEFT OUTER JOIN " ++ j.table ++ " AS " ++ j.name ++ " ON ") ++ j.condition.template

def Joined.text (hole : Nat → String) (j : Joined) : String := j.template.fill hole

def Join.joined (join : Join) : Joined := ⟨join.table, join.name, join.condition⟩

structure Query where
  table : String
  joins : List Joined
  conditions : List (Expr .truth)

def Query.text (hole : Nat → String) (q : Query) : String :=
  q.table ++ String.join (q.joins.map fun j => " " ++ j.text hole)
    ++ if q.conditions.isEmpty then "" else " WHERE " ++ (Expr.all q.conditions).text hole

def Selection.query (s : Selection) (table : String) : Query :=
  ⟨table, s.joins.map Join.joined, s.predicates.map Predicate.expr⟩

theorem fill_intercalate (hole : Nat → String) (mark : String) (slots : List Nat) :
    Template.fill hole ((Template.ofText mark).intercalate (slots.map fun n => [.slot n]))
      = String.intercalate mark (slots.map hole) := by
  induction slots with
  | nil => rfl
  | cons n rest ih =>
    cases rest with
    | nil => simp
    | cons m more =>
      simp only [List.map_cons, List.intercalate_cons_cons, String.intercalate_cons_cons,
        Template.fill_append, Template.fill_slot, Template.fill_ofText] at ih ⊢
      rw [ih]

theorem Column.render_of (owner name : String) :
    (Column.of owner name).render = owner ++ ("." ++ name) := by
  simp [Column.of, Column.render, String.append_assoc]

namespace Expr

variable (hole : Nat → String)

section Text

attribute [local simp] text template String.append_assoc

@[simp] theorem text_column (c : Column) : (column c).text hole = c.render := by
  simp

@[simp] theorem text_slot (n : Nat) : (slot n).text hole = hole n := by
  simp

@[simp] theorem text_child (document key : Expr .scalar) :
    (child document key).text hole = document.text hole ++ " -> " ++ key.text hole := by
  simp

@[simp] theorem text_textAt (document : Expr .scalar) (path : List Nat) :
    (textAt document path).text hole = "jsonb_extract_path_text(" ++ document.text hole ++ ", "
      ++ String.intercalate ", " (path.map hole) ++ ")" := by
  simp [fill_intercalate]

@[simp] theorem text_greatest (field table name : String) (condition : Expr .truth) :
    (greatest field table name condition).text hole
      = "(SELECT MAX(" ++ name ++ "." ++ field ++ ") FROM " ++ table ++ " AS " ++ name
        ++ " WHERE " ++ condition.text hole ++ ")" := by
  simp

@[simp] theorem text_equal (a b : Expr .scalar) :
    (equal a b).text hole = a.text hole ++ " = " ++ b.text hole := by
  simp

theorem text_comparison (extracted value : Expr .scalar) (c : Comparison) :
    (comparison extracted value c).text hole
      = comparisonText (extracted.text hole) (value.text hole) c := by
  cases c <;> simp [comparison, comparisonText]

@[simp] theorem text_hasKey (document key : Expr .scalar) :
    (hasKey document key).text hole
      = "(" ++ document.text hole ++ ") ? " ++ key.text hole := by
  simp

@[simp] theorem text_both (a b : Expr .truth) :
    (both a b).text hole = a.text hole ++ " AND " ++ b.text hole := by
  simp

@[simp] theorem text_enclosed (a : Expr .truth) :
    (enclosed a).text hole = "(" ++ a.text hole ++ ")" := by
  simp

end Text

theorem text_all (es : List (Expr .truth)) :
    (all es).text hole = conjunction (es.map (text hole)) := by
  induction es with
  | nil => rfl
  | cons e rest ih =>
    cases rest with
    | nil => simp [all, conjunction]
    | cons f more =>
      simp only [all, text_both, ih]
      simp [conjunction]

theorem text_path (slots : List Nat) (e : Expr .scalar) :
    (slots.foldl (fun e n => .child e (.slot n)) e).text hole
      = pathText hole (e.text hole) slots := by
  induction slots generalizing e with
  | nil => rfl
  | cons n rest ih =>
    rw [List.foldl_cons, ih]
    simp [pathText]

end Expr

theorem DocumentTest.render_eq (hole : Nat → String) (name : String) (test : DocumentTest) :
    test.render? hole name = (test.expr? name).map (Expr.text hole) := by
  cases test with
  | anything => rfl
  | hasKey parents key => simp [render?, expr?, Expr.text_path, Column.render_of]
  | compares path c value =>
    have mark : ".data, " = ".data" ++ ", " := rfl
    have extracted : "jsonb_extract_path_text(" ++ name ++ ".data, "
        ++ String.intercalate ", " (path.map hole) ++ ")"
          = (Expr.textAt (.column (.of name "data")) path).text hole := by
      simp only [mark, Expr.text_textAt, Expr.text_column, Column.render_of, String.append_assoc]
      rfl
    simp only [render?, expr?, Option.map_some, extracted, Expr.text_comparison, Expr.text_slot]

theorem within_text (hole : Nat → String) (name : String) (scope : Nat) :
    (Expr.equal (.column (.of name "namespace")) (.slot scope)).text hole
      = name ++ ".namespace = " ++ hole scope := by
  have mark : ".namespace = " = "." ++ ("namespace" ++ " = ") := rfl
  simp only [mark, Expr.text_equal, Expr.text_column, Expr.text_slot, Column.render_of,
    String.append_assoc]

theorem Clause.render_eq (hole : Nat → String) (clause : Clause) :
    clause.render hole = clause.expr.text hole := by
  cases clause with
  | equals column slot =>
    simp only [render, expr, Expr.text_equal, Expr.text_column, Expr.text_slot]
  | document name scope test =>
    simp only [render, expr, DocumentTest.render_eq]
    cases test.expr? name with
    | none => exact (within_text hole name scope).symm
    | some tested =>
      simp only [Option.map_some, conjunction, String.intercalate_cons_cons,
        String.intercalate_singleton, Expr.text_enclosed, Expr.text_both, within_text]

theorem Predicate.render_eq (hole : Nat → String) (p : Predicate) :
    p.render hole = p.expr.text hole := by
  cases p with
  | single clause => exact clause.render_eq hole
  | block clauses =>
    have texts : clauses.map (Clause.render hole)
        = (clauses.map Clause.expr).map (Expr.text hole) := by
      simp [Clause.render_eq]
    rw [render, texts, expr, Expr.text_enclosed, Expr.text_all]

theorem Join.newestText_eq (hole : Nat → String) (join : Join) (scope : Nat) :
    join.newestText hole scope = (join.newest scope).text hole := by
  have mark : ".created_at) FROM " = "." ++ ("created_at" ++ ") FROM ") := rfl
  have linked := within_text hole join.latest scope
  delta newestText
  simp only [newest, mark, Expr.text_greatest, Expr.text_both, linked, Expr.text_equal,
    Expr.text_column, String.append_assoc]

theorem Join.condition_text (hole : Nat → String) (join : Join) :
    join.condition.text hole
      = (Column.of join.name join.column).render ++ " = " ++ join.target.render
        ++ match join.newestIn with
          | some scope => " AND " ++ join.name ++ ".created_at = " ++ join.newestText hole scope
          | none => "" := by
  have mark : ".created_at = " = "." ++ ("created_at" ++ " = ") := rfl
  rw [condition]
  cases join.newestIn with
  | none => simp only [Expr.text_equal, Expr.text_column, String.append_empty]
  | some scope =>
    simp only [mark, Expr.text_both, Expr.text_equal, Expr.text_column, Join.newestText_eq,
      Column.render_of, String.append_assoc]

theorem Join.joined_text (hole : Nat → String) (join : Join) :
    join.joined.text hole = "LEFT OUTER JOIN " ++ join.table ++ " AS " ++ join.name ++ " ON "
      ++ join.condition.text hole := by
  simp only [Joined.text, Joined.template, joined, Template.fill_append, Template.fill_ofText,
    Expr.text]

theorem Join.render_eq (hole : Nat → String) (join : Join) :
    join.render hole = join.joined.text hole := by
  rw [Join.joined_text, Join.condition_text]
  delta render
  cases join.newestIn <;> simp only [String.append_assoc]

theorem Selection.source_eq (s : Selection) (table : String) :
    s.source table = (s.query table).text placeholder := by
  have joins : s.joinTexts.map (" " ++ ·)
      = (s.query table).joins.map fun j => " " ++ j.text placeholder := by
    simp [joinTexts, query, Join.render_eq]
  have conditions : s.predicateTexts
      = (s.query table).conditions.map (Expr.text placeholder) := by
    simp [predicateTexts, query, Predicate.render_eq]
  rw [source, joins, conditions, ← Expr.text_all, Query.text]
  simp only [query, List.isEmpty_map]

end FleetInventory.Sql
