import FleetInventory.Sql.Basic

/-!
The SQL text of a selection. `hole` says how a slot is shown: statements show the placeholder of
the slot, `$1`, `$2` and so on.
-/
namespace FleetInventory.Sql

def placeholder (slot : Nat) : String := "$" ++ Text.showNat slot

def conjunction (conditions : List String) : String := String.intercalate " AND " conditions

def Join.latest (join : Join) : String := join.name ++ "_latest"

def Join.newestText (hole : Nat → String) (join : Join) (scope : Nat) : String :=
  "(SELECT MAX(" ++ join.latest ++ ".created_at) FROM " ++ join.table ++ " AS " ++ join.latest
    ++ " WHERE " ++ (Column.of join.latest join.column).render ++ " = " ++ join.target.render
    ++ " AND " ++ join.latest ++ ".namespace = " ++ hole scope ++ ")"

def Join.render (hole : Nat → String) (join : Join) : String :=
  "LEFT OUTER JOIN " ++ join.table ++ " AS " ++ join.name ++ " ON "
    ++ (Column.of join.name join.column).render ++ " = " ++ join.target.render
    ++ match join.newestIn with
      | some scope => " AND " ++ join.name ++ ".created_at = " ++ join.newestText hole scope
      | none => ""

def pathText (hole : Nat → String) (start : String) (path : List Nat) : String :=
  path.foldl (fun text slot => text ++ " -> " ++ hole slot) start

def comparisonText (extracted value : String) : Comparison → String
  | .equal => extracted ++ " = " ++ value
  | .like => extracted ++ " LIKE " ++ value
  | .greater => "(" ++ extracted ++ ")::int > " ++ value ++ "::int"
  | .less => "(" ++ extracted ++ ")::int < " ++ value ++ "::int"

def DocumentTest.render? (hole : Nat → String) (name : String) : DocumentTest → Option String
  | anything => none
  | hasKey parents key =>
    some ("(" ++ pathText hole (name ++ ".data") parents ++ ") ? " ++ hole key)
  | compares path comparison value =>
    let extracted := "jsonb_extract_path_text(" ++ name ++ ".data, "
      ++ String.intercalate ", " (path.map hole) ++ ")"
    some (comparisonText extracted (hole value) comparison)

def Clause.render (hole : Nat → String) : Clause → String
  | equals column slot => column.render ++ " = " ++ hole slot
  | document name scope test =>
    let within := name ++ ".namespace = " ++ hole scope
    match test.render? hole name with
    | some tested => "(" ++ conjunction [within, tested] ++ ")"
    | none => within

def Predicate.render (hole : Nat → String) : Predicate → String
  | single clause => clause.render hole
  | block clauses => "(" ++ conjunction (clauses.map (Clause.render hole)) ++ ")"

namespace Selection

def joinTexts (s : Selection) : List String := s.joins.map (Join.render placeholder)

def predicateTexts (s : Selection) : List String := s.predicates.map (Predicate.render placeholder)

def source (s : Selection) (table : String) : String :=
  table ++ String.join (s.joinTexts.map (" " ++ ·))
    ++ if s.predicates.isEmpty then "" else " WHERE " ++ conjunction s.predicateTexts

/-- Counts distinct rows of the table: joins may repeat a row. -/
def countSql (s : Selection) (table : String) : String :=
  "SELECT COUNT(DISTINCT " ++ table ++ ".id) FROM " ++ s.source table

def limitSlot (s : Selection) : Nat := s.values.length + 1
def offsetSlot (s : Selection) : Nat := s.values.length + 2

/-- One page of the same rows. Limit and offset take the two slots after the bound values. -/
def pageSql (s : Selection) (table order : String) : String :=
  "SELECT DISTINCT " ++ table ++ ".* FROM " ++ s.source table ++ " ORDER BY " ++ order
    ++ " LIMIT " ++ placeholder s.limitSlot ++ " OFFSET " ++ placeholder s.offsetSlot

def pageValues (s : Selection) (limit offset : Int) : List Value :=
  s.values ++ [.int limit, .int offset]

end Selection
end FleetInventory.Sql
