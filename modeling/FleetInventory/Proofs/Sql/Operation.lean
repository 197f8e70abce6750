import FleetInventory.Sql.Render

/-!
Statements on one table, read off their text: which rows they look for, what they put in, and which
columns they answer with. Values stand in the text as placeholders, numbered from one.
-/
namespace FleetInventory.Sql

/-- What a statement does. Keys are the columns that must have the bound values, one after the other;
given are the columns that get them. -/
inductive Operation where
  | begin
  | commit
  /-- Waits for the lock of the bound text, which is held until the transaction ends. -/
  | lock
  | select (table : String) (keys : List String) (latest : Option String) (shown : List String)
  /-- A row that is there already with the same values in the merged columns is changed instead. -/
  | insert (table : String) (given merged shown : List String)
  | increment (table counter : String) (keys shown : List String)
  deriving DecidableEq

namespace Operation

abbrev Letters := List Char

/-- The words of a text that goes on a word; commas and parentheses are words of their own. -/
def wordsAfter (begun : Letters) : Letters → List Letters
  | [] => ended []
  | ' ' :: rest => ended (wordsAfter [] rest)
  | ',' :: rest => ended ([','] :: wordsAfter [] rest)
  | '(' :: rest => ended (['('] :: wordsAfter [] rest)
  | ')' :: rest => ended ([')'] :: wordsAfter [] rest)
  | c :: rest => wordsAfter (begun ++ [c]) rest
where
  ended (rest : List Letters) : List Letters := if begun.isEmpty then rest else begun :: rest

def words (text : String) : List Letters := wordsAfter [] text.toList

def expect (phrase : String) (ws : List Letters) : Option (List Letters) :=
  if (words phrase).isPrefixOf ws then some (ws.drop (words phrase).length) else none

def isName (word : Letters) : Bool := word.all fun c => c.isLower || c = '_'

def name? : List Letters → Option (String × List Letters)
  | w :: ws => if isName w then some (String.ofList w, ws) else none
  | [] => none

def names? : List Letters → Option (List String × List Letters)
  | w :: [','] :: ws =>
    if isName w then (names? ws).map fun (more, ws) => (String.ofList w :: more, ws) else none
  | w :: ws => if isName w then some ([String.ofList w], ws) else none
  | [] => none

/-- Columns that have the values of the placeholders from a slot on. -/
def keys? (slot : Nat) : List Letters → Option (List String × List Letters)
  | w :: ['='] :: hole :: ws =>
    if isName w && hole = (placeholder slot).toList then
      match ws with
      | ['A', 'N', 'D'] :: ws =>
        (keys? (slot + 1) ws).map fun (keys, ws) => (String.ofList w :: keys, ws)
      | ws => some ([String.ofList w], ws)
    else none
  | _ => none

def holes (count : Nat) : String :=
  String.intercalate ", " ((List.range count).map fun i => placeholder (i + 1))

def select? (ws : List Letters) : Option Operation := do
  let (shown, ws) ← names? (← expect "SELECT" ws)
  let (table, ws) ← name? (← expect "FROM" ws)
  let (keys, ws) ← keys? 1 (← expect "WHERE" ws)
  if ws.isEmpty then return select table keys none shown
  let (latest, ws) ← name? (← expect "ORDER BY" ws)
  if ws = words "DESC LIMIT 1" then return select table keys (some latest) shown
  none

/-- The columns of which a row may be there already. -/
def merged? (ws : List Letters) : Option (List String × List Letters) :=
  match expect "ON CONFLICT (" ws with
  | none => some ([], ws)
  | some ws => do
    let (merged, ws) ← names? ws
    let ws ← expect ") DO UPDATE SET data = EXCLUDED.data, updated_at = clock_timestamp()" ws
    return (merged, ws)

def returning? (ws : List Letters) : Option (List String) := do
  let (shown, ws) ← names? (← expect "RETURNING" ws)
  if ws.isEmpty then return shown
  none

def insert? (ws : List Letters) : Option Operation := do
  let (table, ws) ← name? (← expect "INSERT INTO" ws)
  let (given, ws) ← names? (← expect "(" ws)
  let ws ← expect (") VALUES (" ++ holes given.length ++ ")") ws
  let (merged, ws) ← merged? ws
  return insert table given merged (← returning? ws)

def increment? (ws : List Letters) : Option Operation := do
  let (table, ws) ← name? (← expect "UPDATE" ws)
  let (counter, ws) ← name? (← expect "SET" ws)
  let (keys, ws) ← keys? 1 (← expect ("= " ++ counter ++ " + 1 WHERE") ws)
  return increment table counter keys (← returning? ws)

def fixed? (ws : List Letters) : Option Operation :=
  if ws = words "BEGIN" then some begin
  else if ws = words "COMMIT" then some commit
  else if ws = words "SELECT pg_advisory_xact_lock(hashtextextended($1, 0))" then some lock
  else none

def ofWords? (ws : List Letters) : Option Operation :=
  select? ws <|> insert? ws <|> increment? ws <|> fixed? ws

def parse? (text : String) : Option Operation := ofWords? (words text)

theorem letters_append {a b : String} {as bs : Letters} (first : a = String.ofList as)
    (second : b = String.ofList bs) : a ++ b = String.ofList (as ++ bs) := by
  rw [first, second, String.ofList_append]

theorem parse?_of_letters {text : String} {letters : Letters} {operation : Operation}
    (written : text = String.ofList letters)
    (read : ofWords? (wordsAfter [] letters) = some operation) : parse? text = some operation := by
  rw [parse?, words, written, String.toList_ofList, read]

end Operation
end FleetInventory.Sql
