import FleetInventory.Store.Statement

/-!
Programs that talk to the database: each statement's reply decides what comes next. A program is
run against a script of replies; the statements it sent are part of the outcome.
-/
namespace FleetInventory

inductive Reply where
  | rows (rows : List Row)
  | affected (count : Int)
  /-- The statement failed, with the standard's code for the state and a text. -/
  | failed (state text : String)

/-- What the database has to say: replies from its tables, and what becomes of the locks that are
asked for. -/
structure Script where
  tables : List Reply
  locks : List Reply := []

instance : Coe (List Reply) Script := ⟨fun tables => { tables }⟩

/-- The reply where a script is used up: no rows are found, and all else succeeds. -/
def Answerer.fallback : Answerer → Reply
  | tables => .rows []
  | nobody | locks => .affected 0

namespace Script

def replies (script : Script) : Answerer → List Reply
  | .nobody => []
  | .locks => script.locks
  | .tables => script.tables

def next (script : Script) (answerer : Answerer) : Reply :=
  (script.replies answerer).headD answerer.fallback

def rest (script : Script) : Answerer → Script
  | .nobody => script
  | .locks => { script with locks := script.locks.tail }
  | .tables => { script with tables := script.tables.tail }

end Script

inductive Program (ε α : Type) where
  | done (a : α)
  | failed (e : ε)
  | ask (statement : Statement) (next : Reply → Program ε α)

namespace Program

variable {ε ε' α β : Type}

def bind : Program ε α → (α → Program ε β) → Program ε β
  | done a, f => f a
  | failed e, _ => failed e
  | ask statement next, f => ask statement fun reply => (next reply).bind f

instance : Monad (Program ε) where
  pure := done
  bind := bind

def mapError (f : ε → ε') : Program ε α → Program ε' α
  | done a => done a
  | failed e => failed (f e)
  | ask statement next => ask statement fun reply => (next reply).mapError f

def run : Program ε α → Script → Except ε α × List Statement
  | done a, _ => (.ok a, [])
  | failed e, _ => (.error e, [])
  | ask statement next, script =>
    let answerer := statement.answeredBy
    let (result, sent) := (next (script.next answerer)).run (script.rest answerer)
    (result, statement :: sent)

end Program

inductive StoreFault where
  | rejected (state text : String)
  | rowMissing
  | unreadable
  | kindVanished (slug : String)
  | setVanished
  deriving DecidableEq

namespace StoreFault

def uniqueViolation : String := "23505"

def isConflict : StoreFault → Bool
  | rejected state _ => state = uniqueViolation
  | _ => false

/-- The texts of a fault and its causes, outermost first. -/
def causes : StoreFault → List String
  | rejected _ text => ["error returned from database: " ++ text, text]
  | rowMissing => ["no rows returned by a query that expected to return at least one row"]
  | unreadable =>
    ["error occurred while decoding column 0: unexpected null; try decoding as an `Option`",
      "unexpected null; try decoding as an `Option`"]
  | kindVanished slug => ["Unknown component type: " ++ slug]
  | setVanished => ["Firmware set not found after creation"]

end StoreFault

abbrev StoreProgram := Program StoreFault

namespace Store

def readRow (read : Row → Option α) (row : Row) : StoreProgram α :=
  match read row with
  | some a => .done a
  | none => .failed .unreadable

def rowsOf : Reply → StoreProgram (List Row)
  | .rows rows => .done rows
  | .affected _ => .done []
  | .failed state text => .failed (.rejected state text)

def ask (statement : Statement) : StoreProgram Reply := .ask statement .done

def perform (statement : Statement) : StoreProgram Unit := do
  let _ ← rowsOf (← ask statement)

def fetchOptional (read : Row → Option α) (statement : Statement) : StoreProgram (Option α) := do
  match ← rowsOf (← ask statement) with
  | [] => return none
  | row :: _ => return some (← readRow read row)

def fetchOne (read : Row → Option α) (statement : Statement) : StoreProgram α := do
  match ← fetchOptional read statement with
  | some a => return a
  | none => .failed .rowMissing

def fetchAll (read : Row → Option α) (statement : Statement) : StoreProgram (List α) := do
  let rows ← rowsOf (← ask statement)
  match rows.mapM read with
  | some as => return as
  | none => .failed .unreadable

def touched (statement : Statement) : StoreProgram Int := do
  match ← ask statement with
  | .rows rows => return rows.length
  | .affected count => return count
  | .failed state text => .failed (.rejected state text)

/-- Work between the beginning and the end of a transaction. A fault leaves it open, so that
nothing of it is kept. -/
def transaction (work : StoreProgram α) : StoreProgram α := do
  perform .begin
  let a ← work
  perform .commit
  return a

end Store
end FleetInventory
