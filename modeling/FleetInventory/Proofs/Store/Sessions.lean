import FleetInventory.Proofs.Store.Saying
import FleetInventory.Store.Records
import Mathlib.Data.List.Nodup
import Mathlib.Logic.Function.Basic

/-!
Reports of versioned attributes that are handled at the same time, each in a transaction of its own,
over one table. The database is sent texts with bound values, and answers what the text says over the
rows that its transaction sees: those that are kept, with the changes of the transaction itself. One
statement is answered at a time, in any order in which no two transactions hold one lock. Any
statement may fail, and a transaction that fails is undone.
-/
namespace FleetInventory

def Reply.succeeded : Reply → Bool
  | .failed _ _ => false
  | _ => true

namespace Store

open Sql (Operation)

structure Report where
  owner : AttributeOwner
  input : AttributeInput

structure StoredVersion extends VersionedAttribute where
  owner : AttributeOwner

structure Table where
  rows : List StoredVersion
  distinct : (rows.map (·.id)).Nodup

def historyOf (owner : AttributeOwner) (scope : String) (rows : List StoredVersion) :
    List StoredVersion :=
  rows.filter fun r => r.owner = owner && r.scope = scope

def StoredVersion.raise (r : StoredVersion) : StoredVersion := { r with tally := r.tally + 1 }

inductive Change where
  | add (r : StoredVersion)
  | raise (id : Uuid)

def Change.apply : Change → List StoredVersion → List StoredVersion
  | add r, rows => rows ++ [r]
  | raise id, rows => rows.map fun r => if r.id = id then r.raise else r

/-- What is read of a stored row: its document may have its fields in another order. -/
structure Copies (v stored : VersionedAttribute) : Prop where
  id : v.id = stored.id
  scope : v.scope = stored.scope
  data : stored.data.same v.data = true
  tally : v.tally = stored.tally
  createdAt : v.createdAt = stored.createdAt

namespace StoredVersion

def value? (r : StoredVersion) : String → Option Binding
  | "id" => some (.uuid r.id)
  | "server_id" =>
    match r.owner with
    | .server id => some (.uuid id)
    | .component _ => none
  | "server_component_id" =>
    match r.owner with
    | .server _ => none
    | .component id => some (.uuid id)
  | "namespace" => some (.text r.scope)
  | "data" => some (.document r.data)
  | "tally" => some (.int r.tally)
  | _ => none

def Meets (r : StoredVersion) (keys : List String) (values : List Binding) : Prop :=
  List.Forall₂ (fun key value => r.value? key = some value) keys values

/-- What a column of a row is answered with. A tally has 32 bits. -/
def Shows (r : StoredVersion) (column : String) (cell : Cell) : Prop :=
  match column with
  | "id" => ∃ s, cell = .text s ∧ Uuid.parse? s = some r.id
  | "namespace" => cell = .text r.scope
  | "data" => ∃ s d, cell = .text s ∧ Document.parse? s = some d ∧ r.data.same d = true
  | "tally" => cell = .int r.tally ∧ -2147483648 ≤ r.tally ∧ r.tally ≤ 2147483647
  | "created_at" => ∃ s, cell = .text s ∧ Timestamp.parse? s = some r.createdAt
  | _ => False

def Fills (r : StoredVersion) (shown : List String) (row : Row) : Prop :=
  List.Forall₂ (fun column cell => cell.1 = column ∧ r.Shows column cell.2) shown row

def default? (column : String) : Option Binding :=
  if column = "tally" then some (.int 0) else none

/-- What a new row holds in a column, where such values are bound for some columns. -/
def Gets (r : StoredVersion) (bound : List (String × Binding)) (column : String) : Prop :=
  match bound.lookup column with
  | some .fresh => True
  | some .null => r.value? column = none
  | some value => r.value? column = some value
  | none => r.value? column = default? column

end StoredVersion

structure IsNewest (history : List StoredVersion) (r : StoredVersion) : Prop where
  member : r ∈ history
  latest : ∀ other ∈ history, other.createdAt.micros ≤ r.createdAt.micros

/-- A row that an insertion makes: nothing else has its identifier, and it is later than the rows of
its owner and namespace. -/
structure IsNew (rows : List StoredVersion) (given : List String) (values : List Binding)
    (r : StoredVersion) : Prop where
  bound : given.length = values.length
  gets : ∀ column ∈ ["id", "server_id", "server_component_id", "namespace", "data", "tally"],
    r.Gets (given.zip values) column
  fresh : ∀ other ∈ rows, other.id ≠ r.id
  later : ∀ other ∈ historyOf r.owner r.scope rows, other.createdAt.micros < r.createdAt.micros

/-- Answers to operations that neither lock nor commit, over the rows that a transaction sees, with
what they change. -/
inductive Answers (rows : List StoredVersion) :
    Operation → List Binding → Reply → List Change → Prop
  | begin : Answers rows .begin [] (.affected 0) []
  | newest {keys shown : List String} {values : List Binding} {r : StoredVersion} {row : Row}
    (member : r ∈ rows) (meets : r.Meets keys values)
    (latest : ∀ other ∈ rows, other.Meets keys values →
      other.createdAt.micros ≤ r.createdAt.micros) (fills : r.Fills shown row) :
    Answers rows (.select "versioned_attributes" keys (some "created_at") shown) values
      (.rows [row]) []
  | none {keys shown : List String} {values : List Binding}
    (absent : ∀ r ∈ rows, ¬ r.Meets keys values) :
    Answers rows (.select "versioned_attributes" keys (some "created_at") shown) values
      (.rows []) []
  | raise {keys shown : List String} {values : List Binding} {raised : List StoredVersion}
    {sent : List Row} (distinct : raised.Nodup)
    (all : ∀ r, r ∈ raised ↔ r ∈ rows ∧ r.Meets keys values)
    (fills : List.Forall₂ (fun r row => r.raise.Fills shown row) raised sent) :
    Answers rows (.increment "versioned_attributes" "tally" keys shown) values (.rows sent)
      (raised.map fun r => .raise r.id)
  | add {given shown : List String} {values : List Binding} {r : StoredVersion} {row : Row}
    (new : IsNew rows given values r) (fills : r.Fills shown row) :
    Answers rows (.insert "versioned_attributes" given [] shown) values (.rows [row]) [.add r]

/-- A report under way: what is left of its program, the changes of its transaction, and the lock
that it holds. -/
structure Session where
  program : StoreProgram VersionedAttribute
  changes : List Change
  lock : Option String

/-- A program that failed has lost its transaction. -/
def Session.settle (s : Session) : Session :=
  match s.program with
  | .failed _ => ⟨s.program, [], none⟩
  | _ => s

structure World (ι : Type) where
  table : Table
  sessions : ι → Session

structure Event (ι : Type) where
  call : ι
  statement : Statement
  reply : Reply

section Steps

variable {ι : Type} [DecidableEq ι]

namespace World

def start (reports : ι → Report) (table : Table) : World ι :=
  ⟨table, fun i => ⟨appendVersion (reports i).owner (reports i).input, [], none⟩⟩

def view (w : World ι) (i : ι) : List StoredVersion :=
  (w.sessions i).changes.foldl (fun rows change => change.apply rows) w.table.rows

def put (w : World ι) (i : ι) (s : Session) : World ι :=
  { w with sessions := Function.update w.sessions i s.settle }

end World

/-- One statement of one report: its text is answered, or gets the lock of the bound text, or
commits, or fails. -/
inductive Step (w : World ι) : Event ι → World ι → Prop
  | answered {i : ι} {s : Statement} {next : Reply → StoreProgram VersionedAttribute}
    {operation : Operation} {values : List Binding} {reply : Reply} {changes : List Change}
    (asks : (w.sessions i).program = .ask s next) (wrote : s.Says operation values)
    (answers : Answers (w.view i) operation values reply changes) :
    Step w ⟨i, s, reply⟩
      (w.put i ⟨next reply, (w.sessions i).changes ++ changes, (w.sessions i).lock⟩)
  | locked {i : ι} {s : Statement} {next : Reply → StoreProgram VersionedAttribute}
    {lock : String} {reply : Reply} (asks : (w.sessions i).program = .ask s next)
    (wrote : s.Says .lock [.text lock]) (free : ∀ j ≠ i, (w.sessions j).lock ≠ some lock)
    (granted : reply.succeeded = true) :
    Step w ⟨i, s, reply⟩ (w.put i ⟨next reply, (w.sessions i).changes, some lock⟩)
  | committed {i : ι} {s : Statement} {next : Reply → StoreProgram VersionedAttribute}
    {table : Table} (asks : (w.sessions i).program = .ask s next) (wrote : s.Says .commit [])
    (kept : table.rows = w.view i) :
    Step w ⟨i, s, .affected 0⟩ (World.put { w with table } i ⟨next (.affected 0), [], none⟩)
  | failed {i : ι} {s : Statement} {next : Reply → StoreProgram VersionedAttribute}
    (state text : String) (asks : (w.sessions i).program = .ask s next) :
    Step w ⟨i, s, .failed state text⟩ (w.put i ⟨next (.failed state text), [], none⟩)

inductive Reaches (start : World ι) : List (Event ι) → World ι → Prop
  | nil : Reaches start [] start
  | snoc {events : List (Event ι)} {e : Event ι} {w w' : World ι} (run : Reaches start events w)
    (step : Step w e w') : Reaches start (events ++ [e]) w'

theorem sessions_of_step {w w' : World ι} {e : Event ι} (step : Step w e w') {j : ι}
    (other : e.call ≠ j) : w'.sessions j = w.sessions j := by
  cases step <;> exact Function.update_of_ne other.symm _ _

end Steps

namespace Event

variable {ι : Type} [DecidableEq ι]

def succeeded (e : Event ι) : Bool := e.reply.succeeded

def locks (e : Event ι) : Bool :=
  decide (Operation.parse? e.statement.sql = some .lock) && e.succeeded

def commits (i : ι) (e : Event ι) : Bool :=
  decide (Operation.parse? e.statement.sql = some .commit) && e.call = i && e.succeeded

end Event

section Order

variable {ι : Type} [DecidableEq ι]

def Report.isOf (owner : AttributeOwner) (scope : String) (report : Report) : Bool :=
  report.owner = owner && report.input.scope = scope

/-- The reports of an owner and namespace that got their lock, in this order. -/
def lockOrder (reports : ι → Report) (owner : AttributeOwner) (scope : String)
    (events : List (Event ι)) : List ι :=
  ((events.filter (·.locks)).map (·.call)).filter fun i => (reports i).isOf owner scope

def isCommitted (events : List (Event ι)) (i : ι) : Bool := events.any (·.commits i)

/-- The documents of the committed reports of an owner and namespace, in the order of the lock. -/
def committedDocs (reports : ι → Report) (owner : AttributeOwner) (scope : String)
    (events : List (Event ι)) : List Document :=
  ((lockOrder reports owner scope events).filter (isCommitted events)).map fun i =>
    (reports i).input.data

end Order
end Store
end FleetInventory
