import FleetInventory.Proofs.Store.Answering
import FleetInventory.Proofs.Store.Running

/-!
The stages of a report: it begins, gets the lock, looks for the newest version, raises its tally or
adds a version, and commits. From the lock to the commit it comes last in the order of the lock, and
what it has seen of its history still holds.
-/
namespace FleetInventory.Store

open Sql (Operation)

section Asking

variable {α β : Type} (read : Row → Option α) (s : Statement)

theorem exists_ask_fetchOptional (k : Option α → StoreProgram β) :
    ∃ next, fetchOptional read s >>= k = .ask s next ∧ next (.rows []) = k none ∧
      (∀ row a, read row = some a → next (.rows [row]) = k (some a)) ∧
      ∀ state text, next (.failed state text) = .failed (.rejected state text) := by
  refine ⟨_, rfl, rfl, fun row a shown => ?_, fun state text => rfl⟩
  change ((readRow read row).bind fun a => .done (some a)).bind k = k (some a)
  rw [readRow, shown]
  rfl

theorem exists_ask_fetchOne (k : α → StoreProgram β) :
    ∃ next, fetchOne read s >>= k = .ask s next ∧ next (.rows []) = .failed .rowMissing ∧
      (∀ row a, read row = some a → next (.rows [row]) = k a) ∧
      ∀ state text, next (.failed state text) = .failed (.rejected state text) := by
  have parts : fetchOne read s = fetchOptional read s >>= fun found =>
      found.elim (Program.failed StoreFault.rowMissing) Program.done := by
    unfold fetchOne
    congr 1
    funext found
    cases found <;> rfl
  obtain ⟨next, asks, none, some, failed⟩ := exists_ask_fetchOptional read s fun found =>
    found.elim (Program.failed StoreFault.rowMissing) Program.done >>= k
  refine ⟨next, ?_, none, some, failed⟩
  rw [← asks, parts, bind_assoc]

end Asking

namespace Report

variable (report : Report)

def lockText : String := Statement.lockText report.owner report.input.scope

abbrev history (rows : List StoredVersion) : List StoredVersion :=
  historyOf report.owner report.input.scope rows

def closing (v : VersionedAttribute) : StoreProgram VersionedAttribute := do
  perform .commit
  return v

def raising (version : Uuid) : StoreProgram VersionedAttribute :=
  fetchOne VersionedAttribute.ofRow? (.raiseTally version) >>= closing

def adding : StoreProgram VersionedAttribute :=
  fetchOne VersionedAttribute.ofRow? (.addVersion report.owner report.input) >>= closing

def writing (newest : Option VersionedAttribute) : StoreProgram VersionedAttribute :=
  match newest.filter (·.data.same report.input.data) with
  | some version => raising version.id
  | none => report.adding

def looking : StoreProgram VersionedAttribute :=
  fetchOptional VersionedAttribute.ofRow? (.newestVersion report.owner report.input.scope)
    >>= report.writing

def locking : StoreProgram VersionedAttribute :=
  perform (.lockVersions report.owner report.input.scope) >>= fun _ => report.looking

theorem appendVersion_eq :
    appendVersion report.owner report.input = perform .begin >>= fun _ => report.locking := by
  unfold appendVersion transaction recordVersion
  simp only [bind_assoc]
  congr 1
  funext _
  unfold locking looking
  congr 1
  funext _
  congr 1
  funext newest
  unfold writing
  cases newest.filter (·.data.same report.input.data) <;> rfl

end Report

def Event.locksOf {ι : Type} (reports : ι → Report) (owner : AttributeOwner) (scope : String)
    (e : Event ι) : Bool :=
  e.locks && (reports e.call).isOf owner scope

theorem lockOrder_snoc {ι : Type} {reports : ι → Report} {events : List (Event ι)} {e : Event ι}
    (owner : AttributeOwner) (scope : String) :
    lockOrder reports owner scope (events ++ [e]) = lockOrder reports owner scope events
      ++ if e.locksOf reports owner scope then [e.call] else [] := by
  cases locks : e.locks <;> simp [lockOrder, Event.locksOf, locks, List.filter_cons]

theorem mem_lockOrder {ι : Type} {reports : ι → Report} {events : List (Event ι)} {i : ι}
    {owner : AttributeOwner} {scope : String} (member : i ∈ lockOrder reports owner scope events) :
    (reports i).owner = owner ∧ (reports i).input.scope = scope := by
  simpa [Report.isOf] using (List.mem_filter.mp member).2

section Events

variable {ι : Type} [DecidableEq ι] {reports : ι → Report} {events : List (Event ι)} {e : Event ι}
  {i : ι}

theorem isCommitted_snoc :
    isCommitted (events ++ [e]) i = (isCommitted events i || e.commits i) := by
  simp [isCommitted]

theorem Event.commits_of_ne (other : e.call ≠ i) : e.commits i = false := by
  simp [Event.commits, other]

structure Event.IsPlain (e : Event ι) : Prop where
  unlocking : e.locks = false
  pending : ∀ i, e.commits i = false

theorem Event.IsPlain.of_operation {asked : Statement} {operation : Operation}
    {values : List Binding} (statement : e.statement = asked) (wrote : asked.Says operation values)
    (lock : operation ≠ .lock) (commit : operation ≠ .commit) : e.IsPlain where
  unlocking := by simp [Event.locks, statement, wrote.reads, lock]
  pending i := by simp [Event.commits, statement, wrote.reads, commit]

structure Waiting (i : ι) (events : List (Event ι)) : Prop where
  unlocked : ∀ e ∈ events, e.locks = true → e.call ≠ i
  pending : isCommitted events i = false

/-- The report got its lock last of all of its owner and namespace. -/
structure Holding (reports : ι → Report) (i : ι) (events : List (Event ι)) : Prop where
  last : ∃ before, lockOrder reports (reports i).owner (reports i).input.scope events
    = before ++ [i] ∧ i ∉ before
  pending : isCommitted events i = false

theorem Waiting.snoc (waiting : Waiting i events) (locks : e.locks = true → e.call ≠ i)
    (commits : e.commits i = false) : Waiting i (events ++ [e]) where
  unlocked other member locked := by
    rcases List.mem_append.mp member with earlier | last
    · exact waiting.unlocked other earlier locked
    · obtain rfl := List.mem_singleton.mp last
      exact locks locked
  pending := by rw [isCommitted_snoc, waiting.pending, commits]; rfl

theorem Waiting.lock (waiting : Waiting e.call events) (locks : e.locks = true)
    (commits : e.commits e.call = false) : Holding reports e.call (events ++ [e]) where
  last := by
    refine ⟨lockOrder reports (reports e.call).owner (reports e.call).input.scope events, ?_, ?_⟩
    · simp [lockOrder_snoc, Event.locksOf, locks, Report.isOf]
    · intro member
      obtain ⟨other, earlier, same⟩ := List.mem_map.mp (List.mem_filter.mp member).1
      obtain ⟨kept, locked⟩ := List.mem_filter.mp earlier
      exact waiting.unlocked other kept locked same
  pending := by rw [isCommitted_snoc, waiting.pending, commits]; rfl

theorem Holding.snoc (holding : Holding reports i events)
    (locks : e.locksOf reports (reports i).owner (reports i).input.scope = false)
    (commits : e.commits i = false) : Holding reports i (events ++ [e]) where
  last := by
    obtain ⟨before, last, new⟩ := holding.last
    exact ⟨before, by rw [lockOrder_snoc, locks, last]; simp, new⟩
  pending := by rw [isCommitted_snoc, holding.pending, commits]; rfl

theorem Holding.plain (holding : Holding reports i events) (plain : e.IsPlain) :
    Holding reports i (events ++ [e]) :=
  holding.snoc (by simp [Event.locksOf, plain.unlocking]) (plain.pending i)

theorem Holding.unique {j : ι} (holding : Holding reports i events)
    (holds : Holding reports j events) (owner : (reports i).owner = (reports j).owner)
    (scope : (reports i).input.scope = (reports j).input.scope) : i = j := by
  obtain ⟨before, last, -⟩ := holding.last
  obtain ⟨before', last', -⟩ := holds.last
  rw [← owner, ← scope, last] at last'
  exact (List.append_inj_right' last' rfl |> List.cons.inj).1

end Events

def Differs (report : Report) (newest : Option VersionedAttribute) : Prop :=
  ∀ shown, newest = some shown → shown.data.same report.input.data = false

/-- What a report has written, and what it was told of it: the newest version with its tally raised,
if it has the same document, and else a version of its own. -/
inductive Wrote (report : Report) (history : List StoredVersion) :
    VersionedAttribute → Change → Prop
  | raised {shown v : VersionedAttribute} {r : StoredVersion} (newest : IsNewest history r)
    (copy : Copies shown r.toVersionedAttribute)
    (same : shown.data.same report.input.data = true)
    (told : Copies v r.raise.toVersionedAttribute) : Wrote report history v (.raise r.id)
  | added {newest : Option VersionedAttribute} {v : VersionedAttribute} {r : StoredVersion}
    (found : Found history newest) (differs : Differs report newest)
    (owner : r.owner = report.owner) (scope : r.scope = report.input.scope)
    (data : r.data = report.input.data) (tally : r.tally = 0)
    (later : ∀ other ∈ history, other.createdAt.micros < r.createdAt.micros)
    (told : Copies v r.toVersionedAttribute) : Wrote report history v (.add r)

theorem Report.writing_cases (report : Report) (newest : Option VersionedAttribute) :
    (∃ shown, newest = some shown ∧ shown.data.same report.input.data = true ∧
        report.writing newest = raising shown.id) ∨
      Differs report newest ∧ report.writing newest = report.adding := by
  cases newest with
  | none => exact .inr ⟨nofun, rfl⟩
  | some shown =>
    cases same : shown.data.same report.input.data with
    | true => exact .inl ⟨shown, rfl, same, by simp [writing, Option.filter, same]⟩
    | false =>
      refine .inr ⟨fun other found => ?_, by simp [writing, Option.filter, same]⟩
      cases found
      exact same

section Phases

variable {ι : Type} [DecidableEq ι]

inductive Phase (reports : ι → Report) (i : ι) (events : List (Event ι))
    (history : List StoredVersion) : Session → Prop
  | idle (waiting : Waiting i events) :
    Phase reports i events history ⟨appendVersion (reports i).owner (reports i).input, [], none⟩
  | begun (waiting : Waiting i events) :
    Phase reports i events history ⟨(reports i).locking, [], none⟩
  | locked (holding : Holding reports i events) :
    Phase reports i events history ⟨(reports i).looking, [], some (reports i).lockText⟩
  | raising {shown : VersionedAttribute} {r : StoredVersion} (holding : Holding reports i events)
    (newest : IsNewest history r) (copy : Copies shown r.toVersionedAttribute)
    (same : shown.data.same (reports i).input.data = true) :
    Phase reports i events history ⟨Report.raising shown.id, [], some (reports i).lockText⟩
  | adding {newest : Option VersionedAttribute} (holding : Holding reports i events)
    (found : Found history newest) (differs : Differs (reports i) newest) :
    Phase reports i events history ⟨(reports i).adding, [], some (reports i).lockText⟩
  | written {v : VersionedAttribute} {change : Change} (holding : Holding reports i events)
    (wrote : Wrote (reports i) history v change) :
    Phase reports i events history ⟨Report.closing v, [change], some (reports i).lockText⟩
  | done (v : VersionedAttribute) : Phase reports i events history ⟨.done v, [], none⟩
  | failed (fault : StoreFault) : Phase reports i events history ⟨.failed fault, [], none⟩

variable {reports : ι → Report} {i : ι} {events : List (Event ι)} {e : Event ι}
  {history after : List StoredVersion} {s : Session} {w w' : World ι}

theorem Phase.holding (phase : Phase reports i events history s) {lock : String}
    (holds : s.lock = some lock) : Holding reports i events ∧ lock = (reports i).lockText := by
  cases phase with
  | locked holding | raising holding | adding holding | written holding =>
    exact ⟨holding, (Option.some.inj holds).symm⟩
  | _ => cases holds

/-- The step of another report keeps the phase, if it leaves the lock and the history alone. -/
theorem Phase.other (phase : Phase reports i events history s) (other : e.call ≠ i)
    (apart : s.lock = some (reports i).lockText →
      e.locksOf reports (reports i).owner (reports i).input.scope = false ∧ after = history) :
    Phase reports i (events ++ [e]) after s := by
  have commits := Event.commits_of_ne other
  cases phase with
  | idle waiting => exact .idle (waiting.snoc (fun _ => other) commits)
  | begun waiting => exact .begun (waiting.snoc (fun _ => other) commits)
  | locked holding => exact .locked (holding.snoc (apart rfl).1 commits)
  | raising holding newest copy same =>
    obtain ⟨locks, rfl⟩ := apart rfl
    exact .raising (holding.snoc locks commits) newest copy same
  | adding holding found differs =>
    obtain ⟨locks, rfl⟩ := apart rfl
    exact .adding (holding.snoc locks commits) found differs
  | written holding wrote =>
    obtain ⟨locks, rfl⟩ := apart rfl
    exact .written (holding.snoc locks commits) wrote
  | done v => exact .done v
  | failed fault => exact .failed fault

theorem World.sessions_put (w : World ι) (i : ι) (s : Session) :
    (w.put i s).sessions i = s.settle :=
  Function.update_self ..

omit [DecidableEq ι] in
theorem World.view_eq {i : ι} {program : StoreProgram VersionedAttribute} {changes : List Change}
    {lock : Option String} (same : w.sessions i = ⟨program, changes, lock⟩) :
    w.view i = changes.foldl (fun rows change => change.apply rows) w.table.rows := by
  rw [view, same]

theorem Step.exists_ask (step : Step w e w') :
    ∃ s next, (w.sessions e.call).program = .ask s next := by
  cases step with
  | answered asks | locked asks | committed asks | failed _ _ asks => exact ⟨_, _, asks⟩

omit [DecidableEq ι] in
theorem World.ask_unique {asked other : Statement}
    {next later : Reply → StoreProgram VersionedAttribute} {changes : List Change}
    {lock : Option String} (asks : w.sessions i = ⟨.ask asked next, changes, lock⟩)
    (again : (w.sessions i).program = .ask other later) : asked = other ∧ next = later := by
  rw [asks] at again
  exact Program.ask.inj again

/-- A step of the report that asks: its statement fails, is answered, locks, or commits. -/
theorem Step.inv {asked : Statement} {next : Reply → StoreProgram VersionedAttribute}
    {changes : List Change} {lock : Option String} {operation : Operation} {values : List Binding}
    (step : Step w e w') (asks : w.sessions e.call = ⟨.ask asked next, changes, lock⟩)
    (wrote : asked.Says operation values) :
    e.statement = asked ∧
      ((∃ state text, e.reply = .failed state text ∧ w'.table = w.table ∧
          w'.sessions e.call = Session.settle ⟨next (.failed state text), [], none⟩) ∨
        (∃ more, Answers (w.view e.call) operation values e.reply more ∧ w'.table = w.table ∧
          w'.sessions e.call = Session.settle ⟨next e.reply, changes ++ more, lock⟩) ∨
        (∃ text, operation = .lock ∧ values = [.text text] ∧ e.reply.succeeded = true ∧
          w'.table = w.table ∧
          w'.sessions e.call = Session.settle ⟨next e.reply, changes, some text⟩) ∨
        (operation = .commit ∧ e.reply = .affected 0 ∧ w'.table.rows = w.view e.call ∧
          w'.sessions e.call = Session.settle ⟨next (.affected 0), [], none⟩)) := by
  cases step with
  | answered asked told answers =>
    obtain ⟨rfl, rfl⟩ := World.ask_unique asks asked
    obtain ⟨rfl, rfl⟩ := wrote.unique told
    refine ⟨rfl, .inr (.inl ⟨_, answers, rfl, ?_⟩)⟩
    rw [World.sessions_put, asks]
  | locked asked told free granted =>
    obtain ⟨rfl, rfl⟩ := World.ask_unique asks asked
    obtain ⟨rfl, rfl⟩ := wrote.unique told
    refine ⟨rfl, .inr (.inr (.inl ⟨_, rfl, rfl, granted, rfl, ?_⟩))⟩
    rw [World.sessions_put, asks]
  | committed asked told kept =>
    obtain ⟨rfl, rfl⟩ := World.ask_unique asks asked
    obtain ⟨rfl, rfl⟩ := wrote.unique told
    exact ⟨rfl, .inr (.inr (.inr ⟨rfl, rfl, kept, World.sessions_put ..⟩))⟩
  | failed state text asked =>
    obtain ⟨rfl, rfl⟩ := World.ask_unique asks asked
    exact ⟨rfl, .inl ⟨state, text, rfl, rfl, World.sessions_put ..⟩⟩

/-- What the step of a report does: it leaves the table alone and the report unfinished, or keeps
what the report has written and finishes it. A step that locks gets the lock of the report. -/
inductive Outcome (reports : ι → Report) (events : List (Event ι)) (w : World ι) (e : Event ι)
    (w' : World ι) : Prop
  | open (table : w'.table = w.table) (pending : e.commits e.call = false)
    (locks : e.locks = true → (w'.sessions e.call).lock = some (reports e.call).lockText)
    (unfinished : ∀ v, (w'.sessions e.call).program ≠ .done v)
  | kept {v : VersionedAttribute} {change : Change} (holding : Holding reports e.call events)
    (wrote : Wrote (reports e.call) ((reports e.call).history w.table.rows) v change)
    (rows : w'.table.rows = change.apply w.table.rows) (unlocking : e.locks = false)
    (commits : ∀ i, e.commits i = decide (e.call = i))
    (finished : (w'.sessions e.call).program = .done v)

theorem Outcome.plain {asked : Statement} {next : Reply → StoreProgram VersionedAttribute}
    {changes : List Change} {lock : Option String} (table : w'.table = w.table)
    (session : w'.sessions e.call = ⟨.ask asked next, changes, lock⟩) (plain : e.IsPlain) :
    Outcome reports events w e w' :=
  .open table (plain.pending _) (by simp [plain.unlocking]) (by rw [session]; exact nofun)

abbrev Advances (reports : ι → Report) (events : List (Event ι)) (w : World ι) (e : Event ι)
    (w' : World ι) : Prop :=
  Phase reports e.call (events ++ [e]) ((reports e.call).history w'.table.rows)
      (w'.sessions e.call) ∧
    Outcome reports events w e w'

theorem advances_failed {state text : String} {fault : StoreFault}
    (reply : e.reply = .failed state text) (table : w'.table = w.table)
    (session : w'.sessions e.call = ⟨.failed fault, [], none⟩) :
    Advances reports events w e w' := by
  have failed : e.succeeded = false := by simp [Event.succeeded, reply, Reply.succeeded]
  exact ⟨session ▸ .failed fault, .open table (by simp [Event.commits, failed])
    (by simp [Event.locks, failed]) (by rw [session]; exact nofun)⟩

section Own

variable (step : Step w e w')

include step

theorem Step.plain {asked : Statement} {next : Reply → StoreProgram VersionedAttribute}
    {changes : List Change} {lock : Option String} {operation : Operation} {values : List Binding}
    (asks : w.sessions e.call = ⟨.ask asked next, changes, lock⟩)
    (wrote : asked.Says operation values)
    (failed : ∀ state text, next (.failed state text) = .failed (.rejected state text))
    (locks : operation ≠ .lock) (commit : operation ≠ .commit) :
    Advances reports events w e w' ∨ e.IsPlain ∧ ∃ more,
      Answers (changes.foldl (fun rows change => change.apply rows) w.table.rows) operation values
        e.reply more ∧ w'.table = w.table ∧
      w'.sessions e.call = Session.settle ⟨next e.reply, changes ++ more, lock⟩ := by
  obtain ⟨statement, ⟨state, text, reply, table, session⟩ | ⟨more, answers, table, session⟩ |
    ⟨text, same, -⟩ | ⟨same, -⟩⟩ := step.inv asks wrote
  · rw [failed] at session
    exact .inl (advances_failed reply table session)
  · rw [World.view_eq asks] at answers
    exact .inr ⟨.of_operation statement wrote locks commit, more, answers, table, session⟩
  · exact absurd same locks
  · exact absurd same commit

theorem advances_idle (waiting : Waiting e.call events) (same : w.sessions e.call
      = ⟨appendVersion (reports e.call).owner (reports e.call).input, [], none⟩) :
    Advances reports events w e w' := by
  rw [(reports e.call).appendVersion_eq] at same
  rcases step.plain same (Statement.says_of_operation rfl) (fun _ _ => rfl) nofun nofun with
    failed | ⟨plain, more, answers, table, session⟩
  · exact failed
  generalize e.reply = reply at answers session
  cases answers
  have waiting' : Waiting e.call (events ++ [e]) :=
    waiting.snoc (by simp [plain.unlocking]) (plain.pending _)
  exact ⟨session ▸ table ▸ .begun waiting', .plain table session plain⟩

theorem advances_begun (waiting : Waiting e.call events)
    (same : w.sessions e.call = ⟨(reports e.call).locking, [], none⟩) :
    Advances reports events w e w' := by
  have wrote : (Statement.lockVersions (reports e.call).owner (reports e.call).input.scope).Says
      .lock [.text (reports e.call).lockText] := Statement.says_of_operation rfl
  obtain ⟨statement, ⟨state, text, reply, table, session⟩ | ⟨more, answers, -⟩ |
    ⟨text, -, bound, granted, table, session⟩ | ⟨asked, -⟩⟩ := step.inv same wrote
  · exact advances_failed reply table session
  · cases answers
  · cases bound
    have pending : e.commits e.call = false := by
      simp [Event.commits, statement, wrote.reads]
    have locks : e.locks = true := by
      simp [Event.locks, statement, wrote.reads, Event.succeeded, granted]
    have session : w'.sessions e.call
        = ⟨(reports e.call).looking, [], some (reports e.call).lockText⟩ := by
      rw [session]
      cases reply : e.reply with
      | failed => simp [reply, Reply.succeeded] at granted
      | _ => rfl
    exact ⟨session ▸ .locked (waiting.lock locks pending), .open table pending
      (fun _ => by rw [session]) (by rw [session]; exact nofun)⟩
  · cases asked

theorem advances_locked (holding : Holding reports e.call events)
    (same : w.sessions e.call
      = ⟨(reports e.call).looking, [], some (reports e.call).lockText⟩) :
    Advances reports events w e w' := by
  obtain ⟨next, asks, absent, present, failed⟩ :=
    exists_ask_fetchOptional VersionedAttribute.ofRow?
      (.newestVersion (reports e.call).owner (reports e.call).input.scope) (reports e.call).writing
  rw [Report.looking, asks] at same
  rcases step.plain same (Statement.says_of_operation rfl) failed nofun nofun with
    failed | ⟨plain, more, answers, table, session⟩
  · exact failed
  -- whatever was found, the next statement depends on its document
  have found : ∃ newest, Found ((reports e.call).history w'.table.rows) newest ∧ more = [] ∧
      next e.reply = (reports e.call).writing newest := by
    rw [table]
    obtain ⟨rfl, ⟨reply, empty⟩ | ⟨row, v, reply, read, found⟩⟩ := answers.newest_inv
    · exact ⟨none, empty, rfl, by rw [reply, absent]⟩
    · exact ⟨some v, found, rfl, by rw [reply, present _ _ read]⟩
  obtain ⟨newest, found, rfl, writes⟩ := found
  rw [writes] at session
  rcases (reports e.call).writing_cases newest with ⟨shown, rfl, alike, stage⟩ | ⟨differs, stage⟩
  · obtain ⟨r, newest, copy⟩ := found
    rw [stage] at session
    exact ⟨session ▸ .raising (holding.plain plain) newest copy alike, .plain table session plain⟩
  · rw [stage] at session
    exact ⟨session ▸ .adding (holding.plain plain) found differs, .plain table session plain⟩

theorem advances_raising {shown : VersionedAttribute} {r : StoredVersion}
    (holding : Holding reports e.call events)
    (newest : IsNewest ((reports e.call).history w.table.rows) r)
    (copy : Copies shown r.toVersionedAttribute)
    (alike : shown.data.same (reports e.call).input.data = true)
    (same : w.sessions e.call
      = ⟨Report.raising shown.id, [], some (reports e.call).lockText⟩) :
    Advances reports events w e w' := by
  obtain ⟨next, asks, absent, present, failed⟩ :=
    exists_ask_fetchOne VersionedAttribute.ofRow? (.raiseTally shown.id) Report.closing
  rw [Report.raising, asks] at same
  rcases step.plain same (Statement.says_of_operation rfl) failed nofun nofun with
    failed | ⟨plain, more, answers, table, session⟩
  · exact failed
  have kept : r ∈ w.table.rows := List.mem_of_mem_filter newest.member
  change Answers w.table.rows _ [.uuid shown.id] _ _ at answers
  rw [copy.id] at answers
  obtain ⟨rfl, row, v, reply, read, told⟩ := answers.raise_inv w.table.distinct kept
  rw [reply, present _ _ read] at session
  have wrote := Wrote.raised newest copy alike told
  exact ⟨session ▸ table ▸ .written (holding.plain plain) wrote, .plain table session plain⟩

theorem advances_adding {newest : Option VersionedAttribute}
    (holding : Holding reports e.call events)
    (found : Found ((reports e.call).history w.table.rows) newest)
    (differs : Differs (reports e.call) newest)
    (same : w.sessions e.call
      = ⟨(reports e.call).adding, [], some (reports e.call).lockText⟩) :
    Advances reports events w e w' := by
  obtain ⟨next, asks, absent, present, failed⟩ :=
    exists_ask_fetchOne VersionedAttribute.ofRow?
      (.addVersion (reports e.call).owner (reports e.call).input) Report.closing
  rw [Report.adding, asks] at same
  rcases step.plain same (Statement.says_of_operation rfl) failed nofun nofun with
    failed | ⟨plain, more, answers, table, session⟩
  · exact failed
  obtain ⟨r, row, v, rfl, reply, read, told, owner, scope, data, tally, later⟩ := answers.add_inv
  rw [reply, present _ _ read] at session
  have wrote := Wrote.added found differs owner scope data tally later told
  exact ⟨session ▸ table ▸ .written (holding.plain plain) wrote, .plain table session plain⟩

theorem advances_written {v : VersionedAttribute} {change : Change}
    (holding : Holding reports e.call events)
    (wrote : Wrote (reports e.call) ((reports e.call).history w.table.rows) v change)
    (same : w.sessions e.call
      = ⟨Report.closing v, [change], some (reports e.call).lockText⟩) :
    Advances reports events w e w' := by
  have told : Statement.commit.Says .commit [] := Statement.says_of_operation rfl
  obtain ⟨statement, ⟨state, text, reply, table, session⟩ | ⟨more, answers, -⟩ |
    ⟨text, asked, -⟩ | ⟨-, reply, rows, session⟩⟩ := step.inv same told
  · exact advances_failed reply table session
  · cases answers
  · cases asked
  · rw [World.view_eq same] at rows
    refine ⟨session ▸ .done v, .kept holding wrote rows ?_ (fun i => ?_) (by rw [session]; rfl)⟩
    · simp [Event.locks, statement, told.reads]
    · simp [Event.commits, statement, told.reads, Event.succeeded, reply, Reply.succeeded]

end Own

theorem Phase.advances (phase : Phase reports e.call events
      ((reports e.call).history w.table.rows) (w.sessions e.call)) (step : Step w e w') :
    Advances reports events w e w' := by
  generalize same : w.sessions e.call = s at phase
  cases phase with
  | idle waiting => exact advances_idle step waiting same
  | begun waiting => exact advances_begun step waiting same
  | locked holding => exact advances_locked step holding same
  | raising holding newest copy alike => exact advances_raising step holding newest copy alike same
  | adding holding found differs => exact advances_adding step holding found differs same
  | written holding wrote => exact advances_written step holding wrote same
  | done v =>
    obtain ⟨s, next, asks⟩ := step.exists_ask
    rw [same] at asks
    cases asks
  | failed fault =>
    obtain ⟨s, next, asks⟩ := step.exists_ask
    rw [same] at asks
    cases asks

end Phases
end FleetInventory.Store
