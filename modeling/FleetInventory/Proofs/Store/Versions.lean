import FleetInventory.Proofs.Store.Completing
import FleetInventory.Proofs.Store.History

/-!
Reports at the same time. Each step of a report keeps what all the others have seen, so the history
of every owner and namespace that began empty is told by its committed reports in the order of the
lock, each report is told of the newest version, and no report touches the history of another owner
or namespace.
-/
namespace FleetInventory.Store

section Docs

variable {ι : Type} [DecidableEq ι] {reports : ι → Report} {events : List (Event ι)} {e : Event ι}
  {owner : AttributeOwner} {scope : String}

theorem committedDocs_of_open (pending : ∀ i, e.commits i = false)
    (fresh : isCommitted events e.call = false) :
    committedDocs reports owner scope (events ++ [e])
      = committedDocs reports owner scope events := by
  have committed : isCommitted (events ++ [e]) = isCommitted events := by
    funext i
    rw [isCommitted_snoc, pending, Bool.or_false]
  rw [committedDocs, committed, lockOrder_snoc, List.filter_append]
  split <;> simp [committedDocs, fresh]

variable (unlocking : e.locks = false) (commits : ∀ i, e.commits i = decide (e.call = i))

include unlocking in
omit [DecidableEq ι] in
theorem lockOrder_of_commit :
    lockOrder reports owner scope (events ++ [e]) = lockOrder reports owner scope events := by
  simp [lockOrder_snoc, Event.locksOf, unlocking]

include commits in
theorem isCommitted_of_commit (i : ι) :
    isCommitted (events ++ [e]) i = (isCommitted events i || decide (e.call = i)) := by
  rw [isCommitted_snoc, commits]

include unlocking commits

theorem committedDocs_of_absent (absent : e.call ∉ lockOrder reports owner scope events) :
    committedDocs reports owner scope (events ++ [e])
      = committedDocs reports owner scope events := by
  rw [committedDocs, lockOrder_of_commit unlocking, committedDocs]
  congr 1
  refine List.filter_congr fun i member => ?_
  have other : e.call ≠ i := fun same => absent (same ▸ member)
  simp [isCommitted_of_commit commits, other]

/-- A commit adds the document of its report, which got the lock last. -/
theorem committedDocs_of_holding (holding : Holding reports e.call events) :
    committedDocs reports (reports e.call).owner (reports e.call).input.scope (events ++ [e])
      = committedDocs reports (reports e.call).owner (reports e.call).input.scope events
        ++ [(reports e.call).input.data] := by
  obtain ⟨before, last, absent⟩ := holding.last
  have kept : before.filter (isCommitted (events ++ [e])) = before.filter (isCommitted events) := by
    refine List.filter_congr fun i member => ?_
    have other : e.call ≠ i := fun same => absent (same ▸ member)
    simp [isCommitted_of_commit commits, other]
  rw [committedDocs, lockOrder_of_commit unlocking, committedDocs, last, List.filter_append,
    List.filter_append, kept]
  simp [isCommitted_of_commit commits, holding.pending]

end Docs

section Invariant

variable {ι : Type} [DecidableEq ι] {reports : ι → Report} {table : Table}
  {events : List (Event ι)} {e : Event ι} {w w' : World ι} {i : ι}

theorem Session.lock_of_settle {s : Session} {lock : String} (settled : s.settle.lock = some lock) :
    s.lock = some lock := by
  unfold Session.settle at settled
  split at settled
  · cases settled
  · exact settled

theorem Step.locks_of_held (step : Step w e w') (other : e.call ≠ i) {lock : String}
    (held : (w.sessions i).lock = some lock)
    (got : e.locks = true → (w'.sessions e.call).lock = some lock) : e.locks = false := by
  rw [Bool.eq_false_iff]
  intro locks
  have asked := (Bool.and_eq_true_iff.mp locks).1
  rw [decide_eq_true_iff] at asked
  cases step with
  | answered asks wrote answers =>
    rw [wrote.reads] at asked
    cases asked
    cases answers
  | locked asks wrote free granted =>
    have settled := got locks
    rw [World.sessions_put] at settled
    exact free i other.symm (held.trans (Session.lock_of_settle settled).symm)
  | committed asks wrote kept =>
    rw [wrote.reads] at asked
    cases asked
  | failed state text asks => simp [Event.locks, Event.succeeded, Reply.succeeded] at locks

theorem Phase.pending {history : List StoredVersion} {s : Session}
    (phase : Phase reports i events history s) {asked : Statement}
    {next : Reply → StoreProgram VersionedAttribute} (asks : s.program = .ask asked next) :
    isCommitted events i = false := by
  cases phase with
  | idle waiting | begun waiting => exact waiting.pending
  | locked holding | raising holding | adding holding | written holding => exact holding.pending
  | done v => cases asks
  | failed fault => cases asks

structure Invariant (reports : ι → Report) (table : Table) (events : List (Event ι))
    (w : World ι) : Prop where
  phases : ∀ i, Phase reports i events ((reports i).history w.table.rows) (w.sessions i)
  told : ∀ owner scope, historyOf owner scope table.rows = [] →
    IsTold (committedDocs reports owner scope events) (historyOf owner scope w.table.rows)

theorem invariant_start (reports : ι → Report) (table : Table) :
    Invariant reports table [] (World.start reports table) where
  phases i := .idle ⟨nofun, rfl⟩
  told owner scope empty := by
    rw [World.start, empty]
    exact isTold_nil

namespace Invariant

variable (invariant : Invariant reports table events w) (step : Step w e w')

include invariant step

theorem advances : Advances reports events w e w' := (invariant.phases e.call).advances step

theorem locks_own (locks : e.locks = true) :
    (w'.sessions e.call).lock = some (reports e.call).lockText := by
  cases (invariant.advances step).2 with
  | «open» table pending own => exact own locks
  | kept holding wrote rows unlocking =>
    rw [unlocking] at locks
    cases locks

theorem history_of_other {owner : AttributeOwner} {scope : String}
    (other : ¬((reports e.call).owner = owner ∧ (reports e.call).input.scope = scope)) :
    historyOf owner scope w'.table.rows = historyOf owner scope w.table.rows := by
  cases (invariant.advances step).2 with
  | «open» table => rw [table]
  | kept holding wrote rows => rw [rows, wrote.other w.table.distinct other]

/-- The history that another report has seen is not changed under its lock. -/
theorem history_of_holding (other : e.call ≠ i) (holding : Holding reports i events) :
    (reports i).history w'.table.rows = (reports i).history w.table.rows := by
  cases (invariant.advances step).2 with
  | «open» table => rw [table]
  | kept holds wrote rows =>
    refine invariant.history_of_other step fun same => other ?_
    exact holds.unique holding same.1 same.2

theorem locksOf_of_held (other : e.call ≠ i)
    (held : (w.sessions i).lock = some (reports i).lockText) :
    e.locksOf reports (reports i).owner (reports i).input.scope = false := by
  rw [Bool.eq_false_iff]
  intro locks
  obtain ⟨locks, own⟩ := Bool.and_eq_true_iff.mp locks
  simp only [Report.isOf, Bool.and_eq_true, decide_eq_true_eq] at own
  have text : (reports e.call).lockText = (reports i).lockText := by
    rw [Report.lockText, Report.lockText, own.1, own.2]
  have unlocking := step.locks_of_held other held fun locks =>
    text ▸ invariant.locks_own step locks
  rw [unlocking] at locks
  cases locks

theorem phase_of_other (other : e.call ≠ i) :
    Phase reports i (events ++ [e]) ((reports i).history w'.table.rows) (w'.sessions i) := by
  rw [sessions_of_step step other]
  refine (invariant.phases i).other other fun held =>
    ⟨invariant.locksOf_of_held step other held, ?_⟩
  exact invariant.history_of_holding step other ((invariant.phases i).holding held).1

theorem told_of_step {owner : AttributeOwner} {scope : String}
    (keyed : ∀ i, (reports i).input.data.Keyed)
    (told : IsTold (committedDocs reports owner scope events)
      (historyOf owner scope w.table.rows)) :
    IsTold (committedDocs reports owner scope (events ++ [e]))
      (historyOf owner scope w'.table.rows) := by
  obtain ⟨s, next, asks⟩ := step.exists_ask
  cases (invariant.advances step).2 with
  | «open» table pending =>
    have pending (i : ι) : e.commits i = false := by
      by_cases own : e.call = i
      · exact own ▸ pending
      · exact Event.commits_of_ne own
    rw [committedDocs_of_open pending ((invariant.phases e.call).pending asks), table]
    exact told
  | kept holding wrote rows unlocking commits =>
    by_cases own : (reports e.call).owner = owner ∧ (reports e.call).input.scope = scope
    · obtain ⟨rfl, rfl⟩ := own
      rw [committedDocs_of_holding unlocking commits holding, rows]
      have docs : ∀ d ∈ committedDocs reports (reports e.call).owner
          (reports e.call).input.scope events, d.Keyed := by
        intro d member
        obtain ⟨i, -, rfl⟩ := List.mem_map.mp member
        exact keyed i
      have after := told.wrote docs (nodup_historyOf w.table.distinct) wrote
      rwa [← wrote.own] at after
    · rw [committedDocs_of_absent unlocking commits fun member => own (mem_lockOrder member),
        invariant.history_of_other step own]
      exact told

theorem next (keyed : ∀ i, (reports i).input.data.Keyed) :
    Invariant reports table (events ++ [e]) w' where
  phases i := by
    by_cases own : e.call = i
    · obtain rfl := own
      exact (invariant.advances step).1
    · exact invariant.phase_of_other step own
  told owner scope empty := invariant.told_of_step step keyed (invariant.told owner scope empty)

end Invariant

theorem Reaches.invariant (keyed : ∀ i, (reports i).input.data.Keyed)
    (reaches : Reaches (World.start reports table) events w) :
    Invariant reports table events w := by
  induction reaches with
  | nil => exact invariant_start reports table
  | snoc reaches step ih => exact ih.next step keyed

end Invariant

/-- What a step of a report does: it succeeds by its commit alone, nothing else changes the table, no
history but that of the report is changed, and the report is told of the newest version of its
history as it then is. -/
structure StepKeeps {ι : Type} [DecidableEq ι] (report : Report) (w : World ι) (e : Event ι)
    (w' : World ι) : Prop where
  succeeds_iff : (∃ v, (w'.sessions e.call).program = .done v) ↔ e.commits e.call = true
  uncommitted : e.commits e.call = false → w'.table = w.table
  others : ∀ owner scope, ¬(report.owner = owner ∧ report.input.scope = scope) →
    historyOf owner scope w'.table.rows = historyOf owner scope w.table.rows
  told : ∀ v, (w'.sessions e.call).program = .done v →
    ∃ r, IsNewest (report.history w'.table.rows) r ∧ Copies v r.toVersionedAttribute

/-- After any steps of any reports of documents that are keyed, as all that are read from text are,
every history that began empty is the run-length encoding of the documents of its committed reports
in the order of the lock; and every further step changes only what it should. -/
theorem run_length_history {ι : Type} [DecidableEq ι] (reports : ι → Report) (table : Table)
    (keyed : ∀ i, (reports i).input.data.Keyed) {events : List (Event ι)} {w : World ι}
    (reaches : Reaches (World.start reports table) events w) :
    (∀ owner scope, historyOf owner scope table.rows = [] →
      IsTold (committedDocs reports owner scope events) (historyOf owner scope w.table.rows)) ∧
    ∀ e w', Step w e w' → StepKeeps (reports e.call) w e w' := by
  have invariant := reaches.invariant keyed
  refine ⟨invariant.told, fun e w' step => ?_⟩
  have others : ∀ owner scope,
      ¬((reports e.call).owner = owner ∧ (reports e.call).input.scope = scope) →
      historyOf owner scope w'.table.rows = historyOf owner scope w.table.rows :=
    fun owner scope => invariant.history_of_other step
  cases (invariant.advances step).2 with
  | «open» table pending locks unfinished =>
    refine ⟨?_, fun _ => table, others, fun v finished => absurd finished (unfinished v)⟩
    simp [unfinished, pending]
  | kept holding wrote rows unlocking commits ended =>
    have commits : e.commits e.call = true := by simp [commits]
    refine ⟨by simp [ended, commits], fun uncommitted => ?_, others, fun v finished => ?_⟩
    · rw [commits] at uncommitted
      cases uncommitted
    · rw [ended] at finished
      cases finished
      rw [rows, wrote.own]
      exact wrote.newest

/-- One document is reported twice, its fields in two orders, and a third report fails at once: the
one version that is left has been reported again once. -/
theorem run_length_history_of_repeated_report :
    let owner := AttributeOwner.server ⟨1⟩
    let fields : Document.Fields := [("vendor", .text "acme"), ("slot", .text "rear")]
    let reports : Fin 3 → Report := fun i =>
      ⟨owner, "bios", if i = 1 then .object fields.reverse else .object fields⟩
    ∃ events w, Reaches (World.start reports ⟨[], .nil⟩) events w ∧
      w.table.rows.map (·.tally) = [1] ∧
      IsTold (committedDocs reports owner "bios" events) (historyOf owner "bios" w.table.rows) ∧
      StepKeeps (reports 2) w ⟨2, .begin, .failed "08006" "gone"⟩
        (w.put 2 ⟨.failed (.rejected "08006" "gone"), [], none⟩) := by
  intro owner fields reports
  let stored (tally : Int) : StoredVersion :=
    ⟨⟨⟨1⟩, "bios", .object fields, tally, ⟨1704067200000000⟩⟩, owner⟩
  let r := stored 0
  let text := "\x7b\"vendor\":\"acme\",\"slot\":\"rear\"\x7d"
  let row (tally : Int) : Row := [("id", .text "00000000-0000-0000-0000-000000000001"),
    ("namespace", .text "bios"), ("data", .text text), ("tally", .int tally),
    ("created_at", .text "2024-01-01T00:00:00Z")]
  have parsed : Document.parse? text = some (.object fields) := by
    simp only [text, fields]
    with_unfolding_all rfl
  have kept : (Document.object fields).Keyed := Document.parse?_keyed parsed
  have keyed (i : Fin 3) : (reports i).input.data.Keyed := by
    simp only [reports]
    split
    · cases kept with
      | object distinct each =>
        exact .object (by decide) fun f member => each f (List.mem_reverse.mp member)
    · exact kept
  have id : Uuid.parse? "00000000-0000-0000-0000-000000000001" = some ⟨1⟩ := by decide +kernel
  have time : Timestamp.parse? "2024-01-01T00:00:00Z" = some ⟨1704067200000000⟩ := by
    decide +kernel
  have itself : (Document.object fields).same (.object fields) = true := by decide +kernel
  have fills (tally : Int) (fits : -2147483648 ≤ tally ∧ tally ≤ 2147483647) :
      (stored tally).Fills Statement.versionFields (row tally) :=
    .cons ⟨rfl, _, rfl, id⟩ (.cons ⟨rfl, rfl⟩ (.cons ⟨rfl, _, _, rfl, parsed, itself⟩
      (.cons ⟨rfl, rfl, fits⟩ (.cons ⟨rfl, _, rfl, time⟩ .nil))))
  obtain ⟨v, read, copy⟩ := (fills 0 (by decide)).copy
  obtain ⟨v', read', -⟩ := (fills 1 (by decide)).copy
  have new : IsNew [] ["id", (reports 0).owner.column, "namespace", "data"]
      (Statement.addVersion (reports 0).owner (reports 0).input).bindings r :=
    ⟨rfl, StoredVersion.gets_iff.mpr ⟨rfl, rfl, rfl, rfl⟩, nofun, nofun⟩
  have alike : r.data.same (reports 1).input.data = true := by decide +kernel
  -- the first report adds the version, and the second one raises its tally
  obtain ⟨events, w, reaches, table, finished, others⟩ : Comes (World.start reports ⟨[], .nil⟩)
      (World.start reports ⟨[], .nil⟩) 0 ⟨[r], List.nodup_singleton _⟩ ⟨.done v, [], none⟩ :=
    comes_first .nil (by rfl) nofun (by rfl) new (fills 0 (by decide)) read rfl
  have newest : IsNewest ((reports 1).history w.table.rows) r := by
    have alone : (reports 1).history [r] = [r] := rfl
    rw [table, alone]
    exact ⟨by simp, by simp⟩
  have free (j : Fin 3) (_ : j ≠ 1) : (w.sessions j).lock ≠ some (reports 1).lockText := by
    by_cases first : j = 0
    · rw [first, finished]
      exact nofun
    · rw [others j first]
      exact nofun
  obtain ⟨events', w', reaches', table', -, others'⟩ : Comes (World.start reports ⟨[], .nil⟩) w 1
      ⟨[r.raise], List.nodup_singleton _⟩ ⟨.done v', [], none⟩ :=
    comes_again reaches (others 1 (by decide)) free newest (fills 0 (by decide)) read copy
      (Document.same_trans (kept.same_symm copy.data) alike) (fills 1 (by decide)) read'
      (by rw [table]; rfl)
  have idle : w'.sessions 2 = ⟨appendVersion (reports 2).owner (reports 2).input, [], none⟩ := by
    rw [others' 2 (by decide), others 2 (by decide)]
    rfl
  have fails := Step.failed (w := w') (i := 2) "08006" "gone" (by rw [idle]; rfl)
  obtain ⟨told, keeps⟩ := run_length_history reports ⟨[], .nil⟩ keyed reaches'
  exact ⟨events', w', reaches', by rw [table']; rfl, told owner "bios" rfl, keeps _ _ fails⟩

end FleetInventory.Store
