import FleetInventory.Proofs.Store.Stages

/-!
Reports that complete: one whose lock is free, and whose statements are answered, gets through all
of its stages, and its change is kept.
-/
namespace FleetInventory.Store

open Sql (Operation)
open Statement (versionFields)

section Completing

variable {ι : Type} [DecidableEq ι] {report : Report} {i : ι} {w₀ w : World ι}

theorem Step.answer {asked : Statement} {next : Reply → StoreProgram VersionedAttribute}
    {operation : Operation} {reply : Reply} {changes more : List Change} {lock : Option String}
    (asks : w.sessions i = ⟨.ask asked next, changes, lock⟩)
    (told : asked.operation? = some operation)
    (answers : Answers (changes.foldl (fun rows change => change.apply rows) w.table.rows)
      operation asked.bindings reply more) :
    Step w ⟨i, asked, reply⟩ (w.put i ⟨next reply, changes ++ more, lock⟩) := by
  have step := Step.answered (w := w) (by rw [asks]) (Statement.says_of_operation told)
    (World.view_eq asks ▸ answers)
  rwa [asks] at step

/-- After some more steps of the report the table and the report are such, and the other reports as
they were. -/
def Comes (w₀ w : World ι) (i : ι) (table : Table) (s : Session) : Prop :=
  ∃ events w', Reaches w₀ events w' ∧ w'.table = table ∧ w'.sessions i = s ∧
    ∀ j ≠ i, w'.sessions j = w.sessions j

theorem comes_put {events : List (Event ι)} {e : Event ι} {table : Table} {s : Session}
    (reaches : Reaches w₀ events w) (step : Step w e (World.put { w with table } i s)) :
    Comes w₀ w i table s.settle :=
  ⟨_, _, .snoc reaches step, rfl, World.sessions_put .., fun _ other =>
    Function.update_of_ne other ..⟩

theorem Comes.trans {table table' : Table} {s s' : Session} (first : Comes w₀ w i table s)
    (second : ∀ events w', Reaches w₀ events w' → w'.table = table → w'.sessions i = s →
      (∀ j ≠ i, w'.sessions j = w.sessions j) → Comes w₀ w' i table' s') :
    Comes w₀ w i table' s' := by
  obtain ⟨events, w', reaches, table, session, others⟩ := first
  obtain ⟨events', w'', reaches', table', session', others'⟩ :=
    second events w' reaches table session others
  exact ⟨events', w'', reaches', table', session', fun j other =>
    (others' j other).trans (others j other)⟩

variable {events : List (Event ι)} (reaches : Reaches w₀ events w)

include reaches

theorem comes_looking
    (idle : w.sessions i = ⟨appendVersion report.owner report.input, [], none⟩)
    (free : ∀ j ≠ i, (w.sessions j).lock ≠ some report.lockText) :
    Comes w₀ w i w.table ⟨report.looking, [], some report.lockText⟩ := by
  rw [report.appendVersion_eq] at idle
  refine (comes_put reaches (.answer idle rfl .begin)).trans ?_
  intro events w' reaches table begun others
  rw [← table]
  have granted : (Reply.affected 0).succeeded = true := rfl
  have step := Step.locked (w := w') (i := i) (by rw [begun]; rfl)
    (Statement.says_of_operation rfl) (fun j other => others j other ▸ free j other) granted
  rw [begun] at step
  exact comes_put reaches step

theorem comes_added {r : StoredVersion} {row : Row} {v : VersionedAttribute}
    (looks : w.sessions i = ⟨report.looking, [], some report.lockText⟩)
    (empty : report.history w.table.rows = [])
    (new : IsNew w.table.rows ["id", report.owner.column, "namespace", "data"]
      (Statement.addVersion report.owner report.input).bindings r)
    (fills : r.Fills versionFields row) (read : VersionedAttribute.ofRow? row = some v) :
    Comes w₀ w i w.table ⟨Report.closing v, [.add r], some report.lockText⟩ := by
  obtain ⟨next, asks, absent, -, -⟩ :=
    exists_ask_fetchOptional VersionedAttribute.ofRow?
      (.newestVersion report.owner report.input.scope) report.writing
  rw [Report.looking, asks] at looks
  have nothing : ∀ r ∈ w.table.rows,
      ¬ r.Meets [report.owner.column, "namespace"]
        [.uuid report.owner.id, .text report.input.scope] := by
    intro r member meets
    have listed : r ∈ report.history w.table.rows :=
      mem_historyOf.mpr ⟨member, StoredVersion.meets_newest.mp meets⟩
    simp [empty] at listed
  refine (comes_put reaches (.answer looks rfl (.none nothing))).trans ?_
  intro events w' reaches table adds others
  obtain ⟨next', asks', -, present, -⟩ :=
    exists_ask_fetchOne VersionedAttribute.ofRow? (.addVersion report.owner report.input)
      Report.closing
  rw [absent, show report.writing none = report.adding from rfl, Report.adding, asks'] at adds
  rw [← table] at new ⊢
  have step := comes_put reaches (.answer adds rfl (.add new fills))
  rwa [present _ _ read] at step

theorem comes_raised {r : StoredVersion} {shown v : VersionedAttribute} {row row' : Row}
    (looks : w.sessions i = ⟨report.looking, [], some report.lockText⟩)
    (newest : IsNewest (report.history w.table.rows) r) (fills : r.Fills versionFields row)
    (read : VersionedAttribute.ofRow? row = some shown)
    (copy : Copies shown r.toVersionedAttribute)
    (alike : shown.data.same report.input.data = true)
    (fills' : r.raise.Fills versionFields row') (read' : VersionedAttribute.ofRow? row' = some v) :
    Comes w₀ w i w.table ⟨Report.closing v, [.raise r.id], some report.lockText⟩ := by
  obtain ⟨next, asks, -, present, -⟩ :=
    exists_ask_fetchOptional VersionedAttribute.ofRow?
      (.newestVersion report.owner report.input.scope) report.writing
  rw [Report.looking, asks] at looks
  obtain ⟨member, own⟩ := mem_historyOf.mp newest.member
  refine (comes_put reaches (.answer looks rfl (.newest member (StoredVersion.meets_newest.mpr own)
    (fun other kept meets => newest.latest other
      (mem_historyOf.mpr ⟨kept, StoredVersion.meets_newest.mp meets⟩)) fills))).trans ?_
  intro events w' reaches table raises others
  obtain ⟨next', asks', -, present', -⟩ :=
    exists_ask_fetchOne VersionedAttribute.ofRow? (.raiseTally r.id) Report.closing
  have stage : report.writing (some shown) = Report.raising r.id := by
    simp [Report.writing, Option.filter, alike, copy.id]
  rw [present _ _ read, stage, Report.raising, asks'] at raises
  have alone (other : StoredVersion) :
      other ∈ [r] ↔ other ∈ w'.table.rows ∧ other.Meets ["id"] [.uuid r.id] := by
    rw [table]
    exact mem_singleton_iff_meets w.table.distinct member
  have step := comes_put reaches
    (.answer raises rfl (.raise (List.nodup_singleton r) alone (.cons fills' .nil)))
  rw [present' _ _ read'] at step
  rwa [← table]

theorem comes_committed {v : VersionedAttribute} {change : Change} {table : Table}
    (written : w.sessions i = ⟨Report.closing v, [change], some report.lockText⟩)
    (rows : table.rows = change.apply w.table.rows) : Comes w₀ w i table ⟨.done v, [], none⟩ := by
  have view := World.view_eq written
  have step := Step.committed (w := w) (i := i) (by rw [written]; rfl)
    (Statement.says_of_operation rfl) (rows.trans view.symm)
  exact comes_put reaches step

/-- A report whose lock is free, and whose document is the first of its history, is kept. -/
theorem comes_first {r : StoredVersion} {row : Row} {v : VersionedAttribute} {table : Table}
    (idle : w.sessions i = ⟨appendVersion report.owner report.input, [], none⟩)
    (free : ∀ j ≠ i, (w.sessions j).lock ≠ some report.lockText)
    (empty : report.history w.table.rows = [])
    (new : IsNew w.table.rows ["id", report.owner.column, "namespace", "data"]
      (Statement.addVersion report.owner report.input).bindings r)
    (fills : r.Fills versionFields row) (read : VersionedAttribute.ofRow? row = some v)
    (rows : table.rows = w.table.rows ++ [r]) : Comes w₀ w i table ⟨.done v, [], none⟩ := by
  refine (comes_looking reaches idle free).trans fun events w' reaches same looks _ => ?_
  rw [← same] at empty new rows
  refine (comes_added reaches looks empty new fills read).trans
    fun _ w'' reaches same' adds _ => ?_
  exact comes_committed reaches adds (same' ▸ rows)

/-- A report whose lock is free, and whose document is that of the newest version, is kept. -/
theorem comes_again {r : StoredVersion} {shown v : VersionedAttribute} {row row' : Row}
    {table : Table} (idle : w.sessions i = ⟨appendVersion report.owner report.input, [], none⟩)
    (free : ∀ j ≠ i, (w.sessions j).lock ≠ some report.lockText)
    (newest : IsNewest (report.history w.table.rows) r) (fills : r.Fills versionFields row)
    (read : VersionedAttribute.ofRow? row = some shown)
    (copy : Copies shown r.toVersionedAttribute)
    (alike : shown.data.same report.input.data = true)
    (fills' : r.raise.Fills versionFields row') (read' : VersionedAttribute.ofRow? row' = some v)
    (rows : table.rows = (Change.raise r.id).apply w.table.rows) :
    Comes w₀ w i table ⟨.done v, [], none⟩ := by
  refine (comes_looking reaches idle free).trans fun events w' reaches same looks _ => ?_
  rw [← same] at newest rows
  refine (comes_raised reaches looks newest fills read copy alike fills' read').trans
    fun _ w'' reaches same' raises _ => ?_
  exact comes_committed reaches raises (same' ▸ rows)

end Completing
end FleetInventory.Store
