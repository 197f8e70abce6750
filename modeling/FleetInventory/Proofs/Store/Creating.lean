import FleetInventory.Proofs.Store.Fault
import FleetInventory.Proofs.Store.Saying
import FleetInventory.Proofs.Store.Transaction

/-!
Components as they are created. A component with its documents is one block of statements: its kind
is looked up, it is added with the kind that was found, and every document is then stored for the
row that was added. A list of components is a row of such blocks in one transaction.
-/
namespace FleetInventory

namespace Store

def Put (component : Uuid) (entry : AttributeInput) (sent : Statement × Reply) : Prop :=
  sent.1.Says (.insert "attributes" ["id", "server_component_id", "namespace", "data"]
      ["server_component_id", "namespace"] Statement.attributeFields)
    [.fresh, .uuid component, .text entry.scope, .document entry.data]

/-- The statement that a version of a component is recorded by, as the newest version tells: its
tally is raised if it has the same document, and else the document is added. -/
inductive Chosen (component : Uuid) (entry : AttributeInput) (newest : Reply) :
    Statement → Prop
  | raise {row : Row} {version : Uuid} {data : Document} {write : Statement}
    (first : newest.found.head? = some row) (id : row.uuid? "id" = some version)
    (read : row.document? "data" = some data) (same : data.same entry.data = true)
    (wrote : write.Says (.increment "versioned_attributes" "tally" ["id"] Statement.versionFields)
      [.uuid version]) : Chosen component entry newest write
  | add {write : Statement}
    (differs : ∀ row, newest.found.head? = some row →
      ∃ data, row.document? "data" = some data ∧ data.same entry.data = false)
    (wrote : write.Says (.insert "versioned_attributes"
        ["id", "server_component_id", "namespace", "data"] [] Statement.versionFields)
      [.fresh, .uuid component, .text entry.scope, .document entry.data]) :
    Chosen component entry newest write

inductive Recorded (component : Uuid) (entry : AttributeInput) : Trace → Prop
  | record {lock look write : Statement} {locked newest written : Reply}
    (locks : lock.Says .lock
      [.text ("versioned:server_component_id:" ++ component.render ++ ":" ++ entry.scope)])
    (looks : look.Says (.select "versioned_attributes" ["server_component_id", "namespace"]
        (some "created_at") Statement.versionFields) [.uuid component, .text entry.scope])
    (chosen : Chosen component entry newest write) :
    Recorded component entry [(lock, locked), (look, newest), (write, written)]

/-- What creating a component has sent, and the row that came of it. -/
inductive Created (server : Uuid) (input : ComponentInput) : Trace → Row → Prop
  | block {look add : Statement} {looked made : Reply} {found row : Row} {kind component : Uuid}
    {stored : Trace} {records : List Trace}
    (looks : look.Says (.select "server_component_types" ["slug"] none ["id"])
      [.text input.kindSlug])
    (finds : looked.found.head? = some found) (kinds : found.uuid? "id" = some kind)
    (adds : add.Says (.insert "server_components" ["id", "server_id", "server_component_type_id",
        "name", "vendor", "model", "serial"] [] (Component.columns.map (·.1)))
      [.fresh, .uuid server, .uuid kind, input.name.elim .null .text,
        input.vendor.elim .null .text, input.model.elim .null .text,
        input.serial.elim .null .text])
    (makes : made.found.head? = some row) (id : row.uuid? "id" = some component)
    (puts : List.Forall₂ (Put component) input.attributes stored)
    (versions : List.Forall₂ (Recorded component) input.versioned records) :
    Created server input ((look, looked) :: (add, made) :: (stored ++ records.flatten)) row

variable {α : Type} {s : Statement} {read : Row → Option α} {t : Trace}

theorem reply_of_fetchOptional {found : Option α}
    (run : (fetchOptional read s).Runs t (.ok found)) :
    ∃ reply, t = [(s, reply)] ∧ reply.found.head?.map read = found.map some := by
  cases run with
  | @ask _ _ reply rest _ accepts later =>
    refine ⟨reply, ?_⟩
    cases reply with
    | rows rows =>
      cases rows with
      | nil =>
        cases later
        exact ⟨rfl, rfl⟩
      | cons row more =>
        have reading : (readRow read row >>= fun a => pure (some a)).Runs rest (.ok found) := later
        unfold readRow at reading
        cases readable : read row with
        | none =>
          rw [readable] at reading
          cases reading
        | some a =>
          rw [readable] at reading
          cases reading
          exact ⟨rfl, congrArg some readable⟩
    | affected count =>
      cases later
      exact ⟨rfl, rfl⟩
    | failed state text => cases later

theorem reply_of_fetchOne {a : α} (run : (fetchOne read s).Runs t (.ok a)) :
    ∃ reply row, t = [(s, reply)] ∧ reply.found.head? = some row ∧ read row = some a := by
  obtain ⟨found, front, back, rfl, first, rest⟩ := run.of_bind_ok
  obtain ⟨reply, rfl, gives⟩ := reply_of_fetchOptional first
  cases found with
  | none => cases rest
  | some b =>
    cases rest
    obtain ⟨row, head, readable⟩ := Option.map_eq_some_iff.mp gives
    exact ⟨reply, row, rfl, head, readable⟩

theorem reply_of_unknownKinds {inputs : List ComponentInput} {unknown : List String}
    (run : (unknownKinds inputs).Runs t (.ok unknown)) :
    ∃ reply, t = [(.knownKinds (inputs.map (·.kindSlug)), reply)] := by
  obtain ⟨known, front, back, rfl, fetched, ended⟩ := run.of_bind_ok
  have behaves : Behaves (fun _ _ => True) (fun _ _ => True) _
      (fetchAll (·.text? "slug") (.knownKinds (inputs.map (·.kindSlug)))) [] :=
    behaves_fetchAll rfl trivial
  obtain ⟨reply, rfl, -⟩ := behaves.result fetched
  cases ended
  exact ⟨reply, rfl⟩

theorem reply_of_perform {a : Unit} (run : (perform s).Runs t (.ok a)) :
    ∃ reply, t = [(s, reply)] := by
  cases run with
  | @ask _ _ reply rest _ accepts later =>
    refine ⟨reply, ?_⟩
    cases reply <;> cases later <;> rfl

theorem id_of_component {row : Row} {component : Component}
    (readable : Component.ofRow? row = some component) : row.uuid? "id" = some component.id := by
  obtain ⟨id, identified, readable⟩ := Option.bind_eq_some_iff.mp readable
  simp only [Option.bind_eq_bind, Option.bind_eq_some_iff, Option.pure_def, Option.some.injEq]
    at readable
  obtain ⟨_, _, _, _, _, _, _, _, _, _, _, _, _, _, _, _, rfl⟩ := readable
  exact identified

theorem cells_of_version {row : Row} {version : VersionedAttribute}
    (readable : VersionedAttribute.ofRow? row = some version) :
    row.uuid? "id" = some version.id ∧ row.document? "data" = some version.data := by
  obtain ⟨id, identified, readable⟩ := Option.bind_eq_some_iff.mp readable
  obtain ⟨scope, named, readable⟩ := Option.bind_eq_some_iff.mp readable
  obtain ⟨data, stored, readable⟩ := Option.bind_eq_some_iff.mp readable
  obtain ⟨tally, counted, readable⟩ := Option.bind_eq_some_iff.mp readable
  obtain ⟨created, timed, readable⟩ := Option.bind_eq_some_iff.mp readable
  cases readable
  exact ⟨identified, stored⟩

theorem recorded_of_runs {component : Uuid} {entry : AttributeInput}
    {version : VersionedAttribute}
    (run : (recordVersion (.component component) entry).Runs t (.ok version)) :
    Recorded component entry t := by
  obtain ⟨_, front, back, rfl, lock, looking⟩ := run.of_bind_ok
  obtain ⟨locked, rfl⟩ := reply_of_perform lock
  obtain ⟨found, front, last, rfl, look, writing⟩ := looking.of_bind_ok
  obtain ⟨newest, rfl, gives⟩ := reply_of_fetchOptional look
  cases kept : found.filter (·.data.same entry.data) with
  | some version =>
    obtain ⟨rfl, same⟩ := Option.filter_eq_some_iff.mp kept
    obtain ⟨row, first, readable⟩ := Option.map_eq_some_iff.mp gives
    obtain ⟨id, data⟩ := cells_of_version readable
    rw [kept] at writing
    obtain ⟨written, _, rfl, -⟩ := reply_of_fetchOne writing
    exact .record (Statement.says_of_operation rfl) (Statement.says_of_operation rfl)
      (.raise first id data same (Statement.says_of_operation rfl))
  | none =>
    rw [kept] at writing
    obtain ⟨written, _, rfl, -⟩ := reply_of_fetchOne writing
    refine .record (Statement.says_of_operation rfl) (Statement.says_of_operation rfl)
      (.add (fun row first => ?_) (Statement.says_of_operation rfl))
    rw [first] at gives
    obtain ⟨version, rfl, readable⟩ := Option.map_eq_some_iff.mp gives.symm
    exact ⟨_, (cells_of_version readable.symm).2,
      by simpa using Option.filter_eq_none_iff.mp kept version rfl⟩

theorem puts_of_runs {component : Uuid} {entries : List AttributeInput}
    {attributes : List Attribute} (run : (entries.mapM (putAttribute (.component component))).Runs t
      (.ok attributes)) : List.Forall₂ (Put component) entries t := by
  obtain ⟨parts, rfl, -, each⟩ := run.of_mapM
  clear run
  induction each with
  | nil => exact .nil
  | cons one _ ih =>
    obtain ⟨reply, _, single, -⟩ := reply_of_fetchOne one
    rw [List.flatMap_cons, single]
    exact .cons (Statement.says_of_operation rfl) ih

theorem records_of_runs {component : Uuid} {entries : List AttributeInput}
    {versions : List VersionedAttribute}
    (run : (entries.mapM (recordVersion (.component component))).Runs t (.ok versions)) :
    ∃ records, t = records.flatten ∧ List.Forall₂ (Recorded component) entries records := by
  obtain ⟨parts, rfl, -, each⟩ := run.of_mapM
  refine ⟨parts.map (·.1), List.flatMap_def, List.forall₂_map_right_iff.mpr ?_⟩
  exact each.imp fun _ _ one => recorded_of_runs one

theorem created_of_runs {server : Uuid} {input : ComponentInput} {component : Component}
    (run : (addComponent server input).Runs t (.ok component)) :
    ∃ row, Created server input t row ∧ Component.ofRow? row = some component := by
  obtain ⟨found, front, back, rfl, look, adding⟩ := run.of_bind_ok
  obtain ⟨looked, rfl, gives⟩ := reply_of_fetchOptional look
  cases found with
  | none => cases adding
  | some kind =>
    obtain ⟨foundRow, finds, kinds⟩ := Option.map_eq_some_iff.mp gives
    obtain ⟨_, front, back, rfl, add, storing⟩ := adding.of_bind_ok
    obtain ⟨made, row, rfl, makes, readable⟩ := reply_of_fetchOne add
    obtain ⟨_, stored, back, rfl, puts, recording⟩ := storing.of_bind_ok
    obtain ⟨_, front, back, rfl, records, ended⟩ := recording.of_bind_ok
    obtain ⟨records, rfl, versions⟩ := records_of_runs records
    cases ended
    rw [List.append_nil]
    exact ⟨row, .block (Statement.says_of_operation rfl) finds kinds
      (Statement.says_addComponent ..) makes (id_of_component readable) (puts_of_runs puts) versions,
      readable⟩

theorem blocks_of_runs {server : Uuid} {inputs : List ComponentInput}
    {parts : List (Trace × Component)}
    (each : List.Forall₂ (fun input part => (addComponent server input).Runs part.1 (.ok part.2))
      inputs parts) :
    ∃ blocks : List (Trace × Row), parts.flatMap (·.1) = blocks.flatMap (·.1)
      ∧ List.Forall₂ (fun input block => Created server input block.1 block.2) inputs blocks
      ∧ List.Forall₂ (fun block component => Component.ofRow? block.2 = some component) blocks
        (parts.map (·.2)) := by
  induction each with
  | nil => exact ⟨[], rfl, .nil, .nil⟩
  | @cons input part _ _ one _ ih =>
    obtain ⟨row, created, readable⟩ := created_of_runs one
    obtain ⟨blocks, sent, all, read⟩ := ih
    refine ⟨(part.1, row) :: blocks, ?_, .cons created all, .cons readable read⟩
    rw [List.flatMap_cons, List.flatMap_cons, sent]

theorem created_of_runs_all {server : Uuid} {inputs : List ComponentInput}
    {components : List Component} (run : (addComponents server inputs).Runs t (.ok components)) :
    ∃ (opened closed : Reply) (blocks : List (Trace × Row)),
      t = (.begin, opened) :: (blocks.flatMap (·.1) ++ [(.commit, closed)])
        ∧ List.Forall₂ (fun input block => Created server input block.1 block.2) inputs blocks
        ∧ List.Forall₂ (fun block component => Component.ofRow? block.2 = some component) blocks
          components := by
  obtain ⟨_, front, back, rfl, opening, working⟩ := run.of_bind_ok
  obtain ⟨opened, rfl⟩ := reply_of_perform opening
  obtain ⟨all, inside, back, rfl, work, closing⟩ := working.of_bind_ok
  obtain ⟨_, front, back, rfl, close, ended⟩ := closing.of_bind_ok
  obtain ⟨closed, rfl⟩ := reply_of_perform close
  cases ended
  obtain ⟨parts, rfl, rfl, each⟩ := work.of_mapM
  obtain ⟨blocks, sent, created, read⟩ := blocks_of_runs each
  exact ⟨opened, closed, blocks, by rw [sent]; rfl, created, read⟩

end Store
end FleetInventory
