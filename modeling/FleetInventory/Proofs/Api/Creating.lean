import FleetInventory.Proofs.Api.Listing
import FleetInventory.Proofs.Store.Creating

/-!
Requests that create components. The server and the kinds are looked up, and then every component is
created in its turn; the answer lists what came of it. Main statement: `components_created`.
-/
namespace FleetInventory

namespace Handler

variable {α : Type} {t : Trace}

theorem runs_ofStore {program : StoreProgram α} {a : α}
    (run : (ofStore program).Runs t (.ok a)) : program.Runs t (.ok a) := by
  obtain ⟨result, stored, same⟩ := run.of_mapError
  cases result with
  | ok b =>
    cases same
    exact stored
  | error e => cases same

theorem runs_found {noun : Noun} {program : StoreProgram (Option α)} {a : α}
    (run : (found noun program).Runs t (.ok a)) : program.Runs t (.ok (some a)) := by
  obtain ⟨result, front, back, rfl, looked, ended⟩ := run.of_bind_ok
  cases result with
  | none => cases ended
  | some b =>
    cases ended
    rw [List.append_nil]
    exact runs_ofStore looked

inductive Creates (call : Call) : Trace → Document → Prop
  | made {server : Uuid} {inputs : List ComponentInput} {found known opened closed : Reply}
    {blocks : List (Trace × Row)} {components : List Component}
    (named : (call.params[0]?.bind Percent.decode?).bind Uuid.parse? = some server)
    (read : Body.read (Field.list? ComponentInput.ofDocument?) call.request = .ok inputs)
    (created : List.Forall₂ (fun input block => Store.Created server input block.1 block.2) inputs
      blocks)
    (rows : List.Forall₂ (fun block component => Component.ofRow? block.2 = some component) blocks
      components) :
    Creates call ([(.findServer server, found), (.knownKinds (inputs.map (·.kindSlug)), known)]
        ++ (.begin, opened) :: (blocks.flatMap (·.1) ++ [(.commit, closed)]))
      (Answer.ofRecords (components.map Component.toDocument))

theorem creates_of_runs {call : Call} {document : Document}
    (run : (addComponents call).Runs t (.ok document)) : Creates call t document := by
  obtain ⟨server, front, back, rfl, naming, reading⟩ := run.of_bind_ok
  obtain ⟨rfl, named⟩ := (silent_identifier call).silent_result naming
  obtain ⟨inputs, front, back, rfl, sent, looking⟩ := reading.of_bind_ok
  obtain ⟨rfl, read⟩ := (silent_body call _).silent_result sent
  obtain ⟨_, front, back, rfl, look, asking⟩ := looking.of_bind_ok
  obtain ⟨found, rfl, -⟩ := Store.reply_of_fetchOptional (runs_found look)
  obtain ⟨unknown, front, back, rfl, ask, checking⟩ := asking.of_bind_ok
  obtain ⟨known, rfl⟩ := Store.reply_of_unknownKinds (runs_ofStore ask)
  obtain ⟨_, front, back, rfl, check, working⟩ := checking.of_bind_ok
  obtain ⟨rfl, -⟩ := (within_require (E := fun _ => True) _ _ trivial).silent_result check
  obtain ⟨components, inside, back, rfl, work, ended⟩ := working.of_bind_ok
  obtain ⟨opened, closed, blocks, rfl, created, rows⟩ :=
    Store.created_of_runs_all (runs_ofStore work)
  cases ended
  have made : Creates call ([(.findServer server, found),
        (.knownKinds (inputs.map (·.kindSlug)), known)]
      ++ (.begin, opened) :: (blocks.flatMap (·.1) ++ [(.commit, closed)])) _ :=
    .made (eq_of_identifier named) (eq_of_body read) created rows
  simpa [records] using made

end Handler

/-- Components as a request has created them. Between the beginning and the end of one transaction
there is a block of statements for each of them, and the answer shows the rows that were added. -/
structure CreatedComponents (request : Request) (params : List String) (script : Script)
    (trace : Trace) (exchange : Exchange) where
  server : Uuid
  inputs : List ComponentInput
  found : Statement × Reply
  known : Statement × Reply
  opening : Statement × Reply
  blocks : List (Trace × Row)
  closing : Statement × Reply
  records : List Document
  named : (params[0]?.bind Percent.decode?).bind Uuid.parse? = some server
  read : Body.read (Field.list? ComponentInput.ofDocument?) request = .ok inputs
  recorded : exchange.statements = trace.map (·.1)
  /-- The statements took the replies of the script one by one. -/
  replied : ∀ answerer i sent, (trace.filter (·.1.answeredBy = answerer))[i]? = some sent →
    sent.2 = (script.replies answerer).getD i answerer.fallback
  sent : trace = found :: known :: opening :: (blocks.flatMap (·.1) ++ [closing])
  finds : found.1.Says (.select "servers" ["id"] none (Server.columns.map (·.1))) [.uuid server]
  knows : known.1.sql = "SELECT slug FROM server_component_types WHERE slug = ANY($1)"
  asked : known.1.bindings = [.texts (inputs.map (·.kindSlug))]
  opens : opening.1.Says .begin []
  created : List.Forall₂ (fun input block => Store.Created server input block.1 block.2) inputs
    blocks
  closes : closing.1.Says .commit []
  shows : List.Forall₂ (fun block record => block.2.ShownAs Component.columns record) blocks records
  answered : exchange.response
    = some ⟨200, some (.object [("success", .bool true), ("data", .array records)])⟩

theorem Handler.Creates.whole {call : Call} {trace : Trace} {document : Document}
    {request : Request} {script : Script} {exchange : Exchange}
    (creates : Creates call trace document)
    (same : ∀ read : Document → Option (List ComponentInput),
      Body.read read call.request = Body.read read request)
    (recorded : exchange.statements = trace.map (·.1))
    (replied : ∀ answerer i sent, (trace.filter (·.1.answeredBy = answerer))[i]? = some sent →
      sent.2 = (script.replies answerer).getD i answerer.fallback)
    (answered : exchange.response = some ⟨200, some document⟩) :
    Nonempty (CreatedComponents request call.params script trace exchange) := by
  cases creates with
  | @made server inputs found known opened closed blocks components named read created rows =>
    rw [same] at read
    exact ⟨{
      server, inputs, blocks, named, read, recorded, replied, created, answered
      found := (.findServer server, found)
      known := (.knownKinds (inputs.map (·.kindSlug)), known)
      opening := (.begin, opened)
      closing := (.commit, closed)
      records := components.map Component.toDocument
      sent := rfl
      finds := Statement.says_of_operation rfl
      knows := rfl
      asked := rfl
      opens := Statement.says_of_operation rfl
      closes := Statement.says_of_operation rfl
      shows := List.forall₂_map_right_iff.mpr (rows.imp fun _ _ => Component.shown) }⟩

namespace Service

/-- Whenever components are created, every one of them is created in its turn with its own kind and
its own documents, whatever the body lists and whatever the database replies. -/
theorem components_created (service : Service) (request : Request) (script : Script)
    {path : String} {params : List String}
    (inside : Route.inside? request.target.path = some path)
    (found : Route.find? path = some (.serverComponents, params)) (post : request.method = "POST")
    (granted : (service.handle request script).response.map (·.status) = some 200) :
    Nonempty (CreatedComponents request params script ((service.program request).trace script)
      (service.handle request script)) := by
  obtain ⟨document, ended⟩ := ok_of_granted granted
  have program : service.program request
      = Handler.addComponents (service.call request path params) :=
    program_eq service inside found (by rw [post]; rfl)
  have answered : (service.handle request script).response = some ⟨200, some document⟩ := by
    change (close request ((service.program request).run script).1).1 = _
    rw [ended, close, bodyFor, post]
    rfl
  have run := (service.program request).runs_trace script
  rw [ended, program] at run
  have creates := Handler.creates_of_runs run
  rw [← program] at creates
  exact creates.whole (fun _ => rfl) (statements_of_trace service request script).symm
    (fun answerer _ _ => (service.program request).trace_replies script answerer) answered

/-- Two components. The first reports one version again, its keys in another order, and one that is
new; the second has an attribute. -/
theorem components_created_of_two :
    let service : Service := ⟨⟨none, none⟩⟩
    let id : String → String := fun digit => "00000000-0000-0000-0000-00000000000" ++ digit
    let path := "/servers/" ++ id "1" ++ "/components"
    let request : Request :=
      ⟨"POST", ⟨"/api/v1" ++ path, none⟩, [("content-type", "application/json")],
        "[\x7b\"component_type_slug\":\"nic\",\"versioned_attributes\":["
          ++ "\x7b\"namespace\":\"fw\",\"data\":\x7b\"a\":1,\"b\":2\x7d\x7d,"
          ++ "\x7b\"namespace\":\"up\"\x7d]\x7d,\x7b\"component_type_slug\":\"nic\","
          ++ "\"attributes\":[\x7b\"namespace\":\"x\"\x7d]\x7d]", none⟩
    let times : Row :=
      [("created_at", .text "2024-01-01T00:00:00Z"), ("updated_at", .text "2024-01-01T00:00:00Z")]
    let component : String → Reply := fun digit =>
      .rows [("id", .text (id digit)) :: ("server_id", .text (id "1")) ::
        ("server_component_type_id", .text (id "2")) :: times]
    let version : Reply := .rows [("id", .text (id "5")) :: ("namespace", .text "fw") ::
      ("data", .text "\x7b\"b\":2,\"a\":1\x7d") :: ("tally", .int 1) :: times]
    let script : List Reply := [.rows [("id", .text (id "1")) :: times],
      .rows [[("slug", .text "nic")]], .rows [[("id", .text (id "2"))]], component "3", version,
      version, .rows [], version, .rows [[("id", .text (id "2"))]], component "4",
      .rows [("namespace", .text "x") :: ("data", .text "null") :: times]]
    let exchange := service.handle request script
    Route.inside? request.target.path = some path
      ∧ Route.find? path = some (.serverComponents, [id "1"]) ∧ request.method = "POST"
      ∧ exchange.response.map (·.status) = some 200
      ∧ Nonempty (CreatedComponents request [id "1"] script
        ((service.program request).trace script) exchange)
      ∧ exchange.statements.map (·.verb) = [.select, .select, .begin, .select, .insert, .select,
          .select, .update, .select, .select, .insert, .select, .insert, .insert, .commit]
      ∧ exchange.statements.map (fun s => s.bindings.filterMap fun
          | .uuid id => some id.bits
          | _ => none)
        = [[1], [], [], [], [1, 2], [], [3], [5], [], [3], [3], [], [1, 2], [4], []] := by
  -- one computation serves both what is granted and what was sent
  refine ⟨?inside, ?found, rfl, And.left ?ran,
    components_created _ _ _ ?inside ?found rfl (And.left ?ran), And.right ?ran⟩ <;> decide +kernel

end Service
end FleetInventory
