import FleetInventory.Proofs.Api.Handlers

/-!
Requests that create components or append versions keep all of what they write or nothing. They
read first and then do everything in one transaction, which is committed if and only if the request
is granted; a statement that fails ends the request before that.
-/
namespace FleetInventory

theorem Failure.status_ne_ok (failure : Failure) : failure.status ≠ 200 := by
  cases failure with
  | store fault => simp only [status]; split <;> decide
  | _ => simp [status]

namespace Handler

open Failure Statement

abbrev FailStop (program : Program Failure α) : Prop :=
  program.Stops fun statement reply => (statement.fault? reply).map .store

variable (call : Call)

theorem atomic_appendVersion : (appendVersion call).Atomic IsAnswered := by
  refine .after (silent_identifier call).within fun id => ?_
  refine .after (silent_body call _).within fun input => ?_
  refine .after (within_require _ .blankNamespace nofun) fun _ => ?_
  refine .after (within_found _ (Store.sends_findServer id)) fun _ => ?_
  exact ((Store.atomic_appendVersion _ _).mapError fun fault _ => isAnswered_of_store fault).map _

theorem failStop_appendVersion : FailStop (appendVersion call) := by
  have orderly : Orderly (fun _ => True) (appendVersion call) :=
    orderly_appendVersion fun _ _ => trivial
  exact orderly.stops

theorem atomic_addComponents : (addComponents call).Atomic IsAnswered := by
  refine .after (silent_identifier call).within fun id => ?_
  refine .after (silent_body call _).within fun inputs => ?_
  refine .after (within_found _ (Store.sends_findServer id)) fun _ => ?_
  refine .after ((Store.sends_unknownKinds inputs).mapError
    fun fault _ => isAnswered_of_store fault) fun unknown => ?_
  refine .after (within_require _ (.unknownKinds unknown) nofun) fun _ => ?_
  exact ((Store.atomic_addComponents _ _).mapError fun fault _ => isAnswered_of_store fault).map _

theorem failStop_addComponents : FailStop (addComponents call) := by
  have orderly : Orderly (fun _ => True) (addComponents call) :=
    orderly_addComponents fun _ _ _ _ _ _ => trivial
  exact orderly.stops

end Handler

namespace Service

theorem close_answered (request : Request) {result : Except Failure Document}
    (answered : ∀ e, result = .error e → e.IsAnswered) :
    ∃ response, (close request result).1 = some response ∧
      (response.status = 200 ↔ result.isOk = true) := by
  cases result with
  | ok document => exact ⟨_, rfl, by simp [Except.isOk, Except.toBool]⟩
  | error e =>
    refine ⟨⟨e.status, bodyFor request e.document?⟩, ?_, ?_⟩
    · cases e with
      | overflow fault => exact absurd rfl (answered _ rfl fault)
      | _ => rfl
    · simp [e.status_ne_ok, Except.isOk, Except.toBool]

/-- What an exchange keeps: a grant is a commit, and no statement fails before one. -/
def KeepsAllOrNothing (service : Service) (request : Request) (script : Script) : Prop :=
  let exchange := service.handle request script
  let trace := (service.program request).trace script
  trace.map (·.1) = exchange.statements ∧
    ∃ response, exchange.response = some response ∧
      AllOrNothing (response.status = 200) exchange.statements ∧
      ∀ sent ∈ trace, (sent.1.fault? sent.2).isSome = true → .commit ∉ exchange.statements

theorem keepsAllOrNothing_of_atomic {service : Service} {request : Request}
    (atomic : (service.program request).Atomic Failure.IsAnswered)
    (stops : Handler.FailStop (service.program request)) (script : Script) :
    service.KeepsAllOrNothing request script := by
  have run := (service.program request).runs_trace script
  have recorded := (service.program request).trace_statements script
  obtain ⟨transaction, answered⟩ := atomic _ _ run
  obtain ⟨response, closed, granted⟩ := close_answered request answered
  have kept := transaction.allOrNothing
  rw [recorded, ← granted] at kept
  refine ⟨recorded, response, closed, kept, fun sent member failed => ?_⟩
  obtain ⟨before, after, split⟩ := List.append_of_mem member
  obtain ⟨fault, cause⟩ := Option.isSome_iff_exists.mp failed
  have result := (stops.last run split (by rw [cause]; rfl)).2
  intro committed
  have ok := granted.mp (kept.commit_mem_iff.mp committed)
  rw [result] at ok
  cases ok

theorem program_eq (service : Service) {request : Request} {path : String} {route : Route}
    {params : List String} {handler : Call → Handler}
    (inside : Route.inside? request.target.path = some path)
    (found : Route.find? path = some (route, params))
    (takes : (Method.ofName? request.method).bind (Handler.of? route) = some handler) :
    service.program request = handler
      ⟨service.settings, { request with target := ⟨path, request.target.query⟩ }, params⟩ := by
  simp only [program, inside, found, takes]

/-- Creating components and appending a version write in one transaction, committed exactly when
the request is granted, whatever the body is and whatever the database replies. -/
theorem committed_iff_granted (service : Service) (request : Request) (script : Script)
    {path : String} {route : Route} {params : List String}
    (inside : Route.inside? request.target.path = some path)
    (found : Route.find? path = some (route, params)) (post : request.method = "POST")
    (writer : route = .serverComponents ∨ route = .serverVersions) :
    service.KeepsAllOrNothing request script := by
  rcases writer with rfl | rfl
  · have program := program_eq service inside found (by rw [post]; rfl)
    refine keepsAllOrNothing_of_atomic ?_ ?_ script
    · exact program ▸ Handler.atomic_addComponents _
    · exact program ▸ Handler.failStop_addComponents _
  · have program := program_eq service inside found (by rw [post]; rfl)
    refine keepsAllOrNothing_of_atomic ?_ ?_ script
    · exact program ▸ Handler.atomic_appendVersion _
    · exact program ▸ Handler.failStop_appendVersion _

/-- The kind of the second component is gone when its turn comes: the first one is not kept. -/
theorem committed_iff_granted_of_vanished_kind :
    let service : Service := ⟨⟨none, none⟩⟩
    let id := "00000000-0000-0000-0000-000000000001"
    let request : Request :=
      ⟨"POST", ⟨"/api/v1/servers/" ++ id ++ "/components", none⟩,
        [("content-type", "application/json")],
        "[\x7b\"component_type_slug\":\"bios\"\x7d,"
          ++ "\x7b\"component_type_slug\":\"nic\"\x7d]", none⟩
    let times : Row :=
      [("created_at", .text "2024-01-01T00:00:00Z"), ("updated_at", .text "2024-01-01T00:00:00Z")]
    let script : List Reply := [.rows [("id", .text id) :: times],
      .rows [[("slug", .text "bios")], [("slug", .text "nic")]], .rows [[("id", .text id)]],
      .rows [("id", .text id) :: ("server_id", .text id) ::
        ("server_component_type_id", .text id) :: times], .rows []]
    service.KeepsAllOrNothing request script ∧
      (service.handle request script).statements.map Statement.verb
        = [.select, .select, .begin, .select, .insert, .select] ∧
      (service.handle request script).response.map (·.status) = some 500 := by
  intro service id request times script
  refine ⟨?_, by decide +kernel, by decide +kernel⟩
  have inside : Route.inside? request.target.path = some ("/servers/" ++ id ++ "/components") := by
    decide +kernel
  have found : Route.find? ("/servers/" ++ id ++ "/components")
      = some (.serverComponents, [id]) := by
    decide +kernel
  exact committed_iff_granted service request script inside found rfl (.inl rfl)

end Service
end FleetInventory
