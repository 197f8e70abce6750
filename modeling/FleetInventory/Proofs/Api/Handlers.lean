import FleetInventory.Api.Service
import FleetInventory.Proofs.Api.Pages

/-!
Every handler goes by the steps: it reads the request, looks up what it names, and then does its
work. Documents are stored under namespaces that are not blank, save on two paths that do not look.
-/
namespace FleetInventory

/-- A namespace that a request hands in where nothing asks whether it is blank: in the path of an
attribute, or in the components it lists. -/
inductive Request.Unchecked (request : Request) : String → Prop
  | segment {path scope : String} {params : List String}
    (inside : Route.inside? request.target.path = some path)
    (found : Route.find? path = some (.serverAttribute, params)) (put : request.method = "PUT")
    (sent : params[1]?.bind Percent.decode? = some scope) : Unchecked request scope
  | listed {path : String} {params : List String} {inputs : List ComponentInput}
    {input : ComponentInput} {document : AttributeInput}
    (inside : Route.inside? request.target.path = some path)
    (found : Route.find? path = some (.serverComponents, params)) (post : request.method = "POST")
    (sent : Body.read (Field.list? ComponentInput.ofDocument?) request = .ok inputs)
    (member : input ∈ inputs) (named : document ∈ input.attributes ++ input.versioned) :
    Unchecked request document.scope

namespace Handler

open Failure Statement

abbrev Orderly (allowed : String → Prop) (handler : Handler) : Prop :=
  Proceeds allowed (fun _ _ => True) handler []

variable {allowed : String → Prop} (call : Call)

theorem orderly_lists (route : Route) {handler : Call → Handler}
    (takes : of? route .get = some handler) (lists : route ∈ Route.lists) :
    Orderly allowed (handler call) :=
  (proceeds_lists call takes lists).ends fun _ _ _ => trivial

section Records

theorem orderly_health : Orderly allowed (health call) := trivial

theorem orderly_showServer : Orderly allowed (showServer call) :=
  proceeds_silent (silent_identifier call) fun id _ => (looks_server id).bind fun _ _ _ => trivial

theorem orderly_listAttributes : Orderly allowed (listAttributes call) := by
  refine proceeds_silent (silent_identifier call) fun id _ => ?_
  refine (looks_server id).bind fun t _ looked => ?_
  exact (proceeds_ofStore (Store.looks_fetchAll looked rfl rfl rfl)).bind fun _ _ _ => trivial

theorem orderly_listVersions : Orderly allowed (listVersions call) := by
  refine proceeds_silent (silent_identifier call) fun id _ => ?_
  refine (looks_server id).bind fun t _ looked => ?_
  exact (proceeds_ofStore (Store.looks_fetchAll looked rfl rfl rfl)).bind fun _ _ _ => trivial

theorem orderly_listKinds : Orderly allowed (listKinds call) :=
  (proceeds_ofStore (Store.looks_fetchAll looked_nil rfl rfl rfl)).bind fun _ _ _ => trivial

theorem orderly_showFirmware : Orderly allowed (showFirmware call) := by
  refine proceeds_silent (silent_identifier call) fun id _ => ?_
  exact (looks_found (Store.looks_fetchOptional looked_nil rfl rfl rfl)).bind fun _ _ _ => trivial

theorem orderly_showFirmwareSet : Orderly allowed (showFirmwareSet call) := by
  refine proceeds_silent (silent_identifier call) fun id _ => ?_
  refine (looks_found ((Store.behaves_findSet id).ends fun t _ so => ?_)).bind fun _ _ _ => trivial
  obtain ⟨⟨more, rfl, looked⟩, -⟩ := so
  exact looked

end Records

section Writes

theorem orderly_single {s : Statement} {read : Row → Option α} {toDocument : α → Document}
    (reading : s.reading = .one read) (plain : s.isPlain = true) :
    Orderly allowed (do return record toDocument (← ofStore (Store.fetchOne read s))) :=
  (proceeds_ofStore ((Store.behaves_fetchOne reading
    (placed_of_plain looked_nil.not_committed plain)).ends fun _ _ _ => trivial)).bind
      fun _ _ (_ : True) => trivial

theorem orderly_addServer : Orderly allowed (addServer call) :=
  proceeds_silent (silent_body call _) fun _ _ => orderly_single rfl rfl

theorem orderly_addKind : Orderly allowed (addKind call) := by
  refine proceeds_silent (silent_body call _) fun input _ => ?_
  exact proceeds_require (fun _ => .input trivial) fun _ => orderly_single rfl rfl

theorem orderly_addFirmware : Orderly allowed (addFirmware call) :=
  proceeds_silent (silent_body call _) fun _ _ => orderly_single rfl rfl

theorem orderly_changeServer : Orderly allowed (changeServer call) := by
  refine proceeds_silent (silent_identifier call) fun id _ => ?_
  refine proceeds_silent (silent_body call _) fun input _ => ?_
  refine (proceeds_found (Store.behaves_fetchOptional rfl
    (placed_of_plain looked_nil.not_committed rfl)) ?_).bind fun _ _ _ => trivial
  rintro _ ⟨reply, rfl, empty⟩
  exact .untouched (.inl ⟨rfl, empty⟩)

theorem orderly_drop {s : Statement} {noun : Noun} {answer : Document}
    (reading : s.reading = .nothing) (plain : s.isPlain = true) (deletes : s.verb = .delete) :
    Orderly allowed (do
      require (← ofStore (do return decide (0 < (← Store.touched s)))) (.notFound noun)
      return answer) := by
  have stored : Store.Behaves (Placed allowed) (fun _ _ => False)
      (fun t (there : Bool) => there = false → ∃ reply, t = [(s, reply)] ∧ reply.IsIdle)
      (do return decide (0 < (← Store.touched s))) [] := by
    refine (Store.behaves_touched reading (placed_of_plain looked_nil.not_committed plain)).bind ?_
    rintro _ count ⟨reply, rfl, rfl, good⟩ idle
    exact ⟨reply, rfl, Reading.isIdle_of_touched good (of_decide_eq_false idle)⟩
  refine (proceeds_ofStore stored).bind fun t there absent => ?_
  refine proceeds_require (fun gone => ?_) fun _ => trivial
  obtain ⟨reply, rfl, idle⟩ := absent gone
  exact .untouched (.inr ⟨deletes, idle⟩)

theorem orderly_dropServer : Orderly allowed (dropServer call) :=
  proceeds_silent (silent_identifier call) fun _ _ => orderly_drop rfl rfl rfl

theorem orderly_dropAttribute : Orderly allowed (dropAttribute call) := by
  refine proceeds_silent (silent_identifier call) fun id _ => ?_
  exact proceeds_silent (silent_parameter call 1) fun _ _ => orderly_drop rfl rfl rfl

end Writes

section Documents

theorem eq_of_parameter {call : Call} {index : Nat} {scope : String}
    (read : parameter call index = .done scope) :
    call.params[index]?.bind Percent.decode? = some scope := by
  unfold parameter at read
  cases sent : call.params[index]?.bind Percent.decode? with
  | none =>
    rw [sent] at read
    cases read
  | some s =>
    rw [sent] at read
    cases read
    rfl

theorem eq_of_body {call : Call} {read : Document → Option α} {input : α}
    (given : body read call = .done input) : Body.read read call.request = .ok input := by
  unfold body at given
  cases sent : Body.read read call.request with
  | error failure =>
    rw [sent] at given
    cases given
  | ok input' =>
    rw [sent] at given
    cases given
    rfl

variable {call}

theorem orderly_putAttribute
    (fits : ∀ scope, call.params[1]?.bind Percent.decode? = some scope → allowed scope) :
    Orderly allowed (putAttribute call) := by
  refine proceeds_silent (silent_identifier call) fun id _ => ?_
  refine proceeds_silent (silent_parameter call 1) fun scope read => ?_
  refine proceeds_silent (silent_body call _) fun data _ => ?_
  refine (looks_server id).bind fun t _ looked => ?_
  refine (proceeds_ofStore ((Store.behaves_fetchOne rfl ?_).ends
    fun _ _ _ => trivial)).bind fun _ _ (_ : True) => trivial
  exact placed_of_scope looked.not_committed rfl (fits scope (eq_of_parameter read))

theorem orderly_addComponents
    (fits : ∀ inputs, Body.read (Field.list? ComponentInput.ofDocument?) call.request = .ok inputs →
      ∀ input ∈ inputs, ∀ document ∈ input.attributes ++ input.versioned,
        allowed document.scope) :
    Orderly allowed (addComponents call) := by
  refine proceeds_silent (silent_identifier call) fun id _ => ?_
  refine proceeds_silent (silent_body call _) fun inputs given => ?_
  refine (looks_server id).bind fun t _ looked => ?_
  refine (proceeds_ofStore (Store.behaves_unknownKinds inputs looked)).bind
    fun t unknown looked => ?_
  refine proceeds_require (fun _ => .unknown looked trivial) fun _ => ?_
  exact (proceeds_ofStore (Store.behaves_addComponents looked
    (fits inputs (eq_of_body given)))).bind fun _ _ _ => trivial

variable (clear : ∀ scope, Text.isBlankText scope = false → allowed scope)

include clear

theorem orderly_appendVersion : Orderly allowed (appendVersion call) := by
  refine proceeds_silent (silent_identifier call) fun id _ => ?_
  refine proceeds_silent (silent_body call _) fun input _ => ?_
  refine proceeds_require (fun _ => .input trivial) fun named => ?_
  refine (looks_server id).bind fun t _ looked => ?_
  exact (proceeds_ofStore (Store.behaves_appendVersion looked
    (clear _ (Bool.not_eq_true' _ ▸ named)))).bind fun _ _ _ => trivial

theorem proceeds_addFirmwareSet :
    Proceeds allowed (fun t _ => Committed t) (addFirmwareSet call) [] := by
  refine proceeds_silent (silent_body call _) fun input _ => ?_
  refine proceeds_require (fun _ => .input trivial) fun _ => ?_
  refine proceeds_require (fun _ => .input trivial) fun named => ?_
  refine (proceeds_ofStore (Store.behaves_missingFirmware _ looked_nil)).bind
    fun t missing looked => ?_
  refine proceeds_require (fun _ => .unknown looked trivial) fun _ => ?_
  have fits : ∀ a ∈ input.attributes, allowed a.scope := fun a member => by
    have apart := List.all_eq_true.mp named a member
    exact clear _ (Bool.not_eq_true' _ ▸ apart)
  refine Program.Behaves.bind ((Store.behaves_addSet looked fits).mapError fun _ _ gone =>
    .setGone gone) fun _ _ committed => committed

end Documents

theorem orderly_of? {route : Route} {method : Method} {handler : Call → Handler} {call : Call}
    (takes : of? route method = some handler)
    (clear : ∀ scope, Text.isBlankText scope = false → allowed scope)
    (segment : route = .serverAttribute → method = .put →
      ∀ scope, call.params[1]?.bind Percent.decode? = some scope → allowed scope)
    (listed : route = .serverComponents → method = .post → ∀ inputs,
      Body.read (Field.list? ComponentInput.ofDocument?) call.request = .ok inputs →
        ∀ input ∈ inputs, ∀ document ∈ input.attributes ++ input.versioned,
          allowed document.scope) :
    Orderly allowed (handler call) := by
  cases route <;> cases method <;> cases takes
  case health.get => exact orderly_health call
  case servers.get => exact orderly_lists call .servers rfl (by decide)
  case servers.post => exact orderly_addServer call
  case server.get => exact orderly_showServer call
  case server.put => exact orderly_changeServer call
  case server.delete => exact orderly_dropServer call
  case serverAttributes.get => exact orderly_listAttributes call
  case serverAttribute.put => exact orderly_putAttribute (segment rfl rfl)
  case serverAttribute.delete => exact orderly_dropAttribute call
  case serverVersions.get => exact orderly_listVersions call
  case serverVersions.post => exact orderly_appendVersion clear
  case serverComponents.get => exact orderly_lists call .serverComponents rfl (by decide)
  case serverComponents.post => exact orderly_addComponents (listed rfl rfl)
  case components.get => exact orderly_lists call .components rfl (by decide)
  case kinds.get => exact orderly_listKinds call
  case kinds.post => exact orderly_addKind call
  case firmware.get => exact orderly_lists call .firmware rfl (by decide)
  case firmware.post => exact orderly_addFirmware call
  case firmwareFile.get => exact orderly_showFirmware call
  case firmwareSets.get => exact orderly_lists call .firmwareSets rfl (by decide)
  case firmwareSets.post => exact (proceeds_addFirmwareSet clear).ends fun _ _ _ => trivial
  case firmwareSet.get => exact orderly_showFirmwareSet call

end Handler

theorem Method.mem_of_ofName? {name : String} {method : Method}
    (named : ofName? name = some method) : (name, method) ∈
      [("GET", get), ("HEAD", get), ("POST", post), ("PUT", put), ("DELETE", delete)] := by
  unfold ofName? at named
  split at named
  case isTrue either =>
    cases named
    rcases either with rfl | rfl <;> simp
  split at named
  case isTrue same => cases named; simp [same]
  split at named
  case isTrue same => cases named; simp [same]
  split at named
  case isTrue same => cases named; simp [same]
  cases named

namespace Service

theorem orderly_program (service : Service) (request : Request) :
    Handler.Orderly (fun scope => Text.isBlankText scope = false ∨ request.Unchecked scope)
      (service.program request) := by
  unfold program
  cases inside : Route.inside? request.target.path with
  | none => exact .input trivial
  | some path =>
    dsimp only
    cases found : Route.find? path with
    | none => exact .input trivial
    | some place =>
      obtain ⟨route, params⟩ := place
      dsimp only
      cases takes : (Method.ofName? request.method).bind (Handler.of? route) with
      | none => exact .input trivial
      | some handler =>
        obtain ⟨method, named, takes⟩ := Option.bind_eq_some_iff.mp takes
        refine Handler.orderly_of? takes (fun _ => .inl) ?_ ?_
        · rintro rfl rfl scope sent
          exact .inr (.segment inside found (by simpa using Method.mem_of_ofName? named) sent)
        · rintro rfl rfl inputs sent input member document offered
          exact .inr (.listed inside found (by simpa using Method.mem_of_ofName? named) sent
            member offered)

theorem statements_of_trace (service : Service) (request : Request) (script : Script) :
    ((service.program request).trace script).map (·.1)
      = (service.handle request script).statements :=
  (service.program request).trace_statements script

variable {service : Service} {request : Request} {script : Script}

theorem status_of_ok {document : Document}
    (ended : ((service.program request).run script).1 = .ok document) :
    (service.handle request script).response.map (·.status) = some 200 := by
  change (close request ((service.program request).run script).1).1.map (·.status) = some 200
  rw [ended]
  rfl

theorem status_of_error {failure : Failure} (answered : failure.IsAnswered)
    (ended : ((service.program request).run script).1 = .error failure) :
    (service.handle request script).response.map (·.status) = some failure.status := by
  change (close request ((service.program request).run script).1).1.map (·.status) = _
  rw [ended]
  cases failure with
  | overflow fault => exact absurd rfl (answered fault)
  | _ => rfl

theorem causes_of_error {failure : Failure}
    (ended : ((service.program request).run script).1 = .error failure) :
    (∃ before s reply fault, (service.program request).trace script = before ++ [(s, reply)] ∧
      s.fault? reply = some fault ∧ failure = .store fault) ∨
      Refusal ((service.program request).trace script) failure := by
  have run := (service.program request).runs_trace script
  rw [ended] at run
  rcases (orderly_program service request).failure run with
    ⟨before, s, reply, split, bad⟩ | refused
  · obtain ⟨fault, cause, rfl⟩ := Option.map_eq_some_iff.mp bad
    exact .inl ⟨before, s, reply, fault, split, cause, rfl⟩
  · exact .inr refused

theorem causes_of_response {response : Response}
    (answered : (service.handle request script).response = some response) :
    (∃ document, ((service.program request).run script).1 = .ok document) ∧
        response.status = 200 ∨
      ∃ failure, response.status = failure.status ∧
        ((service.program request).run script).1 = .error failure ∧ failure.IsAnswered := by
  change (close request ((service.program request).run script).1).1 = some response at answered
  cases ended : ((service.program request).run script).1 with
  | ok document =>
    rw [ended] at answered
    cases answered
    exact .inl ⟨⟨document, rfl⟩, rfl⟩
  | error failure =>
    rw [ended] at answered
    refine .inr ⟨failure, ?_, rfl, ?_⟩ <;> cases failure <;> cases answered
    all_goals first | rfl | exact nofun

end Service
end FleetInventory
