import FleetInventory.Proofs.Api.Handlers

/-!
Statements that fail, and the answers that tell of it. A statement that fails is the last of its
request, and its reply decides between the two statuses that are not the client's fault. Nothing
else is answered with these, but for a row that was there a moment ago and is not found again.
-/
namespace FleetInventory

/-- The reply is an error, has no row where there must be one, or has a row that can not be read.
The kind of a component that is not found again is no such failure. -/
def Statement.Fails (s : Statement) (reply : Reply) : Prop :=
  ∃ fault, s.fault? reply = some fault ∧ ∀ slug, fault ≠ .kindVanished slug

def Reply.isConflict : Reply → Bool
  | .failed state _ => state = "23505"
  | _ => false

theorem Statement.isConflict_of_fault? {s : Statement} {reply : Reply} {fault : StoreFault}
    (bad : s.fault? reply = some fault) : fault.isConflict = reply.isConflict := by
  cases reply with
  | failed state text =>
    cases bad
    rfl
  | _ =>
    rcases s.causes_of_fault? bad with ⟨_, _, impossible, -⟩ | rfl | rfl | ⟨_, -, -, rfl⟩
    · cases impossible
    all_goals rfl

/-- The last statement found no row where one was before: the kind of a component, looked for inside
the transaction, or the firmware set that was committed just now. -/
inductive Vanished : Trace → Prop
  | kind {before : Trace} {slug : String} {reply : Reply} (inside : InTransaction before)
    (empty : reply.IsEmpty) : Vanished (before ++ [(.findKind slug, reply)])
  | set {before : Trace} {set : FirmwareSet} {closed reply : Reply} (added : Added set before)
    (empty : reply.IsEmpty) :
    Vanished (before ++ [(.commit, closed), (.findSet set.id, reply)])

/-- What an exchange tells of statements that fail. -/
structure TellsFaults (trace : Trace) (exchange : Exchange) : Prop where
  recorded : trace.map (·.1) = exchange.statements
  stops : ∀ before s reply after, trace = before ++ (s, reply) :: after → s.Fails reply →
    after = [] ∧ exchange.response.map (·.status) = some (if reply.isConflict then 409 else 500)
  told : ∀ response, exchange.response = some response →
    response.status = 409 ∨ response.status = 500 →
      (∃ before s reply, trace = before ++ [(s, reply)] ∧ s.Fails reply) ∨
        response.status = 500 ∧ Vanished trace

theorem Failure.store_of_status {failure : Failure} (answered : failure.IsAnswered)
    (status : failure.status = 409 ∨ failure.status = 500) : ∃ fault, failure = .store fault := by
  cases failure with
  | store fault => exact ⟨fault, rfl⟩
  | overflow fault => exact absurd rfl (answered fault)
  | _ => simp [Failure.status] at status

theorem Refusal.gone_of_store {t : Trace} {fault : StoreFault}
    (refused : Refusal t (.store fault)) : fault = .setVanished ∧ Vanished t := by
  cases refused with
  | input flawed => cases flawed
  | unknown looked absent => cases absent
  | setGone gone =>
    obtain ⟨rfl, before, set, closed, reply, rfl, added, empty⟩ := gone
    exact ⟨rfl, .set added empty⟩

namespace Service

variable {service : Service} {request : Request} {script : Script}

theorem fails_or_vanished {before : Trace} {s : Statement} {reply : Reply} {fault : StoreFault}
    (split : (service.program request).trace script = before ++ [(s, reply)])
    (bad : s.fault? reply = some fault) :
    s.Fails reply ∨ fault.isConflict = false ∧ Vanished (before ++ [(s, reply)]) := by
  by_cases vanished : ∃ slug, fault = .kindVanished slug
  · obtain ⟨slug, rfl⟩ := vanished
    have run := (service.program request).runs_trace script
    have placed := (orderly_program service request).placed run split
    rcases s.causes_of_fault? bad with ⟨_, _, -, wrong⟩ | wrong | wrong | ⟨slug, rfl, empty, -⟩
    · cases wrong
    · cases wrong
    · cases wrong
    · exact .inr ⟨rfl, .kind (placed.inside slug rfl) empty⟩
  · exact .inl ⟨fault, bad, fun slug same => vanished ⟨slug, same⟩⟩

/-- Every failing statement ends its request with a status that tells of it, and that status tells
of nothing else, whatever the request is and whatever the database replies. -/
theorem tellsFaults (service : Service) (request : Request) (script : Script) :
    TellsFaults ((service.program request).trace script) (service.handle request script) where
  recorded := statements_of_trace service request script
  stops before s reply after sent fails := by
    obtain ⟨fault, bad, -⟩ := fails
    have run := (service.program request).runs_trace script
    obtain ⟨last, ended⟩ := (orderly_program service request).stops.last run sent
      (by rw [bad]; rfl)
    rw [← s.isConflict_of_fault? bad]
    exact ⟨last, status_of_error (Failure.isAnswered_of_store fault) ended⟩
  told response answered status := by
    rcases causes_of_response answered with ⟨-, granted⟩ | ⟨failure, same, ended, answered⟩
    · omega
    rw [same] at status ⊢
    obtain ⟨fault, rfl⟩ := failure.store_of_status answered status
    rcases causes_of_error ended with ⟨before, s, reply, fault, split, bad, same⟩ | refused
    · cases same
      rcases fails_or_vanished split bad with fails | ⟨other, vanished⟩
      · exact .inl ⟨before, s, reply, split, fails⟩
      · exact .inr ⟨by simp [Failure.status, other], split ▸ vanished⟩
    · obtain ⟨rfl, vanished⟩ := refused.gone_of_store
      exact .inr ⟨rfl, vanished⟩

end Service
end FleetInventory
