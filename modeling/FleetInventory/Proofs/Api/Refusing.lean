import FleetInventory.Proofs.Api.Handlers

/-!
Requests that are refused because the client is at fault write nothing. What is wrong with the
request itself is found before anything is sent, and what it names without being there by reads
alone, or by the one change or deletion that finds nothing to touch.
-/
namespace FleetInventory

/-- A single change that returned no row, or a single deletion that touched none. -/
def TouchedNothing (trace : Trace) : Prop :=
  ∃ s reply, trace = [(s, reply)] ∧
    (s.verb = .update ∧ reply.IsEmpty ∨ s.verb = .delete ∧ reply.IsIdle)

/-- What an exchange that ends in this result sent, where the client is at fault. -/
structure SparesStore (result : Except Failure Document) (trace : Trace) (exchange : Exchange) :
    Prop where
  recorded : trace.map (·.1) = exchange.statements
  bad : exchange.response.map (·.status) = some 400 → ∀ s ∈ exchange.statements, s.verb = .select
  input : ∀ failure, result = .error failure → failure.IsInput → exchange.statements = []
  absent : exchange.response.map (·.status) = some 404 →
    (∀ s ∈ exchange.statements, s.verb = .select) ∨ TouchedNothing trace
  unfit : ∀ status ∈ [405, 415], exchange.response.map (·.status) = some status →
    exchange.statements = []

section Refused

variable {trace : Trace} {failure : Failure}

def Failure.clientStatuses : List Nat := [400, 404, 405, 415]

theorem Failure.ne_store_of_client (client : failure.status ∈ clientStatuses)
    (fault : StoreFault) : failure ≠ .store fault := by
  rintro rfl
  cases conflict : fault.isConflict <;> simp [status, conflict, clientStatuses] at client

theorem Failure.isInput_of_unfit (unfit : failure.status ∈ [405, 415]) :
    failure.IsInput := by
  cases failure with
  | store fault => cases conflict : fault.isConflict <;> simp [status, conflict] at unfit
  | _ =>
    -- the request is flawed, or the status is neither of the two
    trivial

theorem Refusal.nil_of_input (refused : Refusal trace failure) (flawed : failure.IsInput) :
    trace = [] := by
  cases refused with
  | input => rfl
  | unknown looked absent => cases failure <;> first | exact absent.elim | exact flawed.elim
  | _ => exact flawed.elim

theorem Refusal.looked_or_touchedNothing (refused : Refusal trace failure)
    (client : failure.status ∈ Failure.clientStatuses) :
    Looked trace ∨ failure.status = 404 ∧ TouchedNothing trace := by
  cases refused with
  | input flawed => exact .inl looked_nil
  | unknown looked absent => exact .inl looked
  | untouched idle => exact .inr ⟨rfl, _, _, rfl, idle⟩
  | overflow looked => exact .inl looked
  | setGone gone => exact absurd rfl (Failure.ne_store_of_client client _)

end Refused

namespace Service

variable {service : Service} {request : Request} {script : Script}

theorem refused_of_error {failure : Failure} (other : ∀ fault, failure ≠ .store fault)
    (ended : ((service.program request).run script).1 = .error failure) :
    Refusal ((service.program request).trace script) failure := by
  rcases causes_of_error ended with ⟨before, s, reply, fault, split, bad, same⟩ | refused
  · exact absurd same (other fault)
  · exact refused

theorem refused_of_client {status : Nat} (client : status ∈ Failure.clientStatuses)
    (answered : (service.handle request script).response.map (·.status) = some status) :
    ∃ failure, failure.status = status ∧
      Refusal ((service.program request).trace script) failure := by
  obtain ⟨response, sent, rfl⟩ := Option.map_eq_some_iff.mp answered
  rcases causes_of_response sent with ⟨-, granted⟩ | ⟨failure, same, ended, -⟩
  · simp [granted, Failure.clientStatuses] at client
  · rw [same] at client ⊢
    exact ⟨failure, rfl, refused_of_error (Failure.ne_store_of_client client) ended⟩

/-- Where the client is at fault nothing is written, whatever the request is and whatever the
database replies. -/
theorem sparesStore (service : Service) (request : Request) (script : Script) :
    SparesStore ((service.program request).run script).1 ((service.program request).trace script)
      (service.handle request script) := by
  have recorded := statements_of_trace service request script
  have looked_statements (looked : Looked ((service.program request).trace script)) :
      ∀ s ∈ (service.handle request script).statements, s.verb = .select := by
    rw [← recorded]
    exact List.forall_mem_map.mpr looked
  exact {
    recorded
    bad := fun status => by
      obtain ⟨failure, same, refused⟩ := refused_of_client (by decide) status
      rcases refused.looked_or_touchedNothing (same ▸ by decide) with looked | ⟨other, -⟩
      · exact looked_statements looked
      · omega
    input := fun failure ended flawed => by
      have refused := refused_of_error (fun fault same => by subst same; exact flawed) ended
      rw [← recorded, refused.nil_of_input flawed]
      rfl
    absent := fun status => by
      obtain ⟨failure, same, refused⟩ := refused_of_client (by decide) status
      rcases refused.looked_or_touchedNothing (same ▸ by decide) with looked | ⟨-, idle⟩
      · exact .inl (looked_statements looked)
      · exact .inr idle
    unfit := fun status unfit answered => by
      have client : status ∈ Failure.clientStatuses := List.mem_cons_of_mem _ (.tail _ unfit)
      obtain ⟨failure, rfl, refused⟩ := refused_of_client client answered
      rw [← recorded, refused.nil_of_input (Failure.isInput_of_unfit unfit)]
      rfl }

end Service
end FleetInventory
