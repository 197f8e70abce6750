import FleetInventory.Proofs.Api.Committing

/-!
Requests that create a firmware set. The set is committed and only then read again for the answer:
a set that is kept is granted, unless that reading fails.
-/
namespace FleetInventory

/-- After a commit, the last statement was to read a firmware set again, and failed or found
none. -/
def Unread (trace : Trace) : Prop :=
  ∃ before s reply, trace = before ++ [(s, reply)] ∧ Committed before ∧ s.RereadsSet ∧
    ((s.fault? reply).isSome = true ∨ (∃ id, s = .findSet id) ∧ reply.IsEmpty)

section Kept

variable {trace : Trace} {failure : Failure}

theorem Unread.committed (unread : Unread trace) : Committed trace := by
  obtain ⟨before, s, reply, rfl, committed, -⟩ := unread
  exact committed.append _

theorem Refusal.unread (refused : Refusal trace failure) (committed : Committed trace) :
    Unread trace := by
  cases refused with
  | input flawed => exact absurd committed looked_nil.not_committed
  | unknown looked absent => exact absurd committed looked.not_committed
  | untouched idle =>
    have single : Committed ([] ++ [_]) := committed
    rcases committed_snoc.mp single with none | rfl
    · exact absurd none looked_nil.not_committed
    · rcases idle with ⟨verb, -⟩ | ⟨verb, -⟩ <;> cases verb
  | overflow looked => exact absurd committed looked.not_committed
  | setGone gone =>
    obtain ⟨-, before, set, closed, reply, rfl, -, empty⟩ := gone
    exact ⟨before ++ [(.commit, closed)], .findSet set.id, reply, by simp,
      committed_snoc.mpr (.inr rfl), ⟨set.id, .inl rfl⟩, .inr ⟨⟨set.id, rfl⟩, empty⟩⟩

end Kept

namespace Service

theorem unread_of_error {service : Service} {request : Request} {script : Script}
    {failure : Failure} (ended : ((service.program request).run script).1 = .error failure)
    (committed : Committed ((service.program request).trace script)) :
    Unread ((service.program request).trace script) := by
  have run := (service.program request).runs_trace script
  rcases causes_of_error ended with ⟨before, s, reply, fault, split, bad, -⟩ | refused
  · have placed := (orderly_program service request).placed run split
    rw [split] at committed run ⊢
    rcases committed_snoc.mp committed with earlier | rfl
    · exact ⟨before, s, reply, rfl, earlier, placed.after earlier, .inl (by rw [bad]; rfl)⟩
    · have accepts : Statement.commit.Accepts reply := run.accepts (by simp)
      rw [accepts rfl] at bad
      cases bad
  · exact refused.unread committed

/-- A new firmware set is kept if and only if the request is granted or the set can not be read
again, whatever the body is and whatever the database replies. -/
theorem committed_iff_granted_or_unread (service : Service) (request : Request)
    (script : Script) {path : String} {params : List String}
    (inside : Route.inside? request.target.path = some path)
    (found : Route.find? path = some (.firmwareSets, params)) (post : request.method = "POST") :
    .commit ∈ (service.handle request script).statements ↔
      (service.handle request script).response.map (·.status) = some 200 ∨
        Unread ((service.program request).trace script) := by
  have run := (service.program request).runs_trace script
  rw [← statements_of_trace]
  constructor
  · intro committed
    cases ended : ((service.program request).run script).1 with
    | error failure => exact .inr (unread_of_error ended committed)
    | ok document => exact .inl (status_of_ok ended)
  · rintro (granted | unread)
    · obtain ⟨response, answered, ok⟩ := Option.map_eq_some_iff.mp granted
      have proceeds : Handler.Proceeds (fun _ => True) (fun t _ => Committed t)
          (service.program request) [] := by
        rw [program_eq service inside found (by rw [post]; rfl)]
        exact Handler.proceeds_addFirmwareSet fun _ _ => trivial
      rcases causes_of_response answered with ⟨⟨document, ended⟩, -⟩ | ⟨failure, same, -⟩
      · rw [ended] at run
        exact proceeds.result run
      · exact absurd (same.symm.trans ok) failure.status_ne_ok
    · exact unread.committed

/-- The set is read again: it is granted, and it is kept. -/
theorem committed_iff_granted_or_unread_of_empty_set :
    let service : Service := ⟨⟨none, none⟩⟩
    let request : Request :=
      ⟨"POST", ⟨"/api/v1/server-component-firmware-sets", none⟩,
        [("content-type", "application/json")], "\x7b\"name\":\"x\"\x7d", none⟩
    let set : Row :=
      [("id", .text "00000000-0000-0000-0000-000000000001"), ("name", .text "x"),
        ("created_at", .text "2024-01-01T00:00:00Z"), ("updated_at", .text "2024-01-01T00:00:00Z")]
    let script : List Reply := [.rows [], .rows [set], .rows [set]]
    (.commit ∈ (service.handle request script).statements ↔
        (service.handle request script).response.map (·.status) = some 200 ∨
          Unread ((service.program request).trace script)) ∧
      (service.handle request script).response.map (·.status) = some 200 := by
  intro service request set script
  have inside : Route.inside? request.target.path = some "/server-component-firmware-sets" := by
    decide +kernel
  have found : Route.find? "/server-component-firmware-sets" = some (.firmwareSets, []) := by
    decide +kernel
  exact ⟨committed_iff_granted_or_unread service request script inside found rfl, by decide +kernel⟩

/-- The set is gone when it is read again: the request fails, and what it wrote is kept. -/
theorem committed_of_vanished_set :
    let service : Service := ⟨⟨none, none⟩⟩
    let request : Request :=
      ⟨"POST", ⟨"/api/v1/server-component-firmware-sets", none⟩,
        [("content-type", "application/json")], "\x7b\"name\":\"x\"\x7d", none⟩
    let set : Row :=
      [("id", .text "00000000-0000-0000-0000-000000000001"), ("name", .text "x"),
        ("created_at", .text "2024-01-01T00:00:00Z"), ("updated_at", .text "2024-01-01T00:00:00Z")]
    let script : List Reply := [.rows [], .rows [set], .rows []]
    (service.handle request script).response.map (·.status) = some 500 ∧
      (service.handle request script).statements.map Statement.verb
        = [.select, .begin, .insert, .commit, .select] := by
  decide +kernel

end Service
end FleetInventory
