import FleetInventory.Proofs.Api.Handlers
import FleetInventory.Proofs.Store.Inserting
import FleetInventory.Proofs.Text.Blank

/-!
The namespaces that documents are stored under. Most requests look whether the namespaces they are
given are blank, since no filter can ask for an empty one; the change of one attribute and the list
of new components do not look.
-/
namespace FleetInventory

namespace Service

/-- Documents are stored under namespaces that are not blank, save those that a request hands in
where nothing looks, whatever the request is and whatever the database replies. -/
theorem named_or_unchecked (service : Service) (request : Request) (script : Script)
    {s : Statement} (sent : s ∈ (service.handle request script).statements)
    (stores : s.StoresDocument) :
    ∃ scope, s.bindings[2]? = some (.text scope) ∧
      (Text.trim scope ≠ "" ∨ request.Unchecked scope) := by
  rw [← statements_of_trace] at sent
  obtain ⟨⟨s, reply⟩, member, rfl⟩ := List.mem_map.mp sent
  obtain ⟨before, after, split⟩ := List.append_of_mem member
  have placed := (orderly_program service request).placed
    ((service.program request).runs_trace script) split
  obtain ⟨scope, names, bound⟩ := stores.scope
  refine ⟨scope, bound, (placed.named scope names).imp (fun filled => ?_) id⟩
  rw [Ne, Text.trim_eq_empty_iff, filled]
  exact Bool.false_ne_true

/-- A new version of what is installed: its namespace is looked at. -/
theorem named_or_unchecked_of_version :
    let service : Service := ⟨⟨none, none⟩⟩
    let id := "00000000-0000-0000-0000-000000000001"
    let request : Request :=
      ⟨"POST", ⟨"/api/v1/servers/" ++ id ++ "/versioned-attributes", none⟩,
        [("content-type", "application/json")], "\x7b\"namespace\":\"bios\"\x7d", none⟩
    let script : List Reply := [.rows [[("id", .text id),
      ("created_at", .text "2024-01-01T00:00:00Z"), ("updated_at", .text "2024-01-01T00:00:00Z")]]]
    ∃ s ∈ (service.handle request script).statements, s.StoresDocument ∧
      ∃ scope, s.bindings[2]? = some (.text scope) ∧
        (Text.trim scope ≠ "" ∨ request.Unchecked scope) := by
  intro service id request script
  have inserted : ∃ within : 4 < (service.handle request script).statements.length,
      ((service.handle request script).statements.get ⟨4, within⟩).insertion?
        = some "INSERT INTO versioned_attributes (" := by
    decide +kernel
  obtain ⟨within, into⟩ := inserted
  have stores := (Statement.storesDocument_iff into).mpr (by decide)
  exact ⟨_, List.get_mem .., stores,
    named_or_unchecked service request script (List.get_mem ..) stores⟩

/-- A space is a namespace in the path of an attribute, and a document is stored under it. -/
theorem blank_stored_of_segment :
    let service : Service := ⟨⟨none, none⟩⟩
    let id := "00000000-0000-0000-0000-000000000001"
    let request : Request :=
      ⟨"PUT", ⟨"/api/v1/servers/" ++ id ++ "/attributes/%20", none⟩,
        [("content-type", "application/json")], "1", none⟩
    let times : Row :=
      [("created_at", .text "2024-01-01T00:00:00Z"), ("updated_at", .text "2024-01-01T00:00:00Z")]
    let script : List Reply := [.rows [("id", .text id) :: times],
      .rows [("namespace", .text " ") :: ("data", .text "1") :: times]]
    Text.trim " " = "" ∧ (service.handle request script).response.map (·.status) = some 200 ∧
      ∃ s ∈ (service.handle request script).statements, s.StoresDocument ∧
        s.bindings[2]? = some (.text " ") := by
  intro service id request times script
  refine ⟨by decide +kernel, by decide +kernel, ?_⟩
  have inserted : ∃ within : 1 < (service.handle request script).statements.length,
      ((service.handle request script).statements.get ⟨1, within⟩).insertion?
        = some "INSERT INTO attributes (" ∧
      ((service.handle request script).statements.get ⟨1, within⟩).scope? = some " " := by
    decide +kernel
  obtain ⟨within, into, named⟩ := inserted
  have stores := (Statement.storesDocument_iff into).mpr (by decide)
  obtain ⟨scope, same, bound⟩ := stores.scope
  cases named.symm.trans same
  exact ⟨_, List.get_mem .., stores, bound⟩

example :
    let id := "00000000-0000-0000-0000-000000000001"
    let request : Request :=
      ⟨"POST", ⟨"/api/v1/servers/" ++ id ++ "/components", none⟩,
        [("content-type", "application/json")],
        "[\x7b\"component_type_slug\":\"nic\",\"attributes\":[\x7b\"namespace\":\"\"\x7d]\x7d]",
        none⟩
    let times : Row :=
      [("created_at", .text "2024-01-01T00:00:00Z"), ("updated_at", .text "2024-01-01T00:00:00Z")]
    let script : List Reply := [.rows [("id", .text id) :: times], .rows [[("slug", .text "nic")]],
      .rows [[("id", .text id)]], .rows [("id", .text id) :: ("server_id", .text id) ::
        ("server_component_type_id", .text id) :: times],
      .rows [("namespace", .text "") :: ("data", .text "null") :: times]]
    ((⟨⟨none, none⟩⟩ : Service).handle request script).statements.map Statement.scope?
      = [none, none, none, none, none, some "", none] := by
  decide +kernel

end Service
end FleetInventory
