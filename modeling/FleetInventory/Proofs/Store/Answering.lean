import FleetInventory.Proofs.Store.Sessions

/-!
What the table of versions answers to the statements of a report: the newest version of the owner and
namespace, the row whose tally has been raised, or the row that has been added. What is answered is
read as a copy of the row.
-/
namespace FleetInventory.Store

open Sql (Operation)
open Statement (versionFields)

section Copies

variable {r : StoredVersion} {shown : List String} {row : Row}

theorem StoredVersion.Fills.cell (fills : r.Fills shown row) {column : String}
    (member : column ∈ shown) : r.Shows column (row.cell column) := by
  induction fills with
  | nil => cases member
  | @cons first cell _ _ own _ ih =>
    obtain ⟨name, value⟩ := cell
    obtain ⟨rfl, shows⟩ := own
    by_cases same : column = name
    · simpa [Row.cell, List.lookup_cons, same] using shows
    · have later := ih ((List.mem_cons.mp member).resolve_left same)
      simpa [Row.cell, List.lookup_cons, beq_eq_false_iff_ne.mpr same] using later

theorem StoredVersion.Fills.copy (fills : r.Fills versionFields row) :
    ∃ v, VersionedAttribute.ofRow? row = some v ∧ Copies v r.toVersionedAttribute := by
  obtain ⟨id, idCell, readId⟩ := fills.cell (show "id" ∈ versionFields by decide)
  have scopeCell : row.cell "namespace" = .text r.scope :=
    fills.cell (show "namespace" ∈ versionFields by decide)
  obtain ⟨text, data, dataCell, readData, same⟩ :=
    fills.cell (show "data" ∈ versionFields by decide)
  obtain ⟨tallyCell, fits⟩ := fills.cell (show "tally" ∈ versionFields by decide)
  obtain ⟨time, timeCell, readTime⟩ := fills.cell (show "created_at" ∈ versionFields by decide)
  refine ⟨⟨r.id, r.scope, data, r.tally, r.createdAt⟩, ?_, ⟨rfl, rfl, same, rfl, rfl⟩⟩
  simp [VersionedAttribute.ofRow?, Row.uuid?, Row.text?, Row.document?, Row.int32?, Row.timestamp?,
    idCell, readId, scopeCell, dataCell, readData, tallyCell, Word.ofIntHalf?, fits, timeCell,
    readTime]

end Copies

section Answers

variable {rows : List StoredVersion} {r : StoredVersion} {owner : AttributeOwner} {scope : String}
  {data : Document} {reply : Reply} {changes : List Change}

theorem StoredVersion.meets_newest :
    r.Meets [owner.column, "namespace"] [.uuid owner.id, .text scope]
      ↔ r.owner = owner ∧ r.scope = scope := by
  obtain ⟨v, own⟩ := r
  cases owner <;> cases own <;>
    simp [Meets, value?, AttributeOwner.column, AttributeOwner.id]

theorem StoredVersion.meets_id {id : Uuid} : r.Meets ["id"] [.uuid id] ↔ r.id = id := by
  simp [Meets, value?]

theorem mem_singleton_iff_meets (distinct : (rows.map (·.id)).Nodup) (member : r ∈ rows)
    {other : StoredVersion} : other ∈ [r] ↔ other ∈ rows ∧ other.Meets ["id"] [.uuid r.id] := by
  rw [List.mem_singleton, StoredVersion.meets_id]
  constructor
  · rintro rfl
    exact ⟨member, rfl⟩
  · rintro ⟨kept, same⟩
    exact List.inj_on_of_nodup_map distinct kept member same

theorem mem_historyOf :
    r ∈ historyOf owner scope rows ↔ r ∈ rows ∧ r.owner = owner ∧ r.scope = scope := by
  simp [historyOf]

def Found (history : List StoredVersion) : Option VersionedAttribute → Prop
  | some v => ∃ r, IsNewest history r ∧ Copies v r.toVersionedAttribute
  | none => history = []

theorem Answers.newest_inv (answers : Answers rows
      (.select "versioned_attributes" [owner.column, "namespace"] (some "created_at") versionFields)
      [.uuid owner.id, .text scope] reply changes) :
    changes = [] ∧ ((reply = .rows [] ∧ historyOf owner scope rows = []) ∨ ∃ row v,
      reply = .rows [row] ∧ VersionedAttribute.ofRow? row = some v ∧
        Found (historyOf owner scope rows) (some v)) := by
  cases answers with
  | newest member meets latest fills =>
    obtain ⟨v, read, copy⟩ := fills.copy
    have own := StoredVersion.meets_newest.mp meets
    refine ⟨rfl, .inr ⟨_, v, rfl, read, _, ⟨mem_historyOf.mpr ⟨member, own⟩, ?_⟩, copy⟩⟩
    intro other listed
    obtain ⟨kept, same⟩ := mem_historyOf.mp listed
    exact latest other kept (StoredVersion.meets_newest.mpr same)
  | none absent =>
    refine ⟨rfl, .inl ⟨rfl, List.filter_eq_nil_iff.mpr fun r member => ?_⟩⟩
    simpa [StoredVersion.meets_newest] using absent r member

theorem Answers.raise_inv (distinct : (rows.map (·.id)).Nodup) (member : r ∈ rows)
    (answers : Answers rows (.increment "versioned_attributes" "tally" ["id"] versionFields)
      [.uuid r.id] reply changes) :
    changes = [.raise r.id] ∧ ∃ row v, reply = .rows [row] ∧
      VersionedAttribute.ofRow? row = some v ∧ Copies v r.raise.toVersionedAttribute := by
  cases answers with
  | @raise _ _ _ raised _ nodup all fills =>
    have alone : raised = [r] := by
      refine List.perm_singleton.mp ((List.perm_ext_iff_of_nodup nodup (List.nodup_singleton r)).mpr
        fun other => ?_)
      rw [all, mem_singleton_iff_meets distinct member]
    subst alone
    obtain ⟨row, _, shown, rest, rfl⟩ := List.forall₂_cons_left_iff.mp fills
    cases rest
    obtain ⟨v, read, copy⟩ := StoredVersion.Fills.copy shown
    exact ⟨rfl, row, v, rfl, read, copy⟩

theorem StoredVersion.gets_iff : (∀ column ∈ ["id", "server_id", "server_component_id", "namespace",
      "data", "tally"], r.Gets (["id", owner.column, "namespace", "data"].zip
        [.fresh, .uuid owner.id, .text scope, .document data]) column)
    ↔ r.owner = owner ∧ r.scope = scope ∧ r.data = data ∧ r.tally = 0 := by
  obtain ⟨v, own⟩ := r
  cases owner <;> cases own <;>
    simp [Gets, value?, default?, List.lookup_cons, AttributeOwner.column, AttributeOwner.id]

theorem Answers.add_inv (answers : Answers rows
      (.insert "versioned_attributes" ["id", owner.column, "namespace", "data"] [] versionFields)
      [.fresh, .uuid owner.id, .text scope, .document data] reply changes) :
    ∃ r row v, changes = [.add r] ∧ reply = .rows [row] ∧
      VersionedAttribute.ofRow? row = some v ∧ Copies v r.toVersionedAttribute ∧
      r.owner = owner ∧ r.scope = scope ∧ r.data = data ∧ r.tally = 0 ∧
      ∀ other ∈ historyOf owner scope rows, other.createdAt.micros < r.createdAt.micros := by
  cases answers with
  | @add _ _ _ r row new fills =>
    obtain ⟨v, read, copy⟩ := fills.copy
    obtain ⟨rfl, rfl, rfl, tally⟩ := StoredVersion.gets_iff.mp new.gets
    exact ⟨r, row, v, rfl, rfl, read, copy, rfl, rfl, rfl, tally, new.later⟩

end Answers
end FleetInventory.Store
