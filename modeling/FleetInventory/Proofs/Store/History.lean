import FleetInventory.Proofs.Document.Keyed
import FleetInventory.Proofs.Document.Tally
import FleetInventory.Proofs.Store.Stages

/-!
Histories of versioned attributes. Whatever the interleaving and whatever fails, the history of an
owner and namespace that began empty is the run-length encoding of the documents of its committed
reports, in the order of the lock.
-/
namespace FleetInventory.Store

section Rows

variable {owner : AttributeOwner} {scope : String} {rows : List StoredVersion} {r : StoredVersion}

theorem nodup_historyOf (distinct : (rows.map (·.id)).Nodup) :
    ((historyOf owner scope rows).map (·.id)).Nodup :=
  distinct.sublist (List.filter_sublist.map _)

theorem historyOf_add : historyOf owner scope ((Change.add r).apply rows)
    = historyOf owner scope rows ++ if r.owner = owner ∧ r.scope = scope then [r] else [] := by
  by_cases own : r.owner = owner ∧ r.scope = scope <;>
    simp [historyOf, Change.apply, List.filter_append, own]

theorem historyOf_raise (id : Uuid) :
    historyOf owner scope ((Change.raise id).apply rows)
      = (Change.raise id).apply (historyOf owner scope rows) := by
  simp only [historyOf, Change.apply, List.filter_map]
  congr 2
  funext r
  simp only [Function.comp_apply]
  split <;> rfl

theorem raise_of_absent {id : Uuid} (absent : ∀ r ∈ rows, r.id ≠ id) :
    (Change.raise id).apply rows = rows := by
  conv_rhs => rw [← List.map_id rows]
  exact List.map_congr_left fun r member => if_neg (absent r member)

end Rows

section Written

variable {report : Report} {rows history : List StoredVersion} {v : VersionedAttribute}
  {change : Change}

theorem Wrote.own (wrote : Wrote report history v change) :
    report.history (change.apply rows) = change.apply (report.history rows) := by
  cases wrote with
  | raised => exact historyOf_raise _
  | added found differs owner scope =>
    rw [Report.history, historyOf_add, if_pos ⟨owner, scope⟩]
    rfl

theorem Wrote.other (wrote : Wrote report (report.history rows) v change)
    (distinct : (rows.map (·.id)).Nodup) {owner : AttributeOwner} {scope : String}
    (other : ¬(report.owner = owner ∧ report.input.scope = scope)) :
    historyOf owner scope (change.apply rows) = historyOf owner scope rows := by
  cases wrote with
  | @raised _ _ r newest =>
    obtain ⟨kept, own⟩ := mem_historyOf.mp newest.member
    rw [historyOf_raise, raise_of_absent]
    intro r' member same
    obtain ⟨kept', own'⟩ := mem_historyOf.mp member
    obtain rfl := List.inj_on_of_nodup_map distinct kept' kept same
    exact other ⟨own.1.symm.trans own'.1, own.2.symm.trans own'.2⟩
  | added found differs owner' scope' =>
    rw [historyOf_add, owner', scope', if_neg other, List.append_nil]

/-- A report is told of the row that is the newest once its change is kept. -/
theorem Wrote.newest (wrote : Wrote report history v change) :
    ∃ r, IsNewest (change.apply history) r ∧ Copies v r.toVersionedAttribute := by
  cases wrote with
  | @raised _ _ r newest copy same told =>
    have raised : r.raise ∈ (Change.raise r.id).apply history :=
      List.mem_map.mpr ⟨r, newest.member, if_pos rfl⟩
    refine ⟨r.raise, ⟨raised, fun other member => ?_⟩, told⟩
    obtain ⟨r', kept, rfl⟩ := List.mem_map.mp member
    have earlier := newest.latest r' kept
    split <;> exact earlier
  | @added _ _ r found differs owner scope data tally later told =>
    refine ⟨r, ⟨List.mem_append_right _ (by simp), fun other member => ?_⟩, told⟩
    rcases List.mem_append.mp member with kept | new
    · exact Int.le_of_lt (later other kept)
    · obtain rfl := List.mem_singleton.mp new
      exact Int.le_refl _

end Written

/-- The rows of a history, oldest first, are the run-length encoding of documents. -/
structure IsTold (docs : List Document) (history : List StoredVersion) : Prop where
  ascending : history.Pairwise fun a b => a.createdAt.micros < b.createdAt.micros
  tallies : history.map (fun r => (some r.data, r.tally)) = Document.tallies docs

section Told

variable {docs : List Document} {history : List StoredVersion}

theorem isTold_nil : IsTold [] [] := ⟨.nil, rfl⟩

theorem IsTold.newest_last (told : IsTold docs history) {r : StoredVersion}
    (newest : IsNewest history r) : ∃ before, history = before ++ [r] := by
  rcases List.eq_nil_or_concat history with rfl | ⟨before, last, rfl⟩
  · cases newest.member
  simp only [List.concat_eq_append] at *
  rcases List.mem_append.mp newest.member with member | member
  · have earlier := (List.pairwise_append.mp told.ascending).2.2 r member last (by simp)
    have later := newest.latest last (by simp)
    omega
  · obtain rfl := List.mem_singleton.mp member
    exact ⟨before, rfl⟩

theorem IsTold.tallies_eq {before : List StoredVersion} {r : StoredVersion}
    (told : IsTold docs (before ++ [r])) : Document.tallies docs
      = before.map (fun r => (some r.data, r.tally)) ++ [(some r.data, r.tally)] := by
  rw [← told.tallies, List.map_append, List.map_singleton]

theorem IsTold.nil_of_nil (told : IsTold docs []) : docs = [] :=
  List.splitBy_eq_nil.mp (List.map_eq_nil_iff.mp told.tallies.symm)

/-- The newest version has the document of its run, and its tally goes up. -/
theorem IsTold.raise {d : Document} {before : List StoredVersion} {r : StoredVersion}
    (told : IsTold docs (before ++ [r])) (keyed : ∀ d ∈ docs, d.Keyed)
    (alike : r.data.same d = true) : IsTold (docs ++ [d]) (before ++ [r.raise]) where
  ascending := by
    have ascending := told.ascending
    rw [List.pairwise_append] at ascending ⊢
    obtain ⟨first, -, last⟩ := ascending
    refine ⟨first, List.pairwise_singleton .., fun a member b own => ?_⟩
    obtain rfl := List.mem_singleton.mp own
    exact last a member r (by simp)
  tallies := by
    rw [List.map_append, List.map_singleton]
    exact (Document.tallies_snoc_same keyed told.tallies_eq alike).symm

/-- A version with another document than the newest one begins a run. -/
theorem IsTold.add {before : List StoredVersion} {newest r : StoredVersion}
    (told : IsTold docs (before ++ [newest])) (keyed : ∀ d ∈ docs, d.Keyed) (tally : r.tally = 0)
    (later : ∀ other ∈ before ++ [newest], other.createdAt.micros < r.createdAt.micros)
    (differs : newest.data.same r.data = false) :
    IsTold (docs ++ [r.data]) (before ++ [newest] ++ [r]) where
  ascending := by
    refine List.pairwise_append.mpr ⟨told.ascending, List.pairwise_singleton .., ?_⟩
    intro other member b own
    obtain rfl := List.mem_singleton.mp own
    exact later other member
  tallies := by
    rw [Document.tallies_snoc_other keyed told.tallies_eq differs]
    simp [tally]

theorem isTold_singleton {r : StoredVersion} (tally : r.tally = 0) : IsTold [r.data] [r] where
  ascending := List.pairwise_singleton ..
  tallies := by
    rw [List.map_singleton, tally]
    rfl

theorem IsTold.wrote {report : Report} {v : VersionedAttribute} {change : Change}
    (told : IsTold docs history) (keyed : ∀ d ∈ docs, d.Keyed)
    (distinct : (history.map (·.id)).Nodup) (wrote : Wrote report history v change) :
    IsTold (docs ++ [report.input.data]) (change.apply history) := by
  cases wrote with
  | @raised shown _ r newest copy same =>
    obtain ⟨before, rfl⟩ := told.newest_last newest
    have apart : ∀ other ∈ before, other.id ≠ r.id := by
      rw [List.map_append, List.nodup_append] at distinct
      exact fun other member => distinct.2.2 _ (List.mem_map_of_mem member) _ (by simp)
    have raised : (Change.raise r.id).apply (before ++ [r]) = before ++ [r.raise] := by
      have kept := raise_of_absent apart
      simp only [Change.apply] at kept ⊢
      rw [List.map_append, kept, List.map_singleton, if_pos rfl]
    rw [raised]
    exact told.raise keyed (Document.same_trans copy.data same)
  | @added newest _ r found differs owner scope data tally later =>
    rw [← data]
    cases newest with
    | none =>
      obtain rfl : history = [] := found
      obtain rfl := told.nil_of_nil
      exact isTold_singleton tally
    | some shown =>
      obtain ⟨newest, latest, copy⟩ := found
      obtain ⟨before, rfl⟩ := told.newest_last latest
      refine told.add keyed tally later (Bool.eq_false_iff.mpr fun same => ?_)
      have back := (keyed _ (Document.mem_of_tallies told.tallies_eq)).same_symm copy.data
      rw [data] at same
      have repeated := Document.same_trans back same
      rw [differs shown rfl] at repeated
      cases repeated

end Told
end FleetInventory.Store
