import FleetInventory.Proofs.Document.Same
import Mathlib.Data.List.SplitBy

/-!
Run-length encoding of documents: the first document of each maximal run, with the number of its
repetitions. One more document repeats the last run if it is the same as the first of that run, and
otherwise begins a run of its own.
-/
namespace FleetInventory

theorem splitBy_snoc_of_related {α : Type} {r : α → α → Bool} {as run : List α}
    {before : List (List α)} {last a : α} (runs : as.splitBy r = before ++ [run])
    (ending : run.getLast? = some last) (related : r last a = true) :
    (as ++ [a]).splitBy r = before ++ [run ++ [a]] := by
  obtain ⟨whole, filled, chains, apart⟩ := List.splitBy_eq_iff.mp runs
  refine List.splitBy_eq_iff.mpr ⟨by simp [whole], by simp_all, fun m member => ?_, ?_⟩
  · rcases List.mem_append.mp member with member | member
    · exact chains m (by simp [member])
    · obtain rfl := List.mem_singleton.mp member
      refine List.isChain_append.mpr ⟨chains run (by simp), by simp, ?_⟩
      simpa [ending] using related
  · obtain ⟨first, -, gaps⟩ := List.isChain_append.mp apart
    refine List.isChain_append.mpr ⟨first, by simp, fun m inside m' own => ?_⟩
    obtain ⟨some, other, gap⟩ := gaps m inside run rfl
    cases own
    exact ⟨some, by simp, by rwa [List.head_append_of_ne_nil other]⟩

namespace Document

def tallies (docs : List Document) : List (Option Document × Int) :=
  (docs.splitBy same).map fun run => (run.head?, (run.length : Int) - 1)

instance : Trans (fun a b : Document => a.same b = true) (fun a b => a.same b = true)
    (fun a b => a.same b = true) where
  trans := same_trans

theorem last_same_iff {run : List Document} {first last d : Document}
    (chain : run.IsChain fun a b => a.same b = true) (keyed : ∀ d ∈ run, d.Keyed)
    (head : run.head? = some first) (ending : run.getLast? = some last) :
    last.same d = true ↔ first.same d = true := by
  obtain ⟨rest, rfl⟩ := List.head?_eq_some_iff.mp head
  rcases List.eq_nil_or_concat rest with rfl | ⟨middle, final, rfl⟩
  · obtain rfl : first = last := by simpa using ending
    rfl
  obtain rfl : final = last := by simpa [List.getLast?_cons] using ending
  have joined : first.same final = true :=
    (List.pairwise_cons.mp (List.isChain_iff_pairwise.mp chain)).1 final (by simp)
  exact ⟨same_trans joined, same_trans ((keyed first (by simp)).same_symm joined)⟩

section Snoc

variable {docs : List Document} {before : List (Option Document × Int)} {first d : Document}
  {count : Int} (keyed : ∀ d ∈ docs, d.Keyed)
  (told : tallies docs = before ++ [(some first, count)])

include told in
theorem exists_last_run : ∃ runs run last, docs.splitBy same = runs ++ [run] ∧
    runs.map (fun run => (run.head?, (run.length : Int) - 1)) = before ∧
    run.head? = some first ∧ (run.length : Int) - 1 = count ∧ run.getLast? = some last := by
  obtain ⟨runs, rest, split, whole, ended⟩ := List.map_eq_append_iff.mp told
  obtain ⟨run, rfl, entry⟩ := List.map_eq_singleton_iff.mp ended
  obtain ⟨head, length⟩ := Prod.mk.inj entry
  obtain ⟨last, ending⟩ := Option.isSome_iff_exists.mp
    (List.getLast?_isSome.mpr (List.ne_nil_of_mem (List.mem_of_head? head)))
  exact ⟨runs, run, last, split, whole, head, length, ending⟩

theorem mem_of_run {runs : List (List Document)} {run : List Document}
    (split : docs.splitBy same = runs ++ [run]) {d : Document} (inside : d ∈ run) : d ∈ docs := by
  rw [← List.flatten_splitBy same docs, split]
  exact List.mem_flatten_of_mem (by simp) inside

include told in
theorem mem_of_tallies : first ∈ docs := by
  obtain ⟨runs, run, last, split, -, head, -⟩ := exists_last_run told
  exact mem_of_run split (List.mem_of_head? head)

include keyed in
theorem last_same_iff_of_run {runs : List (List Document)} {run : List Document}
    {last : Document} (split : docs.splitBy same = runs ++ [run]) (head : run.head? = some first)
    (ending : run.getLast? = some last) : last.same d = true ↔ first.same d = true := by
  have member : run ∈ docs.splitBy same := by simp [split]
  exact last_same_iff (List.isChain_of_mem_splitBy member)
    (fun d inside => keyed d (mem_of_run split inside)) head ending

include keyed told in
theorem tallies_snoc_same (same : first.same d = true) :
    tallies (docs ++ [d]) = before ++ [(some first, count + 1)] := by
  obtain ⟨runs, run, last, split, rfl, head, rfl, ending⟩ := exists_last_run told
  have related := (last_same_iff_of_run keyed split head ending).mpr same
  rw [tallies, splitBy_snoc_of_related split ending related]
  simp [head]

include keyed told in
theorem tallies_snoc_other (differs : first.same d = false) :
    tallies (docs ++ [d]) = before ++ [(some first, count), (some d, 0)] := by
  obtain ⟨runs, run, last, split, rfl, head, rfl, ending⟩ := exists_last_run told
  have apart : last.same d = false := by
    rw [Bool.eq_false_iff, Ne, last_same_iff_of_run keyed split head ending, differs]
    simp
  have final : docs.getLast? = some last := by
    rw [← List.flatten_splitBy same docs, split]
    simp [ending]
  have alone : [d].splitBy same = [[d]] := rfl
  rw [tallies, List.splitBy_append_cons [] (by simp [final, apart]), split, alone]
  simp [head]

end Snoc
end Document
end FleetInventory
