import FleetInventory.Proofs.Search.Agreement
import FleetInventory.Proofs.Search.InPlace
import FleetInventory.Proofs.Search.Shape

/-!
What a list statement selects from says nothing of an order. No text that criteria are written as
has a letter Y of its own, so the first `ORDER BY` of a statement is the one that ends its source.
-/
namespace FleetInventory

open Sql

namespace Text

/-- The text does not have the letter that stands in no word of a list statement but `BY`. -/
def Unordered (text : String) : Prop := 'Y' ∉ text.toList

instance (text : String) : Decidable (Unordered text) :=
  inferInstanceAs (Decidable ('Y' ∉ text.toList))

theorem unordered_append {a b : String} :
    Unordered (a ++ b) ↔ Unordered a ∧ Unordered b := by
  simp [Unordered]

theorem unordered_showNat (n : Nat) : Unordered (showNat n) := by
  intro member
  rw [showNat_toList] at member
  exact absurd (decimal_isDigit member) (by decide)

theorem unordered_join {texts : List String} (each : ∀ text ∈ texts, Unordered text) :
    Unordered (String.join texts) := by
  induction texts with
  | nil => decide
  | cons text rest ih =>
    rw [String.join_cons, unordered_append]
    exact ⟨each _ List.mem_cons_self, ih fun other member => each _ (List.mem_cons_of_mem _ member)⟩

theorem unordered_intercalate {mark : String} {texts : List String} (between : Unordered mark)
    (each : ∀ text ∈ texts, Unordered text) : Unordered (String.intercalate mark texts) := by
  induction texts with
  | nil => simp [Unordered]
  | cons text rest ih =>
    have first := each text List.mem_cons_self
    have later := ih fun other member => each other (List.mem_cons_of_mem _ member)
    cases rest with
    | nil => exact first
    | cons next more =>
      rw [String.intercalate_cons_cons, unordered_append, unordered_append]
      exact ⟨⟨first, between⟩, later⟩

theorem unordered_path {keys : List String} (each : ∀ key ∈ keys, Unordered key)
    {start : String} (begins : Unordered start) :
    Unordered (keys.foldl (fun text key => text ++ " -> " ++ key) start) := by
  induction keys generalizing start with
  | nil => exact begins
  | cons key rest ih =>
    refine ih (fun other member => each other (List.mem_cons_of_mem _ member)) ?_
    simp only [unordered_append, begins, each key List.mem_cons_self]
    decide

end Text

namespace Sql.Written

def Unordered (t : Written) : Prop :=
  (∀ join ∈ t.joins, Text.Unordered join) ∧ ∀ condition ∈ t.conditions, Text.Unordered condition

variable {s t : Written}

theorem unordered_nothing : nothing.Unordered := ⟨nofun, nofun⟩

theorem Unordered.append (first : s.Unordered) (second : t.Unordered) :
    (s.append t).Unordered :=
  ⟨List.forall_mem_append.mpr ⟨first.1, second.1⟩,
    List.forall_mem_append.mpr ⟨first.2, second.2⟩⟩

theorem unordered_all {ts : List Written} (each : ∀ t ∈ ts, t.Unordered) :
    (all ts).Unordered := by
  induction ts with
  | nil => exact unordered_nothing
  | cons t rest ih =>
    exact (each t List.mem_cons_self).append
      (ih fun other member => each other (List.mem_cons_of_mem _ member))

theorem Unordered.conjunction (clear : t.Unordered) :
    Text.Unordered (Sql.conjunction t.conditions) :=
  Text.unordered_intercalate (by decide) clear.2

theorem Unordered.asBlock (clear : t.Unordered) : t.asBlock.Unordered := by
  refine ⟨clear.1, fun condition member => ?_⟩
  rw [List.mem_singleton.mp member]
  simp only [Text.unordered_append, clear.conjunction]
  decide

theorem Unordered.source (clear : t.Unordered) {table : String} (named : Text.Unordered table) :
    Text.Unordered (t.source table) := by
  have joins : Text.Unordered (String.join (t.joins.map (" " ++ ·))) := by
    apply Text.unordered_join
    intro text member
    obtain ⟨join, present, rfl⟩ := List.mem_map.mp member
    exact Text.unordered_append.mpr ⟨by decide, clear.1 join present⟩
  unfold Written.source
  split
  · simp only [Text.unordered_append, named, joins]
    decide
  · simp only [Text.unordered_append, named, joins, clear.conjunction]
    decide

end Sql.Written

namespace Sql

theorem Template.mem_of_mem_fill {c : Char} {t : Template} (plain : c ≠ '$')
    (letter : c.isDigit = false) (member : c ∈ (fill placeholder t).toList) : .char c ∈ t := by
  rw [fill, String.toList_ofList] at member
  obtain ⟨piece, inside, shown⟩ := List.mem_flatMap.mp member
  cases piece with
  | char d =>
    rw [List.mem_singleton.mp shown]
    exact inside
  | slot n =>
    rw [Piece.chars, placeholder_toList] at shown
    rcases List.mem_cons.mp shown with same | digit
    · exact absurd same plain
    · exact absurd (Text.decimal_isDigit digit) (by rw [letter]; decide)

theorem Template.mem_fill_of_mem {c : Char} {t : Template} (inside : .char c ∈ t)
    (hole : Nat → String) : c ∈ (fill hole t).toList := by
  rw [fill, String.toList_ofList]
  exact List.mem_flatMap.mpr ⟨.char c, inside, List.mem_singleton_self c⟩

/-- A letter of the source is no part of a placeholder, so it stands in what is written. -/
theorem Selection.unordered_source {p : Fragment Predicate} {quote : Value → String} {t : Written}
    {s : Selection} {table : String} (compiled : ofFragment p = .ok s) (writes : p.Writes quote t)
    (clear : t.Unordered) (named : Text.Unordered table) : Text.Unordered (s.source table) := by
  obtain ⟨ok, rfl⟩ := ofFragment_eq_ok compiled
  have draft := writes 0 ok
  have written := query_text_written (s := ⟨(p 0).joins, (p 0).conditions, (p 0).values⟩) table
    (draft.joins _ (binds_all _)) (draft.conditions _ (binds_all _))
  intro member
  rw [source_eq, ← Query.fill_template] at member
  have inside := Template.mem_of_mem_fill (by decide) (by decide) member
  apply clear.source named
  rw [← written, ← Query.fill_template]
  exact Template.mem_fill_of_mem inside _

end Sql

variable {quote : Value → String} (clear : ∀ value, Text.Unordered (quote value))

namespace AttributeFilter

include clear

theorem unordered_writtenJoin (source : AttributeSource) {parent name : String}
    (filter : AttributeFilter) (first : Text.Unordered parent) (second : Text.Unordered name) :
    Text.Unordered (filter.writtenJoin quote source parent name) := by
  have table : Text.Unordered source.table := by cases source <;> decide
  have owner : Text.Unordered source.ownerColumn := by cases source <;> decide
  unfold writtenJoin
  split
  all_goals
    simp only [Text.unordered_append, first, second, table, owner, clear]
    decide

theorem unordered_writtenTest {name text : String} (filter : AttributeFilter)
    (named : Text.Unordered name) (tested : filter.writtenTest quote name = some text) :
    Text.Unordered text := by
  have keys : ∀ key ∈ filter.keyPath.map fun key => quote (.text key), Text.Unordered key := by
    intro key member
    obtain ⟨k, -, rfl⟩ := List.mem_map.mp member
    exact clear _
  unfold writtenTest at tested
  dsimp only at tested
  generalize (filter.keyPath.map fun key => quote (.text key)) = texts at keys tested
  split at tested
  · cases tested
  · next last found _ =>
    cases tested
    have parents : ∀ key ∈ texts.dropLast, Text.Unordered key := fun key member =>
      keys key ((List.dropLast_sublist texts).mem member)
    have start : Text.Unordered (name ++ ".data") :=
      Text.unordered_append.mpr ⟨named, by decide⟩
    simp only [Text.unordered_append, Text.unordered_path parents start,
      keys last (List.mem_of_getLast? found)]
    decide
  · next comparison _ _ =>
    cases tested
    have path : Text.Unordered (String.intercalate ", " texts) :=
      Text.unordered_intercalate (by decide) keys
    cases comparison
    all_goals
      simp only [comparisonText, Text.unordered_append, named, path, clear]
      decide

theorem unordered_writtenCondition {name : String} (filter : AttributeFilter)
    (named : Text.Unordered name) : Text.Unordered (filter.writtenCondition quote name) := by
  unfold writtenCondition
  dsimp only
  split
  · next tested test =>
    simp only [Text.unordered_append, named, clear, unordered_writtenTest clear filter named test]
    decide
  · simp only [Text.unordered_append, named, clear]
    decide

theorem unordered_writtenFrom (source : AttributeSource) {parent lead : String} (position : Nat)
    (filters : List AttributeFilter) (first : Text.Unordered parent)
    (second : Text.Unordered lead) :
    (writtenFrom quote source parent lead position filters).Unordered := by
  have stem : Text.Unordered source.stem := by cases source <;> decide
  have named : ∀ i, Text.Unordered (lead ++ source.stem ++ "_" ++ Text.showNat i) := by
    intro i
    simp only [Text.unordered_append, Text.unordered_showNat, second, stem]
    decide
  constructor
  · refine List.forall_mem_map.mpr fun placed _ => ?_
    exact unordered_writtenJoin clear source placed.1 first (named _)
  · refine List.forall_mem_map.mpr fun placed _ => ?_
    exact unordered_writtenCondition clear placed.1 (named _)

end AttributeFilter

namespace ComponentGroup

include clear

theorem unordered_written {component lead kindName : String} (group : ComponentGroup)
    (first : Text.Unordered component) (second : Text.Unordered lead)
    (third : Text.Unordered kindName) :
    (group.written quote component lead kindName).Unordered := by
  have columns : ∀ column ∈ ["name", "vendor", "model", "serial"], Text.Unordered column := by
    decide
  have fields : (group.writtenFields quote component).Unordered := by
    rw [writtenFields_eq]
    refine ⟨nofun, List.forall_mem_map.mpr fun field member => ?_⟩
    simp only [Text.unordered_append, first, columns _ (group.fields_columns field member), clear]
    decide
  have kind : (group.writtenKind quote component kindName).Unordered := by
    rw [writtenKind_eq]
    cases group.kind? with
    | none => exact Written.unordered_nothing
    | some slug =>
      refine ⟨List.forall_mem_singleton.mpr ?_, List.forall_mem_singleton.mpr ?_⟩
      all_goals
        simp only [Text.unordered_append, first, third, clear]
        decide
  have plain := AttributeFilter.unordered_writtenFrom clear .component 0 group.attributes first
    second
  have versioned := AttributeFilter.unordered_writtenFrom clear .componentVersioned 0
    group.versioned first second
  apply Written.unordered_all
  simp only [List.forall_mem_cons]
  exact ⟨fields, kind, plain, versioned, nofun⟩

theorem unordered_writtenAt {parent : String} (j : Nat) (group : ComponentGroup)
    (named : Text.Unordered parent) : (group.writtenAt quote parent j).Unordered := by
  have row : Text.Unordered ("comp_" ++ Text.showNat j) :=
    Text.unordered_append.mpr ⟨by decide, Text.unordered_showNat j⟩
  have lead : Text.Unordered ("comp_" ++ Text.showNat j ++ "_") :=
    Text.unordered_append.mpr ⟨row, by decide⟩
  have kind : Text.Unordered ("comp_" ++ Text.showNat j ++ "_type") :=
    Text.unordered_append.mpr ⟨row, by decide⟩
  unfold writtenAt
  dsimp only
  split
  · exact Written.unordered_nothing
  · have joined : Text.Unordered (writtenRow parent ("comp_" ++ Text.showNat j)) := by
      unfold writtenRow
      simp only [Text.unordered_append, row, named]
      decide
    have placed : Written.Unordered ⟨[writtenRow parent ("comp_" ++ Text.showNat j)], []⟩ :=
      ⟨List.forall_mem_singleton.mpr joined, nofun⟩
    exact (placed.append (unordered_written clear group row lead kind)).asBlock

end ComponentGroup

include clear in
theorem unordered_writtenGiven {table column : String} (value : Option String)
    (first : Text.Unordered table) (second : Text.Unordered column) :
    (writtenGiven quote table column value).Unordered := by
  cases value with
  | none => exact Written.unordered_nothing
  | some v =>
    refine ⟨nofun, List.forall_mem_singleton.mpr ?_⟩
    simp only [Text.unordered_append, first, second, clear]
    decide

namespace ListCriteria

def written (quote : Value → String) : ListCriteria → Written
  | servers c => c.written quote
  | components c => c.written quote
  | firmware c => c.written quote
  | firmwareSets c => c.written quote

theorem fragment_writes (quote : Value → String) (k : ListCriteria) :
    k.fragment.Writes quote (k.written quote) := by
  cases k with
  | servers c => exact c.fragment_writes quote
  | components c => exact c.fragment_writes quote
  | firmware c => exact c.fragment_writes quote
  | firmwareSets c => exact c.fragment_writes quote

include clear

theorem unordered_written (k : ListCriteria) : (k.written quote).Unordered := by
  cases k with
  | servers c =>
    apply Written.unordered_all
    simp only [List.forall_mem_cons]
    refine ⟨unordered_writtenGiven clear c.name (by decide) (by decide),
      unordered_writtenGiven clear c.facilityCode (by decide) (by decide),
      AttributeFilter.unordered_writtenFrom clear _ _ _ (by decide) (by decide),
      AttributeFilter.unordered_writtenFrom clear _ _ _ (by decide) (by decide), ?_, nofun⟩
    refine Written.unordered_all (List.forall_mem_map.mpr fun placed _ => ?_)
    exact placed.1.unordered_writtenAt clear _ (by decide)
  | components c =>
    refine Written.Unordered.append ⟨nofun, ?_⟩
      (c.group.unordered_written clear (by decide) (by decide) (by decide))
    cases c.serverId with
    | none => exact nofun
    | some id =>
      refine List.forall_mem_singleton.mpr (Text.unordered_append.mpr ⟨by decide, clear _⟩)
  | firmware c =>
    apply Written.unordered_all
    simp only [List.forall_mem_cons]
    exact ⟨unordered_writtenGiven clear c.vendor (by decide) (by decide),
      unordered_writtenGiven clear c.model (by decide) (by decide),
      unordered_writtenGiven clear c.version (by decide) (by decide), nofun⟩
  | firmwareSets c =>
    exact (unordered_writtenGiven clear c.name (by decide) (by decide)).append
      (AttributeFilter.unordered_writtenFrom clear _ _ _ (by decide) (by decide))

end ListCriteria

theorem Listing.table_lower (listing : Listing) {c : Char} (upper : c.isUpper = true) :
    c ∉ listing.table.toList := by
  have lower : listing.table.toList.all (!·.isUpper) = true := by
    cases listing with
    | componentsOf server =>
      exact (show ComponentCriteria.table.toList.all (!·.isUpper) = true by decide +kernel)
    | _ => decide +kernel
  intro member
  simpa [upper] using List.all_eq_true.mp lower c member

theorem Plan.unordered_source {listing : Listing} {params : Params} {plan : Plan}
    (planned : ofParams listing params = .ok plan) :
    Text.Unordered (plan.selection.source plan.listing.table) := by
  obtain ⟨order, selection, -, selected, rfl⟩ := ofParams_eq_ok.mp planned
  rw [Listing.select, Listing.fragment_eq] at selected
  cases read : listing.criteria params with
  | error fault =>
    rw [read] at selected
    cases selected
  | ok k =>
    rw [read] at selected
    have clear : (k.written fun _ => "").Unordered := k.unordered_written fun _ => by decide
    exact Selection.unordered_source selected (k.fragment_writes _) clear
      (listing.table_lower (by decide))

end FleetInventory
