import FleetInventory.Proofs.Search.Faultless
import FleetInventory.Proofs.Search.InPlace
import FleetInventory.Proofs.Sql.Growing
import FleetInventory.Proofs.Text.Split

/-!
A selection built in any order of calls. Every call appends, and a call that is refused leaves no
part of a condition behind and no placeholder without a value. Main statement:
`building_only_appends`.
-/
namespace FleetInventory

open Sql

theorem Sql.Column.render_ofText (text : String) : (Column.ofText text).render = text := by
  unfold ofText
  split
  · next owner name found =>
    obtain ⟨⟨before, after⟩, cut, pair⟩ := Option.map_eq_some_iff.mp found
    cases pair
    rw [Column.render_of, ← String.toList_inj, Text.eq_of_cut cut]
    simp
  · rfl

namespace AttributeFilter

variable {source : AttributeSource} {parent lead : String} {filters : List AttributeFilter}

theorem fragments_sound (source : AttributeSource) (filters : List AttributeFilter)
    (first : '$' ∉ parent.toList) (second : '$' ∉ lead.toList) :
    (fragments source parent lead filters).Sound := by
  unfold fragments
  split
  · exact Fragment.refused_sound _
  · exact (fragmentsFrom_writes (fun _ => "") source lead 0 filters first second).sound
      (Fragment.all_faultless (fragmentsFrom_faultless source parent lead 0 filters))

theorem fragments_of_fault {bound : Nat} {fault : SearchFault}
    (failed : (fragments source parent lead filters bound).fault = some fault) :
    fragments source parent lead filters bound = ⟨[], [], [], some fault⟩ := by
  unfold fragments at failed ⊢
  cases first : firstFault? source.stem filters with
  | some own =>
    rw [first] at failed
    cases failed
    rfl
  | none =>
    have clean :=
      Fragment.all_faultless (fragmentsFrom_faultless source parent lead 0 filters) bound
    rw [first] at failed
    cases clean.symm.trans failed

end AttributeFilter

namespace ComponentGroup

variable {parent : String} {index bound : Nat} {group : ComponentGroup}
  {groups : List ComponentGroup} {fault : SearchFault}

theorem clauses_sound {component lead kindName : String} (group : ComponentGroup)
    (first : '$' ∉ component.toList) (second : '$' ∉ lead.toList) (third : '$' ∉ kindName.toList) :
    (clauses component lead kindName group).Sound := by
  have fields := (columns_writes (fun _ => "") first group.fields_plain).sound
    (Fragment.all_faultless fun p member => by
      obtain ⟨field, -, rfl⟩ := List.mem_map.mp member
      exact Fragment.equals_faultless _ _)
  have kind := (kindFragment_writes (fun _ => "") group first third).sound
    (kindFragment_faultless component kindName group)
  have plain := AttributeFilter.fragments_sound .component group.attributes first second
  have versioned := AttributeFilter.fragments_sound .componentVersioned group.versioned first second
  rw [clauses_eq]
  exact fields.andThen (kind.andThen (plain.andThen (versioned.andThen Fragment.nothing_sound)))

theorem placed_sound (index : Nat) (group : ComponentGroup) (plain : '$' ∉ parent.toList) :
    (placed parent index group).Sound := by
  unfold placed
  split
  · exact Fragment.nothing_sound
  · have joined : (Fragment.joined (rowJoin parent index) : Fragment Clause).Sound :=
      (Fragment.joined_writes (fun _ => "") (by decide) (rowName_plain index) (by decide) plain
        (by decide)).sound (Fragment.joined_faultless _)
    have kind : '$' ∉ (lead index ++ "type").toList := by simp [lead_plain index]
    exact (joined.andThen
      (clauses_sound group (rowName_plain index) (lead_plain index) kind)).asBlock

theorem rowFragmentsFrom_sound (index : Nat) (groups : List ComponentGroup)
    (plain : '$' ∉ parent.toList) :
    (Fragment.all (rowFragmentsFrom parent index groups)).Sound := by
  induction groups generalizing index with
  | nil => exact Fragment.nothing_sound
  | cons group rest ih => exact (placed_sound index group plain).andThen (ih (index + 1))

theorem placed_of_fault (failed : (placed parent index group bound).fault = some fault) :
    group.isEmpty = false ∧ ¬group.Named ∧ (placed parent index group bound).conditions = [] := by
  unfold placed at failed ⊢
  split at failed
  · contradiction
  · next full =>
    refine ⟨by simpa using full, fun named => ?_, ?_⟩
    · cases (rowFragment_faultless parent index named bound).symm.trans failed
    · have stopped : ((Fragment.joined (rowJoin parent index)).andThen (clauses (rowName index)
          (lead index) (lead index ++ "type") group) bound).fault = some fault := failed
      rw [if_neg full, rowFragment, Fragment.asBlock, Fragment.finish_of_fault stopped]

/-- Groups stop at the first that is refused. Those before it have added what they add alone. -/
theorem rowFragmentsFrom_of_fault
    (failed : (Fragment.all (rowFragmentsFrom parent index groups) bound).fault = some fault) :
    ∃ before failing after, groups = before ++ failing :: after ∧ failing.isEmpty = false
      ∧ ¬failing.Named
      ∧ (Fragment.all (rowFragmentsFrom parent index before) bound).fault = none
      ∧ ∃ rest : Draft Predicate, rest.conditions = []
        ∧ Fragment.all (rowFragmentsFrom parent index groups) bound
          = (Fragment.all (rowFragmentsFrom parent index before) bound).append rest := by
  induction groups generalizing index bound with
  | nil => contradiction
  | cons group more ih =>
    rw [rowFragmentsFrom_cons] at failed ⊢
    cases first : (placed parent index group bound).fault with
    | some own =>
      obtain ⟨full, nameless, none⟩ := placed_of_fault first
      rw [Fragment.andThen_of_fault first]
      exact ⟨[], group, more, rfl, full, nameless, rfl, _, none, rfl⟩
    | none =>
      rw [Fragment.andThen_of_ok first] at failed ⊢
      obtain ⟨before, failing, after, split, full, nameless, clean, rest, none, whole⟩ := ih failed
      have alone := Fragment.andThen_of_ok first
        (Fragment.all (rowFragmentsFrom parent (index + 1) before))
      refine ⟨group :: before, failing, after, by rw [split, List.cons_append], full, nameless, ?_,
        rest, none, ?_⟩
      · rw [rowFragmentsFrom_cons, alone]
        exact clean
      · rw [rowFragmentsFrom_cons, alone, whole, Draft.append_assoc]

end ComponentGroup

inductive BuildStep where
  | bind (value : Value)
  | equals (column value : String)
  | filters (source : AttributeSource) (parent : String) (filters : List AttributeFilter)
  | groups (parent : String) (groups : List ComponentGroup)
  | conditions (component : String) (group : ComponentGroup)

namespace BuildStep

def names : BuildStep → List String
  | bind _ => []
  | equals column _ => [column]
  | filters _ parent _ | groups parent _ => [parent]
  | conditions component _ => [component]

/-- No name brings in a dollar sign. -/
def Trusted (step : BuildStep) : Prop := ∀ name ∈ step.names, '$' ∉ name.toList

instance (step : BuildStep) : Decidable step.Trusted :=
  inferInstanceAs (Decidable (∀ name ∈ step.names, '$' ∉ name.toList))

end BuildStep

namespace Sql.Selection

def build (s : Selection) : BuildStep → Selection × Option SearchFault
  | .bind value => ((s.bind value).1, none)
  | .equals column value => s.add (Fragment.equals (.ofText column) (.text value)).singles
  | .filters source parent filters =>
    s.add (AttributeFilter.fragments source parent "" filters).singles
  | .groups parent groups => s.add (ComponentGroup.rowFragments parent groups)
  | .conditions component group => s.add (ComponentGroup.listedFragment component group)

/-- One call after the other. A refusal does not end the row of calls. -/
def buildAll (s : Selection) (steps : List BuildStep) : Selection :=
  steps.foldl (fun s step => (s.build step).1) s

theorem build_extends (s : Selection) (step : BuildStep) : s.Extends (s.build step).1 := by
  cases step with
  | bind value => exact s.bind_extends value
  | equals column value => exact s.add_extends _
  | filters source parent filters => exact s.add_extends _
  | groups parent groups => exact s.add_extends _
  | conditions component group => exact s.add_extends _

theorem build_closed {s : Selection} {step : BuildStep} (closed : s.Closed)
    (trusted : step.Trusted) : (s.build step).1.Closed := by
  cases step with
  | bind value => exact bind_closed closed value
  | equals column value =>
    have plain : '$' ∉ (Column.ofText column).render.toList := by
      rw [Column.render_ofText]
      exact trusted column (.head _)
    exact add_closed closed (Fragment.equals_sound _ plain).singles
  | filters source parent filters =>
    have plain : '$' ∉ parent.toList := trusted parent (.head _)
    exact add_closed closed
      (AttributeFilter.fragments_sound source filters plain (by decide)).singles
  | groups parent groups =>
    exact add_closed closed
      (ComponentGroup.rowFragmentsFrom_sound 0 groups (trusted parent (.head _)))
  | conditions component group =>
    have plain : '$' ∉ component.toList := trusted component (.head _)
    have kind : '$' ∉ (component ++ "_type").toList := by simp [plain]
    exact add_closed closed (ComponentGroup.clauses_sound group plain (by decide) kind).singles

theorem buildAll_extends (s : Selection) (steps : List BuildStep) :
    s.Extends (s.buildAll steps) := by
  induction steps generalizing s with
  | nil => exact .refl s
  | cons step rest ih => exact (s.build_extends step).trans (ih _)

theorem buildAll_closed {s : Selection} {steps : List BuildStep} (closed : s.Closed)
    (trusted : ∀ step ∈ steps, step.Trusted) : (s.buildAll steps).Closed := by
  induction steps generalizing s with
  | nil => exact closed
  | cons step rest ih =>
    exact ih (build_closed closed (trusted step List.mem_cons_self))
      fun later member => trusted later (List.mem_cons_of_mem _ member)

/-- How a refused list of groups leaves a selection: `failing` is the group it stops at, and the
blocks that are added are those of the groups `before` it, complete and one for each group that is
not empty. Without the rest of the list these groups add the same. -/
structure StoppedAt (parent : String) (before : List ComponentGroup) (failing : ComponentGroup)
    (s t : Selection) : Prop where
  full : failing.isEmpty = false
  nameless : ¬failing.Named
  accepted : (s.build (.groups parent before)).2 = none
  predicates : t.predicates = (s.build (.groups parent before)).1.predicates
  blocks : ∃ blocks, t.predicateTexts = s.predicateTexts ++ blocks ∧
    ∀ quote, blocks.map (Template.substitute (shown quote t.values)) =
      (Written.all (before.zipIdx.map fun (group, j) => group.writtenAt quote parent j)).conditions

variable {s t : Selection} {parent component : String} {fault : SearchFault}

theorem eq_of_refused_filters {source : AttributeSource} {filters : List AttributeFilter}
    (refused : s.build (.filters source parent filters) = (t, some fault)) : t = s := by
  have failed : (AttributeFilter.fragments source parent "" filters s.values.length).fault
      = some fault := congrArg Prod.snd refused
  have left : (s.build (.filters source parent filters)).1 = t := congrArg Prod.fst refused
  rw [← left, build, add, Fragment.singles, Fragment.finish_of_fault failed,
    AttributeFilter.fragments_of_fault failed]
  simp only [List.append_nil]

theorem predicates_of_refused_conditions {group : ComponentGroup}
    (refused : s.build (.conditions component group) = (t, some fault)) :
    t.predicates = s.predicates := by
  have failed : (ComponentGroup.clauses component "" (component ++ "_type") group
      s.values.length).fault = some fault := congrArg Prod.snd refused
  have left : (s.build (.conditions component group)).1 = t := congrArg Prod.fst refused
  rw [← left, build, add, ComponentGroup.listedFragment, Fragment.singles,
    Fragment.finish_of_fault failed]
  exact List.append_nil _

theorem stoppedAt_of_refused_groups {groups : List ComponentGroup} (plain : '$' ∉ parent.toList)
    (refused : s.build (.groups parent groups) = (t, some fault)) :
    ∃ before failing after, groups = before ++ failing :: after ∧
      StoppedAt parent before failing s t := by
  have failed : (ComponentGroup.rowFragments parent groups s.values.length).fault = some fault :=
    congrArg Prod.snd refused
  have left : (s.build (.groups parent groups)).1 = t := congrArg Prod.fst refused
  obtain ⟨before, failing, after, split, full, nameless, clean, rest, none, whole⟩ :=
    ComponentGroup.rowFragmentsFrom_of_fault failed
  have predicates : t.predicates = s.predicates
      ++ (ComponentGroup.rowFragments parent before s.values.length).conditions := by
    rw [← left, build, add, ComponentGroup.rowFragments, whole, Draft.append, none, List.append_nil]
    rfl
  have values : t.values = s.values
      ++ ((ComponentGroup.rowFragments parent before s.values.length).values ++ rest.values) := by
    rw [← left, build, add, ComponentGroup.rowFragments, whole]
    rfl
  refine ⟨before, failing, after, split, full, nameless, clean, predicates,
    (ComponentGroup.rowFragments parent before s.values.length).conditions.map
      (Predicate.render placeholder), ?_, fun quote => ?_⟩
  · rw [predicateTexts, predicates, List.map_append, predicateTexts]
  · have writes := ComponentGroup.rowFragmentsFrom_writes quote 0 before plain _ clean
    exact writes.shown_conditions (values ▸ binds_between _ _ _)

end Sql.Selection

/-- However a selection is built, it only grows, and its placeholders are all bound. Refused filters
leave it as it is, refused conditions leave its predicates, and refused groups add the blocks of
the groups before. -/
theorem building_only_appends :
    (∀ (s : Selection) (earlier later : List BuildStep),
      (s.buildAll earlier).Extends (s.buildAll (earlier ++ later)))
    ∧ (∀ (s : Selection) (steps : List BuildStep), s.Closed → (∀ step ∈ steps, step.Trusted) →
      (s.buildAll steps).Closed)
    ∧ (∀ (s t : Selection) source parent filters fault,
      s.build (.filters source parent filters) = (t, some fault) → t = s)
    ∧ (∀ (s t : Selection) component group fault,
      s.build (.conditions component group) = (t, some fault) → t.predicates = s.predicates)
    ∧ ∀ (s t : Selection) parent groups fault, (BuildStep.groups parent groups).Trusted →
      s.build (.groups parent groups) = (t, some fault) →
      ∃ before failing after, groups = before ++ failing :: after ∧
        Selection.StoppedAt parent before failing s t := by
  refine ⟨fun s earlier later => ?_, fun s steps => Selection.buildAll_closed,
    fun s t source parent filters fault => Selection.eq_of_refused_filters,
    fun s t component group fault => Selection.predicates_of_refused_conditions,
    fun s t parent groups fault trusted refused => ?_⟩
  · rw [Selection.buildAll, Selection.buildAll, List.foldl_append]
    exact Selection.buildAll_extends _ later
  · exact Selection.stoppedAt_of_refused_groups (trusted parent (.head _)) refused

/-- A statement in the making: filters are refused, a group after a good and an empty one is, and so
are conditions, with calls in between that add. -/
theorem building_only_appends_of_refusals :
    let good : AttributeFilter := ⟨"fw", ["version"], some .equal, "$7"⟩
    let bad : AttributeFilter := ⟨"", ["version"], none, ""⟩
    let nic : ComponentGroup := ⟨none, some "Acme", none, none, some "nic", [good], []⟩
    let refused : ComponentGroup := ⟨some "eth0", none, none, none, some "nic", [good], [bad]⟩
    let filters : BuildStep := .filters .server "servers" [good, bad]
    let groups : List ComponentGroup := [nic, .empty, refused, nic]
    let conditions : BuildStep := .conditions "c" refused
    let steps : List BuildStep := [.bind (.int 3), filters, .groups "servers" groups, conditions,
      .equals "servers.name" "nemo", .filters .server "servers" [good]]
    let s := Selection.everything
    let built := s.buildAll steps
    (∀ step ∈ steps, step.Trusted) ∧ built.Closed ∧ built.values.length = 20
      ∧ built.predicateTexts = ["(comp_0.vendor = $2 AND comp_0_type.slug = $3 AND "
          ++ "(comp_0_attr_0.namespace = $4 AND "
          ++ "jsonb_extract_path_text(comp_0_attr_0.data, $5) = $6))", "servers.name = $17",
        "(attr_0.namespace = $18 AND jsonb_extract_path_text(attr_0.data, $19) = $20)"]
      ∧ (s.build filters).2 = some (.missingNamespace "attr" ["version"])
      ∧ (s.build filters).1 = s
      ∧ (s.build conditions).2 = some (.missingNamespace "ver_attr" ["version"])
      ∧ (s.build conditions).1.predicates = s.predicates
      ∧ ∃ before failing after, groups = before ++ failing :: after ∧
        Selection.StoppedAt "servers" before failing s (s.build (.groups "servers" groups)).1 := by
  intro good bad nic refused filters groups conditions steps s built
  have trusted : ∀ step ∈ steps, step.Trusted := by decide +kernel
  obtain ⟨-, closed, sameFilters, sameConditions, stopped⟩ := building_only_appends
  exact ⟨trusted, closed s steps Selection.everything_closed trusted, by decide +kernel,
    by decide +kernel, rfl, sameFilters s _ .server "servers" _ _ rfl, rfl,
    sameConditions s _ "c" _ _ rfl, stopped s _ "servers" groups _ (by decide +kernel) rfl⟩

end FleetInventory
