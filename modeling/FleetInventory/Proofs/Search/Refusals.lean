import FleetInventory.Proofs.AttributeFilter.Token
import FleetInventory.Proofs.ComponentGroup.Scanning
import FleetInventory.Proofs.Search.Faultless

/-!
Requests that are refused for their filters. A filter that names no namespace is the one thing that
is wrong with filters, and it is found when the parameters are read, so a request whose parameters
were read always becomes a statement. Main statement: `refused_for_first_nameless`.
-/
namespace FleetInventory

open Sql

/-- The values of some keys with their keys: key by key, the values of each in their order. -/
def Params.occurrences (params : Params) (keys : List String) : List (String × String) :=
  keys.flatMap fun key => (params.values key).map fun token => (key, token)

namespace AttributeFilter

/-- A token with nothing in front of its key path. -/
def Nameless (token : String) : Prop := token = "" ∨ Text.startsWith "~" token = true

def Second (token path : String) : Prop :=
  ∃ scope, Text.splitAt '~' token = [scope, path] ∨
    ∃ comparison value, Text.splitAt '~' token = [scope, path, comparison, value]

/-- What is said of a token without a namespace: its key path, if there is one. -/
inductive Blames (key token : String) : SearchFault → Prop
  | keyPath {path : String} {keys : List String} (second : Second token path) (full : path ≠ "")
    (joined : String.intercalate "." keys = path) (apart : ∀ k ∈ keys, '.' ∉ k.toList) :
    Blames key token (.missingNamespace key keys)
  | nothing (bare : ∀ path, Second token path → path = "") : Blames key token (.emptyNamespace key)

end AttributeFilter

open AttributeFilter

/-- Reading fails exactly if some of the occurrences names no namespace, and with what is said of
the first of them. -/
structure Refuses {α : Type} (result : Except SearchFault α)
    (occurrences : List (String × String)) : Prop where
  fails_iff : (∃ fault, result = .error fault) ↔ ∃ o ∈ occurrences, Nameless o.2
  first : ∀ fault, result = .error fault → ∃ before key token after,
    occurrences = before ++ (key, token) :: after ∧ (∀ o ∈ before, ¬ Nameless o.2) ∧
      Nameless token ∧ Blames key token fault

namespace Refuses

variable {α β : Type} {os ps : List (String × String)}

theorem ok (a : α) : Refuses (.ok a : Except SearchFault α) [] where
  fails_iff := by simp
  first := nofun

theorem of_ok {a : α} (refuses : Refuses (.ok a : Except SearchFault α) os) :
    ∀ o ∈ os, ¬ Nameless o.2 := by
  intro o member nameless
  obtain ⟨fault, same⟩ := refuses.fails_iff.mpr ⟨o, member, nameless⟩
  cases same

theorem bind {x : Except SearchFault α} {f : α → Except SearchFault β} (first : Refuses x os)
    (second : ∀ a, x = .ok a → Refuses (f a) ps) : Refuses (x >>= f) (os ++ ps) := by
  cases x with
  | error fault =>
    obtain ⟨before, key, token, after, rfl, clear, nameless, blames⟩ := first.first fault rfl
    constructor
    · exact ⟨fun _ => ⟨(key, token), by simp, nameless⟩, fun _ => ⟨fault, rfl⟩⟩
    · intro _ same
      cases same
      exact ⟨before, key, token, after ++ ps, by simp, clear, nameless, blames⟩
  | ok a =>
    have clear := first.of_ok
    have later : Refuses (f a) ps := second a rfl
    constructor
    · refine later.fails_iff.trans
        ⟨fun ⟨o, member, nameless⟩ => ⟨o, by simp [member], nameless⟩, ?_⟩
      rintro ⟨o, member, nameless⟩
      rcases List.mem_append.mp member with member | member
      · exact absurd nameless (clear o member)
      · exact ⟨o, member, nameless⟩
    · intro fault same
      obtain ⟨before, key, token, after, rfl, apart, nameless, blames⟩ := later.first fault same
      refine ⟨os ++ before, key, token, after, by simp, fun o member => ?_, nameless, blames⟩
      exact (List.mem_append.mp member).elim (clear o) (apart o)

theorem mapM {f : α → Except SearchFault β} {occurrences : α → List (String × String)}
    (each : ∀ a, Refuses (f a) (occurrences a)) (as : List α) :
    Refuses (as.mapM f) (as.flatMap occurrences) := by
  induction as with
  | nil => exact ok []
  | cons a rest ih =>
    rw [List.mapM_cons, List.flatMap_cons]
    refine (each a).bind fun b _ => ?_
    rw [← List.append_nil (rest.flatMap occurrences)]
    exact ih.bind fun _ _ => ok _

end Refuses

namespace AttributeFilter

theorem nameless_iff {token : String} :
    Nameless token ↔ (Text.splitAt '~' token).head? = some "" := by
  rw [Nameless, Text.startsWith_iff, ← String.toList_eq_nil_iff, Text.splitAt]
  cases token.toList with
  | nil => simp [Text.pieces]
  | cons c rest =>
    by_cases divider : c = '~'
    · simp [Text.pieces, divider]
    · simp only [Text.pieces, divider, ↓reduceIte]
      split <;> simp [divider]

theorem scope_ofSegments (ts : List String) : (ofSegments ts).scope = ts.head?.getD "" := by
  unfold ofSegments
  split
  · rfl
  · split <;> rfl
  · rfl
  · rfl

theorem scope_decode_eq_empty {token : String} : (decode token).scope = "" ↔ Nameless token := by
  rw [nameless_iff, decode, scope_ofSegments]
  cases segments : Text.splitAt '~' token with
  | nil => exact absurd (List.map_eq_nil_iff.mp segments) (Text.pieces_ne_nil _ _)
  | cons scope rest => simp

theorem keyPath_of_second {token path : String} (second : Second token path) :
    (decode token).keyPath = readKeyPath path := by
  obtain ⟨scope, segments | ⟨comparison, value, segments⟩⟩ := second
  · rw [decode, segments]
    rfl
  · rw [decode, segments, ofSegments]
    split <;> rfl

theorem keyPath_of_bare {token : String} (bare : ∀ path, ¬ Second token path) :
    (decode token).keyPath = [] := by
  unfold decode ofSegments
  split
  · next scope path segments => exact absurd ⟨scope, .inl segments⟩ (bare path)
  · next scope path comparison value segments =>
    exact absurd ⟨scope, .inr ⟨comparison, value, segments⟩⟩ (bare path)
  · rfl
  · rfl

theorem intercalate_splitAt (text : String) :
    String.intercalate "." (Text.splitAt '.' text) = text := by
  rw [← String.toList_inj, String.toList_intercalate, Text.splitAt, List.map_map]
  have chars : (String.toList ∘ String.ofList) = id := funext fun _ => String.toList_ofList
  rw [chars, List.map_id]
  exact (Text.intercalate_eq_glue '.' _).trans (Text.glue_pieces '.' _)

theorem check_of_nameless (key : String) {token : String} (nameless : Nameless token) :
    ∃ fault, (decode token).check key = .error fault ∧ Blames key token fault := by
  have scope := scope_decode_eq_empty.mpr nameless
  by_cases deep : ∃ path, Second token path ∧ path ≠ ""
  · obtain ⟨path, second, full⟩ := deep
    have keys : (decode token).keyPath = Text.splitAt '.' path := by
      rw [keyPath_of_second second, readKeyPath, if_neg full]
    have any : Text.splitAt '.' path ≠ [] := by
      simpa [Text.splitAt] using Text.pieces_ne_nil '.' path.toList
    refine ⟨.missingNamespace key (Text.splitAt '.' path), by simp [check, scope, keys, any], ?_⟩
    exact .keyPath second full (intercalate_splitAt path) fun k member inside =>
      (Text.mem_splitAt member inside).1 rfl
  · have bare : ∀ path, Second token path → path = "" := fun path second =>
      Decidable.byContradiction fun full => deep ⟨path, second, full⟩
    have keys : (decode token).keyPath = [] := by
      by_cases short : ∃ path, Second token path
      · obtain ⟨path, second⟩ := short
        rw [keyPath_of_second second, bare path second]
        rfl
      · exact keyPath_of_bare fun path second => short ⟨path, second⟩
    exact ⟨.emptyNamespace key, by simp [check, scope, keys], .nothing bare⟩

theorem readOne_refuses (key token : String) : Refuses (readOne key token) [(key, token)] := by
  by_cases nameless : Nameless token
  · obtain ⟨fault, bad, blames⟩ := check_of_nameless key nameless
    have refused : readOne key token = .error fault := by
      rw [readOne, bad]
      rfl
    rw [refused]
    constructor
    · simpa using nameless
    · intro _ same
      cases same
      exact ⟨[], key, token, [], rfl, by simp, nameless, blames⟩
  · have scope := mt scope_decode_eq_empty.mp nameless
    have read : readOne key token = .ok (decode token) := by
      rw [readOne, check, if_pos scope]
      rfl
    rw [read]
    constructor
    · simpa using nameless
    · intro _ same
      cases same

theorem readAll_refuses (params : Params) (key : String) :
    Refuses (readAll params key) (params.occurrences [key]) := by
  have occurrences : params.occurrences [key]
      = (params.values key).flatMap fun token => [(key, token)] := by
    simp [Params.occurrences, List.map_eq_flatMap]
  rw [occurrences]
  exact .mapM (readOne_refuses key) _

end AttributeFilter

theorem Params.occurrences_append (params : Params) (keys more : List String) :
    params.occurrences (keys ++ more) = params.occurrences keys ++ params.occurrences more :=
  List.flatMap_append

namespace ComponentGroup

/-- The keys of the filters of the groups before `k`, in the order of reading. -/
def filterParams (k : Nat) : List String :=
  (List.range k).flatMap fun i => [attributeParam i, versionedParam i]

theorem readOne_refuses (params : Params) (index : Nat) : Refuses (readOne params index)
    (params.occurrences [attributeParam index, versionedParam index]) := by
  have split := params.occurrences_append [attributeParam index] [versionedParam index]
  rw [← List.append_nil (params.occurrences [versionedParam index])] at split
  rw [show [attributeParam index, versionedParam index]
    = [attributeParam index] ++ [versionedParam index] from rfl, split]
  exact (readAll_refuses params _).bind fun _ _ => (readAll_refuses params _).bind fun _ _ => .ok _

theorem readAll_refuses {params : Params} {k : Nat} (first : FirstGap params k) :
    Refuses (readAll params) (params.occurrences (filterParams k)) := by
  have each := Refuses.mapM (readOne_refuses params) (List.range k)
  have occurrences : params.occurrences (filterParams k) = (List.range k).flatMap fun i =>
      params.occurrences [attributeParam i, versionedParam i] := List.flatMap_assoc
  rw [readAll, first.indexes_eq, occurrences, ← List.append_nil (List.flatMap _ _)]
  exact each.bind fun _ _ => .ok _

end ComponentGroup

theorem ServerCriteria.read_refuses {params : Params} {k : Nat}
    (first : ComponentGroup.FirstGap params k) : Refuses (ServerCriteria.read params)
      (params.occurrences (["attr", "ver_attr"] ++ ComponentGroup.filterParams k)) := by
  have split : params.occurrences (["attr", "ver_attr"] ++ ComponentGroup.filterParams k)
      = params.occurrences ["attr"] ++ (params.occurrences ["ver_attr"]
        ++ (params.occurrences (ComponentGroup.filterParams k) ++ [])) := by
    rw [List.append_nil, ← Params.occurrences_append, ← Params.occurrences_append]
    rfl
  rw [split]
  exact (readAll_refuses params _).bind fun _ _ => (readAll_refuses params _).bind fun _ _ =>
    (ComponentGroup.readAll_refuses first).bind fun _ _ => .ok _

theorem ComponentCriteria.read_refuses (params : Params) :
    Refuses (ComponentCriteria.read params) (params.occurrences ["attr", "ver_attr"]) := by
  have split := params.occurrences_append ["attr"] ["ver_attr"]
  rw [← List.append_nil (params.occurrences ["ver_attr"])] at split
  exact split ▸ (readAll_refuses params _).bind fun _ _ =>
    (readAll_refuses params _).bind fun _ _ => .ok _

theorem FirmwareSetCriteria.read_refuses (params : Params) :
    Refuses (FirmwareSetCriteria.read params) (params.occurrences ["attr"]) := by
  rw [← List.append_nil (params.occurrences ["attr"])]
  exact (readAll_refuses params _).bind fun _ _ => .ok _

section Compiled

variable {params : Params}

theorem AttributeFilter.readAll_named {key : String} {filters : List AttributeFilter}
    (read : readAll params key = .ok filters) : Named filters := by
  intro filter member scope
  obtain ⟨token, -, one⟩ := mem_of_mapM read filter member
  obtain ⟨⟨⟩, checked, same⟩ := bind_eq_ok.mp one
  cases same
  obtain ⟨fault, bad, -⟩ := check_of_nameless key (scope_decode_eq_empty.mp scope)
  cases checked.symm.trans bad

theorem ComponentGroup.readAll_named {groups : List ComponentGroup}
    (read : readAll params = .ok groups) : ∀ group ∈ groups, group.Named := by
  obtain ⟨all, every, kept⟩ := bind_eq_ok.mp read
  cases kept
  intro group member
  obtain ⟨index, -, one⟩ := mem_of_mapM every group (List.mem_filter.mp member).1
  obtain ⟨attributes, first, one⟩ := bind_eq_ok.mp one
  obtain ⟨versioned, second, one⟩ := bind_eq_ok.mp one
  cases one
  exact ⟨AttributeFilter.readAll_named first, AttributeFilter.readAll_named second⟩

theorem ServerCriteria.faultless_of_read {c : ServerCriteria}
    (read : ServerCriteria.read params = .ok c) : c.fragment.Faultless := by
  obtain ⟨attributes, first, read⟩ := bind_eq_ok.mp read
  obtain ⟨versioned, second, read⟩ := bind_eq_ok.mp read
  obtain ⟨components, third, read⟩ := bind_eq_ok.mp read
  cases read
  exact fragment_faultless (AttributeFilter.readAll_named first)
    (AttributeFilter.readAll_named second) (ComponentGroup.readAll_named third)

theorem ComponentCriteria.faultless_of_read {c : ComponentCriteria}
    (read : ComponentCriteria.read params = .ok c) : c.fragment.Faultless := by
  obtain ⟨attributes, first, read⟩ := bind_eq_ok.mp read
  obtain ⟨versioned, second, read⟩ := bind_eq_ok.mp read
  cases read
  exact fragment_faultless
    ⟨AttributeFilter.readAll_named first, AttributeFilter.readAll_named second⟩

theorem FirmwareSetCriteria.faultless_of_read {c : FirmwareSetCriteria}
    (read : FirmwareSetCriteria.read params = .ok c) : c.fragment.Faultless := by
  obtain ⟨attributes, first, read⟩ := bind_eq_ok.mp read
  cases read
  exact fragment_faultless (AttributeFilter.readAll_named first)

end Compiled

/-- A request for a list is refused for its filters exactly if it names no namespace somewhere among
those that are read, and it is told of the first such place. What is read always becomes a
statement. -/
theorem refused_for_first_nameless (params : Params) :
    (∃ k, ComponentGroup.FirstGap params k ∧ Refuses (ServerCriteria.read params)
        (params.occurrences (["attr", "ver_attr"] ++ ComponentGroup.filterParams k)))
      ∧ Refuses (ComponentCriteria.read params) (params.occurrences ["attr", "ver_attr"])
      ∧ Refuses (FirmwareSetCriteria.read params) (params.occurrences ["attr"])
      ∧ (∀ c, ServerCriteria.read params = .ok c → ∃ s, Selection.ofFragment c.fragment = .ok s)
      ∧ (∀ c, ComponentCriteria.read params = .ok c → ∃ s, Selection.ofFragment c.fragment = .ok s)
      ∧ ∀ c, FirmwareSetCriteria.read params = .ok c →
        ∃ s, Selection.ofFragment c.fragment = .ok s := by
  obtain ⟨k, first⟩ := ComponentGroup.exists_firstGap params
  refine ⟨⟨k, first, ServerCriteria.read_refuses first⟩, ComponentCriteria.read_refuses params,
    FirmwareSetCriteria.read_refuses params, fun c read => ?_, fun c read => ?_, fun c read => ?_⟩
  · exact Selection.ofFragment_of_faultless (ServerCriteria.faultless_of_read read)
  · exact Selection.ofFragment_of_faultless (ComponentCriteria.faultless_of_read read)
  · exact Selection.ofFragment_of_faultless (FirmwareSetCriteria.faultless_of_read read)

/-- The token of a group is at fault, and the first of its keys is told although the other stands in
front of it. A bad token behind the gap is not read, nor is one of a group in a search for
components. -/
theorem refused_for_first_nameless_of_gap :
    let params : Params := Params.parse "sc_0_ver_attr=~&sc_2_attr=&attr=fw&sc_0_attr=~bmc.rev"
    let fault : SearchFault := .missingNamespace "sc_0_attr" ["bmc", "rev"]
    ServerCriteria.read params = .error fault
      ∧ fault.message
        = "attribute filter sc_0_attr: key path `bmc.rev` given without a namespace"
      ∧ (∃ k, ComponentGroup.FirstGap params k ∧ Refuses (ServerCriteria.read params)
        (params.occurrences (["attr", "ver_attr"] ++ ComponentGroup.filterParams k)))
      ∧ ∃ c, ComponentCriteria.read params = .ok c
        ∧ ∃ s, Selection.ofFragment c.fragment = .ok s := by
  intro params fault
  obtain ⟨servers, -, -, -, components, -⟩ := refused_for_first_nameless params
  obtain ⟨c, read⟩ : ∃ c, ComponentCriteria.read params = .ok c := ⟨_, by rfl⟩
  exact ⟨by decide +kernel, by decide +kernel, servers, c, read, components c read⟩

end FleetInventory
