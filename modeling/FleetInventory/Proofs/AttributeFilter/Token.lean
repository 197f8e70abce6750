import FleetInventory.AttributeFilter
import FleetInventory.Proofs.Text.Split

/-!
Filters and their written form. The two separators can not be written inside a part, a comparison
by pattern is opened when it is read, and a key path of one empty key is read as none. Main
statement: `reads_back_iff`, these are all the filters that writing and reading change, and nothing
that is read is one of them.
-/
namespace FleetInventory

namespace Text

theorem splitAt_of_glue {sep : Char} {text : String} {ts : List String}
    (whole : text.toList = glue sep (ts.map String.toList)) (any : ts ≠ [])
    (clean : ∀ t ∈ ts, sep ∉ t.toList) : splitAt sep text = ts := by
  have apart : ∀ cs ∈ ts.map String.toList, sep ∉ cs := by
    intro cs member
    obtain ⟨t, inside, rfl⟩ := List.mem_map.mp member
    exact clean t inside
  have filled : ts.map String.toList ≠ [] := by simpa using any
  rw [splitAt, whole, pieces_glue filled apart, List.map_map]
  conv => rhs; rw [← List.map_id ts]
  apply List.map_congr_left
  intro t _
  exact String.ofList_toList

theorem mem_splitAt {sep c : Char} {text t : String} (member : t ∈ splitAt sep text)
    (inside : c ∈ t.toList) : c ≠ sep ∧ c ∈ text.toList := by
  obtain ⟨piece, within, rfl⟩ := List.mem_map.mp member
  rw [String.toList_ofList] at inside
  exact mem_piece within inside

theorem splitAt_eq_empty {sep : Char} {text : String} (one : splitAt sep text = [""]) :
    text = "" := by
  have glued := glue_pieces sep text.toList
  obtain ⟨piece, parts, blank⟩ := List.map_eq_singleton_iff.mp one
  rw [parts, glue] at glued
  rw [← String.ofList_toList (s := text), ← glued, blank]

end Text

theorem Comparison.token_clean (c : Comparison) : '~' ∉ c.token.toList := by
  cases c <;> decide

theorem Comparison.ofToken?_token (c : Comparison) : ofToken? c.token = some c := by
  cases c <;> rfl

namespace AttributeFilter

/-- Every part of the filter can be told from the separators around it. -/
structure Delimited (f : AttributeFilter) : Prop where
  scope : '~' ∉ f.scope.toList
  keys : ∀ key ∈ f.keyPath, '~' ∉ key.toList ∧ '.' ∉ key.toList
  path : f.keyPath ≠ [""]
  bare : f.comparison = none → f.value = ""
  value : f.comparison ≠ none → '~' ∉ f.value.toList

def Patterned (f : AttributeFilter) : Prop :=
  f.comparison = some .like → '%' ∈ f.value.toList

def opened (f : AttributeFilter) : AttributeFilter :=
  match f.comparison with
  | some c => { f with value := openPattern c f.value }
  | none => f

theorem openPattern_eq_self {c : Comparison} {value : String} :
    openPattern c value = value ↔ (c = .like → '%' ∈ value.toList) := by
  unfold openPattern
  split
  · next closed =>
    have longer : value ++ "%" ≠ value := by
      intro same
      have chars := congrArg String.toList same
      simp at chars
    simp [longer, closed.1, closed.2]
  · next kept =>
    simp only [true_iff]
    intro like
    exact Decidable.byContradiction fun missing => kept ⟨like, missing⟩

theorem opened_eq_self {f : AttributeFilter} : f.opened = f ↔ f.Patterned := by
  obtain ⟨scope, path, comparison, value⟩ := f
  cases comparison with
  | none => simp [opened, Patterned]
  | some c => simp [opened, Patterned, openPattern_eq_self]

theorem opened_of_closed {f : AttributeFilter} (like : f.comparison = some .like)
    (missing : '%' ∉ f.value.toList) : f.opened = { f with value := f.value ++ "%" } := by
  simp [opened, like, openPattern, missing]

theorem readKeyPath_intercalate {path : List String} (clean : ∀ key ∈ path, '.' ∉ key.toList)
    (other : path ≠ [""]) : readKeyPath (String.intercalate "." path) = path := by
  by_cases bare : path = []
  · subst bare
    rfl
  · have glued : (String.intercalate "." path).toList
        = Text.glue '.' (path.map String.toList) := by
      rw [String.toList_intercalate]
      exact Text.intercalate_eq_glue '.' _
    have parts := Text.splitAt_of_glue glued bare clean
    have full : String.intercalate "." path ≠ "" := by
      intro blank
      rw [blank] at parts
      exact other parts.symm
    rw [readKeyPath, if_neg full, parts]

theorem intercalate_clean {path : List String} (clean : ∀ key ∈ path, '~' ∉ key.toList) :
    '~' ∉ (String.intercalate "." path).toList := by
  induction path with
  | nil => simp
  | cons key rest ih =>
    have first : '~' ∉ key.toList := clean key List.mem_cons_self
    have later := ih fun k member => clean k (List.mem_cons_of_mem _ member)
    cases rest with
    | nil => simpa using first
    | cons next more =>
      simp only [String.intercalate_cons_cons, String.toList_append, List.mem_append, first, later]
      simp

def segments (f : AttributeFilter) : List String :=
  match f.comparison with
  | some c => [f.scope, String.intercalate "." f.keyPath, c.token, f.value]
  | none =>
    if f.keyPath.isEmpty then [f.scope] else [f.scope, String.intercalate "." f.keyPath]

theorem encode_toList (f : AttributeFilter) :
    f.encode.toList = Text.glue '~' (f.segments.map String.toList) := by
  unfold encode segments
  cases f.comparison with
  | some c => simp [Text.glue]
  | none => by_cases bare : f.keyPath = [] <;> simp [bare, Text.glue]

theorem segments_clean {f : AttributeFilter} (delimited : f.Delimited) :
    ∀ t ∈ f.segments, '~' ∉ t.toList := by
  have scope := delimited.scope
  have path := intercalate_clean fun key member => (delimited.keys key member).1
  unfold segments
  cases comparison : f.comparison with
  | some c =>
    have value := delimited.value (by simp [comparison])
    simp only [List.mem_cons, List.not_mem_nil, or_false, forall_eq_or_imp, forall_eq]
    exact ⟨scope, path, c.token_clean, value⟩
  | none =>
    by_cases bare : f.keyPath = []
    · simpa [bare] using scope
    · simp only [List.isEmpty_iff, bare, ↓reduceIte, List.mem_cons, List.not_mem_nil, or_false,
        forall_eq_or_imp, forall_eq]
      exact ⟨scope, path⟩

theorem decode_encode {f : AttributeFilter} (delimited : f.Delimited) :
    decode f.encode = f.opened := by
  have any : f.segments ≠ [] := by
    unfold segments
    split
    · simp
    · split <;> simp
  have path := readKeyPath_intercalate (fun key member => (delimited.keys key member).2)
    delimited.path
  rw [decode, Text.splitAt_of_glue (encode_toList f) any (segments_clean delimited)]
  obtain ⟨scope, keys, comparison, value⟩ := f
  cases comparison with
  | some c => simp [segments, ofSegments, opened, path, c.ofToken?_token]
  | none =>
    have blank : value = "" := delimited.bare rfl
    by_cases bare : keys = []
    · simp [segments, ofSegments, opened, ofScope, bare, blank]
    · simp [segments, ofSegments, opened, ofScope, bare, blank, path]

theorem readKeyPath_keys {raw key : String} (clean : '~' ∉ raw.toList)
    (member : key ∈ readKeyPath raw) : '~' ∉ key.toList ∧ '.' ∉ key.toList := by
  unfold readKeyPath at member
  split at member
  · simp at member
  · constructor
    · intro inside
      exact clean (Text.mem_splitAt member inside).2
    · intro inside
      exact (Text.mem_splitAt member inside).1 rfl

theorem readKeyPath_ne_empty (raw : String) : readKeyPath raw ≠ [""] := by
  unfold readKeyPath
  split
  · simp
  · next full => exact fun one => full (Text.splitAt_eq_empty one)

theorem openPattern_clean {c : Comparison} {value : String} (clean : '~' ∉ value.toList) :
    '~' ∉ (openPattern c value).toList := by
  unfold openPattern
  split
  · simp [clean]
  · exact clean

theorem openPattern_like (value : String) : '%' ∈ (openPattern .like value).toList := by
  unfold openPattern
  split
  · simp
  · next kept => exact Decidable.byContradiction fun missing => kept ⟨rfl, missing⟩

theorem delimited_of_path {scope raw : String} (first : '~' ∉ scope.toList)
    (second : '~' ∉ raw.toList) : Delimited ⟨scope, readKeyPath raw, none, ""⟩ where
  scope := first
  keys := fun _ member => readKeyPath_keys second member
  path := readKeyPath_ne_empty raw
  bare := fun _ => rfl
  value := fun given => absurd rfl given

theorem delimited_ofScope {scope : String} (first : '~' ∉ scope.toList) :
    Delimited (ofScope scope) := by
  have second : '~' ∉ "".toList := by simp
  exact delimited_of_path first second

theorem ofSegments_delimited {ts : List String} (clean : ∀ t ∈ ts, '~' ∉ t.toList) :
    (ofSegments ts).Delimited ∧ (ofSegments ts).Patterned := by
  unfold ofSegments
  split
  · next scope path =>
    simp only [List.mem_cons, List.not_mem_nil, or_false, forall_eq_or_imp, forall_eq] at clean
    exact ⟨delimited_of_path clean.1 clean.2, nofun⟩
  · next scope path token value =>
    simp only [List.mem_cons, List.not_mem_nil, or_false, forall_eq_or_imp, forall_eq] at clean
    obtain ⟨first, second, -, fourth⟩ := clean
    split
    · next c known =>
      refine ⟨⟨first, fun _ member => readKeyPath_keys second member, readKeyPath_ne_empty path,
        nofun, fun _ => openPattern_clean fourth⟩, ?_⟩
      intro like
      rw [Option.some.inj like]
      exact openPattern_like value
    · exact ⟨delimited_of_path first second, nofun⟩
  · next scope rest _ _ => exact ⟨delimited_ofScope (clean scope List.mem_cons_self), nofun⟩
  · exact ⟨delimited_ofScope (by simp), nofun⟩

theorem decode_delimited (token : String) :
    (decode token).Delimited ∧ (decode token).Patterned := by
  apply ofSegments_delimited
  intro t member inside
  exact (Text.mem_splitAt member inside).1 rfl

end AttributeFilter

/-- A filter reads back from its written form exactly when its parts can be told apart and its
pattern has a wildcard, which holds of all that is read; a pattern without a wildcard gets one. -/
theorem reads_back_iff :
    (∀ f : AttributeFilter, AttributeFilter.decode f.encode = f ↔ f.Delimited ∧ f.Patterned)
    ∧ (∀ token : String,
      let f := AttributeFilter.decode token
      f.Delimited ∧ f.Patterned ∧ AttributeFilter.decode f.encode = f)
    ∧ ∀ f : AttributeFilter, f.Delimited → f.comparison = some .like → '%' ∉ f.value.toList →
      AttributeFilter.decode f.encode = { f with value := f.value ++ "%" } := by
  refine ⟨?_, ?_, ?_⟩
  · intro f
    constructor
    · intro same
      rw [← same]
      exact AttributeFilter.decode_delimited f.encode
    · rintro ⟨delimited, patterned⟩
      rw [AttributeFilter.decode_encode delimited]
      exact AttributeFilter.opened_eq_self.mpr patterned
  · intro token f
    obtain ⟨delimited, patterned⟩ := AttributeFilter.decode_delimited token
    refine ⟨delimited, patterned, ?_⟩
    rw [AttributeFilter.decode_encode delimited]
    exact AttributeFilter.opened_eq_self.mpr patterned
  · intro f delimited like missing
    rw [AttributeFilter.decode_encode delimited]
    exact AttributeFilter.opened_of_closed like missing

/-- Empty keys inside a path are kept, and the pattern is opened. -/
theorem reads_back_iff_of_closed_pattern :
    let f : AttributeFilter := ⟨"", ["", "é ", ""], some .like, "a.b"⟩
    f.Delimited ∧ f.comparison = some .like ∧ '%' ∉ f.value.toList
      ∧ AttributeFilter.decode f.encode = ⟨"", ["", "é ", ""], some .like, "a.b%"⟩ := by
  intro f
  have delimited : f.Delimited :=
    ⟨by decide, by decide, by decide, nofun, fun _ => by decide⟩
  have missing : '%' ∉ f.value.toList := by decide
  exact ⟨delimited, rfl, missing, reads_back_iff.2.2 f delimited rfl missing⟩

end FleetInventory
