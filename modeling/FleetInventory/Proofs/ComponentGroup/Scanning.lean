import FleetInventory.Proofs.Search.Agreement

/-!
The scan for component groups. It goes from index to index without a bound of its own: what ends it
is the first index without parameters, and as no two indexes share a parameter, no more indexes come
before that one than there are parameters. Main statement: `scan_reads_contiguous`.
-/
namespace FleetInventory

namespace ComponentGroup

structure FirstGap (params : Params) (k : Nat) : Prop where
  below : ∀ i < k, ∃ key ∈ params.keys, Owns i key
  gap : ∀ key ∈ params.keys, ¬ Owns k key

/-- The scan from an index on: how many indexes it looks at, and what comes of it. A group that
asks for nothing is dropped, an index without parameters ends the scan. -/
inductive Scan (params : Params) : Nat → Nat → Except SearchFault (List ComponentGroup) → Prop
  | stop {index : Nat} (gap : present params index = false) : Scan params index 1 (.ok [])
  | refused {index : Nat} {fault : SearchFault} (there : present params index = true)
    (bad : readOne params index = .error fault) : Scan params index 1 (.error fault)
  | dropped {index visited : Nat} {group : ComponentGroup}
    {rest : Except SearchFault (List ComponentGroup)} (there : present params index = true)
    (read : readOne params index = .ok group) (empty : group.isEmpty = true)
    (later : Scan params (index + 1) visited rest) : Scan params index (visited + 1) rest
  | kept {index visited : Nat} {group : ComponentGroup}
    {rest : Except SearchFault (List ComponentGroup)} (there : present params index = true)
    (read : readOne params index = .ok group) (full : group.isEmpty = false)
    (later : Scan params (index + 1) visited rest) :
    Scan params index (visited + 1) (rest.map (group :: ·))

section Gap

variable {params other : Params} {k m : Nat}

theorem present_eq_false_iff {index : Nat} :
    present params index = false ↔ ∀ key ∈ params.keys, ¬ Owns index key := by
  rw [← Bool.not_eq_true, present_iff]
  simp only [not_exists, not_and]

theorem firstGap_iff :
    FirstGap params k ↔ (∀ i < k, present params i = true) ∧ present params k = false := by
  constructor
  · rintro ⟨below, gap⟩
    exact ⟨fun i early => present_iff.mpr (below i early), present_eq_false_iff.mpr gap⟩
  · rintro ⟨below, gap⟩
    exact ⟨fun i early => present_iff.mp (below i early), present_eq_false_iff.mp gap⟩

theorem FirstGap.unique (one : FirstGap params k) (two : FirstGap params m) : k = m := by
  rcases Nat.lt_trichotomy k m with early | equal | early
  · obtain ⟨key, member, owns⟩ := two.below k early
    exact absurd owns (one.gap key member)
  · exact equal
  · obtain ⟨key, member, owns⟩ := one.below m early
    exact absurd owns (two.gap key member)

theorem exists_firstGap (params : Params) : ∃ k, FirstGap params k := by
  obtain ⟨k, -, below, gap⟩ := indexes_eq_range params
  exact ⟨k, firstGap_iff.mpr ⟨below, gap⟩⟩

theorem FirstGap.indexes_eq (first : FirstGap params k) : indexes params = List.range k := by
  obtain ⟨m, whole, below, gap⟩ := indexes_eq_range params
  rw [whole, first.unique (firstGap_iff.mpr ⟨below, gap⟩)]

theorem FirstGap.le_length (first : FirstGap params k) : k ≤ params.pairs.length :=
  length_le_of_present (firstGap_iff.mp first).1

theorem FirstGap.of_values (first : FirstGap params k)
    (same : ∀ i ≤ k, ∀ key, Owns i key → other.values key = params.values key) :
    FirstGap other k where
  below i early := by
    obtain ⟨key, member, owns⟩ := first.below i early
    refine ⟨key, ?_, owns⟩
    rw [Params.mem_keys_iff, same i (Nat.le_of_lt early) key owns]
    exact Params.mem_keys_iff.mp member
  gap key member owns := by
    rw [Params.mem_keys_iff, same k (Nat.le_refl k) key owns] at member
    exact first.gap key (Params.mem_keys_iff.mpr member) owns

end Gap

section Reading

variable {params other : Params} {k : Nat}

def readFrom (params : Params) (index count : Nat) : Except SearchFault (List ComponentGroup) :=
  ((List.range' index count).mapM (readOne params)).map (·.filter (!·.isEmpty))

theorem FirstGap.readAll_eq (first : FirstGap params k) : readAll params = readFrom params 0 k := by
  rw [readAll, first.indexes_eq, List.range_eq_range']
  rfl

theorem readFrom_zero {index : Nat} : readFrom params index 0 = .ok [] := rfl

theorem readFrom_of_error {index count : Nat} {fault : SearchFault}
    (bad : readOne params index = .error fault) :
    readFrom params index (count + 1) = .error fault := by
  rw [readFrom, List.range'_succ, List.mapM_cons, bad]
  rfl

theorem readFrom_of_ok {index count : Nat} {group : ComponentGroup}
    (read : readOne params index = .ok group) :
    readFrom params index (count + 1)
      = (readFrom params (index + 1) count).map ([group].filter (!·.isEmpty) ++ ·) := by
  rw [readFrom, readFrom, List.range'_succ, List.mapM_cons, read]
  cases (List.range' (index + 1) count).mapM (readOne params) with
  | error fault => rfl
  | ok groups =>
    exact congrArg Except.ok (List.filter_append [group] groups)

theorem readFrom_of_empty {index count : Nat} {group : ComponentGroup}
    (read : readOne params index = .ok group) (empty : group.isEmpty = true) :
    readFrom params index (count + 1) = readFrom params (index + 1) count := by
  rw [readFrom_of_ok read]
  cases readFrom params (index + 1) count <;> simp [Except.map, empty]

theorem readFrom_of_full {index count : Nat} {group : ComponentGroup}
    (read : readOne params index = .ok group) (full : group.isEmpty = false) :
    readFrom params index (count + 1)
      = (readFrom params (index + 1) count).map (group :: ·) := by
  rw [readFrom_of_ok read]
  simp [full]

theorem readFrom_congr {index count : Nat}
    (same : ∀ i, index ≤ i → i < index + count → readOne other i = readOne params i) :
    readFrom other index count = readFrom params index count := by
  induction count generalizing index with
  | zero => rfl
  | succ count ih =>
    have here := same index (Nat.le_refl _) (by omega)
    have later : readFrom other (index + 1) count = readFrom params (index + 1) count :=
      ih fun i _ _ => same i (by omega) (by omega)
    cases read : readOne params index with
    | error fault => rw [readFrom_of_error read, readFrom_of_error (here.trans read)]
    | ok group => rw [readFrom_of_ok read, readFrom_of_ok (here.trans read), later]

theorem FirstGap.readAll_of_values (first : FirstGap params k) (again : FirstGap other k)
    (same : ∀ i < k, ∀ key, Owns i key → other.values key = params.values key) :
    readAll other = readAll params := by
  rw [first.readAll_eq, again.readAll_eq]
  exact readFrom_congr fun i _ early => readOne_of_values (same i (by omega))

end Reading

section Scanning

variable {params : Params}

theorem Scan.unique {index v w : Nat} {r s : Except SearchFault (List ComponentGroup)}
    (one : Scan params index v r) (two : Scan params index w s) : v = w ∧ r = s := by
  induction one generalizing w s with
  | stop gap =>
    cases two with
    | stop _ => exact ⟨rfl, rfl⟩
    | refused there _ | dropped there _ _ _ | kept there _ _ _ => simp [gap] at there
  | refused there bad =>
    cases two with
    | stop gap => simp [gap] at there
    | refused _ again =>
      cases bad.symm.trans again
      exact ⟨rfl, rfl⟩
    | dropped _ read _ _ | kept _ read _ _ => cases bad.symm.trans read
  | dropped there read empty later ih =>
    cases two with
    | stop gap => simp [gap] at there
    | refused _ bad => cases bad.symm.trans read
    | dropped _ _ _ again =>
      obtain ⟨rfl, rfl⟩ := ih again
      exact ⟨rfl, rfl⟩
    | kept _ again full _ =>
      cases again.symm.trans read
      simp [full] at empty
  | kept there read full later ih =>
    cases two with
    | stop gap => simp [gap] at there
    | refused _ bad => cases bad.symm.trans read
    | dropped _ again empty _ =>
      cases again.symm.trans read
      simp [full] at empty
    | kept _ same _ again =>
      cases same.symm.trans read
      obtain ⟨rfl, rfl⟩ := ih again
      exact ⟨rfl, rfl⟩

theorem scan_readFrom {index count : Nat}
    (below : ∀ i, index ≤ i → i < index + count → present params i = true)
    (gap : present params (index + count) = false) :
    ∃ visited ≤ count + 1, Scan params index visited (readFrom params index count) := by
  induction count generalizing index with
  | zero =>
    rw [Nat.add_zero] at gap
    rw [readFrom_zero]
    exact ⟨1, Nat.le_refl 1, .stop gap⟩
  | succ count ih =>
    have there := below index (Nat.le_refl _) (by omega)
    have past : index + (count + 1) = index + 1 + count := by omega
    rw [past] at gap
    obtain ⟨visited, few, later⟩ := ih (fun i _ _ => below i (by omega) (by omega)) gap
    cases read : readOne params index with
    | error fault =>
      rw [readFrom_of_error read]
      exact ⟨1, by omega, .refused there read⟩
    | ok group =>
      refine ⟨visited + 1, by omega, ?_⟩
      cases full : group.isEmpty with
      | true =>
        rw [readFrom_of_empty read full]
        exact .dropped there read full later
      | false =>
        rw [readFrom_of_full read full]
        exact .kept there read full later

theorem FirstGap.scan {k : Nat} (first : FirstGap params k) :
    ∃ visited ≤ k + 1, Scan params 0 visited (readAll params) := by
  obtain ⟨below, gap⟩ := firstGap_iff.mp first
  rw [first.readAll_eq]
  rw [← Nat.zero_add k] at gap
  exact scan_readFrom (fun i _ early => below i (by omega)) gap

end Scanning

theorem FirstGap.forall₂_of_readAll {params : Params} {k : Nat} {groups : List ComponentGroup}
    (first : FirstGap params k) (read : readAll params = .ok groups) :
    ∃ all, List.Forall₂ (fun i group => readOne params i = .ok group) (List.range k) all
      ∧ groups = all.filter (!·.isEmpty) := by
  obtain ⟨all, each, kept⟩ := bind_eq_ok.mp read
  rw [first.indexes_eq] at each
  cases kept
  exact ⟨all, mapM_eq_ok.mp each, rfl⟩

/-- However far the scan could go, it looks at no more indexes than there are parameters, and one
more. What it reads are the groups below the first index without parameters, less those that ask
for nothing; each group is read from the values under its own keys alone, and what belongs to no
index up to the gap is not looked at. -/
theorem scan_reads_contiguous (params : Params) :
    ∃ k, FirstGap params k
      ∧ (∃ visited ≤ params.pairs.length + 1, ∀ v result,
        Scan params 0 v result ↔ v = visited ∧ result = readAll params)
      ∧ (∀ groups, readAll params = .ok groups →
        ∃ all, List.Forall₂ (fun i group => readOne params i = .ok group) (List.range k) all
          ∧ groups = all.filter (!·.isEmpty))
      ∧ (∀ other i, (∀ key, Owns i key → other.values key = params.values key) →
        readOne other i = readOne params i)
      ∧ (∀ other, FirstGap other k →
        (∀ i < k, ∀ key, Owns i key → other.values key = params.values key) →
          readAll other = readAll params)
      ∧ ∀ other, (∀ i ≤ k, ∀ key, Owns i key → other.values key = params.values key) →
        FirstGap other k ∧ readAll other = readAll params := by
  obtain ⟨k, first⟩ := exists_firstGap params
  refine ⟨k, first, ?_, fun groups => first.forall₂_of_readAll, fun _ _ => readOne_of_values,
    fun _ => first.readAll_of_values, fun other same => ?_⟩
  · obtain ⟨visited, few, scanned⟩ := first.scan
    have bound := first.le_length
    refine ⟨visited, by omega, fun v result => ⟨fun other => other.unique scanned, ?_⟩⟩
    rintro ⟨rfl, rfl⟩
    exact scanned
  · have again := first.of_values same
    exact ⟨again, first.readAll_of_values again fun i early => same i (Nat.le_of_lt early)⟩

/-- The first group is empty, and the third index has no parameters although the tenth does. What
stands under later indexes may be anything, a filter that can not be searched for included. -/
theorem scan_reads_contiguous_of_gap :
    let params := Params.parse "sc_0[model]=&sc_1_attr=a~b&sc_10[model]=C&sc_3[name]=x"
    let other := Params.parse "sc_1_attr=a~b&sc_3_attr=&sc_0[model]="
    FirstGap params 2
      ∧ (∃ visited ≤ 5, Scan params 0 visited (readAll params))
      ∧ (∀ i ≤ 2, ∀ key, Owns i key → other.values key = params.values key)
      ∧ readAll other = readAll params
      ∧ readAll params = .ok [{ empty with attributes := [⟨"a", ["b"], none, ""⟩] }] := by
  intro params other
  have one : params = ⟨[("sc_0[model]", ""), ("sc_1_attr", "a~b"), ("sc_10[model]", "C"),
      ("sc_3[name]", "x")]⟩ := by decide +kernel
  have two : other = ⟨[("sc_1_attr", "a~b"), ("sc_3_attr", ""), ("sc_0[model]", "")]⟩ := by
    decide +kernel
  have first : FirstGap params 2 := firstGap_iff.mpr (by decide +kernel)
  have same : ∀ i ≤ 2, ∀ key, Owns i key → other.values key = params.values key := by
    intro i low key owns
    have later {m : Nat} {stranger : String} (high : 2 < m) (foreign : Owns m stranger) :
        stranger ≠ key := by
      rintro rfl
      have index := owns_inj owns foreign
      omega
    have ten : "sc_10[model]" ≠ key := later (by decide) (owns_fieldParam 10 "model")
    have name : "sc_3[name]" ≠ key := later (by decide) (owns_fieldParam 3 "name")
    have listed : "sc_3_attr" ≠ key := later (by decide) (owns_attributeParam 3)
    rw [one, two]
    by_cases own : "sc_0[model]" = key
    · subst own
      simp [Params.values]
    · by_cases second : "sc_1_attr" = key <;>
        simp [Params.values, own, second, ten, name, listed]
  obtain ⟨k, gap, ⟨visited, few, scans⟩, -, -, -, ignored⟩ := scan_reads_contiguous params
  obtain rfl := gap.unique first
  have count : params.pairs.length + 1 = 5 := by rw [one]; rfl
  exact ⟨first, ⟨visited, count ▸ few, (scans visited _).mpr ⟨rfl, rfl⟩⟩, same,
    (ignored other same).2, by decide +kernel⟩

end ComponentGroup
end FleetInventory
