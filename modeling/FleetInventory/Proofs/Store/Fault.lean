import FleetInventory.Proofs.Store.Behaving
import FleetInventory.Store.Records

/-!
Statements that fail: the database rejects them, a row that must be there is missing, or a row that
is read can not be. Every program on the store ends at the first statement that fails.
-/
namespace FleetInventory

/-- How much of an answer is read. A first row may have to be there, on pain of a fault. -/
inductive Reading where
  | nothing
  | first (readable : Row → Bool) (missing : Option StoreFault)
  | all (readable : Row → Bool)

namespace Reading

def optional (read : Row → Option α) : Reading := first (fun row => (read row).isSome) none

def one (read : Row → Option α) : Reading :=
  first (fun row => (read row).isSome) (some .rowMissing)

def every (read : Row → Option α) : Reading := all fun row => (read row).isSome

def page (table : String) : Reading :=
  if table = ServerCriteria.table then every Server.ofRow?
  else if table = ComponentCriteria.table then every Component.ofRow?
  else if table = FirmwareCriteria.table then every Firmware.ofRow?
  else every FirmwareSet.ofRow?

def faultOfRows? : Reading → List Row → Option StoreFault
  | nothing, _ => none
  | first _ missing, [] => missing
  | first readable _, row :: _ => if readable row then none else some .unreadable
  | all readable, rows => if rows.all readable then none else some .unreadable

def fault? (reading : Reading) : Reply → Option StoreFault
  | .rows rows => reading.faultOfRows? rows
  | .affected _ => reading.faultOfRows? []
  | .failed state text => some (.rejected state text)

end Reading

namespace Statement

def reading : Statement → Reading
  | begin | commit | lockVersions _ _ | dropServer _ | dropAttribute _ _ | addToSet _ _
  | putSetAttribute _ _ => .nothing
  | countRows _ _ => .one (·.int64? "count")
  | pageRows table _ _ _ _ => .page table
  | findServer _ | changeServer _ _ => .optional Server.ofRow?
  | addServer _ => .one Server.ofRow?
  | attributesOf _ | attributesOfSet _ => .every Attribute.ofRow?
  | putAttribute _ _ => .one Attribute.ofRow?
  | versionsOf _ => .every VersionedAttribute.ofRow?
  | newestVersion _ _ => .optional VersionedAttribute.ofRow?
  | raiseTally _ | addVersion _ _ => .one VersionedAttribute.ofRow?
  | allKinds => .every ComponentKind.ofRow?
  | addKind _ => .one ComponentKind.ofRow?
  | knownKinds _ => .every (·.text? "slug")
  | findKind slug => .first (fun row => (row.uuid? "id").isSome) (some (.kindVanished slug))
  | addComponent _ _ _ => .one Component.ofRow?
  | findFirmware _ => .optional Firmware.ofRow?
  | addFirmware _ => .one Firmware.ofRow?
  | knownFirmware _ => .every (·.uuid? "id")
  | firmwareOfSet _ => .every Firmware.ofRow?
  | addSet _ => .one FirmwareSet.ofRow?
  | findSet _ => .optional FirmwareSet.ofRow?
  | schemaExists => .one (·.bool? "exists")

def fault? (statement : Statement) (reply : Reply) : Option StoreFault :=
  statement.reading.fault? reply

end Statement

namespace Reply

def found : Reply → List Row
  | .rows sent => sent
  | .affected _ => []
  | .failed _ _ => []

def touched : Reply → Int
  | .rows sent => sent.length
  | .affected count => count
  | .failed _ _ => 0

def IsEmpty : Reply → Prop
  | .rows sent => sent = []
  | .affected _ => True
  | .failed _ _ => False

def IsIdle : Reply → Prop
  | .rows sent => sent = []
  | .affected count => count ≤ 0
  | .failed _ _ => False

def Gives (read : Row → Option α) (reply : Reply) : Option α → Prop
  | none => reply.IsEmpty
  | some a => ∃ row more, reply = .rows (row :: more) ∧ read row = some a

end Reply

namespace Reading

variable {reading : Reading} {reply : Reply}

theorem fault?_eq_none (good : reading.fault? reply = none) :
    reading.faultOfRows? reply.found = none := by
  cases reply with
  | rows rows => exact good
  | affected count => exact good
  | failed state text => cases good

theorem isEmpty_of_found (good : reading.fault? reply = none) (none : reply.found = []) :
    reply.IsEmpty := by
  cases reply with
  | rows rows => exact none
  | affected count => trivial
  | failed state text => cases good

theorem isIdle_of_touched (good : reading.fault? reply = none) (idle : ¬ 0 < reply.touched) :
    reply.IsIdle := by
  cases reply with
  | rows rows =>
    have short : rows.length = 0 := by
      simp only [Reply.touched] at idle
      omega
    exact List.eq_nil_of_length_eq_zero short
  | affected count => exact Int.not_lt.mp idle
  | failed state text => cases good

theorem missing_of_faultOfRows? {rows : List Row} {fault : StoreFault}
    (bad : reading.faultOfRows? rows = some fault) :
    fault = .unreadable ∨ rows = [] ∧ ∃ readable, reading = .first readable (some fault) := by
  cases reading with
  | nothing => cases bad
  | first readable missing =>
    cases rows with
    | nil => exact .inr ⟨rfl, readable, by rw [← bad]; rfl⟩
    | cons row rows =>
      simp only [faultOfRows?] at bad
      split at bad
      · cases bad
      · cases bad
        exact .inl rfl
  | all readable =>
    simp only [faultOfRows?] at bad
    split at bad
    · cases bad
    · cases bad
      exact .inl rfl

end Reading

namespace Statement

variable {s : Statement} {reply : Reply} {fault : StoreFault}

theorem missing_of_reading {readable : Row → Bool}
    (reading : s.reading = .first readable (some fault)) :
    fault = .rowMissing ∨ ∃ slug, s = .findKind slug ∧ fault = .kindVanished slug := by
  cases s with
  | findKind slug =>
    cases reading
    exact .inr ⟨slug, rfl, rfl⟩
  | pageRows table order selection limit offset =>
    simp only [Statement.reading, Reading.page] at reading
    split at reading
    · cases reading
    split at reading
    · cases reading
    split at reading <;> cases reading
  | _ =>
    cases reading
    try exact .inl rfl

theorem causes_of_fault? (bad : s.fault? reply = some fault) :
    (∃ state text, reply = .failed state text ∧ fault = .rejected state text) ∨
      fault = .unreadable ∨ fault = .rowMissing ∨
      ∃ slug, s = .findKind slug ∧ reply.IsEmpty ∧ fault = .kindVanished slug := by
  have absent {rows : List Row} (empty : rows = [] → reply.IsEmpty)
      (bad : s.reading.faultOfRows? rows = some fault) :
      fault = .unreadable ∨ fault = .rowMissing ∨
        ∃ slug, s = .findKind slug ∧ reply.IsEmpty ∧ fault = .kindVanished slug := by
    rcases Reading.missing_of_faultOfRows? bad with unreadable | ⟨none, readable, reading⟩
    · exact .inl unreadable
    · rcases missing_of_reading reading with missing | ⟨slug, same, vanished⟩
      · exact .inr (.inl missing)
      · exact .inr (.inr ⟨slug, same, empty none, vanished⟩)
  cases reply with
  | failed state text =>
    cases bad
    exact .inl ⟨state, text, rfl, rfl⟩
  | rows rows => exact .inr (absent id bad)
  | affected count => exact .inr (absent (fun _ => trivial) bad)

end Statement

namespace Store

variable {α β : Type} {s : Statement} {read : Row → Option α} {S : Trace → Statement → Prop}
  {R : Trace → StoreFault → Prop} {Q : Trace → α → Prop} {past : Trace}

/-- Work on the database: it ends at the first statement that fails. -/
abbrev Behaves (S : Trace → Statement → Prop) (R : Trace → StoreFault → Prop)
    (Q : Trace → α → Prop) (p : StoreProgram α) (past : Trace) : Prop :=
  Program.Behaves Statement.fault? S R Q p past

theorem behaves_ask {next : List Row → StoreProgram α} (placed : S past s)
    (stop : ∀ rows e, s.reading.faultOfRows? rows = some e → next rows = .failed e)
    (rest : ∀ reply, s.fault? reply = none →
      Behaves S R Q (next reply.found) (past ++ [(s, reply)])) :
    Behaves S R Q (ask s >>= fun reply => rowsOf reply >>= next) past := by
  refine ⟨placed, fun reply => ?_⟩
  cases reply with
  | rows rows => exact ⟨fun e bad => stop rows e bad, rest (.rows rows)⟩
  | affected count => exact ⟨fun e bad => stop [] e bad, rest (.affected count)⟩
  | failed state text =>
    refine ⟨fun e bad => ?_, fun good => by cases good⟩
    cases bad
    rfl

theorem behaves_perform (reads : s.reading = .nothing) (placed : S past s) :
    Behaves S R (fun t _ => ∃ reply, t = past ++ [(s, reply)]) (perform s) past := by
  refine behaves_ask placed (fun rows e bad => ?_) fun reply _ => ⟨reply, rfl⟩
  rw [reads] at bad
  cases bad

theorem behaves_touched (reads : s.reading = .nothing) (placed : S past s) :
    Behaves S R (fun t count => ∃ reply, t = past ++ [(s, reply)] ∧ reply.touched = count ∧
      s.fault? reply = none) (touched s) past := by
  refine ⟨placed, fun reply => ⟨fun e bad => ?_, fun good => ?_⟩⟩
  · cases reply with
    | rows rows => simp [Statement.fault?, reads, Reading.fault?, Reading.faultOfRows?] at bad
    | affected count => simp [Statement.fault?, reads, Reading.fault?, Reading.faultOfRows?] at bad
    | failed state text =>
      cases bad
      rfl
  · cases reply with
    | rows rows => exact ⟨_, rfl, rfl, good⟩
    | affected count => exact ⟨_, rfl, rfl, good⟩
    | failed state text => cases good

theorem behaves_first {missing : Option StoreFault} {f : Option α → StoreProgram β}
    {Q : Trace → β → Prop}
    (reads : s.reading = .first (fun row => (read row).isSome) missing) (placed : S past s)
    (absent : ∀ e, missing = some e → f none = .failed e)
    (rest : ∀ reply a, reply.Gives read a → (a = none → missing = none) →
      Behaves S R Q (f a) (past ++ [(s, reply)])) :
    Behaves S R Q (fetchOptional read s >>= f) past := by
  rw [fetchOptional, bind_assoc]
  simp only [bind_assoc]
  refine behaves_ask placed (fun rows e bad => ?_) fun reply good => ?_
  · rw [reads] at bad
    cases rows with
    | nil => exact absent e bad
    | cons row rows =>
      cases readable : read row with
      | some a => simp [Reading.faultOfRows?, readable] at bad
      | none =>
        obtain rfl : StoreFault.unreadable = e := by
          simpa [Reading.faultOfRows?, readable] using bad
        simp only [readRow, readable]
        rfl
  · have fine := Reading.fault?_eq_none good
    rw [reads] at fine
    cases empty : reply.found with
    | nil =>
      rw [empty] at fine
      exact rest reply none (Reading.isEmpty_of_found good empty) fun _ => fine
    | cons row rows =>
      rw [empty] at fine
      have given : reply = .rows (row :: rows) := by
        cases reply <;> simp_all [Reply.found]
      cases readable : read row with
      | none => simp [Reading.faultOfRows?, readable] at fine
      | some a =>
        simp only [readRow, readable]
        exact rest reply (some a) ⟨row, rows, given, readable⟩ nofun

theorem behaves_fetchOptional (reads : s.reading = .optional read) (placed : S past s) :
    Behaves S R (fun t a => ∃ reply, t = past ++ [(s, reply)] ∧ reply.Gives read a)
      (fetchOptional read s) past := by
  rw [← bind_pure (fetchOptional read s)]
  exact behaves_first reads placed nofun fun reply a gives _ => ⟨reply, rfl, gives⟩

theorem behaves_fetchOne (reads : s.reading = .one read) (placed : S past s) :
    Behaves S R (fun t a => ∃ reply, t = past ++ [(s, reply)] ∧ reply.Gives read (some a))
      (fetchOne read s) past := by
  refine behaves_first reads placed (fun e missing => ?_) fun reply a gives present => ?_
  · cases missing
    rfl
  · cases a with
    | none => cases present rfl
    | some a => exact ⟨reply, rfl, gives⟩

theorem isSome_mapM (rows : List Row) :
    (rows.mapM read).isSome = rows.all fun row => (read row).isSome := by
  induction rows with
  | nil => rfl
  | cons row rows ih =>
    rw [List.mapM_cons, List.all_cons, ← ih]
    cases read row <;> cases rows.mapM read <;> rfl

theorem behaves_fetchAll (reads : s.reading = .every read) (placed : S past s) :
    Behaves S R (fun t as => ∃ reply, t = past ++ [(s, reply)] ∧ reply.found.mapM read = some as)
      (fetchAll read s) past := by
  refine behaves_ask placed (fun rows e bad => ?_) fun reply good => ?_
  · rw [reads, Reading.every, Reading.faultOfRows?, ← isSome_mapM] at bad
    cases readable : rows.mapM read with
    | some as => simp [readable] at bad
    | none =>
      rw [readable] at bad
      cases bad
      rfl
  · have fine := Reading.fault?_eq_none good
    rw [reads, Reading.every, Reading.faultOfRows?, ← isSome_mapM] at fine
    cases readable : reply.found.mapM read with
    | some as => exact ⟨reply, rfl, readable⟩
    | none => simp [readable] at fine

end Store
end FleetInventory
