import FleetInventory.Proofs.Store.Placing

/-!
What programs on stored records do: look-ups only read, and the work on components, versions and
firmware sets stands in a transaction. All of them end at the first statement that fails.
-/
namespace FleetInventory.Store

open Statement

section Sent

variable (server : Uuid) (owner : AttributeOwner) (input : AttributeInput)

theorem sends_findServer (id : Uuid) : Sends Reads (findServer? id) := sends_fetchOptional rfl

theorem sends_unknownKinds (inputs : List ComponentInput) : Sends Reads (unknownKinds inputs) :=
  Program.Within.bind (sends_fetchAll rfl) fun _ => trivial

theorem sends_putAttribute : Sends IsWork (putAttribute owner input) :=
  sends_fetchOne (by simp [IsWork, verb])

theorem sends_recordVersion : Sends IsWork (recordVersion owner input) := by
  refine Program.Within.bind (sends_perform (Reads.isWork rfl)) fun _ => ?_
  refine Program.Within.bind (sends_fetchOptional (Reads.isWork rfl)) fun newest => ?_
  cases newest.filter (·.data.same input.data) with
  | some version => exact sends_fetchOne (by simp [IsWork, verb])
  | none => exact sends_fetchOne (by simp [IsWork, verb])

theorem sends_addComponent (input : ComponentInput) :
    Sends IsWork (addComponent server input) := by
  refine Program.Within.bind (sends_fetchOptional (Reads.isWork rfl)) fun kind => ?_
  cases kind with
  | none => trivial
  | some kind =>
    refine Program.Within.bind (sends_fetchOne (by simp [IsWork, verb])) fun component => ?_
    refine (Program.within_mapM (sends_putAttribute _) _).bind fun _ => ?_
    exact (Program.within_mapM (sends_recordVersion _) _).bind fun _ => trivial

theorem atomic_addComponents (inputs : List ComponentInput) :
    (addComponents server inputs).Atomic fun _ => True :=
  atomic_transaction (Program.within_mapM (sends_addComponent server) inputs)

theorem atomic_appendVersion : (appendVersion owner input).Atomic fun _ => True :=
  atomic_transaction (sends_recordVersion owner input)

end Sent

section Behaviour

variable {allowed : String → Prop} {R : Trace → StoreFault → Prop} {past : Trace}

theorem behaves_findServer (id : Uuid) (looked : Looked past) :
    Behaves (Placed allowed) R (fun t _ => Looked t) (findServer? id) past :=
  looks_fetchOptional looked rfl rfl rfl

theorem behaves_unknownKinds (inputs : List ComponentInput) (looked : Looked past) :
    Behaves (Placed allowed) R (fun t _ => Looked t) (unknownKinds inputs) past :=
  (looks_fetchAll looked rfl rfl rfl).bind fun _ _ looked => looked

theorem behaves_missingFirmware (ids : List Uuid) (looked : Looked past) :
    Behaves (Placed allowed) R (fun t _ => Looked t) (missingFirmware ids) past :=
  (looks_fetchAll looked rfl rfl rfl).bind fun _ _ looked => looked

theorem works_putAttribute {owner : AttributeOwner} {input : AttributeInput}
    (opened : InTransaction past) (fits : allowed input.scope) :
    Behaves (Placed allowed) R (fun t _ => InTransaction t) (putAttribute owner input) past :=
  works_fetchOne opened (placed_of_scope opened.2 rfl fits) (by simp [IsWork, verb]) rfl

theorem works_recordVersion {owner : AttributeOwner} {input : AttributeInput}
    (opened : InTransaction past) (fits : allowed input.scope) :
    Behaves (Placed allowed) R (fun t _ => InTransaction t) (recordVersion owner input) past := by
  refine (works_perform opened (placed_of_plain opened.2 rfl) (by simp [IsWork, verb])
    rfl).bind fun t _ opened => ?_
  refine (works_fetchOptional opened (placed_of_plain opened.2 rfl) (by simp [IsWork, verb])
    rfl).bind fun t newest opened => ?_
  cases newest.filter (·.data.same input.data) with
  | some version =>
    exact works_fetchOne opened (placed_of_plain opened.2 rfl)
      (by simp [IsWork, verb]) rfl
  | none =>
    exact works_fetchOne opened (placed_of_scope opened.2 rfl fits) (by simp [IsWork, verb]) rfl

theorem behaves_appendVersion {owner : AttributeOwner} {input : AttributeInput}
    (looked : Looked past) (fits : allowed input.scope) :
    Behaves (Placed allowed) R (fun _ _ => True) (appendVersion owner input) past :=
  (behaves_transaction looked (fun _ opened => works_recordVersion opened fits)
    fun _ _ => id).ends fun _ _ _ => trivial

theorem works_addComponent {server : Uuid} {input : ComponentInput} (opened : InTransaction past)
    (fits : ∀ a ∈ input.attributes ++ input.versioned, allowed a.scope) :
    Behaves (Placed allowed) R (fun t _ => InTransaction t) (addComponent server input) past := by
  refine behaves_first rfl ⟨fun _ _ => opened, nofun, fun committed => absurd committed opened.2⟩
    (fun e missing => ?_) fun reply kind gives present => ?_
  · cases missing
    rfl
  have opened : InTransaction (past ++ [(.findKind input.kindSlug, reply)]) :=
    opened.snoc (Reads.isWork rfl)
  cases kind with
  | none => cases present rfl
  | some kind =>
    refine (works_fetchOne opened (placed_of_plain opened.2 rfl)
      (by simp [IsWork, verb]) rfl).bind fun t component opened => ?_
    refine (Program.behaves_mapM (fun a member t opened => works_putAttribute opened
      (fits a (by simp [member]))) opened).bind fun t _ opened => ?_
    exact (Program.behaves_mapM (fun a member t opened => works_recordVersion opened
      (fits a (by simp [member]))) opened).bind fun t _ opened => opened

theorem behaves_addComponents {server : Uuid} {inputs : List ComponentInput}
    (looked : Looked past)
    (fits : ∀ input ∈ inputs, ∀ a ∈ input.attributes ++ input.versioned, allowed a.scope) :
    Behaves (Placed allowed) R (fun _ _ => True) (addComponents server inputs) past :=
  (behaves_transaction looked (fun _ opened => Program.behaves_mapM
    (fun input member _ opened => works_addComponent opened (fits input member)) opened)
    fun _ _ => id).ends fun _ _ _ => trivial

theorem works_filling {set : FirmwareSet} {s : Statement}
    (so : InTransaction past ∧ Added set past) (placed : Placed allowed past s)
    (reading : s.reading = .nothing) (work : s.IsWork) :
    Behaves (Placed allowed) R (fun t _ => InTransaction t ∧ Added set t) (perform s) past := by
  refine (behaves_perform reading placed).ends ?_
  rintro _ _ ⟨reply, rfl⟩
  obtain ⟨opened, name, added, member, gives⟩ := so
  exact ⟨opened.snoc work, name, added, by simp [member], gives⟩

theorem works_writeSet {input : FirmwareSetInput} (opened : InTransaction past)
    (fits : ∀ a ∈ input.attributes, allowed a.scope) :
    Behaves (Placed allowed) R (fun t set => InTransaction t ∧ Added set t) (writeSet input)
      past := by
  refine (behaves_fetchOne rfl (placed_of_plain opened.2 rfl)).bind ?_
  rintro _ set ⟨reply, rfl, gives⟩
  have start : InTransaction (past ++ [(.addSet input.name, reply)]) ∧
      Added set (past ++ [(.addSet input.name, reply)]) :=
    ⟨opened.snoc (by simp [IsWork, verb]), input.name, reply, by simp, gives⟩
  refine (Program.behaves_mapM (fun id _ t so => works_filling so
    (placed_of_plain so.1.2 rfl) rfl (by simp [IsWork, verb])) start).bind fun t _ so => ?_
  exact (Program.behaves_mapM (fun a member t so => works_filling so
    (placed_of_scope so.1.2 rfl (fits a member)) rfl (by simp [IsWork, verb])) so).bind
    fun t _ so => so

theorem behaves_findSet (id : Uuid) :
    Behaves (Placed allowed) R (fun t found => (∃ more, t = past ++ more ∧ Looked more) ∧
      (found = none → ∃ reply, t = past ++ [(.findSet id, reply)] ∧ reply.IsEmpty))
      (findSet? id) past := by
  refine (behaves_fetchOptional rfl (placed_of_reread ⟨id, .inl rfl⟩)).bind ?_
  rintro _ found ⟨reply, rfl, gives⟩
  have first : Looked [(.findSet id, reply)] := looked_nil.snoc rfl
  cases found with
  | none => exact ⟨⟨_, rfl, first⟩, fun _ => ⟨reply, rfl, gives⟩⟩
  | some set =>
    refine (behaves_fetchAll rfl (placed_of_reread ⟨id, .inr (.inl rfl)⟩)).bind ?_
    rintro _ firmware ⟨files, rfl, -⟩
    refine (behaves_fetchAll rfl (placed_of_reread ⟨id, .inr (.inr rfl)⟩)).bind ?_
    rintro _ attributes ⟨documents, rfl, -⟩
    refine ⟨⟨_, by rw [List.append_assoc, List.append_assoc], ?_⟩, nofun⟩
    exact (first.snoc (s := .firmwareOfSet id) rfl).snoc (s := .attributesOfSet id) rfl

def SetGone (t : Trace) (fault : StoreFault) : Prop :=
  fault = .setVanished ∧ ∃ before set closed reply,
    t = before ++ [(.commit, closed), (.findSet set.id, reply)] ∧ Added set before ∧ reply.IsEmpty

theorem behaves_addSet {input : FirmwareSetInput} (looked : Looked past)
    (fits : ∀ a ∈ input.attributes, allowed a.scope) :
    Behaves (Placed allowed) SetGone (fun t _ => Committed t) (addSet input) past := by
  refine (behaves_transaction looked (fun _ opened => works_writeSet opened fits)
    fun _ _ so => so.1).bind ?_
  rintro _ set ⟨before, closed, rfl, -, added⟩
  refine (behaves_findSet set.id).bind ?_
  rintro _ detail ⟨⟨more, rfl, -⟩, gone⟩
  cases detail with
  | none =>
    obtain ⟨reply, same, empty⟩ := gone rfl
    exact ⟨rfl, before, set, closed, reply, by rw [same]; simp, added, empty⟩
  | some detail => exact Committed.append (committed_snoc.mpr (.inr rfl)) more

end Behaviour
end FleetInventory.Store
