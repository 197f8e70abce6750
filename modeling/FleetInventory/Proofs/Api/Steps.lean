import FleetInventory.Api.Handler
import FleetInventory.Proofs.Store.Programs

/-!
The steps that requests are handled in. What is read of the request itself sends nothing; a look-up
may find that something is not there; and only then is anything written. A refusal in which no
statement failed shows by what was sent before it which of the steps it came from.
-/
namespace FleetInventory

namespace Failure

def IsInput : Failure → Prop
  | noSuchPath | wrongMethod | badParameter | badMediaType | badBody | search _ | blankSlug
  | blankSetName | blankAttributeNamespace | blankNamespace => True
  | _ => False

def IsUnknown : Failure → Prop
  | unknownFirmware _ | unknownKinds _ | notFound _ => True
  | _ => False

def IsAnswered (failure : Failure) : Prop := ∀ fault, failure ≠ .overflow fault

theorem IsInput.isAnswered {failure : Failure} (input : failure.IsInput) : failure.IsAnswered := by
  rintro fault rfl
  exact input

theorem isAnswered_of_store (fault : StoreFault) : (store fault).IsAnswered := nofun

end Failure

/-- Why a request is refused although every statement succeeded. -/
inductive Refusal : Trace → Failure → Prop
  | input {failure : Failure} (flawed : failure.IsInput) : Refusal [] failure
  | unknown {t : Trace} {failure : Failure} (looked : Looked t) (absent : failure.IsUnknown) :
    Refusal t failure
  | untouched {s : Statement} {reply : Reply} {noun : Noun}
    (idle : s.verb = .update ∧ reply.IsEmpty ∨ s.verb = .delete ∧ reply.IsIdle) :
    Refusal [(s, reply)] (.notFound noun)
  | overflow {t : Trace} {fault : Overflow} (looked : Looked t) : Refusal t (.overflow fault)
  | setGone {t : Trace} {fault : StoreFault} (gone : Store.SetGone t fault) :
    Refusal t (.store fault)

namespace Handler

open Failure Statement

variable {α β : Type}

/-- Sends nothing, and fails by what is wrong with the request itself. -/
abbrev Silent (program : Program Failure α) : Prop := program.Within (fun _ => False) IsInput

theorem Silent.within {program : Program Failure α} (silent : Silent program)
    {S : Statement → Prop} : program.Within S IsAnswered :=
  Program.Within.mono silent (fun _ => False.elim) fun _ => IsInput.isAnswered

section Reading

variable (call : Call)

theorem silent_parameter (index : Nat) : Silent (parameter call index) := by
  unfold parameter
  cases call.params[index]?.bind Percent.decode? <;> trivial

theorem silent_identifier : Silent (identifier call) := by
  refine (silent_parameter call 0).bind fun text => ?_
  cases Uuid.parse? text <;> trivial

theorem silent_body (read : Document → Option α) : Silent (body read call) := by
  unfold body Body.read
  split
  · trivial
  split
  · split <;> trivial
  · trivial

theorem silent_planned (listing : Listing) : Silent (planned call listing) := by
  unfold planned
  cases Plan.ofParams listing call.request.params <;> trivial

theorem eq_of_planned {listing : Listing} {plan : Plan}
    (made : planned call listing = .done plan) :
    Plan.ofParams listing call.request.params = .ok plan := by
  unfold planned at made
  cases planned : Plan.ofParams listing call.request.params with
  | error fault =>
    rw [planned] at made
    cases made
  | ok plan' =>
    rw [planned] at made
    cases made
    rfl

theorem within_require (ok : Bool) (failure : Failure) {S : Statement → Prop}
    {E : Failure → Prop} (fits : E failure) : (require ok failure).Within S E := by
  cases ok with
  | true => trivial
  | false => exact fits

end Reading

/-- Sends statements in their places, ends at the first that fails, and fails besides by a refusal
that fits what was sent. -/
abbrev Proceeds (allowed : String → Prop) (Q : Trace → α → Prop) (program : Program Failure α)
    (past : Trace) : Prop :=
  program.Behaves (fun s reply => (s.fault? reply).map .store) (Placed allowed) Refusal Q past

section Steps

variable {allowed : String → Prop} {past : Trace} {Q : Trace → β → Prop}
  {f : α → Program Failure β}

theorem proceeds_silent {program : Program Failure α} (silent : Silent program)
    (rest : ∀ a, program = .done a → Proceeds allowed Q (f a) []) :
    Proceeds allowed Q (program >>= f) [] := by
  cases program with
  | done a => exact rest a rfl
  | failed e => exact .input silent
  | ask statement next => exact silent.1.elim

theorem proceeds_require {f : Unit → Program Failure β} {ok : Bool} {failure : Failure}
    (refused : ok = false → Refusal past failure)
    (rest : ok = true → Proceeds allowed Q (f ()) past) :
    Proceeds allowed Q (require ok failure >>= f) past := by
  cases ok with
  | true => exact rest rfl
  | false => exact refused rfl

theorem proceeds_ofStore {program : StoreProgram α} {Q : Trace → α → Prop}
    (stored : Store.Behaves (Placed allowed) (fun _ _ => False) Q program past) :
    Proceeds allowed Q (ofStore program) past :=
  stored.mapError nofun

theorem proceeds_found {noun : Noun} {program : StoreProgram (Option α)}
    {Q : Trace → Option α → Prop}
    (stored : Store.Behaves (Placed allowed) (fun _ _ => False) Q program past)
    (absent : ∀ t, Q t none → Refusal t (.notFound noun)) :
    Proceeds allowed (fun t a => Q t (some a)) (found noun program) past := by
  refine (proceeds_ofStore stored).bind fun t a so => ?_
  cases a with
  | some a => exact so
  | none => exact absent t so

theorem looks_found {noun : Noun} {program : StoreProgram (Option α)}
    (stored : Store.Behaves (Placed allowed) (fun _ _ => False) (fun t _ => Looked t) program
      past) :
    Proceeds allowed (fun t _ => Looked t) (found noun program) past :=
  proceeds_found stored fun _ looked => .unknown looked trivial

theorem looks_server (id : Uuid) :
    Proceeds allowed (fun t _ => Looked t) (found .server (Store.findServer? id)) [] :=
  looks_found (Store.behaves_findServer id looked_nil)

theorem within_found {S : Statement → Prop} {program : StoreProgram (Option α)} (noun : Noun)
    (sends : Store.Sends S program) : (found noun program).Within S IsAnswered := by
  refine (Program.Within.mapError sends fun fault _ => isAnswered_of_store fault).bind fun a => ?_
  cases a with
  | some a => trivial
  | none => exact nofun

end Steps
end Handler
end FleetInventory
