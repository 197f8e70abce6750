import FleetInventory.Document.Parser
import FleetInventory.Proofs.Document.Same

/-!
Documents read from text: every object in them has every key once. Writing a key again replaces its
value, so the fields of each container part way through have distinct keys, token after token.
-/
namespace FleetInventory.Document

def KeyedFields (fields : Fields) : Prop := (fields.map (·.1)).Nodup ∧ ∀ f ∈ fields, Keyed f.2

theorem mem_put {key : String} {value : Document} {fields : Fields} {f : String × Document}
    (member : f ∈ fields.put key value) : f ∈ fields ∨ f = (key, value) := by
  induction fields with
  | nil => simpa [Fields.put] using member
  | cons g rest ih =>
    unfold Fields.put at member
    split at member
    · rename_i same
      rcases List.mem_cons.mp member with rfl | member
      · exact .inr (by rw [same])
      · exact .inl (List.mem_cons_of_mem _ member)
    · rcases List.mem_cons.mp member with rfl | member
      · exact .inl List.mem_cons_self
      · exact (ih member).imp_left (List.mem_cons_of_mem _)

theorem nodup_put {key : String} {value : Document} {fields : Fields}
    (distinct : (fields.map (·.1)).Nodup) : ((fields.put key value).map (·.1)).Nodup := by
  induction fields with
  | nil => simp [Fields.put]
  | cons g rest ih =>
    unfold Fields.put
    split
    · exact distinct
    · rename_i other
      rw [List.map_cons, List.nodup_cons] at distinct ⊢
      refine ⟨fun member => ?_, ih distinct.2⟩
      obtain ⟨f, inside, same⟩ := List.mem_map.mp member
      rcases mem_put inside with inside | rfl
      · exact distinct.1 (same ▸ List.mem_map_of_mem inside)
      · exact other same.symm

theorem KeyedFields.put {key : String} {value : Document} {fields : Fields}
    (keyed : KeyedFields fields) (whole : value.Keyed) : KeyedFields (fields.put key value) := by
  refine ⟨nodup_put keyed.1, fun f member => ?_⟩
  rcases mem_put member with member | rfl
  · exact keyed.2 f member
  · exact whole

def Frame.Keyed : Frame → Prop
  | .items done => ∀ d ∈ done, d.Keyed
  | .fields done _ => KeyedFields done

def Expected.Keyed : Expected → Prop
  | .key done | .colon done _ => KeyedFields done
  | .finished whole => whole.Keyed
  | _ => True

namespace Progress

structure Keyed (p : Progress) : Prop where
  frames : ∀ frame ∈ p.stack, frame.Keyed
  expected : p.expected.Keyed

theorem start_keyed : start.Keyed := ⟨nofun, trivial⟩

variable {p q : Progress} {stack : List Frame} {token : Token}

theorem deliver_keyed {value : Document} (whole : value.Keyed)
    (frames : ∀ frame ∈ stack, frame.Keyed) : (deliver value stack).Keyed := by
  cases stack with
  | nil => exact ⟨nofun, whole⟩
  | cons frame stack =>
    obtain ⟨inner, outer⟩ := List.forall_mem_cons.mp frames
    cases frame with
    | items done =>
      exact ⟨List.forall_mem_cons.mpr ⟨List.forall_mem_cons.mpr ⟨whole, inner⟩, outer⟩, trivial⟩
    | fields done key =>
      exact ⟨List.forall_mem_cons.mpr ⟨KeyedFields.put inner whole, outer⟩, trivial⟩

theorem begin?_keyed (frames : ∀ frame ∈ stack, frame.Keyed)
    (step : begin? stack token = some q) : q.Keyed := by
  cases token with
  | null => cases step; exact deliver_keyed .null frames
  | bool b => cases step; exact deliver_keyed (.bool b) frames
  | number n => cases step; exact deliver_keyed (.number n) frames
  | text s => cases step; exact deliver_keyed (.text s) frames
  | openArray =>
    simp only [begin?, Option.ite_none_right_eq_some] at step
    cases step.2
    exact ⟨List.forall_mem_cons.mpr ⟨nofun, frames⟩, trivial⟩
  | openObject =>
    simp only [begin?, Option.ite_none_right_eq_some] at step
    cases step.2
    exact ⟨List.forall_mem_cons.mpr ⟨⟨List.nodup_nil, nofun⟩, frames⟩, trivial⟩
  | _ => cases step

theorem continue?_keyed (frames : ∀ frame ∈ stack, frame.Keyed)
    (step : continue? token stack = some q) : q.Keyed := by
  cases stack with
  | nil => cases step
  | cons frame stack =>
    obtain ⟨inner, outer⟩ := List.forall_mem_cons.mp frames
    cases frame with
    | items done =>
      cases token with
      | comma => cases step; exact ⟨frames, trivial⟩
      | closeArray =>
        cases step
        exact deliver_keyed (.array fun d member => inner d (List.mem_reverse.mp member)) outer
      | _ => cases step
    | fields done key =>
      cases token with
      | comma => cases step; exact ⟨outer, inner⟩
      | closeObject => cases step; exact deliver_keyed (.object inner.1 inner.2) outer
      | _ => cases step

theorem step?_keyed (keyed : p.Keyed) (step : p.step? token = some q) : q.Keyed := by
  obtain ⟨stack, expected⟩ := p
  obtain ⟨frames, next⟩ := keyed
  cases expected with
  | value => exact begin?_keyed frames step
  | itemOrClose =>
    simp only [step?] at step
    split at step
    · cases step
      exact deliver_keyed (.array nofun) (List.forall_mem_cons.mp frames).2
    · exact begin?_keyed frames step
  | comma => exact continue?_keyed frames step
  | key done =>
    cases token with
    | text key => cases step; exact ⟨frames, next⟩
    | _ => cases step
  | keyOrClose =>
    simp only [step?] at step
    split at step
    · cases step
      exact deliver_keyed (.object List.nodup_nil nofun) (List.forall_mem_cons.mp frames).2
    · cases step
      exact ⟨(List.forall_mem_cons.mp frames).2, List.nodup_nil, nofun⟩
    · cases step
  | colon done key =>
    cases token with
    | colon => cases step; exact ⟨List.forall_mem_cons.mpr ⟨next, frames⟩, trivial⟩
    | _ => cases step
  | finished whole => cases step

theorem foldlM_keyed {tokens : List Token} (keyed : p.Keyed)
    (read : tokens.foldlM step? p = some q) : q.Keyed := by
  induction tokens generalizing p with
  | nil => cases read; exact keyed
  | cons token tokens ih =>
    rw [List.foldlM_cons] at read
    obtain ⟨middle, first, rest⟩ := Option.bind_eq_some_iff.mp read
    exact ih (step?_keyed keyed first) rest

theorem whole?_keyed {d : Document} (keyed : p.Keyed) (whole : p.whole? = some d) : d.Keyed := by
  obtain ⟨stack, expected⟩ := p
  cases expected with
  | finished d' => cases whole; exact keyed.expected
  | _ => cases whole

end Progress

theorem ofTokens?_keyed {tokens : List Token} {d : Document} (read : ofTokens? tokens = some d) :
    d.Keyed := by
  obtain ⟨p, folded, whole⟩ := Option.bind_eq_some_iff.mp read
  exact Progress.whole?_keyed (Progress.foldlM_keyed Progress.start_keyed folded) whole

theorem parse?_keyed {source : String} {d : Document} (read : parse? source = some d) :
    d.Keyed := by
  obtain ⟨tokens, -, whole⟩ := Option.bind_eq_some_iff.mp read
  exact ofTokens?_keyed whole

end FleetInventory.Document
