import FleetInventory.Document.Basic
import Mathlib.Data.List.Perm.Subperm
import Mathlib.Data.List.Forall2
import Mathlib.Data.List.Nodup

/-!
Sameness of documents. It is transitive, and among documents whose objects have every key once, as
objects that are written key by key do, it is symmetric.
-/
namespace FleetInventory

theorem Binary64.same_symm {x y : Binary64} (same : x.same y = true) : y.same x = true := by
  simp only [Binary64.same, Bool.or_eq_true, Bool.and_eq_true, decide_eq_true_eq] at same ⊢
  exact same.imp Eq.symm And.symm

theorem Binary64.same_trans {x y z : Binary64} (first : x.same y = true)
    (second : y.same z = true) : x.same z = true := by
  simp only [Binary64.same, Bool.or_eq_true, Bool.and_eq_true, decide_eq_true_eq] at *
  rcases first with rfl | first
  · exact second
  rcases second with rfl | second
  · exact .inr first
  · exact .inr ⟨first.1, second.2⟩

theorem Number.same_symm {m n : Number} (same : m.same n = true) : n.same m = true := by
  cases m <;> cases n <;> simp_all [Number.same, Binary64.same_symm]

theorem Number.same_trans {l m n : Number} (first : l.same m = true) (second : m.same n = true) :
    l.same n = true := by
  cases l <;> cases m <;> cases n <;> simp_all [Number.same]
  exact Binary64.same_trans first second

namespace Document

/-- Every object has every key once. -/
inductive Keyed : Document → Prop
  | null : Keyed null
  | bool (b : Bool) : Keyed (bool b)
  | number (n : Number) : Keyed (number n)
  | text (s : String) : Keyed (text s)
  | array {items : List Document} (each : ∀ d ∈ items, Keyed d) : Keyed (array items)
  | object {fields : Fields} (distinct : (fields.map (·.1)).Nodup)
    (each : ∀ f ∈ fields, Keyed f.2) : Keyed (object fields)

/-- What holds of a document when it holds of its items, or of the values of its fields. -/
theorem induct {P : Document → Prop} (null : P null) (bool : ∀ b, P (bool b))
    (number : ∀ n, P (number n)) (text : ∀ s, P (text s))
    (array : ∀ items, (∀ d ∈ items, P d) → P (array items))
    (object : ∀ fields : Fields, (∀ f ∈ fields, P f.2) → P (object fields)) : ∀ d, P d
  | .null => null
  | .bool b => bool b
  | .number n => number n
  | .text s => text s
  | .array items => array items fun d member =>
    have smaller : sizeOf d < sizeOf (Document.array items) :=
      Nat.lt_of_lt_of_le (List.sizeOf_lt_of_mem member) (by simp)
    induct null bool number text array object d
  | .object fields => object fields fun (key, d) member =>
    have smaller : sizeOf d < sizeOf (Document.object fields) := by
      have field := List.sizeOf_lt_of_mem member
      simp only [Prod.mk.sizeOf_spec, Document.object.sizeOf_spec] at field ⊢
      omega
    induct null bool number text array object d
termination_by d => sizeOf d
decreasing_by all_goals exact smaller

section Inversion

attribute [local simp] same sameItems sameFields

theorem sameItems_iff {as bs : List Document} :
    sameItems as bs = true ↔ List.Forall₂ (fun a b => a.same b = true) as bs := by
  induction as generalizing bs with
  | nil => cases bs <;> simp
  | cons a as ih => cases bs <;> simp [ih]

theorem sameFields_iff {as bs : Fields} :
    sameFields as bs = true ↔ ∀ f ∈ as, ∃ b, bs.lookup f.1 = some b ∧ f.2.same b = true := by
  induction as with
  | nil => simp
  | cons f as ih =>
    cases found : bs.lookup f.1 <;> simp [found, ih]

variable {d : Document}

theorem null_same : null.same d = true ↔ d = null := by cases d <;> simp

theorem bool_same {b : Bool} : (bool b).same d = true ↔ d = bool b := by
  cases d <;> simp [eq_comm]

theorem number_same {n : Number} :
    (number n).same d = true ↔ ∃ m, d = number m ∧ n.same m = true := by
  cases d <;> simp

theorem text_same {s : String} : (text s).same d = true ↔ d = text s := by
  cases d <;> simp [eq_comm]

theorem array_same {as : List Document} : (array as).same d = true ↔
    ∃ bs, d = array bs ∧ List.Forall₂ (fun a b => a.same b = true) as bs := by
  cases d <;> simp [sameItems_iff]

theorem object_same {as : Fields} : (object as).same d = true ↔
    ∃ bs, d = object bs ∧ as.length = bs.length ∧
      ∀ f ∈ as, ∃ b, bs.lookup f.1 = some b ∧ f.2.same b = true := by
  cases d <;> simp [sameFields_iff]

end Inversion

theorem mem_of_lookup {fields : Fields} {key : String} {d : Document}
    (found : fields.lookup key = some d) : (key, d) ∈ fields := by
  obtain ⟨front, back, rfl, -⟩ := List.lookup_eq_some_iff.mp found
  simp

theorem lookup_of_mem {fields : Fields} (distinct : (fields.map (·.1)).Nodup)
    {f : String × Document} (member : f ∈ fields) : fields.lookup f.1 = some f.2 := by
  obtain ⟨front, back, rfl⟩ := List.append_of_mem member
  refine List.lookup_eq_some_iff.mpr ⟨front, back, rfl, fun other inside => ?_⟩
  rw [List.map_append, List.nodup_append] at distinct
  have apart := distinct.2.2 other.1 (List.mem_map_of_mem inside) f.1 (by simp)
  simpa using apart.symm

theorem same_trans {a b c : Document} (first : a.same b = true) (second : b.same c = true) :
    a.same c = true := by
  induction a using induct generalizing b c with
  | null =>
    obtain rfl := null_same.mp first
    exact second
  | bool x =>
    obtain rfl := bool_same.mp first
    exact second
  | text s =>
    obtain rfl := text_same.mp first
    exact second
  | number m =>
    obtain ⟨n, rfl, left⟩ := number_same.mp first
    obtain ⟨k, rfl, right⟩ := number_same.mp second
    exact number_same.mpr ⟨k, rfl, Number.same_trans left right⟩
  | array as ih =>
    obtain ⟨bs, rfl, left⟩ := array_same.mp first
    obtain ⟨cs, rfl, right⟩ := array_same.mp second
    refine array_same.mpr ⟨cs, rfl, ?_⟩
    clear first second
    induction left generalizing cs with
    | nil => exact right
    | cons head tail rest =>
      cases right with
      | cons after more =>
        exact .cons (ih _ (by simp) head after)
          (rest (fun d member => ih d (List.mem_cons_of_mem _ member)) _ more)
  | object as ih =>
    obtain ⟨bs, rfl, length, left⟩ := object_same.mp first
    obtain ⟨cs, rfl, size, right⟩ := object_same.mp second
    refine object_same.mpr ⟨cs, rfl, length.trans size, fun f member => ?_⟩
    obtain ⟨b, found, head⟩ := left f member
    obtain ⟨c, reached, after⟩ := right _ (mem_of_lookup found)
    exact ⟨c, reached, ih f member head after⟩

theorem keys_perm {as bs : Fields} (distinct : (as.map (·.1)).Nodup)
    (length : as.length = bs.length)
    (found : ∀ f ∈ as, ∃ b, bs.lookup f.1 = some b ∧ f.2.same b = true) :
    (as.map (·.1)).Perm (bs.map (·.1)) := by
  refine (distinct.subperm fun key member => ?_).perm_of_length_le (by simp [length])
  obtain ⟨f, inside, rfl⟩ := List.mem_map.mp member
  obtain ⟨b, reached, -⟩ := found f inside
  exact List.mem_map.mpr ⟨_, mem_of_lookup reached, rfl⟩

theorem Keyed.same_symm {a b : Document} (keyed : a.Keyed) (same : a.same b = true) :
    b.same a = true := by
  induction keyed generalizing b with
  | null =>
    obtain rfl := null_same.mp same
    exact same
  | bool x =>
    obtain rfl := bool_same.mp same
    exact same
  | text s =>
    obtain rfl := text_same.mp same
    exact same
  | number m =>
    obtain ⟨n, rfl, left⟩ := number_same.mp same
    exact number_same.mpr ⟨m, rfl, Number.same_symm left⟩
  | @array as each ih =>
    obtain ⟨bs, rfl, left⟩ := array_same.mp same
    refine array_same.mpr ⟨as, rfl, ?_⟩
    clear same each
    induction left with
    | nil => exact .nil
    | cons head tail rest =>
      exact .cons (ih _ (by simp) head) (rest fun d member => ih d (List.mem_cons_of_mem _ member))
  | @object as distinct each ih =>
    obtain ⟨bs, rfl, length, left⟩ := object_same.mp same
    have keys := keys_perm distinct length left
    refine object_same.mpr ⟨as, rfl, length.symm, fun g member => ?_⟩
    obtain ⟨f, inside, key⟩ := List.mem_map.mp (keys.mem_iff.mpr (List.mem_map_of_mem member))
    obtain ⟨b, found, head⟩ := left f inside
    rw [key, lookup_of_mem (keys.nodup_iff.mp distinct) member] at found
    cases found
    exact ⟨f.2, key ▸ lookup_of_mem distinct inside, ih f inside head⟩

end Document
end FleetInventory
