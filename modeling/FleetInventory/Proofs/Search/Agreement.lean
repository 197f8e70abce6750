import FleetInventory.Proofs.ComponentGroup.Indexes
import FleetInventory.Proofs.Paging.Window
import FleetInventory.Proofs.Query.Reading
import FleetInventory.Search.Plan

/-!
What a list request depends on. Filters and order are read from the values of their own keys, so
two requests whose values differ under the keys for paging alone have plans that differ in their
windows alone.
-/
namespace FleetInventory

/-- The same values under every key that is not for paging. -/
def Params.Agree (p q : Params) : Prop :=
  ∀ key, key ∉ PageRequest.controls → p.values key = q.values key

theorem AttributeFilter.readAll_of_values {p q : Params} {param : String}
    (same : p.values param = q.values param) : readAll p param = readAll q param := by
  rw [readAll, readAll, same]

namespace Params

variable {p q : Params}

theorem Agree.mem_keys (agree : p.Agree q) {key : String} (other : key ∉ PageRequest.controls) :
    key ∈ p.keys ↔ key ∈ q.keys := by
  rw [mem_keys_iff, mem_keys_iff, agree key other]

theorem Agree.filled? (agree : p.Agree q) {key : String} (other : key ∉ PageRequest.controls) :
    p.filled? key = q.filled? key :=
  filled?_congr (agree key other)

theorem Agree.readAll (agree : p.Agree q) {param : String} (other : param ∉ PageRequest.controls) :
    AttributeFilter.readAll p param = AttributeFilter.readAll q param :=
  AttributeFilter.readAll_of_values (agree param other)

end Params

theorem PageRequest.orderBy_congr {p q : Params} (agree : p.Agree q) :
    (read p).orderBy = (read q).orderBy := by
  have other : orderParam ∉ controls := by decide
  exact agree.filled? other

namespace ComponentGroup

variable {p q : Params}

theorem owns_not_control {index : Nat} {key : String} (owns : Owns index key) :
    key ∉ PageRequest.controls := by
  obtain ⟨tail, chars, -⟩ := owns_numeral owns
  intro member
  have first : key.toList.head? = some 's' := by rw [chars]; rfl
  have other : ∀ control ∈ PageRequest.controls, control.toList.head? ≠ some 's' := by decide
  exact other key member first

theorem owns_fieldParam (index : Nat) (field : String) : Owns index (fieldParam index field) :=
  .inl ⟨field.toList ++ [']'], by simp [fieldParam]⟩

theorem owns_attributeParam (index : Nat) : Owns index (attributeParam index) := .inr (.inl rfl)

theorem owns_versionedParam (index : Nat) : Owns index (versionedParam index) := .inr (.inr rfl)

theorem readOne_of_values {index : Nat}
    (same : ∀ key, Owns index key → p.values key = q.values key) :
    readOne p index = readOne q index := by
  have field : ∀ name, p.filled? (fieldParam index name) = q.filled? (fieldParam index name) :=
    fun name => Params.filled?_congr (same _ (owns_fieldParam index name))
  have attributes := AttributeFilter.readAll_of_values (same _ (owns_attributeParam index))
  have versioned := AttributeFilter.readAll_of_values (same _ (owns_versionedParam index))
  simp only [readOne, attributes, versioned, field]

theorem present_congr (agree : p.Agree q) (index : Nat) : present p index = present q index := by
  rw [Bool.eq_iff_iff, present_iff, present_iff]
  constructor
  · rintro ⟨key, member, owns⟩
    exact ⟨key, (agree.mem_keys (owns_not_control owns)).mp member, owns⟩
  · rintro ⟨key, member, owns⟩
    exact ⟨key, (agree.mem_keys (owns_not_control owns)).mpr member, owns⟩

theorem readOne_congr (agree : p.Agree q) (index : Nat) : readOne p index = readOne q index :=
  readOne_of_values fun key owns => agree key (owns_not_control owns)

theorem readAll_congr (agree : p.Agree q) : readAll p = readAll q := by
  have one : readOne p = readOne q := funext (readOne_congr agree)
  rw [readAll, readAll, indexes_congr (present_congr agree), one]

end ComponentGroup

namespace Listing

variable {p q : Params}

theorem fragment_congr (listing : Listing) (agree : p.Agree q) :
    listing.fragment p = listing.fragment q := by
  have attributes : AttributeFilter.readAll p AttributeFilter.attributeParam
      = AttributeFilter.readAll q AttributeFilter.attributeParam := agree.readAll (by decide)
  have versioned : AttributeFilter.readAll p AttributeFilter.versionedParam
      = AttributeFilter.readAll q AttributeFilter.versionedParam := agree.readAll (by decide)
  have name : p.filled? "name" = q.filled? "name" := agree.filled? (by decide)
  have vendor : p.filled? "vendor" = q.filled? "vendor" := agree.filled? (by decide)
  have model : p.filled? "model" = q.filled? "model" := agree.filled? (by decide)
  cases listing with
  | servers =>
    have facility : p.filled? "facility_code" = q.filled? "facility_code" :=
      agree.filled? (by decide)
    simp only [fragment, ServerCriteria.read, attributes, versioned, name, facility,
      ComponentGroup.readAll_congr agree]
  | components =>
    have serial : p.filled? "serial" = q.filled? "serial" := agree.filled? (by decide)
    have kind : p.filled? "type" = q.filled? "type" := agree.filled? (by decide)
    simp only [fragment, ComponentCriteria.read, attributes, versioned, name, vendor, model, serial,
      kind]
  | firmware =>
    have version : p.filled? "version" = q.filled? "version" := agree.filled? (by decide)
    simp only [fragment, FirmwareCriteria.read, vendor, model, version]
  | firmwareSets => simp only [fragment, FirmwareSetCriteria.read, attributes, name]
  | componentsOf server => rfl

theorem order_congr (listing : Listing) (agree : p.Agree q) :
    listing.order p = listing.order q := by
  rw [order, order, PageRequest.orderBy_congr agree]

end Listing

theorem Plan.ofParams_eq_ok {listing : Listing} {params : Params} {plan : Plan} :
    Plan.ofParams listing params = .ok plan ↔ ∃ order selection, listing.order params = .ok order
      ∧ listing.select params = .ok selection
      ∧ plan = ⟨listing, selection, order, (PageRequest.read params).window⟩ := by
  refine Iff.trans bind_eq_ok (exists_congr fun order => ?_)
  rw [bind_eq_ok, ← exists_and_left]
  refine exists_congr fun selection => and_congr_right fun _ => and_congr_right fun _ => ?_
  exact ⟨fun same => (Except.ok.inj same).symm, fun same => congrArg Except.ok same.symm⟩

theorem Plan.listing_of_ofParams {listing : Listing} {params : Params} {plan : Plan}
    (planned : Plan.ofParams listing params = .ok plan) : plan.listing = listing := by
  obtain ⟨order, selection, -, -, rfl⟩ := ofParams_eq_ok.mp planned
  rfl

theorem Plan.window_of_ofParams {listing : Listing} {params : Params} {plan : Plan}
    (planned : Plan.ofParams listing params = .ok plan) :
    plan.window = (PageRequest.read params).window := by
  obtain ⟨order, selection, -, -, rfl⟩ := ofParams_eq_ok.mp planned
  rfl

theorem Plan.ofParams_congr {p q : Params} (listing : Listing) (agree : p.Agree q) :
    Plan.ofParams listing p = (Plan.ofParams listing q).map fun plan =>
      { plan with window := (PageRequest.read p).window } := by
  rw [Plan.ofParams, Plan.ofParams, listing.order_congr agree, Listing.select, Listing.select,
    listing.fragment_congr agree]
  cases listing.order q with
  | error fault => rfl
  | ok order =>
    cases (listing.fragment q).bind Sql.Selection.ofFragment with
    | error fault => rfl
    | ok selection => rfl

end FleetInventory
