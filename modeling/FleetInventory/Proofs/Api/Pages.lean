import FleetInventory.Proofs.Api.Steps
import FleetInventory.Proofs.Record.Shown
import FleetInventory.Proofs.Search.Agreement

/-!
Pages of lists. A list is counted and then one page of it is read, by two statements of one plan;
what is answered is made of what they found. The components of a server are listed after the server
has been looked for.
-/
namespace FleetInventory

def Plan.counting (plan : Plan) : Statement := .countRows plan.listing.table plan.selection

def Plan.paging (plan : Plan) : Statement :=
  .pageRows plan.listing.table plan.orderSql plan.selection plan.window.limit plan.window.offset

namespace Route

def lists : List Route := [servers, serverComponents, components, firmware, firmwareSets]

def listing? (params : List String) : Route → Option Listing
  | servers => some .servers
  | serverComponents =>
    ((params[0]?.bind Percent.decode?).bind Uuid.parse?).map .componentsOf
  | components => some .components
  | firmware => some .firmware
  | firmwareSets => some .firmwareSets
  | _ => none

end Route

namespace Listing

/-- What is looked for before the list is read. -/
def lookups : Listing → List Statement
  | componentsOf server => [.findServer server]
  | _ => []

/-- The columns that are answered of a row of the list. -/
def columns : Listing → Columns
  | servers => Server.columns
  | components | componentsOf _ => Component.columns
  | firmware => Firmware.columns
  | firmwareSets => FirmwareSet.columns

theorem looked_of_lookups {listing : Listing} {past : Trace}
    (looked : past.map (·.1) = listing.lookups) : Looked past := by
  intro sent member
  have listed : sent.1 ∈ listing.lookups := looked ▸ List.mem_map_of_mem member
  cases listing with
  | componentsOf server =>
    rw [List.mem_singleton.mp listed]
    rfl
  | _ => cases listed

end Listing

theorem forall₂_of_mapM {α β : Type} {read : α → Option β} {as : List α} {bs : List β}
    (all : as.mapM read = some bs) : List.Forall₂ (fun a b => read a = some b) as bs := by
  induction as generalizing bs with
  | nil =>
    cases all
    exact .nil
  | cons a rest ih =>
    rw [List.mapM_cons] at all
    obtain ⟨b, first, all⟩ := Option.bind_eq_some_iff.mp all
    obtain ⟨more, later, all⟩ := Option.bind_eq_some_iff.mp all
    cases all
    exact .cons first (ih later)

theorem Store.behaves_page {allowed : String → Prop} {R : Trace → StoreFault → Prop} {past : Trace}
    {read : Row → Option α} {plan : Plan} (looked : Looked past)
    (reading : Reading.page plan.listing.table = .every read) :
    Behaves (Placed allowed) R (fun t found => ∃ counted listed,
      t = past ++ [(plan.counting, counted), (plan.paging, listed)] ∧
        counted.Gives (·.int64? "count") (some found.2) ∧ listed.found.mapM read = some found.1)
      (page read plan) past := by
  refine (behaves_fetchOne rfl (placed_of_plain looked.not_committed rfl)).bind ?_
  rintro _ total ⟨counted, rfl, gives⟩
  have looked : Looked (past ++ [(plan.counting, counted)]) := looked.snoc rfl
  refine (behaves_fetchAll (s := plan.paging) reading
    (placed_of_plain looked.not_committed rfl)).bind ?_
  rintro _ records ⟨listed, rfl, found⟩
  exact ⟨counted, listed, by rw [List.append_assoc]; rfl, gives, found⟩

namespace Handler

inductive Lists (call : Call) (listing : Listing) : Trace → Document → Prop
  | page {plan : Plan} {past : Trace} {counted listed : Reply} {total : Int}
    {records : List Document} {envelope : Envelope}
    (planned : Plan.ofParams listing call.request.params = .ok plan)
    (looked : past.map (·.1) = listing.lookups)
    (counts : counted.Gives (·.int64? "count") (some total))
    (shows : List.Forall₂ (Row.ShownAs listing.columns) listed.found records)
    (encloses : Envelope.ofPage (PageRequest.read call.request.params) total records.length
      (call.request.linkBase call.settings.publicUrl) = .ok envelope) :
    Lists call listing (past ++ [(plan.counting, counted), (plan.paging, listed)])
      (Answer.ofPage envelope records)

variable {allowed : String → Prop} (call : Call) {listing : Listing} {read : Row → Option α}
  {toDocument : α → Document}

theorem proceeds_page {plan : Plan} {past : Trace}
    (planned : Plan.ofParams listing call.request.params = .ok plan)
    (looked : past.map (·.1) = listing.lookups)
    (reading : Reading.page listing.table = .every read)
    (shown : ∀ row a, read row = some a → row.ShownAs listing.columns (toDocument a)) :
    Proceeds allowed (Lists call listing) (page read toDocument call plan) past := by
  rw [← Plan.listing_of_ofParams planned] at reading
  refine (proceeds_ofStore (Store.behaves_page (Listing.looked_of_lookups looked)
    reading)).bind ?_
  rintro _ ⟨rows, total⟩ ⟨counted, listed, rfl, counts, found⟩
  have shows : List.Forall₂ (Row.ShownAs listing.columns) listed.found (rows.map toDocument) :=
    List.forall₂_map_right_iff.mpr ((forall₂_of_mapM found).imp shown)
  dsimp only
  cases encloses : Envelope.ofPage (PageRequest.read call.request.params) total rows.length
      (call.request.linkBase call.settings.publicUrl) with
  | error fault =>
    refine .overflow (List.forall_mem_append.mpr ⟨Listing.looked_of_lookups looked, ?_⟩)
    exact List.forall_mem_cons.mpr ⟨rfl, List.forall_mem_singleton.mpr rfl⟩
  | ok envelope =>
    exact .page planned looked counts shows (by rw [List.length_map]; exact encloses)

theorem proceeds_list (reading : Reading.page listing.table = .every read)
    (looked : listing.lookups = [])
    (shown : ∀ row a, read row = some a → row.ShownAs listing.columns (toDocument a)) :
    Proceeds allowed (Lists call listing) (list listing read toDocument call) [] := by
  refine proceeds_silent (silent_planned call listing) fun plan made => ?_
  exact proceeds_page call (eq_of_planned call made) looked.symm reading shown

theorem eq_of_identifier {call : Call} {id : Uuid} (named : identifier call = .done id) :
    (call.params[0]?.bind Percent.decode?).bind Uuid.parse? = some id := by
  unfold identifier parameter at named
  cases sent : call.params[0]?.bind Percent.decode? with
  | none =>
    rw [sent] at named
    cases named
  | some text =>
    rw [sent] at named
    dsimp only [bind, Program.bind] at named
    cases read : Uuid.parse? text with
    | none =>
      rw [read] at named
      cases named
    | some other =>
      rw [read] at named
      cases named
      exact read

theorem proceeds_listComponentsOf :
    Proceeds allowed (fun t document => ∃ id, identifier call = .done id ∧
      Lists call (.componentsOf id) t document) (listComponentsOf call) [] := by
  refine proceeds_silent (silent_identifier call) fun id named => ?_
  refine proceeds_silent (silent_planned call (.componentsOf id)) fun plan made => ?_
  refine (proceeds_found (Store.behaves_fetchOptional rfl
    (placed_of_plain looked_nil.not_committed rfl)) ?_).bind ?_
  · rintro _ ⟨reply, rfl, -⟩
    exact .unknown (looked_nil.snoc rfl) trivial
  · rintro _ server ⟨reply, rfl, -⟩
    exact (proceeds_page call (eq_of_planned call made) rfl rfl fun _ _ => Component.shown).ends
      fun t document lists => ⟨id, named, lists⟩

theorem proceeds_lists {route : Route} {handler : Call → Handler}
    (takes : of? route .get = some handler) (lists : route ∈ Route.lists) :
    Proceeds allowed (fun t document => ∃ listing, route.listing? call.params = some listing ∧
      Lists call listing t document) (handler call) [] := by
  simp only [Route.lists, List.mem_cons, List.not_mem_nil, or_false] at lists
  rcases lists with rfl | rfl | rfl | rfl | rfl <;> cases takes
  · exact (proceeds_list call rfl rfl fun _ _ => Server.shown).ends fun _ _ so => ⟨_, rfl, so⟩
  · refine (proceeds_listComponentsOf call).ends ?_
    rintro t document ⟨id, named, so⟩
    refine ⟨_, ?_, so⟩
    rw [Route.listing?, eq_of_identifier named]
    rfl
  · exact (proceeds_list call rfl rfl fun _ _ => Component.shown).ends fun _ _ so => ⟨_, rfl, so⟩
  · exact (proceeds_list call rfl rfl fun _ _ => Firmware.shown).ends fun _ _ so => ⟨_, rfl, so⟩
  · exact (proceeds_list call rfl rfl fun _ _ => FirmwareSet.shown).ends fun _ _ so => ⟨_, rfl, so⟩

end Handler
end FleetInventory
