import FleetInventory.Proofs.Api.Committing
import FleetInventory.Proofs.Paging.Link
import FleetInventory.Proofs.Search.Unordered
import FleetInventory.Proofs.Store.Saying
import FleetInventory.Proofs.Text.Word

/-!
Lists as they are served. The count, the page that is read and the envelope around it are put
together apart from each other; they all speak of the same selection and the same window. Main
statement: `count_and_page_agree`.
-/
namespace FleetInventory

namespace Plan

open Sql

theorem source_of_counting (plan : Plan) : Text.afterWord? " FROM " plan.counting.sql
    = some (plan.selection.source plan.listing.table) := by
  have mark : ".id) FROM " = ".id)" ++ " FROM " := rfl
  have text : plan.counting.sql = "SELECT COUNT(DISTINCT " ++ plan.listing.table ++ ".id)"
      ++ " FROM " ++ plan.selection.source plan.listing.table := by
    delta counting Statement.sql Selection.countSql
    simp only [mark, String.append_assoc]
  rw [text]
  refine Text.afterWord?_append (c := 'F') (by decide) ?_ _
  simp [plan.listing.table_lower (c := 'F') (by decide)]

theorem source_of_paging {listing : Listing} {params : Params} {plan : Plan}
    (planned : ofParams listing params = .ok plan) :
    (Text.afterWord? " FROM " plan.paging.sql).bind (Text.beforeWord? " ORDER BY ")
      = some (plan.selection.source plan.listing.table) := by
  have mark : ".* FROM " = ".*" ++ " FROM " := rfl
  have text : plan.paging.sql = "SELECT DISTINCT " ++ plan.listing.table ++ ".*" ++ " FROM "
      ++ (plan.selection.source plan.listing.table ++ " ORDER BY " ++ (plan.orderSql ++ " LIMIT "
        ++ placeholder plan.selection.limitSlot ++ " OFFSET "
        ++ placeholder plan.selection.offsetSlot)) := by
    delta paging Statement.sql Selection.pageSql
    simp only [mark, String.append_assoc]
  have front : 'F' ∉ ("SELECT DISTINCT " ++ plan.listing.table ++ ".*").toList := by
    simp [plan.listing.table_lower (c := 'F') (by decide)]
  rw [text, Text.afterWord?_append (c := 'F') (by decide) front, Option.bind_some]
  exact Text.beforeWord?_append (c := 'Y') (by decide) (unordered_source planned) _

end Plan

theorem Listing.says_of_lookups {listing : Listing} {s : Statement}
    (member : s ∈ listing.lookups) : ∃ server, listing = .componentsOf server ∧
      s.Says (.select "servers" ["id"] none (Server.columns.map (·.1))) [.uuid server] := by
  cases listing with
  | componentsOf server =>
    rw [List.mem_singleton.mp member]
    exact ⟨server, rfl, Statement.says_of_operation rfl⟩
  | _ => cases member

def LinkName.all : List LinkName := [self, first, previous, next, last]

def LinkName.key : LinkName → String
  | self => "self"
  | first => "first"
  | previous => "previous"
  | next => "next"
  | last => "last"

theorem Answer.field?_links (ls : Links) (name : LinkName) :
    (links ls).field? name.key = (ls.get? name).map link := by
  obtain ⟨self, first, previous, next, last⟩ := ls
  cases first <;> cases previous <;> cases next <;> cases last <;> cases name <;> rfl

def Reply.Counts (reply : Reply) (n : Int) : Prop :=
  ∃ row more, reply = .rows (row :: more) ∧ row.cell "count" = .int n

theorem Reply.counts_of_gives {reply : Reply} {n : Int}
    (gives : reply.Gives (·.int64? "count") (some n)) : reply.Counts n := by
  obtain ⟨row, more, rfl, read⟩ := gives
  refine ⟨row, more, rfl, ?_⟩
  dsimp only [Row.int64?] at read
  split at read
  · next m cell => rw [cell, ((Word.ofInt_eq_some_iff m n).mp read).2]
  · cases read

/-- One page of a list as it was served: what was sent for it and replied, and the document that was
answered. The statements select from one source, and the document says what they found. -/
structure ServedPage (listing : Listing) (request : Request) (trace : Trace) (exchange : Exchange)
    where
  plan : Plan
  source : String
  before : Trace
  counted : Reply
  listed : Reply
  limit : Int
  offset : Int
  total : Int
  records : List Document
  document : Document
  planned : Plan.ofParams listing request.params = .ok plan
  looked : before.map (·.1) = listing.lookups
  looks : ∀ sent ∈ before, ∃ server, listing = .componentsOf server ∧
    sent.1.Says (.select "servers" ["id"] none (Server.columns.map (·.1))) [.uuid server]
  sent : trace = before ++ [(plan.counting, counted), (plan.paging, listed)]
  recorded : exchange.statements = trace.map (·.1)
  counting : Text.afterWord? " FROM " plan.counting.sql = some source
  paging : (Text.afterWord? " FROM " plan.paging.sql).bind (Text.beforeWord? " ORDER BY ")
    = some source
  bindings : plan.paging.bindings = plan.counting.bindings ++ [.int limit, .int offset]
  counts : counted.Counts total
  shows : List.Forall₂ (Row.ShownAs listing.columns) listed.found records
  answered : exchange.response = some ⟨200, some document⟩
  pageSize : document.field? "page_size" = some (.int limit)
  page : document.field? "page" = some (.int (offset / limit + 1))
  pageCount : document.field? "page_count" = some (.int listed.found.length)
  totalRecords : document.field? "total_record_count" = some (.int total)
  rows : document.field? "records" = some (.array records)
  next : ((document.field? "_links").bind (·.field? "next")).isSome ↔ offset + limit < total
  previous : ((document.field? "_links").bind (·.field? "previous")).isSome ↔ 0 < offset

theorem Answer.next_isSome_iff {e : Envelope} {records : List Document} {w : Window}
    {base : LinkBase} {total pages : Int} (valid : w.here.Valid)
    (links : e.links = Envelope.linksOf base w total pages) :
    (((ofPage e records).field? "_links").bind (·.field? "next")).isSome
      ↔ w.offset + w.limit < total := by
  have next : ((ofPage e records).field? "_links").bind (·.field? "next")
      = e.links.next.map link := field?_links e.links .next
  rw [next, links, Option.isSome_map]
  simp only [Envelope.linksOf, Option.isSome_map]
  rw [Window.next?_eq valid]
  split <;> simp [*]

theorem Answer.previous_isSome_iff {e : Envelope} {records : List Document} {w : Window}
    {base : LinkBase} {total pages : Int} (links : e.links = Envelope.linksOf base w total pages) :
    (((ofPage e records).field? "_links").bind (·.field? "previous")).isSome ↔ 0 < w.offset := by
  have previous : ((ofPage e records).field? "_links").bind (·.field? "previous")
      = e.links.previous.map link := field?_links e.links .previous
  rw [previous, links, Option.isSome_map]
  simp only [Envelope.linksOf, Option.isSome_map, Window.previous?]
  split <;> simp [*]

theorem Handler.Lists.served {call : Call} {listing : Listing} {trace : Trace}
    {document : Document} {request : Request} {exchange : Exchange}
    (lists : Lists call listing trace document) (same : call.request.params = request.params)
    (recorded : exchange.statements = trace.map (·.1))
    (answered : exchange.response = some ⟨200, some document⟩) :
    Nonempty (ServedPage listing request trace exchange) := by
  cases lists with
  | @page plan past counted listed total records envelope planned looked counts shows encloses =>
    rw [same] at planned encloses
    obtain ⟨pages, -, rfl⟩ := Envelope.ofPage_eq_ok.mp encloses
    have window := Plan.window_of_ofParams planned
    exact ⟨{
      plan, counted, listed, total, records, planned, looked, shows, recorded, answered
      before := past
      looks := fun sent member =>
        Listing.says_of_lookups (looked ▸ List.mem_map_of_mem member : sent.1 ∈ listing.lookups)
      document := _
      sent := rfl
      counts := Reply.counts_of_gives counts
      source := plan.selection.source plan.listing.table
      limit := plan.window.limit
      offset := plan.window.offset
      counting := plan.source_of_counting
      paging := Plan.source_of_paging planned
      bindings := by
        simp [Plan.paging, Plan.counting, Statement.bindings, Sql.Selection.pageValues,
          Binding.ofValue]
      pageSize := by
        rw [window]
        rfl
      page := by
        rw [window]
        rfl
      pageCount := by
        rw [shows.length_eq]
        rfl
      totalRecords := rfl
      rows := rfl
      next := by
        rw [window]
        exact Answer.next_isSome_iff (PageRequest.window_valid _) rfl
      previous := by
        rw [window]
        exact Answer.previous_isSome_iff rfl }⟩

namespace Service

def call (service : Service) (request : Request) (path : String) (params : List String) : Call :=
  ⟨service.settings, { request with target := ⟨path, request.target.query⟩ }, params⟩

variable {service : Service} {request : Request} {script : Script} {path : String}
  {route : Route} {params : List String}

theorem ok_of_granted
    (granted : (service.handle request script).response.map (·.status) = some 200) :
    ∃ document, ((service.program request).run script).1 = .ok document := by
  obtain ⟨response, sent, status⟩ := Option.map_eq_some_iff.mp granted
  rcases causes_of_response sent with ⟨done, -⟩ | ⟨failure, same, -⟩
  · exact done
  · exact absurd (same.symm.trans status) failure.status_ne_ok

theorem handler_of_lists (lists : route ∈ Route.lists) :
    ∃ handler, Handler.of? route .get = some handler := by
  simp only [Route.lists, List.mem_cons, List.not_mem_nil, or_false] at lists
  rcases lists with rfl | rfl | rfl | rfl | rfl <;> exact ⟨_, rfl⟩

theorem program_of_get {handler : Call → Handler}
    (inside : Route.inside? request.target.path = some path)
    (found : Route.find? path = some (route, params)) (get : request.method = "GET")
    (takes : Handler.of? route .get = some handler) :
    service.program request = handler (service.call request path params) :=
  program_eq service inside found (by rw [get]; exact takes)

theorem lists_of_granted (inside : Route.inside? request.target.path = some path)
    (found : Route.find? path = some (route, params)) (lists : route ∈ Route.lists)
    (get : request.method = "GET")
    (granted : (service.handle request script).response.map (·.status) = some 200) :
    ∃ listing document, route.listing? params = some listing ∧
      (service.handle request script).response = some ⟨200, some document⟩ ∧
      Handler.Lists (service.call request path params) listing
        ((service.program request).trace script) document := by
  obtain ⟨handler, takes⟩ := handler_of_lists lists
  obtain ⟨document, ended⟩ := ok_of_granted granted
  have program : service.program request = handler (service.call request path params) :=
    program_of_get inside found get takes
  have run := (service.program request).runs_trace script
  rw [ended, program] at run
  have proceeds : Handler.Proceeds (fun _ => True) _
      (handler (service.call request path params)) [] :=
    Handler.proceeds_lists _ takes lists
  obtain ⟨listing, shown, so⟩ := proceeds.result run
  refine ⟨listing, document, shown, ?_, ?_⟩
  · change (close request ((service.program request).run script).1).1 = _
    rw [ended, close, bodyFor, get]
    rfl
  · rw [program]
    exact so

end Service
end FleetInventory
