import FleetInventory.Proofs.Api.Listing
import FleetInventory.Proofs.Document.Same
import FleetInventory.Proofs.Paging.Following
import FleetInventory.Proofs.Store.Parallel

/-!
Where the links of a served list lead. Links are made of the path inside the interface, which nothing
is served at; below the place where the interface is mounted they lead back to the list. Main
statement: `links_lack_mount`.
-/
namespace FleetInventory

namespace Route

theorem toList_of_inside {path rest : String} (inside : inside? path = some rest) :
    path.toList = mount.toList ∨ ∃ more, path.toList = mount.toList ++ '/' :: more
      ∧ rest = String.ofList ('/' :: more) := by
  unfold inside? at inside
  split at inside
  · next found =>
    left
    simpa using Text.afterStem?_eq_some.mp found
  · next more found =>
    cases inside
    exact .inr ⟨more, Text.afterStem?_eq_some.mp found, rfl⟩
  · cases inside

theorem eq_mount_append {path rest : String} {found : Route × List String}
    (inside : inside? path = some rest) (served : find? rest = some found) :
    path = mount ++ rest := by
  rcases toList_of_inside inside with chars | ⟨more, chars, rfl⟩
  · have same : path = mount := String.toList_injective chars
    have root : inside? mount = some "/" := by decide
    have none : find? "/" = none := by decide
    rw [same, root, Option.some.injEq] at inside
    rw [← inside, none] at served
    cases served
  · apply String.toList_injective
    rw [chars, String.toList_append, String.toList_ofList]

theorem segments_of_inside {path rest : String} (inside : inside? path = some rest) :
    ∃ more, segments path = "api" :: more := by
  have mount : mount.toList = '/' :: ("api".toList ++ '/' :: "v1".toList) := by decide
  have clean : '/' ∉ "api".toList := by decide
  have begins : ∃ others, path.toList = '/' :: ("api".toList ++ '/' :: others) := by
    rcases toList_of_inside inside with chars | ⟨more, chars, -⟩
    · exact ⟨_, chars.trans mount⟩
    · exact ⟨_, by rw [chars, mount, List.cons_append, List.append_assoc, List.cons_append]⟩
  obtain ⟨others, chars⟩ := begins
  refine ⟨(Text.pieces '/' others).map String.ofList, ?_⟩
  have pieces : Text.pieces '/' ("api".toList ++ '/' :: others) = _ := Text.pieces_append clean
  simp only [segments, Text.splitAt, chars, Text.pieces, ↓reduceIte, pieces, List.map_cons,
    List.drop_one, List.tail_cons, String.ofList_toList]

/-- No route begins as the mount does, so nothing is served twice below it. -/
theorem inside?_of_find? {path : String} {found : Route × List String}
    (served : find? path = some found) : inside? path = none := by
  rw [Option.eq_none_iff_forall_ne_some]
  intro rest inside
  obtain ⟨more, segments⟩ := segments_of_inside inside
  obtain ⟨route, -, fits⟩ := List.exists_of_findSome?_eq_some served
  rw [segments] at fits
  cases route <;> simp [pattern, fit?] at fits

end Route

theorem Answer.links_eq (ls : Links) : links ls = .object (LinkName.all.filterMap fun name =>
    (ls.get? name).map fun href => (name.key, link href)) := by
  obtain ⟨self, first, previous, next, last⟩ := ls
  cases first <;> cases previous <;> cases next <;> cases last <;> rfl

theorem Answer.of_field?_links {ls : Links} {key : String} {shown : Document}
    (linked : (links ls).field? key = some shown) :
    ∃ name href, ls.get? name = some href ∧ shown = link href := by
  rw [links_eq] at linked
  obtain ⟨name, -, given⟩ := List.mem_filterMap.mp (Document.mem_of_lookup linked)
  obtain ⟨href, there, same⟩ := Option.map_eq_some_iff.mp given
  cases same
  exact ⟨name, href, there, rfl⟩

def Document.href? (key : String) (document : Document) : Option String :=
  (((document.field? "_links").bind (·.field? key)).bind (·.field? "href")).bind Field.asText?

theorem Handler.Lists.keeps {call : Call} {listing : Listing} {trace : Trace} {document : Document}
    {key href : String} (lists : Lists call listing trace document)
    (linked : document.href? key = some href) :
    LinkBase.Keeps (call.request.origin call.settings.publicUrl ++ call.request.target.path)
      call.request.params (PageRequest.read call.request.params).window.limit href := by
  cases lists with
  | page planned looked counts shows encloses =>
    obtain ⟨pages, -, rfl⟩ := Envelope.ofPage_eq_ok.mp encloses
    obtain ⟨held, linked, text⟩ := Option.bind_eq_some_iff.mp linked
    obtain ⟨shown, linked, address⟩ := Option.bind_eq_some_iff.mp linked
    obtain ⟨name, _, there, rfl⟩ := Answer.of_field?_links linked
    cases address
    cases text
    exact Envelope.linksOf_keeps (PageRequest.window_valid _) there

/-- The calls ask for the same rows, in pages of the same size. -/
structure Call.Akin (call call' : Call) : Prop where
  params : call'.params = call.params
  agree : call'.request.params.Agree call.request.params
  limit : (PageRequest.read call'.request.params).window.limit
    = (PageRequest.read call.request.params).window.limit

namespace Call.Akin

variable {call call' : Call} {listing : Listing} (akin : call.Akin call')

include akin

theorem plan : Plan.ofParams listing call'.request.params
    = (Plan.ofParams listing call.request.params).map fun plan =>
      { plan with window := (PageRequest.read call'.request.params).window } :=
  Plan.ofParams_congr listing akin.agree

theorem parallel_planned : Program.Parallel (fun _ _ => True)
    (Handler.planned call listing) (Handler.planned call' listing) := by
  unfold Handler.planned
  rw [akin.plan]
  cases Plan.ofParams listing call.request.params with
  | error fault => exact .failed _
  | ok plan => exact .done trivial

/-- Whether the envelope can be made depends on the total and the size of the pages. -/
theorem parallel_page {read : Row → Option α} {toDocument : α → Document} {plan plan' : Plan} :
    Program.Parallel (fun _ _ => True) (Handler.page read toDocument call plan)
      (Handler.page read toDocument call' plan') := by
  have stored : Program.Parallel Eq (Store.page read plan) (Store.page read plan') := by
    refine .bind (Store.parallel_fetchOne rfl) ?_
    rintro total _ rfl
    refine .bind (Store.parallel_fetchAll rfl) ?_
    rintro rows _ rfl
    exact .done rfl
  refine (stored.mapError Failure.store).bind ?_
  rintro ⟨rows, total⟩ _ rfl
  dsimp only [Envelope.ofPage]
  rw [akin.limit]
  cases Envelope.totalPages? total (PageRequest.read call.request.params).window.limit with
  | error fault => exact .failed _
  | ok pages => exact .done trivial

theorem parallel_list {read : Row → Option α} {toDocument : α → Document} :
    Program.Parallel (fun _ _ => True) (Handler.list listing read toDocument call)
      (Handler.list listing read toDocument call') :=
  akin.parallel_planned.bind fun _ _ _ => akin.parallel_page

theorem parallel_listComponentsOf : Program.Parallel (fun _ _ => True)
    (Handler.listComponentsOf call) (Handler.listComponentsOf call') := by
  have named : Handler.identifier call = Handler.identifier call' := by
    unfold Handler.identifier Handler.parameter
    rw [akin.params]
  refine (Program.Parallel.of_eq named).bind ?_
  rintro id _ rfl
  refine akin.parallel_planned.bind fun plan plan' _ => ?_
  exact (Program.Parallel.refl _).bind fun _ _ _ => akin.parallel_page

theorem parallel_lists {route : Route} {handler : Call → Handler}
    (takes : Handler.of? route .get = some handler) (lists : route ∈ Route.lists) :
    Program.Parallel (fun _ _ => True) (handler call) (handler call') := by
  simp only [Route.lists, List.mem_cons, List.not_mem_nil, or_false] at lists
  rcases lists with rfl | rfl | rfl | rfl | rfl <;> cases takes
  case inr.inl => exact akin.parallel_listComponentsOf
  all_goals exact akin.parallel_list

end Call.Akin

/-- The same look-ups, the same count, and the same page but for its offset. -/
def SameList (first second : List Statement) : Prop :=
  ∃ before table selection order limit offset offset',
    first = before ++ [.countRows table selection, .pageRows table order selection limit offset] ∧
    second = before ++ [.countRows table selection, .pageRows table order selection limit offset']

theorem Handler.Lists.same {call call' : Call} {listing : Listing} {trace trace' : Trace}
    {document document' : Document} (akin : call.Akin call')
    (first : Lists call listing trace document) (second : Lists call' listing trace' document') :
    SameList (trace.map (·.1)) (trace'.map (·.1)) := by
  cases first with
  | @page plan past counted listed total records envelope planned looked counts shows encloses =>
  cases second with
  | @page plan' past' counted' listed' total' records' envelope' planned' looked' =>
    rw [akin.plan, planned] at planned'
    cases planned'
    have limit : plan.window.limit = (PageRequest.read call'.request.params).window.limit := by
      rw [Plan.window_of_ofParams planned, akin.limit]
    refine ⟨listing.lookups, plan.listing.table, plan.selection, plan.orderSql, plan.window.limit,
      plan.window.offset, (PageRequest.read call'.request.params).window.offset, ?_, ?_⟩
    · rw [List.map_append, looked]
      rfl
    · rw [List.map_append, looked', limit]
      rfl

namespace Service

/-- Nothing is served there: no request to get it is found, and none sends anything. -/
def Misses (service : Service) (target : Target) : Prop :=
  ∀ (visit : Request) (script : Script), visit.method = "GET" → visit.target = target →
    (service.handle visit script).response.map (·.status) = some 404 ∧
      (service.handle visit script).statements = []

/-- The list of the request is served there: it can be granted like the request, and the statements
of both are the same up to the offset of the page. -/
def Returns (service : Service) (request : Request) (script : Script) (target : Target) :
    Prop :=
  ∀ visit : Request, visit.method = "GET" → visit.target = target →
    (service.handle visit script).response.map (·.status) = some 200 ∧
      ∀ replies, (service.handle visit replies).response.map (·.status) = some 200 →
        SameList (service.handle request script).statements
          (service.handle visit replies).statements

theorem misses_of_outside {service : Service} {target : Target}
    (outside : Route.inside? target.path = none) : service.Misses target := by
  rintro visit script - rfl
  have program : service.program visit = .failed .noSuchPath := by
    simp only [Service.program, outside]
  simp only [handle, program, Program.run, close]
  exact ⟨rfl, trivial⟩

variable {service : Service} {request : Request} {script : Script} {path : String}
  {route : Route} {params : List String}

theorem returns_of_akin {target : Target} (inside : Route.inside? request.target.path = some path)
    (found : Route.find? path = some (route, params)) (lists : route ∈ Route.lists)
    (get : request.method = "GET")
    (granted : (service.handle request script).response.map (·.status) = some 200)
    (place : target.path = request.target.path)
    (akin : ∀ visit : Request, visit.target = target →
      (service.call request path params).Akin (service.call visit path params)) :
    service.Returns request script target := by
  rintro visit asks rfl
  have akin := akin visit rfl
  have within : Route.inside? visit.target.path = some path := place ▸ inside
  obtain ⟨handler, takes⟩ := handler_of_lists lists
  obtain ⟨document, ended⟩ := ok_of_granted granted
  refine ⟨?_, fun replies again => ?_⟩
  · rw [program_of_get inside found get takes] at ended
    obtain ⟨document', ended', -⟩ := (akin.parallel_lists takes lists).run ended
    have again : service.program visit = handler (service.call visit path params) :=
      program_of_get within found asks takes
    exact status_of_ok (again ▸ ended')
  · obtain ⟨listing, _, shown, -, first⟩ := lists_of_granted inside found lists get granted
    obtain ⟨listing', _, shown', -, second⟩ := lists_of_granted within found lists asks again
    cases shown.symm.trans shown'
    rw [← statements_of_trace, ← statements_of_trace]
    exact first.same akin second

/-- The links of a list name the path that its handler sees, without the mount. Nothing is served at
that path; with the mount before it, what they lead to is the same list, whatever the query is and
whatever the database replies. -/
theorem links_lack_mount (service : Service) (request : Request) (script : Script)
    {path : String} {route : Route} {params : List String} {key href : String}
    (unset : service.settings.publicUrl = none)
    (inside : Route.inside? request.target.path = some path)
    (found : Route.find? path = some (route, params)) (lists : route ∈ Route.lists)
    (get : request.method = "GET")
    (granted : (service.handle request script).response.map (·.status) = some 200)
    (linked : ((service.handle request script).response.bind (·.body)).bind (·.href? key)
      = some href) :
    request.target.path = Route.mount ++ path ∧ ∃ query,
      href = request.origin none ++ path ++ "?" ++ query ∧
      service.Misses ⟨path, some query⟩ ∧
      service.Returns request script ⟨Route.mount ++ path, some query⟩ := by
  have whole := Route.eq_mount_append inside found
  obtain ⟨listing, document, -, answered, so⟩ := lists_of_granted inside found lists get granted
  rw [answered] at linked
  obtain ⟨given, rfl, kept, limit⟩ := so.keeps linked
  refine ⟨whole, given.render, ?_, misses_of_outside (Route.inside?_of_find? found), ?_⟩
  · change request.origin service.settings.publicUrl ++ path ++ "?" ++ given.render = _
    rw [unset]
  · refine returns_of_akin inside found lists get granted whole.symm fun visit same => ?_
    have read : visit.params = given := by
      rw [Request.params, same]
      exact given.parse_render
    refine ⟨rfl, ?_, ?_⟩
    · change visit.params.Agree request.params
      rw [read]
      exact Params.agree_of_without kept
    · change (PageRequest.read visit.params).window.limit = _
      rw [read, limit]

/-- The next page of the components that match by name. -/
theorem links_lack_mount_of_next :
    let service : Service := ⟨⟨none, none⟩⟩
    let request : Request :=
      ⟨"GET", ⟨"/api/v1/server-components", some "name=a+b&limit=2"⟩, [("Host", "inv.test")], "",
        none⟩
    let script : List Reply := [.rows [[("count", .int 5)]], .rows []]
    let exchange := service.handle request script
    let href := "http://inv.test/server-components?name=a%20b&cursor=Mjoy"
    service.settings.publicUrl = none
      ∧ Route.inside? request.target.path = some "/server-components"
      ∧ Route.find? "/server-components" = some (.components, [])
      ∧ Route.components ∈ Route.lists ∧ request.method = "GET"
      ∧ exchange.response.map (·.status) = some 200
      ∧ (exchange.response.bind (·.body)).bind (·.href? "next") = some href
      ∧ request.target.path = Route.mount ++ "/server-components" ∧ ∃ query,
        href = request.origin none ++ "/server-components" ++ "?" ++ query ∧
        service.Misses ⟨"/server-components", some query⟩ ∧
        service.Returns request script ⟨Route.mount ++ "/server-components", some query⟩ := by
  intro service request script exchange href
  have inside : Route.inside? request.target.path = some "/server-components" := by decide +kernel
  have found : Route.find? "/server-components" = some (.components, []) := by decide +kernel
  have lists : Route.components ∈ Route.lists := by decide
  have granted : exchange.response.map (·.status) = some 200 := by decide +kernel
  have linked : (exchange.response.bind (·.body)).bind (·.href? "next") = some href := by
    decide +kernel
  exact ⟨rfl, inside, found, lists, rfl, granted, linked,
    links_lack_mount service request script rfl inside found lists rfl granted linked⟩

/-- The link of a list to itself is not found. -/
theorem missed_of_self_link :
    let service : Service := ⟨⟨none, none⟩⟩
    let headers := [("host", "inv.test")]
    let request : Request := ⟨"GET", ⟨"/api/v1/servers", none⟩, headers, "", none⟩
    let script : List Reply := [.rows [[("count", .int 1)]], .rows []]
    let exchange := service.handle request script
    let target : Target := ⟨"/servers", some "limit=100&page=1"⟩
    let again := service.handle ⟨"GET", target, headers, "", none⟩ script
    (Route.inside? request.target.path).bind Route.find? = some (.servers, [])
      ∧ exchange.response.map (·.status) = some 200
      ∧ ((exchange.response.bind (·.body)).bind (·.href? "self")).bind Target.parse? = some target
      ∧ again.response.map (·.status) = some 404 ∧ again.statements = [] := by
  intro service headers request script exchange target again
  have misses : service.Misses target := misses_of_outside (by decide +kernel)
  exact ⟨by decide +kernel, by decide +kernel, by decide +kernel, misses _ script rfl rfl⟩

end Service

end FleetInventory
