import Mathlib.Logic.Relation
import FleetInventory.Proofs.Paging.Link
import FleetInventory.Proofs.Search.Agreement

/-!
Following links from one answer to the next. A link keeps the parameters of the request that are
not for paging, so every walk keeps them, and with them the plan up to its window. Main statement:
`links_repeat_request`, for walks of any length over any links, while totals and pages change.
-/
namespace FleetInventory

/-- The envelope of the answer to a query for the list at `url`, which has `total` matches at the
time and shows `count` of them. -/
def Envelope.ofQuery (url query : String) (total count : Int) : Except Overflow Envelope :=
  ofPage (PageRequest.read (Params.parse query)) total count
    (LinkBase.ofRequest url (Params.parse query))

/-- Some link of some answer to the first query leads to the second. -/
inductive Leads (url query : String) : String → Prop
  | link {total count : Int} {envelope : Envelope} {name : LinkName} {href : String}
      (small : total ≤ Paging.greatestOffset)
      (answered : Envelope.ofQuery url query total count = .ok envelope)
      (there : envelope.links.get? name = some href) : Leads url query (Visit.queryOf href)

theorem Leads.of_get? {url query href next : String} {total count : Int} {name : LinkName}
    (small : total ≤ Paging.greatestOffset)
    (there : ((Envelope.ofQuery url query total count).toOption.bind fun envelope =>
      envelope.links.get? name) = some href)
    (target : Visit.queryOf href = next) : Leads url query next := by
  subst target
  cases answered : Envelope.ofQuery url query total count with
  | error e =>
    rw [answered] at there
    cases there
  | ok envelope =>
    rw [answered] at there
    exact .link small answered there

/-- The same refusal, or plans for the same statements and values up to limit and offset. -/
def Plan.SameButWindow : Except SearchFault Plan → Except SearchFault Plan → Prop
  | .error fault, .error fault' => fault = fault'
  | .ok plan, .ok plan' =>
    plan.countSql = plan'.countSql ∧ plan.pageSql = plan'.pageSql ∧ plan.order = plan'.order
      ∧ ∃ values, plan.pageValues = values ++ [.int plan.window.limit, .int plan.window.offset]
        ∧ plan'.pageValues = values ++ [.int plan'.window.limit, .int plan'.window.offset]
  | _, _ => False

theorem Params.agree_of_without {p q : Params}
    (same : p.without PageRequest.controls = q.without PageRequest.controls) : p.Agree q := by
  intro key other
  rw [← values_without other, same, values_without other]

theorem Plan.sameButWindow_of_agree (listing : Listing) {query reached : String}
    (agree : (Params.parse query).Agree (Params.parse reached)) :
    SameButWindow (ofQuery listing query) (ofQuery listing reached) := by
  unfold ofQuery
  rw [ofParams_congr listing agree]
  cases ofParams listing (Params.parse reached) with
  | error fault => exact rfl
  | ok plan => exact ⟨rfl, rfl, rfl, plan.selection.values, rfl, rfl⟩

theorem Leads.without {url query next : String} (clean : '?' ∉ url.toList)
    (leads : Leads url query next) : (Params.parse next).without PageRequest.controls
      = (Params.parse query).without PageRequest.controls := by
  obtain ⟨-, answered, there⟩ := leads
  obtain ⟨pages, links⟩ := Envelope.links_of_ofPage answered
  rw [links] at there
  rw [(Envelope.linksOf_repeats there).parse_without clean]
  exact Params.without_without _ _

theorem walk_without {url query reached : String} (clean : '?' ∉ url.toList)
    (walk : Relation.ReflTransGen (Leads url) query reached) :
    (Params.parse reached).without PageRequest.controls
      = (Params.parse query).without PageRequest.controls := by
  induction walk with
  | refl => rfl
  | tail before leads ih => rw [leads.without clean, ih]

/-- However links are followed, and whatever the totals are on the way, the request is planned as at
the start up to its window, its other parameters stand as they stood, and it is answered. -/
theorem links_repeat_request (listing : Listing) (url query reached : String)
    (clean : '?' ∉ url.toList) (walk : Relation.ReflTransGen (Leads url) query reached) :
    Plan.SameButWindow (Plan.ofQuery listing query) (Plan.ofQuery listing reached)
      ∧ (Params.parse reached).without PageRequest.controls
        = (Params.parse query).without PageRequest.controls
      ∧ ∀ total count, total ≤ Paging.greatestOffset →
        ∃ envelope, Envelope.ofQuery url reached total count = .ok envelope := by
  have kept := walk_without clean walk
  refine ⟨?_, kept, ?_⟩
  · exact Plan.sameButWindow_of_agree listing (Params.agree_of_without kept.symm)
  · intro total count small
    exact Envelope.ofPage_answers _ small count _

/-- On to the next page, and back from it after the list has become shorter. -/
theorem links_repeat_request_of_next_previous :
    let url := "http://h/servers"
    let query := "name=a+b&limit=2&attr=n~k&orderby=-name&page=2&attr=%FF"
    let reached := "name=a%20b&attr=n~k&orderby=-name&attr=%25FF&cursor=Mjoy"
    '?' ∉ url.toList ∧ Relation.ReflTransGen (Leads url) query reached
      ∧ Plan.SameButWindow (Plan.ofQuery .servers query) (Plan.ofQuery .servers reached)
      ∧ (Params.parse reached).without PageRequest.controls
        = (Params.parse query).without PageRequest.controls
      ∧ ∃ envelope, Envelope.ofQuery url reached (-3) 7 = .ok envelope := by
  intro url query reached
  let middle := "name=a%20b&attr=n~k&orderby=-name&attr=%25FF&cursor=NDoy"
  have clean : '?' ∉ url.toList := by decide
  have onward : Leads url query middle := by
    have there : ((Envelope.ofQuery url query 5 2).toOption.bind fun envelope =>
        envelope.links.get? .next) = some (url ++ "?" ++ middle) := by decide +kernel
    exact .of_get? (by decide) there (Visit.queryOf_href clean middle)
  have back : Leads url middle reached := by
    have there : ((Envelope.ofQuery url middle 3 0).toOption.bind fun envelope =>
        envelope.links.get? .previous) = some (url ++ "?" ++ reached) := by decide +kernel
    exact .of_get? (by decide) there (Visit.queryOf_href clean reached)
  have walk : Relation.ReflTransGen (Leads url) query reached := .tail (.single onward) back
  obtain ⟨plan, kept, answered⟩ := links_repeat_request .servers url query reached clean walk
  exact ⟨clean, walk, plan, kept, answered (-3) 7 (by decide)⟩

end FleetInventory
