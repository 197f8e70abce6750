import FleetInventory.Paging.Window

/-!
What a list answer says about its page: counts and links. Every link repeats the parameters of the
request other than those for paging, in their order, and appends where it leads.
-/
namespace FleetInventory

inductive Overflow where
  | totalPages
  deriving DecidableEq

structure LinkBase where
  url : String
  filters : Params
  deriving DecidableEq

structure Links where
  self : String
  first : Option String
  previous : Option String
  next : Option String
  last : Option String
  deriving DecidableEq

structure Envelope where
  pageSize : Int
  page : Int
  pageCount : Int
  totalPages : Int
  totalRecords : Int
  links : Links
  deriving DecidableEq

namespace LinkBase

def ofRequest (url : String) (params : Params) : LinkBase :=
  ⟨url, params.without [PageRequest.limitParam, PageRequest.pageParam, PageRequest.cursorParam]⟩

def href (base : LinkBase) (params : Params) : String := base.url ++ "?" ++ params.render

def pageLink (base : LinkBase) (page limit : Int) : String :=
  base.href ((base.filters.push PageRequest.limitParam (Text.showInt limit)).push
    PageRequest.pageParam (Text.showInt page))

def cursorLink (base : LinkBase) (cursor : Cursor) : String :=
  base.href (base.filters.push PageRequest.cursorParam cursor.encode)

end LinkBase

namespace Envelope

/-- The number of pages, rounded up. The total and the limit must fit a word together: it is their
sum, before one is taken off for rounding, that is held in one. -/
def totalPages? (total limit : Int) : Except Overflow Int :=
  if total ≤ 0 then .ok 0
  else
    match Word.add? total limit with
    | some sum => .ok ((sum - 1) / limit)
    | none => .error .totalPages

/-- Links to the first and the last page are for browsing by page number. -/
def linksOf (base : LinkBase) (w : Window) (total pages : Int) : Links where
  self := match w.mode with
    | .pages => base.pageLink w.page w.limit
    | .cursor => base.cursorLink w.here
  first := match w.mode with
    | .pages => some (base.pageLink 1 w.limit)
    | .cursor => none
  previous := w.previous?.map base.cursorLink
  next := (w.next? total).map base.cursorLink
  last := match w.mode with
    | .pages => some (base.pageLink (max pages 1) w.limit)
    | .cursor => none

/-- The envelope of a page of `count` rows out of `total` matches. -/
def ofPage (request : PageRequest) (total count : Int) (base : LinkBase) :
    Except Overflow Envelope := do
  let w := request.window
  let pages ← totalPages? total w.limit
  return ⟨w.limit, w.page, count, pages, total, linksOf base w total pages⟩

end Envelope
end FleetInventory
