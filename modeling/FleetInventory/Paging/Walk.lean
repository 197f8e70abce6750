import FleetInventory.Paging.Envelope

/-!
Walking through a list by its links: a visit is one request for a page, and a link of its envelope
leads to the next visit. What follows the first question mark of a link is the next query.
-/
namespace FleetInventory

inductive LinkName where
  | self
  | first
  | previous
  | next
  | last
  deriving DecidableEq

def Links.get? (links : Links) : LinkName → Option String
  | .self => some links.self
  | .first => links.first
  | .previous => links.previous
  | .next => links.next
  | .last => links.last

/-- One request for a page of a list that has `total` matches at the time. -/
structure Visit where
  url : String
  query : String
  total : Int
  deriving DecidableEq

namespace Visit

def queryOf (href : String) : String :=
  match Text.cutAt '?' href with
  | some (_, query) => query
  | none => ""

def params (v : Visit) : Params := Params.parse v.query

def request (v : Visit) : PageRequest := PageRequest.read v.params

def window (v : Visit) : Window := v.request.window

def count (v : Visit) : Int := max 0 (min (v.total - v.window.offset) v.window.limit)

def envelope (v : Visit) : Except Overflow Envelope :=
  Envelope.ofPage v.request v.total v.count (LinkBase.ofRequest v.url v.params)

/-- The visit a link of the envelope leads to, if the link is there. -/
def follow? (v : Visit) (envelope : Envelope) (name : LinkName) : Option Visit :=
  (envelope.links.get? name).map fun href => { v with query := queryOf href }

end Visit
end FleetInventory
