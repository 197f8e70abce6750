import FleetInventory.AttributeFilter
import FleetInventory.Paging.Window
import FleetInventory.Search.Criteria
import FleetInventory.Sql.Render
import FleetInventory.Text.Split

/-!
List requests as plans: which rows, in which order, and which window of them. The column a list is
ordered by is written `column`, or `-column` for descending order; only allowed columns are
accepted, and the identifier breaks ties. An unknown order column is reported before a filter
without a namespace.
-/
namespace FleetInventory

structure SortKey where
  column : String
  descending : Bool
  deriving DecidableEq

namespace SortKey

def split (trimmed : String) : String × Bool :=
  match trimmed.toList with
  | '-' :: rest => (String.ofList rest, true)
  | _ => (trimmed, false)

/-- A missing or blank text asks for the default order. -/
def read (allowed : List String) : Option String → Except SearchFault (Option SortKey)
  | none => .ok none
  | some raw =>
    let trimmed := Text.trim raw
    if trimmed = "" then .ok none
    else
      let (column, descending) := split trimmed
      if column ∈ allowed then .ok (some ⟨column, descending⟩)
      else .error (.unknownOrder trimmed)

def direction (descending : Bool) : String := if descending then "DESC" else "ASC"

def sql (table fallback : String) (order : Option SortKey) : String :=
  let ⟨column, descending⟩ := order.getD ⟨fallback, false⟩
  table ++ "." ++ column ++ " " ++ direction descending ++ ", " ++ table ++ ".id ASC"

end SortKey

open Sql

inductive Listing where
  | servers
  | components
  | firmware
  | firmwareSets
  | componentsOf (server : Uuid)
  deriving DecidableEq

structure Plan where
  listing : Listing
  selection : Selection
  order : Option SortKey
  window : Window
  deriving DecidableEq

namespace Listing

def table : Listing → String
  | servers => ServerCriteria.table
  | components => ComponentCriteria.table
  | firmware => FirmwareCriteria.table
  | firmwareSets => FirmwareSetCriteria.table
  | componentsOf _ => ComponentCriteria.table

/-- The columns that may be named to order a list. -/
def sortColumns : Listing → List String
  | servers => ["name", "facility_code", "created_at", "updated_at"]
  | components => ["name", "vendor", "model", "serial", "created_at"]
  | firmware => ["vendor", "model", "version", "created_at"]
  | firmwareSets => ["name", "created_at"]
  | componentsOf _ => ["name", "vendor", "model", "serial", "created_at"]

def defaultColumn : String := "created_at"

/-- The criteria of a request as a fragment. The components of one server take no criteria. -/
def fragment (listing : Listing) (params : Params) : Except SearchFault (Fragment Predicate) :=
  match listing with
  | servers => (ServerCriteria.read params).map ServerCriteria.fragment
  | components => (ComponentCriteria.read params).map ComponentCriteria.fragment
  | firmware => .ok (FirmwareCriteria.read params).fragment
  | firmwareSets => (FirmwareSetCriteria.read params).map FirmwareSetCriteria.fragment
  | componentsOf server => .ok (ComponentCriteria.ofServer server).fragment

def order (listing : Listing) (params : Params) : Except SearchFault (Option SortKey) :=
  SortKey.read listing.sortColumns (PageRequest.read params).orderBy

def select (listing : Listing) (params : Params) : Except SearchFault Selection :=
  (listing.fragment params).bind Selection.ofFragment

end Listing

namespace Plan

def ofParams (listing : Listing) (params : Params) : Except SearchFault Plan := do
  let order ← listing.order params
  let selection ← listing.select params
  return ⟨listing, selection, order, (PageRequest.read params).window⟩

def ofQuery (listing : Listing) (query : String) : Except SearchFault Plan :=
  ofParams listing (Params.parse query)

def orderSql (plan : Plan) : String :=
  SortKey.sql plan.listing.table Listing.defaultColumn plan.order

def countSql (plan : Plan) : String := plan.selection.countSql plan.listing.table

def pageSql (plan : Plan) : String := plan.selection.pageSql plan.listing.table plan.orderSql

def pageValues (plan : Plan) : List Value :=
  plan.selection.pageValues plan.window.limit plan.window.offset

end Plan
end FleetInventory
