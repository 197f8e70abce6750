import FleetInventory.Query.Params
import FleetInventory.Text.Encoding
import FleetInventory.Text.Numeral

/-!
The shape of a list query in counts, so that a log shows how a list was asked for but no values.
-/
namespace FleetInventory

inductive PagingKind where
  | none
  | page
  | cursor
  deriving DecidableEq

def PagingKind.name : PagingKind → String
  | none => "none"
  | page => "page"
  | cursor => "cursor"

structure QuerySummary where
  queryBytes : Nat
  attributeFilters : Nat
  componentGroups : Nat
  paging : PagingKind
  deriving DecidableEq

namespace QuerySummary

def groupIndexBound : Nat := Nat.pow 2 32

def isGroupSuffix : List Char → Bool
  | [] => true
  | '[' :: _ => true
  | suffix => suffix = "_attr".toList || suffix = "_ver_attr".toList

/-- The group a key belongs to: `sc_3[model]`, `sc_3_attr` and `sc_3_ver_attr` are of group 3. -/
def groupIndex? (key : String) : Option Nat := do
  let rest ← Text.afterStem? "sc_".toList key.toList
  if isGroupSuffix (rest.dropWhile Char.isDigit) then
    Text.unsignedBelow? groupIndexBound (rest.takeWhile Char.isDigit)
  else none

def isAttributeKey (key : String) : Bool := key = "attr" || key = "ver_attr"

def groupIndexes (params : Params) : List Nat := (params.keys.filterMap groupIndex?).eraseDups

def pagingOf (params : Params) : PagingKind :=
  if params.has "cursor" then .cursor
  else if params.has "page" || params.has "limit" then .page
  else .none

def ofQuery (query : Option String) : QuerySummary :=
  let raw := query.getD ""
  let params := Params.parse raw
  ⟨(Text.bytes raw).length, (params.keys.filter isAttributeKey).length,
    (groupIndexes params).length, pagingOf params⟩

end QuerySummary
end FleetInventory
