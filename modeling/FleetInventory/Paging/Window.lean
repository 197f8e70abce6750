import FleetInventory.Query.Params
import FleetInventory.Text.Encoding
import FleetInventory.Text.Numeral
import FleetInventory.Text.Split

/-!
The rows a list request shows. A cursor decides them alone; without one they follow from page and
limit. A number that can not be read counts as absent. A cursor says where the next page starts and
how long it is, as one opaque token: the text `offset:limit` in Base64. Reading one brings both
numbers into their ranges.
-/
namespace FleetInventory

namespace Paging

def defaultLimit : Int := 100
def greatestLimit : Int := 1000
/-- No page starts beyond this row. -/
def greatestOffset : Int := Word.greatest - greatestLimit

def effectiveLimit (limit : Int) : Int :=
  if limit ≤ 0 then defaultLimit else min limit greatestLimit

end Paging

structure Cursor where
  offset : Int
  limit : Int
  deriving DecidableEq

namespace Cursor

open Paging

def text (cursor : Cursor) : String :=
  String.ofList (Text.signedDecimal cursor.offset ++ ':' :: Text.signedDecimal cursor.limit)

def encode (cursor : Cursor) : String := String.ofList (Base64.encode (Text.bytes cursor.text))

def ofText? (text : String) : Option Cursor := do
  let (offset, limit) ← Text.cut ':' text.toList
  let offset ← Text.word? offset
  let limit ← Text.word? limit
  return ⟨max 0 (min offset greatestOffset), effectiveLimit limit⟩

def decode? (token : String) : Option Cursor := do
  let bytes ← Base64.decode? token.toList
  let text ← Text.ofBytes? bytes
  ofText? text

end Cursor

structure PageRequest where
  limit : Int
  page : Int
  cursor : Option String
  orderBy : Option String
  deriving DecidableEq

inductive PageMode where
  /-- Browsing by page number. -/
  | pages
  /-- Continuing from a link. -/
  | cursor
  deriving DecidableEq

structure Window where
  limit : Int
  offset : Int
  mode : PageMode
  deriving DecidableEq

namespace PageRequest

open Paging

def limitParam : String := "limit"
def pageParam : String := "page"
def cursorParam : String := "cursor"
def orderParam : String := "orderby"

def number (params : Params) (key : String) : Int :=
  ((params.filled? key).bind fun raw => Text.word? (Text.trim raw).toList).getD 0

def read (params : Params) : PageRequest where
  limit := number params limitParam
  page := number params pageParam
  cursor := params.filled? cursorParam
  orderBy := params.filled? orderParam

/-- An undecodable cursor starts over at the first row. -/
def cursorOf (raw : String) : Cursor := (Cursor.decode? raw).getD ⟨0, defaultLimit⟩

def window (request : PageRequest) : Window :=
  match request.cursor with
  | some raw =>
    let cursor := cursorOf raw
    ⟨cursor.limit, min cursor.offset greatestOffset, .cursor⟩
  | none =>
    let limit := effectiveLimit request.limit
    ⟨limit, min (Word.clampedMul (max request.page 1 - 1) limit) greatestOffset, .pages⟩

end PageRequest

namespace Window

def page (w : Window) : Int := w.offset / w.limit + 1

def here (w : Window) : Cursor := ⟨w.offset, w.limit⟩

def next? (w : Window) (total : Int) : Option Cursor :=
  (Word.add? w.offset w.limit).bind fun offset =>
    if offset < total then some ⟨offset, w.limit⟩ else none

def previous? (w : Window) : Option Cursor :=
  if 0 < w.offset then some ⟨max (w.offset - w.limit) 0, w.limit⟩ else none

end Window
end FleetInventory
