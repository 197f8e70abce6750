import FleetInventory.Document.Basic
import FleetInventory.Paging.Envelope
import FleetInventory.Store.Program

/-!
What requests are answered. A granted request gets one record, or one page of a list with its
envelope. A request that does not fit the interface is answered without a document; every other
failure says what is wrong.
-/
namespace FleetInventory

/-- What a look-up did not find. -/
inductive Noun where
  | server
  | attributeDocument
  | firmware
  | firmwareSet
  deriving DecidableEq

def Noun.name : Noun → String
  | server => "Server"
  | attributeDocument => "Attribute"
  | firmware => "Firmware"
  | firmwareSet => "Firmware set"

inductive Failure where
  | noSuchPath
  | wrongMethod
  | badParameter
  | badMediaType
  | badBody
  | search (fault : SearchFault)
  | blankSlug
  | blankSetName
  | blankAttributeNamespace
  | blankNamespace
  | unknownFirmware (ids : List Uuid)
  | unknownKinds (slugs : List String)
  | notFound (noun : Noun)
  | store (fault : StoreFault)
  | overflow (fault : Overflow)
  deriving DecidableEq

namespace Failure

def status : Failure → Nat
  | noSuchPath => 404
  | wrongMethod => 405
  | badParameter => 400
  | badMediaType => 415
  | badBody => 400
  | search _ => 400
  | blankSlug => 400
  | blankSetName => 400
  | blankAttributeNamespace => 400
  | blankNamespace => 400
  | unknownFirmware _ => 400
  | unknownKinds _ => 400
  | notFound _ => 404
  | store fault => if fault.isConflict then 409 else 500
  | overflow _ => 500

def commas (items : List String) : String := String.intercalate ", " items

/-- What an answer says about the failure. Causes inside the datastore stay hidden. -/
def message? : Failure → Option String
  | noSuchPath | wrongMethod | badParameter | badMediaType | badBody | overflow _ => none
  | search fault => some fault.message
  | blankSlug => some "slug must not be empty"
  | blankSetName => some "firmware set name must not be empty"
  | blankAttributeNamespace => some "attribute namespace must not be empty"
  | blankNamespace => some "namespace must not be empty"
  | unknownFirmware ids => some ("unknown firmware: " ++ commas (ids.map Uuid.render))
  | unknownKinds slugs => some ("unknown component type: " ++ commas slugs)
  | notFound noun => some (noun.name ++ " not found")
  | store fault =>
    some (if fault.isConflict then "Record already exists" else "Internal datastore error")

def document? (failure : Failure) : Option Document :=
  failure.message?.map fun message =>
    .object [("success", .bool false), ("error", .text message)]

end Failure
end FleetInventory

namespace FleetInventory.Answer

def ofData (data : Document) : Document := .object [("success", .bool true), ("data", data)]

def ofRecords (records : List Document) : Document := ofData (.array records)

def link (href : String) : Document := .object [("href", .text href)]

/-- Links that lead nowhere are left out. -/
def links (ls : Links) : Document :=
  let given (name : String) (href : Option String) : Document.Fields :=
    match href with
    | some h => [(name, link h)]
    | none => []
  .object ([("self", link ls.self)] ++ given "first" ls.first ++ given "previous" ls.previous
    ++ given "next" ls.next ++ given "last" ls.last)

def ofPage (e : Envelope) (records : List Document) : Document :=
  .object [("page_size", .int e.pageSize), ("page", .int e.page), ("page_count", .int e.pageCount),
    ("total_pages", .int e.totalPages), ("total_record_count", .int e.totalRecords),
    ("_links", links e.links), ("records", .array records)]

def health (environment : String) : Document :=
  .object [("success", .bool true), ("message", .text "Hardware inventory API is running"),
    ("environment", .text environment)]

end FleetInventory.Answer
