import FleetInventory.Document.Basic
import FleetInventory.Store.Row
import FleetInventory.Uuid

/-!
The fields of a request's body, and attribute documents. A text field also takes a number or a truth
value, as its text; an optional field may be null or missing, and so may a list that is empty by
default. An owner has one document for each namespace; of versioned attributes every version is kept,
with a tally of how often it was reported again.
-/
namespace FleetInventory.Field

def asText? : Document → Option String
  | .text s => some s
  | .number n => some (String.ofList n.render)
  | .bool true => some "true"
  | .bool false => some "false"
  | _ => none

def fields? : Document → Option Document.Fields
  | .object fields => some fields
  | _ => none

def value (fields : Document.Fields) (key : String) : Document := (fields.get? key).getD .null

def text? (fields : Document.Fields) (key : String) : Option String := asText? (value fields key)

def optionalText? (fields : Document.Fields) (key : String) : Option (Option String) :=
  match value fields key with
  | .null => some none
  | d => (asText? d).map some

def list? (item : Document → Option α) : Document → Option (List α)
  | .array items => items.mapM item
  | _ => none

def listOrEmpty? (item : Document → Option α) (fields : Document.Fields) (key : String) :
    Option (List α) :=
  match value fields key with
  | .null => some []
  | d => list? item d

def uuid? : Document → Option Uuid
  | .text s => Uuid.parse? s
  | _ => none

/-- A field of the answer that is left out where there is nothing to say. -/
def given (key : String) : Option String → Document.Fields
  | some s => [(key, .text s)]
  | none => []

end FleetInventory.Field

namespace FleetInventory

inductive AttributeOwner where
  | server (id : Uuid)
  | component (id : Uuid)
  deriving DecidableEq

namespace AttributeOwner

def column : AttributeOwner → String
  | server _ => "server_id"
  | component _ => "server_component_id"

def id : AttributeOwner → Uuid
  | server id => id
  | component id => id

end AttributeOwner

structure Attribute where
  scope : String
  data : Document
  createdAt : Timestamp
  updatedAt : Timestamp

structure VersionedAttribute where
  id : Uuid
  scope : String
  data : Document
  tally : Int
  createdAt : Timestamp

structure AttributeInput where
  scope : String
  data : Document

namespace Attribute

def ofRow? (row : Row) : Option Attribute := do
  let scope ← row.text? "namespace"
  let data ← row.document? "data"
  let createdAt ← row.timestamp? "created_at"
  let updatedAt ← row.timestamp? "updated_at"
  return ⟨scope, data, createdAt, updatedAt⟩

def toDocument (a : Attribute) : Document :=
  .object [("namespace", .text a.scope), ("data", a.data),
    ("created_at", .text a.createdAt.render), ("updated_at", .text a.updatedAt.render)]

end Attribute

namespace VersionedAttribute

def ofRow? (row : Row) : Option VersionedAttribute := do
  let id ← row.uuid? "id"
  let scope ← row.text? "namespace"
  let data ← row.document? "data"
  let tally ← row.int32? "tally"
  let createdAt ← row.timestamp? "created_at"
  return ⟨id, scope, data, tally, createdAt⟩

def toDocument (a : VersionedAttribute) : Document :=
  .object [("id", .text a.id.render), ("namespace", .text a.scope), ("data", a.data),
    ("tally", .int a.tally), ("created_at", .text a.createdAt.render)]

end VersionedAttribute

/-- A missing document is null. -/
def AttributeInput.ofDocument? (d : Document) : Option AttributeInput := do
  let fields ← Field.fields? d
  let scope ← Field.text? fields "namespace"
  return ⟨scope, Field.value fields "data"⟩

end FleetInventory
