import FleetInventory.Record.Attribute
import FleetInventory.Store.Row

/-!
Servers, component kinds and the components of servers, as stored, as answered, and as sent in.
-/
namespace FleetInventory

structure Server where
  id : Uuid
  name : Option String
  facilityCode : Option String
  createdAt : Timestamp
  updatedAt : Timestamp
  deriving DecidableEq

structure ServerInput where
  name : Option String
  facilityCode : Option String
  deriving DecidableEq

namespace Server

def ofRow? (row : Row) : Option Server := do
  let id ← row.uuid? "id"
  let name ← row.optionalText? "name"
  let facilityCode ← row.optionalText? "facility_code"
  let createdAt ← row.timestamp? "created_at"
  let updatedAt ← row.timestamp? "updated_at"
  return ⟨id, name, facilityCode, createdAt, updatedAt⟩

def toDocument (s : Server) : Document :=
  .object ([("id", .text s.id.render)] ++ Field.given "name" s.name
    ++ Field.given "facility_code" s.facilityCode
    ++ [("created_at", .text s.createdAt.render), ("updated_at", .text s.updatedAt.render)])

end Server

def ServerInput.ofDocument? (d : Document) : Option ServerInput := do
  let fields ← Field.fields? d
  let name ← Field.optionalText? fields "name"
  let facilityCode ← Field.optionalText? fields "facility_code"
  return ⟨name, facilityCode⟩

structure ComponentKind where
  id : Uuid
  name : String
  slug : String
  deriving DecidableEq

structure ComponentKindInput where
  name : String
  slug : String
  deriving DecidableEq

structure Component where
  id : Uuid
  serverId : Uuid
  kindId : Uuid
  name : Option String
  vendor : Option String
  model : Option String
  serial : Option String
  createdAt : Timestamp
  updatedAt : Timestamp
  deriving DecidableEq

structure ComponentInput where
  kindSlug : String
  name : Option String
  vendor : Option String
  model : Option String
  serial : Option String
  attributes : List AttributeInput
  versioned : List AttributeInput

namespace ComponentKind

def ofRow? (row : Row) : Option ComponentKind := do
  let id ← row.uuid? "id"
  let name ← row.text? "name"
  let slug ← row.text? "slug"
  return ⟨id, name, slug⟩

def toDocument (k : ComponentKind) : Document :=
  .object [("id", .text k.id.render), ("name", .text k.name), ("slug", .text k.slug)]

end ComponentKind

def ComponentKindInput.ofDocument? (d : Document) : Option ComponentKindInput := do
  let fields ← Field.fields? d
  let name ← Field.text? fields "name"
  let slug ← Field.text? fields "slug"
  return ⟨name, slug⟩

namespace Component

def ofRow? (row : Row) : Option Component := do
  let id ← row.uuid? "id"
  let serverId ← row.uuid? "server_id"
  let kindId ← row.uuid? "server_component_type_id"
  let name ← row.optionalText? "name"
  let vendor ← row.optionalText? "vendor"
  let model ← row.optionalText? "model"
  let serial ← row.optionalText? "serial"
  let createdAt ← row.timestamp? "created_at"
  let updatedAt ← row.timestamp? "updated_at"
  return ⟨id, serverId, kindId, name, vendor, model, serial, createdAt, updatedAt⟩

def toDocument (c : Component) : Document :=
  .object ([("id", .text c.id.render), ("server_id", .text c.serverId.render),
      ("server_component_type_id", .text c.kindId.render)]
    ++ Field.given "name" c.name ++ Field.given "vendor" c.vendor
    ++ Field.given "model" c.model ++ Field.given "serial" c.serial
    ++ [("created_at", .text c.createdAt.render), ("updated_at", .text c.updatedAt.render)])

end Component

def ComponentInput.ofDocument? (d : Document) : Option ComponentInput := do
  let fields ← Field.fields? d
  let kindSlug ← Field.text? fields "component_type_slug"
  let name ← Field.optionalText? fields "name"
  let vendor ← Field.optionalText? fields "vendor"
  let model ← Field.optionalText? fields "model"
  let serial ← Field.optionalText? fields "serial"
  let attributes ← Field.listOrEmpty? AttributeInput.ofDocument? fields "attributes"
  let versioned ← Field.listOrEmpty? AttributeInput.ofDocument? fields "versioned_attributes"
  return ⟨kindSlug, name, vendor, model, serial, attributes, versioned⟩

end FleetInventory
