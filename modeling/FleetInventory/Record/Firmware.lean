import FleetInventory.Record.Attribute

/-!
Firmware files and named sets of them, as stored, as answered, and as sent in.
-/
namespace FleetInventory

structure FirmwareInput where
  vendor : String
  model : String
  filename : String
  version : String
  checksum : String
  vendorUrl : String
  repositoryUrl : String
  deriving DecidableEq

structure Firmware where
  id : Uuid
  file : FirmwareInput
  createdAt : Timestamp
  updatedAt : Timestamp
  deriving DecidableEq

structure FirmwareSet where
  id : Uuid
  name : String
  createdAt : Timestamp
  updatedAt : Timestamp
  deriving DecidableEq

structure FirmwareSetDetail where
  set : FirmwareSet
  firmware : List Firmware
  attributes : List Attribute

structure FirmwareSetInput where
  name : String
  firmwareIds : List Uuid
  attributes : List AttributeInput

def FirmwareInput.ofFields? (field : String → Option String) : Option FirmwareInput := do
  let vendor ← field "vendor"
  let model ← field "model"
  let filename ← field "filename"
  let version ← field "version"
  let checksum ← field "checksum"
  let vendorUrl ← field "upstream_url"
  let repositoryUrl ← field "repository_url"
  return ⟨vendor, model, filename, version, checksum, vendorUrl, repositoryUrl⟩

def FirmwareInput.ofDocument? (d : Document) : Option FirmwareInput :=
  (Field.fields? d).bind fun fields => FirmwareInput.ofFields? (Field.text? fields)

namespace Firmware

def ofRow? (row : Row) : Option Firmware := do
  let id ← row.uuid? "id"
  let file ← FirmwareInput.ofFields? row.text?
  let createdAt ← row.timestamp? "created_at"
  let updatedAt ← row.timestamp? "updated_at"
  return ⟨id, file, createdAt, updatedAt⟩

def toDocument (f : Firmware) : Document :=
  .object [("id", .text f.id.render), ("vendor", .text f.file.vendor),
    ("model", .text f.file.model), ("filename", .text f.file.filename),
    ("version", .text f.file.version), ("checksum", .text f.file.checksum),
    ("upstream_url", .text f.file.vendorUrl), ("repository_url", .text f.file.repositoryUrl),
    ("created_at", .text f.createdAt.render), ("updated_at", .text f.updatedAt.render)]

end Firmware

namespace FirmwareSet

def ofRow? (row : Row) : Option FirmwareSet := do
  let id ← row.uuid? "id"
  let name ← row.text? "name"
  let createdAt ← row.timestamp? "created_at"
  let updatedAt ← row.timestamp? "updated_at"
  return ⟨id, name, createdAt, updatedAt⟩

def fields (s : FirmwareSet) : Document.Fields :=
  [("id", .text s.id.render), ("name", .text s.name),
    ("created_at", .text s.createdAt.render), ("updated_at", .text s.updatedAt.render)]

def toDocument (s : FirmwareSet) : Document := .object s.fields

end FirmwareSet

def FirmwareSetDetail.toDocument (d : FirmwareSetDetail) : Document :=
  .object (d.set.fields ++ [("firmwares", .array (d.firmware.map Firmware.toDocument)),
    ("attributes", .array (d.attributes.map Attribute.toDocument))])

def FirmwareSetInput.ofDocument? (d : Document) : Option FirmwareSetInput := do
  let fields ← Field.fields? d
  let name ← Field.text? fields "name"
  let firmwareIds ← Field.listOrEmpty? Field.uuid? fields "firmware_ids"
  let attributes ← Field.listOrEmpty? AttributeInput.ofDocument? fields "attributes"
  return ⟨name, firmwareIds, attributes⟩

end FleetInventory
