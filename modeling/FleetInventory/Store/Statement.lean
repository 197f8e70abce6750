import FleetInventory.Record.Firmware
import FleetInventory.Record.Server
import FleetInventory.Sql.Render

/-!
Everything the database is asked, as one type, with the SQL text and the bound values of each
statement. Values of users are only ever bound.
-/
namespace FleetInventory

open Sql

inductive Binding where
  | null
  | text (s : String)
  | int (n : Int)
  | uuid (id : Uuid)
  | texts (ss : List String)
  | uuids (ids : List Uuid)
  | document (d : Document)
  /-- A random identifier for a new row. -/
  | fresh

namespace Binding

def optionalText : Option String → Binding
  | some s => text s
  | none => null

def ofValue : Value → Binding
  | .text s => text s
  | .int n => int n
  | .uuid id => uuid id

end Binding

inductive Statement where
  | begin
  | commit
  /-- Holds back other appends to the same versions until the transaction ends. -/
  | lockVersions (owner : AttributeOwner) (scope : String)
  | countRows (table : String) (selection : Selection)
  | pageRows (table order : String) (selection : Selection) (limit offset : Int)
  | findServer (id : Uuid)
  | addServer (input : ServerInput)
  | changeServer (id : Uuid) (input : ServerInput)
  | dropServer (id : Uuid)
  | attributesOf (owner : AttributeOwner)
  | putAttribute (owner : AttributeOwner) (input : AttributeInput)
  | dropAttribute (owner : AttributeOwner) (scope : String)
  | versionsOf (owner : AttributeOwner)
  | newestVersion (owner : AttributeOwner) (scope : String)
  | raiseTally (version : Uuid)
  | addVersion (owner : AttributeOwner) (input : AttributeInput)
  | allKinds
  | addKind (input : ComponentKindInput)
  | knownKinds (slugs : List String)
  | findKind (slug : String)
  | addComponent (server kind : Uuid) (input : ComponentInput)
  | findFirmware (id : Uuid)
  | addFirmware (input : FirmwareInput)
  | knownFirmware (ids : List Uuid)
  | addSet (name : String)
  | addToSet (set firmware : Uuid)
  | putSetAttribute (set : Uuid) (input : AttributeInput)
  | findSet (id : Uuid)
  | firmwareOfSet (set : Uuid)
  | attributesOfSet (set : Uuid)
  | schemaExists

inductive Answerer where
  | nobody
  | locks
  | tables
  deriving DecidableEq

namespace Statement

def commas (columns : List String) : String := String.intercalate ", " columns

def serverColumns : String :=
  commas ["id", "name", "facility_code", "created_at", "updated_at"]

def attributeColumns : String := commas ["namespace", "data", "created_at", "updated_at"]

def versionColumns : String := commas ["id", "namespace", "data", "tally", "created_at"]

def componentColumns : String :=
  commas ["id", "server_id", "server_component_type_id", "name", "vendor", "model", "serial",
    "created_at", "updated_at"]

def firmwareTable : String := "component_firmware_version"

def firmwareColumns : String :=
  commas (["id", "vendor", "model", "filename", "version", "checksum", "upstream_url",
    "repository_url", "created_at", "updated_at"].map fun c => firmwareTable ++ "." ++ c)

def setColumns : String := commas ["id", "name", "created_at", "updated_at"]

def lockText (owner : AttributeOwner) (scope : String) : String :=
  "versioned:" ++ owner.column ++ ":" ++ owner.id.render ++ ":" ++ scope

def sql : Statement → String
  | begin => "BEGIN"
  | commit => "COMMIT"
  | lockVersions _ _ => "SELECT pg_advisory_xact_lock(hashtextextended($1, 0))"
  | countRows table selection => selection.countSql table
  | pageRows table order selection _ _ => selection.pageSql table order
  | findServer _ => "SELECT " ++ serverColumns ++ " FROM servers WHERE id = $1"
  | addServer _ =>
    "INSERT INTO servers (id, name, facility_code) VALUES ($1, $2, $3) RETURNING "
      ++ serverColumns
  | changeServer _ _ =>
    "UPDATE servers SET name = $2, facility_code = $3, updated_at = clock_timestamp() "
      ++ "WHERE id = $1 RETURNING " ++ serverColumns
  | dropServer _ => "DELETE FROM servers WHERE id = $1"
  | attributesOf owner =>
    "SELECT " ++ attributeColumns ++ " FROM attributes WHERE " ++ owner.column
      ++ " = $1 ORDER BY namespace ASC"
  | putAttribute owner _ =>
    "INSERT INTO attributes (id, " ++ owner.column
      ++ ", namespace, data) VALUES ($1, $2, $3, $4) ON CONFLICT (" ++ owner.column
      ++ ", namespace) DO UPDATE SET data = EXCLUDED.data, updated_at = clock_timestamp() "
      ++ "RETURNING " ++ attributeColumns
  | dropAttribute owner _ =>
    "DELETE FROM attributes WHERE " ++ owner.column ++ " = $1 AND namespace = $2"
  | versionsOf owner =>
    "SELECT DISTINCT ON (namespace) " ++ versionColumns ++ " FROM versioned_attributes WHERE "
      ++ owner.column ++ " = $1 ORDER BY namespace ASC, created_at DESC"
  | newestVersion owner _ =>
    "SELECT " ++ versionColumns ++ " FROM versioned_attributes WHERE " ++ owner.column
      ++ " = $1 AND namespace = $2 ORDER BY created_at DESC LIMIT 1"
  | raiseTally _ =>
    "UPDATE versioned_attributes SET tally = tally + 1 WHERE id = $1 RETURNING "
      ++ versionColumns
  | addVersion owner _ =>
    "INSERT INTO versioned_attributes (id, " ++ owner.column
      ++ ", namespace, data) VALUES ($1, $2, $3, $4) RETURNING " ++ versionColumns
  | allKinds => "SELECT id, name, slug FROM server_component_types ORDER BY slug ASC"
  | addKind _ =>
    "INSERT INTO server_component_types (id, name, slug) VALUES ($1, $2, $3) "
      ++ "RETURNING id, name, slug"
  | knownKinds _ => "SELECT slug FROM server_component_types WHERE slug = ANY($1)"
  | findKind _ => "SELECT id FROM server_component_types WHERE slug = $1"
  | addComponent _ _ _ =>
    "INSERT INTO server_components (id, server_id, server_component_type_id, name, vendor, "
      ++ "model, serial) VALUES ($1, $2, $3, $4, $5, $6, $7) RETURNING " ++ componentColumns
  | findFirmware _ => "SELECT " ++ firmwareColumns ++ " FROM " ++ firmwareTable ++ " WHERE id = $1"
  | addFirmware _ =>
    "INSERT INTO " ++ firmwareTable ++ " (id, vendor, model, filename, version, checksum, "
      ++ "upstream_url, repository_url) VALUES ($1, $2, $3, $4, $5, $6, $7, $8) RETURNING "
      ++ firmwareColumns
  | knownFirmware _ => "SELECT id FROM " ++ firmwareTable ++ " WHERE id = ANY($1)"
  | addSet _ =>
    "INSERT INTO component_firmware_set (id, name) VALUES ($1, $2) RETURNING " ++ setColumns
  | addToSet _ _ =>
    "INSERT INTO component_firmware_set_map (firmware_set_id, firmware_id) VALUES ($1, $2) "
      ++ "ON CONFLICT DO NOTHING"
  | putSetAttribute _ _ =>
    "INSERT INTO attributes_firmware_set (id, firmware_set_id, namespace, data) "
      ++ "VALUES ($1, $2, $3, $4) "
      ++ "ON CONFLICT (firmware_set_id, namespace) DO UPDATE SET data = EXCLUDED.data"
  | findSet _ => "SELECT " ++ setColumns ++ " FROM component_firmware_set WHERE id = $1"
  | firmwareOfSet _ =>
    "SELECT " ++ firmwareColumns ++ " FROM " ++ firmwareTable
      ++ " JOIN component_firmware_set_map ON component_firmware_set_map.firmware_id = "
      ++ firmwareTable ++ ".id WHERE component_firmware_set_map.firmware_set_id = $1 ORDER BY "
      ++ firmwareTable ++ ".vendor, " ++ firmwareTable ++ ".model"
  | attributesOfSet _ =>
    "SELECT " ++ attributeColumns ++ " FROM attributes_firmware_set WHERE firmware_set_id = $1 "
      ++ "ORDER BY namespace ASC"
  | schemaExists =>
    "SELECT EXISTS (SELECT 1 FROM information_schema.tables WHERE table_name = 'servers')"

def bindings : Statement → List Binding
  | begin | commit | allKinds | schemaExists => []
  | lockVersions owner scope => [.text (lockText owner scope)]
  | countRows _ selection => selection.values.map .ofValue
  | pageRows _ _ selection limit offset => (selection.pageValues limit offset).map .ofValue
  | findServer id | dropServer id | findFirmware id | findSet id => [.uuid id]
  | firmwareOfSet set | attributesOfSet set => [.uuid set]
  | raiseTally version => [.uuid version]
  | addServer input => [.fresh, .optionalText input.name, .optionalText input.facilityCode]
  | changeServer id input =>
    [.uuid id, .optionalText input.name, .optionalText input.facilityCode]
  | attributesOf owner | versionsOf owner => [.uuid owner.id]
  | dropAttribute owner scope | newestVersion owner scope => [.uuid owner.id, .text scope]
  | putAttribute owner input | addVersion owner input =>
    [.fresh, .uuid owner.id, .text input.scope, .document input.data]
  | addKind input => [.fresh, .text input.name, .text input.slug]
  | knownKinds slugs => [.texts slugs]
  | findKind slug => [.text slug]
  | addComponent server kind input =>
    [.fresh, .uuid server, .uuid kind, .optionalText input.name, .optionalText input.vendor,
      .optionalText input.model, .optionalText input.serial]
  | addFirmware input =>
    [.fresh, .text input.vendor, .text input.model, .text input.filename, .text input.version,
      .text input.checksum, .text input.vendorUrl, .text input.repositoryUrl]
  | knownFirmware ids => [.uuids ids]
  | addSet name => [.fresh, .text name]
  | addToSet set firmware => [.uuid set, .uuid firmware]
  | putSetAttribute set input => [.fresh, .uuid set, .text input.scope, .document input.data]

/-- The beginning and end of a transaction have no answer of their own. -/
def answeredBy : Statement → Answerer
  | begin | commit => .nobody
  | lockVersions _ _ => .locks
  | _ => .tables

end Statement
end FleetInventory
