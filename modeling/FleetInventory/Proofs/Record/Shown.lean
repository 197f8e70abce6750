import FleetInventory.Record.Firmware
import FleetInventory.Record.Server

/-!
Records as they are answered, by the columns of their rows. A document has the columns of a row under
their own names and in their order, and nothing else; a column that may be null is left out where it
is. Main statements: each kind of record that is read from a row is shown with its columns.
-/
namespace FleetInventory

inductive ColumnKind where
  | identifier
  | text
  | nullable
  | time

inductive ColumnKind.Shows : ColumnKind → Cell → Option Document → Prop
  | identifier {s : String} {id : Uuid} (read : Uuid.parse? s = some id) :
    Shows .identifier (.text s) (some (.text id.render))
  | text (s : String) : Shows .text (.text s) (some (.text s))
  | given (s : String) : Shows .nullable (.text s) (some (.text s))
  | null : Shows .nullable .null none
  | time {s : String} {t : Timestamp} (read : Timestamp.parse? s = some t) :
    Shows .time (.text s) (some (.text t.render))

abbrev Columns := List (String × ColumnKind)

namespace Row

inductive Shows (row : Row) : Columns → Document.Fields → Prop
  | nil : Shows row [] []
  | shown {name : String} {kind : ColumnKind} {rest : Columns} {d : Document}
    {fields : Document.Fields} (shows : kind.Shows (row.cell name) (some d))
    (later : Shows row rest fields) : Shows row ((name, kind) :: rest) ((name, d) :: fields)
  | left {name : String} {kind : ColumnKind} {rest : Columns} {fields : Document.Fields}
    (shows : kind.Shows (row.cell name) none) (later : Shows row rest fields) :
    Shows row ((name, kind) :: rest) fields

def ShownAs (columns : Columns) (row : Row) (document : Document) : Prop :=
  ∃ fields, row.Shows columns fields ∧ document = .object fields

variable {row : Row} {name : String} {rest : Columns} {fields : Document.Fields}

theorem cell_of_text? {s : String} (read : row.text? name = some s) : row.cell name = .text s := by
  unfold text? at read
  split at read
  · next cell =>
    cases read
    exact cell
  · cases read

theorem Shows.text {s : String} (read : row.text? name = some s) (later : row.Shows rest fields) :
    row.Shows ((name, .text) :: rest) ((name, .text s) :: fields) :=
  .shown (cell_of_text? read ▸ .text s) later

theorem Shows.identifier {id : Uuid} (read : row.uuid? name = some id)
    (later : row.Shows rest fields) :
    row.Shows ((name, .identifier) :: rest) ((name, .text id.render) :: fields) := by
  obtain ⟨s, cell, parsed⟩ := Option.bind_eq_some_iff.mp read
  exact .shown (cell_of_text? cell ▸ .identifier parsed) later

theorem Shows.time {t : Timestamp} (read : row.timestamp? name = some t)
    (later : row.Shows rest fields) :
    row.Shows ((name, .time) :: rest) ((name, .text t.render) :: fields) := by
  obtain ⟨s, cell, parsed⟩ := Option.bind_eq_some_iff.mp read
  exact .shown (cell_of_text? cell ▸ .time parsed) later

theorem Shows.nullable {given : Option String} (read : row.optionalText? name = some given)
    (later : row.Shows rest fields) :
    row.Shows ((name, .nullable) :: rest) (Field.given name given ++ fields) := by
  unfold optionalText? at read
  split at read
  · next cell =>
    cases read
    exact .left (cell ▸ .null) later
  · next s cell =>
    cases read
    exact .shown (cell ▸ .given s) later
  · cases read

end Row

namespace Server

def columns : Columns :=
  [("id", .identifier), ("name", .nullable), ("facility_code", .nullable), ("created_at", .time),
    ("updated_at", .time)]

theorem shown {row : Row} {server : Server} (read : ofRow? row = some server) :
    row.ShownAs columns server.toDocument := by
  obtain ⟨id, identified, read⟩ := Option.bind_eq_some_iff.mp read
  obtain ⟨name, named, read⟩ := Option.bind_eq_some_iff.mp read
  obtain ⟨code, coded, read⟩ := Option.bind_eq_some_iff.mp read
  obtain ⟨created, first, read⟩ := Option.bind_eq_some_iff.mp read
  obtain ⟨updated, last, read⟩ := Option.bind_eq_some_iff.mp read
  cases read
  refine ⟨_, .identifier identified (.nullable named (.nullable coded (.time first (.time last
    .nil)))), ?_⟩
  simp [toDocument]

end Server

namespace Component

def columns : Columns :=
  [("id", .identifier), ("server_id", .identifier), ("server_component_type_id", .identifier),
    ("name", .nullable), ("vendor", .nullable), ("model", .nullable), ("serial", .nullable),
    ("created_at", .time), ("updated_at", .time)]

theorem shown {row : Row} {component : Component} (read : ofRow? row = some component) :
    row.ShownAs columns component.toDocument := by
  obtain ⟨id, identified, read⟩ := Option.bind_eq_some_iff.mp read
  obtain ⟨server, placed, read⟩ := Option.bind_eq_some_iff.mp read
  obtain ⟨kind, sorted, read⟩ := Option.bind_eq_some_iff.mp read
  obtain ⟨name, named, read⟩ := Option.bind_eq_some_iff.mp read
  obtain ⟨vendor, sold, read⟩ := Option.bind_eq_some_iff.mp read
  obtain ⟨model, modelled, read⟩ := Option.bind_eq_some_iff.mp read
  obtain ⟨serial, numbered, read⟩ := Option.bind_eq_some_iff.mp read
  obtain ⟨created, first, read⟩ := Option.bind_eq_some_iff.mp read
  obtain ⟨updated, last, read⟩ := Option.bind_eq_some_iff.mp read
  cases read
  refine ⟨_, .identifier identified (.identifier placed (.identifier sorted (.nullable named
    (.nullable sold (.nullable modelled (.nullable numbered (.time first (.time last .nil)))))))),
    ?_⟩
  simp [toDocument]

end Component

namespace Firmware

def columns : Columns :=
  [("id", .identifier), ("vendor", .text), ("model", .text), ("filename", .text),
    ("version", .text), ("checksum", .text), ("upstream_url", .text), ("repository_url", .text),
    ("created_at", .time), ("updated_at", .time)]

theorem shown {row : Row} {firmware : Firmware} (read : ofRow? row = some firmware) :
    row.ShownAs columns firmware.toDocument := by
  obtain ⟨id, identified, read⟩ := Option.bind_eq_some_iff.mp read
  obtain ⟨file, described, read⟩ := Option.bind_eq_some_iff.mp read
  obtain ⟨created, first, read⟩ := Option.bind_eq_some_iff.mp read
  obtain ⟨updated, last, read⟩ := Option.bind_eq_some_iff.mp read
  cases read
  obtain ⟨vendor, sold, described⟩ := Option.bind_eq_some_iff.mp described
  obtain ⟨model, modelled, described⟩ := Option.bind_eq_some_iff.mp described
  obtain ⟨filename, filed, described⟩ := Option.bind_eq_some_iff.mp described
  obtain ⟨version, numbered, described⟩ := Option.bind_eq_some_iff.mp described
  obtain ⟨checksum, summed, described⟩ := Option.bind_eq_some_iff.mp described
  obtain ⟨upstream, offered, described⟩ := Option.bind_eq_some_iff.mp described
  obtain ⟨repository, kept, described⟩ := Option.bind_eq_some_iff.mp described
  cases described
  exact ⟨_, .identifier identified (.text sold (.text modelled (.text filed (.text numbered
    (.text summed (.text offered (.text kept (.time first (.time last .nil))))))))), rfl⟩

end Firmware

namespace FirmwareSet

def columns : Columns :=
  [("id", .identifier), ("name", .text), ("created_at", .time), ("updated_at", .time)]

theorem shown {row : Row} {set : FirmwareSet} (read : ofRow? row = some set) :
    row.ShownAs columns set.toDocument := by
  obtain ⟨id, identified, read⟩ := Option.bind_eq_some_iff.mp read
  obtain ⟨name, named, read⟩ := Option.bind_eq_some_iff.mp read
  obtain ⟨created, first, read⟩ := Option.bind_eq_some_iff.mp read
  obtain ⟨updated, last, read⟩ := Option.bind_eq_some_iff.mp read
  cases read
  exact ⟨_, .identifier identified (.text named (.time first (.time last .nil))), rfl⟩

end FirmwareSet
end FleetInventory
