import FleetInventory.Document.Parser
import FleetInventory.Text.Numeral
import FleetInventory.Timestamp
import FleetInventory.Uuid

/-!
Rows that the database answers with, and reading their columns. A missing column is null; a column
that is null, of another kind than asked for or out of its range can not be read.
-/
namespace FleetInventory

inductive Cell where
  | null
  | text (s : String)
  | int (n : Int)
  | bool (b : Bool)
  deriving DecidableEq

abbrev Row := List (String × Cell)

namespace Row

def cell (row : Row) (column : String) : Cell := (row.lookup column).getD .null

def text? (row : Row) (column : String) : Option String :=
  match row.cell column with
  | .text s => some s
  | _ => none

def optionalText? (row : Row) (column : String) : Option (Option String) :=
  match row.cell column with
  | .null => some none
  | .text s => some (some s)
  | _ => none

def int64? (row : Row) (column : String) : Option Int :=
  match row.cell column with
  | .int n => Word.ofInt? n
  | _ => none

def int32? (row : Row) (column : String) : Option Int :=
  match row.cell column with
  | .int n => Word.ofIntHalf? n
  | _ => none

def bool? (row : Row) (column : String) : Option Bool :=
  match row.cell column with
  | .bool b => some b
  | _ => none

def uuid? (row : Row) (column : String) : Option Uuid := (row.text? column).bind Uuid.parse?

def timestamp? (row : Row) (column : String) : Option Timestamp :=
  (row.text? column).bind Timestamp.parse?

def document? (row : Row) (column : String) : Option Document :=
  (row.text? column).bind Document.parse?

end Row
end FleetInventory
