import FleetInventory.Text.Encoding
import FleetInventory.Text.Split

/-!
The parameters of a query string: keys with values, in order, repeated keys allowed. Main
definitions: reading a query string, writing one, and the look-ups that the filters rest on.
-/
namespace FleetInventory

structure Params where
  pairs : List (String × String)
  deriving DecidableEq

namespace Params

def spaceForPlus (cs : List Char) : List Char := cs.map fun c => if c = '+' then ' ' else c

/-- A plus sign is a space. Escapes that do not make up text leave the whole component as it is. -/
def decodeComponent (cs : List Char) : String :=
  let spaced := String.ofList (spaceForPlus cs)
  (Percent.decode? spaced).getD spaced

/-- Key and value of one part; a part without an equals sign has the empty value. -/
def readPart (part : List Char) : String × String :=
  match Text.cut '=' part with
  | some (key, value) => (decodeComponent key, decodeComponent value)
  | none => (decodeComponent part, decodeComponent [])

def parse (raw : String) : Params :=
  ⟨((Text.pieces '&' raw.toList).filter (!·.isEmpty)).map readPart⟩

def writePart (pair : String × String) : List Char :=
  (Percent.encode pair.1).toList ++ '=' :: (Percent.encode pair.2).toList

def render (params : Params) : String :=
  String.ofList (Text.glue '&' (params.pairs.map writePart))

def values (params : Params) (key : String) : List String :=
  (params.pairs.filter (·.1 = key)).map (·.2)

def first? (params : Params) (key : String) : Option String := (params.values key).head?

/-- The last value of a key that is not empty. -/
def filled? (params : Params) (key : String) : Option String :=
  ((params.values key).filter (· ≠ "")).getLast?

def keys (params : Params) : List String := params.pairs.map (·.1)

def has (params : Params) (key : String) : Bool := params.keys.contains key

def hasStem (params : Params) (stem : String) : Bool := params.keys.any (Text.startsWith stem)

def push (params : Params) (key value : String) : Params := ⟨params.pairs ++ [(key, value)]⟩

def without (params : Params) (dropped : List String) : Params :=
  ⟨params.pairs.filter fun pair => !dropped.contains pair.1⟩

end Params
end FleetInventory
