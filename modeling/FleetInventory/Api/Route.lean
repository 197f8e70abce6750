import FleetInventory.Text.Encoding
import FleetInventory.Text.Split

/-!
The paths of the interface. A path is matched as it was sent, segment by segment; a parameter
stands for one segment that is not empty, and is read without its percent escapes.
-/
namespace FleetInventory

inductive Route where
  | health
  | servers
  | server
  | serverAttributes
  | serverAttribute
  | serverVersions
  | serverComponents
  | components
  | kinds
  | firmware
  | firmwareFile
  | firmwareSets
  | firmwareSet
  deriving DecidableEq

inductive Method where
  | get
  | post
  | put
  | delete
  deriving DecidableEq

inductive Segment where
  | word (s : String)
  | parameter
  deriving DecidableEq

/-- Asking for the head of an answer runs as asking for the answer. -/
def Method.ofName? (name : String) : Option Method :=
  if name = "GET" ∨ name = "HEAD" then some get
  else if name = "POST" then some post
  else if name = "PUT" then some put
  else if name = "DELETE" then some delete
  else none

namespace Route

def all : List Route :=
  [health, servers, server, serverAttributes, serverAttribute, serverVersions, serverComponents,
    components, kinds, firmware, firmwareFile, firmwareSets, firmwareSet]

def pattern : Route → List Segment
  | health => [.word "health"]
  | servers => [.word "servers"]
  | server => [.word "servers", .parameter]
  | serverAttributes => [.word "servers", .parameter, .word "attributes"]
  | serverAttribute => [.word "servers", .parameter, .word "attributes", .parameter]
  | serverVersions => [.word "servers", .parameter, .word "versioned-attributes"]
  | serverComponents => [.word "servers", .parameter, .word "components"]
  | components => [.word "server-components"]
  | kinds => [.word "server-component-types"]
  | firmware => [.word "server-component-firmwares"]
  | firmwareFile => [.word "server-component-firmwares", .parameter]
  | firmwareSets => [.word "server-component-firmware-sets"]
  | firmwareSet => [.word "server-component-firmware-sets", .parameter]

def mount : String := "/api/v1"

def inside? (path : String) : Option String :=
  match Text.afterStem? mount.toList path.toList with
  | some [] => some "/"
  | some ('/' :: rest) => some (String.ofList ('/' :: rest))
  | _ => none

def fit? : List Segment → List String → Option (List String)
  | [], [] => some []
  | .word w :: pattern, s :: segments => if w = s then fit? pattern segments else none
  | .parameter :: pattern, s :: segments =>
    if s = "" then none else (fit? pattern segments).map (s :: ·)
  | _, _ => none

def segments (path : String) : List String := (Text.splitAt '/' path).drop 1

def find? (path : String) : Option (Route × List String) :=
  all.findSome? fun route => (fit? route.pattern (segments path)).map fun params => (route, params)

end Route
end FleetInventory
