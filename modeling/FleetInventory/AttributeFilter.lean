import FleetInventory.Query.Params
import FleetInventory.Text.Split

/-!
One test on a namespaced JSON document. Without a comparison it asks that the key path exists;
without a key path it asks that the namespace exists. The written form of a filter is `namespace`,
`namespace~key.path` or `namespace~key.path~comparison~value`: every text reads as a filter, and the
written form is the shortest one that says the same. Every occurrence of a parameter, in order, is
one filter, and the first that has no namespace refuses the request.
-/
namespace FleetInventory

inductive Comparison where
  | equal
  | like
  | greater
  | less
  deriving DecidableEq

structure AttributeFilter where
  scope : String
  keyPath : List String
  comparison : Option Comparison
  value : String
  deriving DecidableEq

inductive SearchFault where
  | missingNamespace (param : String) (keyPath : List String)
  | emptyNamespace (param : String)
  | unknownOrder (column : String)
  deriving DecidableEq

namespace SearchFault

def message : SearchFault → String
  | missingNamespace param keyPath =>
    "attribute filter " ++ param ++ ": key path `" ++ String.intercalate "." keyPath
      ++ "` given without a namespace"
  | emptyNamespace param => "attribute filter " ++ param ++ ": namespace must not be empty"
  | unknownOrder column => "unknown orderby column: " ++ column

end SearchFault

namespace AttributeFilter

def ofScope (scope : String) : AttributeFilter := ⟨scope, [], none, ""⟩

def check (param : String) (filter : AttributeFilter) : Except SearchFault Unit :=
  if filter.scope ≠ "" then .ok ()
  else if filter.keyPath.isEmpty then .error (.emptyNamespace param)
  else .error (.missingNamespace param filter.keyPath)

end AttributeFilter

def Comparison.token : Comparison → String
  | equal => "eq"
  | like => "like"
  | greater => "gt"
  | less => "lt"

def Comparison.ofToken? (token : String) : Option Comparison :=
  if token = "eq" then some equal
  else if token = "like" then some like
  else if token = "gt" then some greater
  else if token = "lt" then some less
  else none

namespace AttributeFilter

/-- A pattern without a wildcard matches as the beginning of a text. -/
def openPattern (comparison : Comparison) (value : String) : String :=
  if comparison = .like ∧ '%' ∉ value.toList then value ++ "%" else value

def readKeyPath (raw : String) : List String :=
  if raw = "" then [] else Text.splitAt '.' raw

/-- An unknown comparison leaves a test for the key path; any other number of segments than one,
two or four leaves the namespace alone. -/
def ofSegments : List String → AttributeFilter
  | [scope, path] => { ofScope scope with keyPath := readKeyPath path }
  | [scope, path, token, value] =>
    match Comparison.ofToken? token with
    | some c => ⟨scope, readKeyPath path, some c, openPattern c value⟩
    | none => { ofScope scope with keyPath := readKeyPath path }
  | scope :: _ => ofScope scope
  | [] => ofScope ""

def decode (token : String) : AttributeFilter := ofSegments (Text.splitAt '~' token)

def encode (filter : AttributeFilter) : String :=
  let path := String.intercalate "." filter.keyPath
  match filter.comparison with
  | some c => filter.scope ++ "~" ++ path ++ "~" ++ c.token ++ "~" ++ filter.value
  | none => if filter.keyPath.isEmpty then filter.scope else filter.scope ++ "~" ++ path

end AttributeFilter
end FleetInventory

namespace FleetInventory.AttributeFilter

def attributeParam : String := "attr"
def versionedParam : String := "ver_attr"

def readOne (param token : String) : Except SearchFault AttributeFilter := do
  let filter := decode token
  filter.check param
  return filter

def readAll (params : Params) (param : String) : Except SearchFault (List AttributeFilter) :=
  (params.values param).mapM (readOne param)

end FleetInventory.AttributeFilter
