import FleetInventory.Api.Answer
import FleetInventory.Api.Request
import FleetInventory.Document.Parser
import FleetInventory.Text.Split

/-!
Bodies of requests: JSON under a JSON media type. An empty body is null. A media type is what a
content type names: `application/json; charset=utf-8`. A name is made of token characters; a value
is a token or stands in quotes. A type that is malformed is none.
-/
namespace FleetInventory

/-- Type and subtype, the latter without its suffix, in lower case. Parameters are not kept. -/
structure MediaType where
  main : List Char
  sub : List Char
  suffix : Option (List Char)
  deriving DecidableEq

namespace MediaType

def isTokenChar (c : Char) : Bool := c.isAlphanum || "!#$%&'*+-.^_`|~".toList.contains c

def isQuotable (c : Char) : Bool := 31 < c.toNat && c.toNat ≠ 127

inductive Position where
  /-- A name may begin. -/
  | between
  | name
  /-- A value may begin. -/
  | opening
  | value
  /-- Right after the first quote: a quoted value is not empty. -/
  | quote
  | quoted
  | closed
  deriving DecidableEq

def Position.step? : Position → Char → Option Position
  | .between, c => if c = ' ' then some .between else if isTokenChar c then some .name else none
  | .name, c => if c = '=' then some .opening else if isTokenChar c then some .name else none
  | .opening, c => if c = '"' then some .quote else if isTokenChar c then some .value else none
  | .value, c => if c = ';' then some .between else if isTokenChar c then some .value else none
  | .quote, c => if isQuotable c then some .quoted else none
  | .quoted, c => if c = '"' then some .closed else if isQuotable c then some .quoted else none
  | .closed, c => if c = ';' then some .between else if c = ' ' then some .closed else none

def Position.isFinal : Position → Bool
  | .between | .opening | .value | .closed => true
  | .name | .quote | .quoted => false

def areParameters (cs : List Char) : Bool :=
  match cs.foldlM Position.step? .between with
  | some position => position.isFinal
  | none => false

/-- A subtype and what follows its last plus sign, unless it begins with that sign. -/
def cutSuffix (cs : List Char) : List Char × Option (List Char) :=
  match Text.cut '+' cs.reverse with
  | some (suffix, c :: main) => ((c :: main).reverse, some suffix.reverse)
  | _ => (cs, none)

def isSubtypeEnd (c : Char) : Bool := c = ';' || c = ' '

def lower (cs : List Char) : List Char := cs.map Char.toLower

def parse? (text : String) : Option MediaType := do
  let (main, rest) ← Text.cut '/' text.toList
  let sub := rest.takeWhile (!isSubtypeEnd ·)
  let wellFormed := !main.isEmpty && main.all isTokenChar && sub.all isTokenChar
    && (!sub.isEmpty || rest.isEmpty) && areParameters (rest.drop (sub.length + 1))
  if !wellFormed then none
  let (sub, suffix) := cutSuffix (lower sub)
  return ⟨lower main, sub, suffix⟩

/-- JSON itself, with whatever suffix, or a format that is JSON by its suffix. -/
def isJson (m : MediaType) : Bool :=
  m.main = "application".toList && (m.sub = "json".toList || m.suffix = some "json".toList)

end MediaType
end FleetInventory

namespace FleetInventory.Body

def document? (text : String) : Option Document :=
  if text = "" then some .null else Document.parse? text

def read (ofDocument? : Document → Option α) (request : Request) : Except Failure α :=
  match request.header? "content-type" with
  | none => .error .badMediaType
  | some mediaType =>
    if (MediaType.parse? mediaType).any MediaType.isJson then
      match (document? request.body).bind ofDocument? with
      | some a => .ok a
      | none => .error .badBody
    else .error .badMediaType

end FleetInventory.Body
