import FleetInventory.Api.Target
import FleetInventory.Paging.Envelope

/-!
Requests: what is asked for, the headers and the body, and the address that the links of an answer
start with.
-/
namespace FleetInventory

structure Request where
  method : String
  target : Target
  headers : List (String × String)
  body : String
  /-- The address of the client, if the connection shows one. -/
  client : Option String
  deriving DecidableEq

namespace Request

def isVisible (c : Char) : Bool := c = '\t' || (0x20 ≤ c.toNat && c.toNat ≤ 0x7E)

def isFieldChar (c : Char) : Bool := c = '\t' || (0x20 ≤ c.toNat && c.toNat ≠ 0x7F)

/-- The first header of a name, given in lower case, if its value is visible ASCII. What is no
field value counts as not sent. -/
def header? (request : Request) (name : String) : Option String :=
  let sent := request.headers.filter fun (_, value) => value.toList.all isFieldChar
  (sent.find? fun (key, _) => key.toLower = name).bind fun (_, value) =>
    if value.toList.all isVisible then some value else none

def params (request : Request) : Params := Params.parse (request.target.query.getD "")

def withoutTrailingSlashes (url : String) : String :=
  String.ofList ((url.toList.reverse.dropWhile (· = '/')).reverse)

/-- Scheme and host of links: the public address if one is set, else what the headers say. -/
def origin (publicUrl : Option String) (request : Request) : String :=
  match publicUrl with
  | some url => withoutTrailingSlashes url
  | none =>
    (request.header? "x-forwarded-proto").getD "http" ++ "://"
      ++ (request.header? "host").getD "localhost"

def linkBase (publicUrl : Option String) (request : Request) : LinkBase :=
  LinkBase.ofRequest (request.origin publicUrl ++ request.target.path) request.params

end Request
end FleetInventory
