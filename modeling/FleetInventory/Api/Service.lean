import FleetInventory.Api.Handler
import FleetInventory.Api.QuerySummary
import FleetInventory.Settings

/-!
The service as a whole: a request goes to the handler of its route, every answer is logged, and a
request that breaks off unanswered is not. A service exists once its database is connected.
-/
namespace FleetInventory

structure Response where
  status : Nat
  body : Option Document

/-- What became of a request: no response if its handling broke off. -/
structure Exchange where
  response : Option Response
  statements : List Statement
  log : List LogEvent

structure Service where
  settings : ServiceSettings
  deriving DecidableEq

namespace Service

def start (connection : Connection) (pool : PoolSettings) (settings : ServiceSettings) :
    Except String Service × List LogEvent :=
  let (started, log) := connection.start pool
  (started.map fun _ => ⟨settings⟩, log)

/-- The program of a request, its path relative to the interface. The paths docs and openapi.json
are left out, and so is what is answered before a request from another origin. -/
def program (service : Service) (request : Request) : Handler :=
  match Route.inside? request.target.path with
  | none => .failed .noSuchPath
  | some path =>
    match Route.find? path with
    | none => .failed .noSuchPath
    | some (route, params) =>
      match (Method.ofName? request.method).bind (Handler.of? route) with
      | none => .failed .wrongMethod
      | some handler =>
        handler ⟨service.settings, { request with target := ⟨path, request.target.query⟩ }, params⟩

def logFields (request : Request) (status : Nat) : Document.Fields :=
  [("method", .text request.method), ("path", .text request.target.path),
    ("status", .int status), ("client_ip", .text (request.client.getD "unknown"))]

def logGranted (request : Request) : LogEvent :=
  let s := QuerySummary.ofQuery request.target.query
  ⟨.info, "request completed", logFields request 200 ++
    [("query_len", .int s.queryBytes), ("attribute_filters", .int s.attributeFilters),
      ("component_groups", .int s.componentGroups), ("paging", .text s.paging.name)]⟩

def logRefused (request : Request) (failure : Failure) : LogEvent :=
  ⟨.error, "request error", logFields request failure.status⟩

/-- Asking for the head alone gives no document. -/
def bodyFor (request : Request) (document : Option Document) : Option Document :=
  if request.method = "HEAD" then none else document

def close (request : Request) : Except Failure Document → Option Response × List LogEvent
  | .ok document => (some ⟨200, bodyFor request (some document)⟩, [logGranted request])
  | .error (.overflow _) => (none, [])
  | .error failure =>
    (some ⟨failure.status, bodyFor request failure.document?⟩, [logRefused request failure])

def handle (service : Service) (request : Request) (script : Script) : Exchange :=
  let (result, statements) := (service.program request).run script
  let (response, log) := close request result
  ⟨response, statements, log⟩

end Service
end FleetInventory
