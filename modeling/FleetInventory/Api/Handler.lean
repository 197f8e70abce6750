import FleetInventory.Api.Answer
import FleetInventory.Api.Body
import FleetInventory.Api.Route
import FleetInventory.Store.Records
import FleetInventory.Text.Split

/-!
What each request does: parameters and body are read first, then the database is asked, then the
answer is put together.
-/
namespace FleetInventory

structure ServiceSettings where
  publicUrl : Option String
  environment : Option String
  deriving DecidableEq

/-- A request under way: its path lies inside the interface. -/
structure Call where
  settings : ServiceSettings
  request : Request
  params : List String

abbrev Handler := Program Failure Document

namespace Handler

def ofExcept : Except Failure α → Program Failure α
  | .ok a => .done a
  | .error e => .failed e

def ofStore (program : StoreProgram α) : Program Failure α := program.mapError .store

def found (noun : Noun) (program : StoreProgram (Option α)) : Program Failure α := do
  match ← ofStore program with
  | some a => return a
  | none => .failed (.notFound noun)

def require (ok : Bool) (failure : Failure) : Program Failure Unit :=
  if ok then .done () else .failed failure

def parameter (call : Call) (index : Nat) : Program Failure String :=
  match call.params[index]?.bind Percent.decode? with
  | some s => .done s
  | none => .failed .badParameter

def identifier (call : Call) : Program Failure Uuid := do
  match Uuid.parse? (← parameter call 0) with
  | some id => return id
  | none => .failed .badParameter

def body (read : Document → Option α) (call : Call) : Program Failure α :=
  ofExcept (Body.read read call.request)

def record (toDocument : α → Document) (a : α) : Document := Answer.ofData (toDocument a)

def records (toDocument : α → Document) (as : List α) : Document :=
  Answer.ofRecords (as.map toDocument)

def planned (call : Call) (listing : Listing) : Program Failure Plan :=
  ofExcept ((Plan.ofParams listing call.request.params).mapError .search)

def page (read : Row → Option α) (toDocument : α → Document) (call : Call) (plan : Plan) :
    Handler := do
  let (rows, total) ← ofStore (Store.page read plan)
  let base := call.request.linkBase call.settings.publicUrl
  let request := PageRequest.read call.request.params
  let envelope ← ofExcept ((Envelope.ofPage request total rows.length base).mapError .overflow)
  return Answer.ofPage envelope (rows.map toDocument)

def list (listing : Listing) (read : Row → Option α) (toDocument : α → Document) (call : Call) :
    Handler := do
  page read toDocument call (← planned call listing)

def health (call : Call) : Handler :=
  .done (Answer.health (call.settings.environment.getD "development"))

def listServers : Call → Handler := list .servers Server.ofRow? Server.toDocument

def addServer (call : Call) : Handler := do
  let input ← body ServerInput.ofDocument? call
  return record Server.toDocument (← ofStore (Store.addServer input))

def showServer (call : Call) : Handler := do
  let id ← identifier call
  return record Server.toDocument (← found .server (Store.findServer? id))

def changeServer (call : Call) : Handler := do
  let id ← identifier call
  let input ← body ServerInput.ofDocument? call
  return record Server.toDocument (← found .server (Store.changeServer? id input))

def dropServer (call : Call) : Handler := do
  let id ← identifier call
  require (← ofStore (Store.dropServer id)) (.notFound .server)
  return Answer.ofData (.text "Server deleted")

def listAttributes (call : Call) : Handler := do
  let id ← identifier call
  let _ ← found .server (Store.findServer? id)
  return records Attribute.toDocument (← ofStore (Store.attributesOf (.server id)))

def putAttribute (call : Call) : Handler := do
  let id ← identifier call
  let scope ← parameter call 1
  let data ← body some call
  let _ ← found .server (Store.findServer? id)
  return record Attribute.toDocument (← ofStore (Store.putAttribute (.server id) ⟨scope, data⟩))

def dropAttribute (call : Call) : Handler := do
  let id ← identifier call
  let scope ← parameter call 1
  require (← ofStore (Store.dropAttribute (.server id) scope)) (.notFound .attributeDocument)
  return Answer.ofData (.text "Attribute deleted")

def listVersions (call : Call) : Handler := do
  let id ← identifier call
  let _ ← found .server (Store.findServer? id)
  return records VersionedAttribute.toDocument (← ofStore (Store.versionsOf (.server id)))

def appendVersion (call : Call) : Handler := do
  let id ← identifier call
  let input ← body AttributeInput.ofDocument? call
  require (!Text.isBlankText input.scope) .blankNamespace
  let _ ← found .server (Store.findServer? id)
  return record VersionedAttribute.toDocument
    (← ofStore (Store.appendVersion (.server id) input))

def listComponentsOf (call : Call) : Handler := do
  let id ← identifier call
  let plan ← planned call (.componentsOf id)
  let _ ← found .server (Store.findServer? id)
  page Component.ofRow? Component.toDocument call plan

def addComponents (call : Call) : Handler := do
  let id ← identifier call
  let inputs ← body (Field.list? ComponentInput.ofDocument?) call
  let _ ← found .server (Store.findServer? id)
  let unknown ← ofStore (Store.unknownKinds inputs)
  require unknown.isEmpty (.unknownKinds unknown)
  return records Component.toDocument (← ofStore (Store.addComponents id inputs))

def listComponents : Call → Handler := list .components Component.ofRow? Component.toDocument

def listKinds (_ : Call) : Handler := do
  return records ComponentKind.toDocument (← ofStore Store.allKinds)

def addKind (call : Call) : Handler := do
  let input ← body ComponentKindInput.ofDocument? call
  require (!Text.isBlankText input.slug) .blankSlug
  return record ComponentKind.toDocument (← ofStore (Store.addKind input))

def listFirmware : Call → Handler := list .firmware Firmware.ofRow? Firmware.toDocument

def addFirmware (call : Call) : Handler := do
  let input ← body FirmwareInput.ofDocument? call
  return record Firmware.toDocument (← ofStore (Store.addFirmware input))

def showFirmware (call : Call) : Handler := do
  let id ← identifier call
  return record Firmware.toDocument (← found .firmware (Store.findFirmware? id))

def listFirmwareSets : Call → Handler :=
  list .firmwareSets FirmwareSet.ofRow? FirmwareSet.toDocument

def addFirmwareSet (call : Call) : Handler := do
  let input ← body FirmwareSetInput.ofDocument? call
  require (!Text.isBlankText input.name) .blankSetName
  require (input.attributes.all fun a => !Text.isBlankText a.scope) .blankAttributeNamespace
  let missing ← ofStore (Store.missingFirmware input.firmwareIds)
  require missing.isEmpty (.unknownFirmware missing)
  return record FirmwareSetDetail.toDocument (← ofStore (Store.addSet input))

def showFirmwareSet (call : Call) : Handler := do
  let id ← identifier call
  return record FirmwareSetDetail.toDocument (← found .firmwareSet (Store.findSet? id))

def of? : Route → Method → Option (Call → Handler)
  | .health, .get => some health
  | .servers, .get => some listServers
  | .servers, .post => some addServer
  | .server, .get => some showServer
  | .server, .put => some changeServer
  | .server, .delete => some dropServer
  | .serverAttributes, .get => some listAttributes
  | .serverAttribute, .put => some putAttribute
  | .serverAttribute, .delete => some dropAttribute
  | .serverVersions, .get => some listVersions
  | .serverVersions, .post => some appendVersion
  | .serverComponents, .get => some listComponentsOf
  | .serverComponents, .post => some addComponents
  | .components, .get => some listComponents
  | .kinds, .get => some listKinds
  | .kinds, .post => some addKind
  | .firmware, .get => some listFirmware
  | .firmware, .post => some addFirmware
  | .firmwareFile, .get => some showFirmware
  | .firmwareSets, .get => some listFirmwareSets
  | .firmwareSets, .post => some addFirmwareSet
  | .firmwareSet, .get => some showFirmwareSet
  | _, _ => none

end Handler
end FleetInventory
