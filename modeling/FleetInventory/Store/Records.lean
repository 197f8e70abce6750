import FleetInventory.Search.Plan
import FleetInventory.Store.Program

/-!
Work on stored records: lists, servers, attribute documents, component kinds, components, firmware
and firmware sets.
-/
namespace FleetInventory.Store

/-- The number of matches, then one page of them. -/
def page (read : Row → Option α) (plan : Plan) : StoreProgram (List α × Int) := do
  let table := plan.listing.table
  let total ← fetchOne (·.int64? "count") (.countRows table plan.selection)
  let records ← fetchAll read
    (.pageRows table plan.orderSql plan.selection plan.window.limit plan.window.offset)
  return (records, total)

def findServer? (id : Uuid) : StoreProgram (Option Server) :=
  fetchOptional Server.ofRow? (.findServer id)

def addServer (input : ServerInput) : StoreProgram Server :=
  fetchOne Server.ofRow? (.addServer input)

def changeServer? (id : Uuid) (input : ServerInput) : StoreProgram (Option Server) :=
  fetchOptional Server.ofRow? (.changeServer id input)

def dropServer (id : Uuid) : StoreProgram Bool := do
  return decide (0 < (← touched (.dropServer id)))

def attributesOf (owner : AttributeOwner) : StoreProgram (List Attribute) :=
  fetchAll Attribute.ofRow? (.attributesOf owner)

def putAttribute (owner : AttributeOwner) (input : AttributeInput) : StoreProgram Attribute :=
  fetchOne Attribute.ofRow? (.putAttribute owner input)

def dropAttribute (owner : AttributeOwner) (scope : String) : StoreProgram Bool := do
  return decide (0 < (← touched (.dropAttribute owner scope)))

def versionsOf (owner : AttributeOwner) : StoreProgram (List VersionedAttribute) :=
  fetchAll VersionedAttribute.ofRow? (.versionsOf owner)

/-- A new version, unless the newest one has the same document: then its tally goes up. It takes
the lock first, so it must run inside a transaction. -/
def recordVersion (owner : AttributeOwner) (input : AttributeInput) :
    StoreProgram VersionedAttribute := do
  perform (.lockVersions owner input.scope)
  let newest ← fetchOptional VersionedAttribute.ofRow? (.newestVersion owner input.scope)
  match newest.filter (·.data.same input.data) with
  | some version => fetchOne VersionedAttribute.ofRow? (.raiseTally version.id)
  | none => fetchOne VersionedAttribute.ofRow? (.addVersion owner input)

def appendVersion (owner : AttributeOwner) (input : AttributeInput) :
    StoreProgram VersionedAttribute :=
  transaction (recordVersion owner input)

def allKinds : StoreProgram (List ComponentKind) := fetchAll ComponentKind.ofRow? .allKinds

def addKind (input : ComponentKindInput) : StoreProgram ComponentKind :=
  fetchOne ComponentKind.ofRow? (.addKind input)

def inOrder (slugs : List String) : List String :=
  (slugs.mergeSort fun a b => !decide (b < a)).eraseDups

def unknownKinds (inputs : List ComponentInput) : StoreProgram (List String) := do
  let slugs := inputs.map (·.kindSlug)
  let known ← fetchAll (·.text? "slug") (.knownKinds slugs)
  return inOrder (slugs.filter fun slug => !known.contains slug)

def addComponent (server : Uuid) (input : ComponentInput) : StoreProgram Component := do
  match ← fetchOptional (·.uuid? "id") (.findKind input.kindSlug) with
  | none => .failed (.kindVanished input.kindSlug)
  | some kind =>
    let component ← fetchOne Component.ofRow? (.addComponent server kind input)
    let owner := AttributeOwner.component component.id
    let _ ← input.attributes.mapM (putAttribute owner)
    let _ ← input.versioned.mapM (recordVersion owner)
    return component

def addComponents (server : Uuid) (inputs : List ComponentInput) :
    StoreProgram (List Component) :=
  transaction (inputs.mapM (addComponent server))

def findFirmware? (id : Uuid) : StoreProgram (Option Firmware) :=
  fetchOptional Firmware.ofRow? (.findFirmware id)

def addFirmware (input : FirmwareInput) : StoreProgram Firmware :=
  fetchOne Firmware.ofRow? (.addFirmware input)

def missingFirmware (ids : List Uuid) : StoreProgram (List Uuid) := do
  let known ← fetchAll (·.uuid? "id") (.knownFirmware ids)
  return ids.filter fun id => !known.contains id

def findSet? (id : Uuid) : StoreProgram (Option FirmwareSetDetail) := do
  match ← fetchOptional FirmwareSet.ofRow? (.findSet id) with
  | none => return none
  | some set =>
    let firmware ← fetchAll Firmware.ofRow? (.firmwareOfSet id)
    let attributes ← fetchAll Attribute.ofRow? (.attributesOfSet id)
    return some ⟨set, firmware, attributes⟩

def writeSet (input : FirmwareSetInput) : StoreProgram FirmwareSet := do
  let set ← fetchOne FirmwareSet.ofRow? (.addSet input.name)
  let _ ← input.firmwareIds.mapM fun id => perform (.addToSet set.id id)
  let _ ← input.attributes.mapM fun document => perform (.putSetAttribute set.id document)
  return set

/-- A new set, read again once it is kept. -/
def addSet (input : FirmwareSetInput) : StoreProgram FirmwareSetDetail := do
  let set ← transaction (writeSet input)
  match ← findSet? set.id with
  | some detail => return detail
  | none => .failed .setVanished

end FleetInventory.Store
