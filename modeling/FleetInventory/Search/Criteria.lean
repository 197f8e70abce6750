import FleetInventory.Search.Components

/-!
What a list request may ask for, one kind of criteria for each listed kind of record: how they are
read from the parameters and which rows they select.
-/
namespace FleetInventory

open Sql

def givenText (table column : String) : Option String → Fragment Predicate
  | some value => (Fragment.equals (.of table column) (.text value)).singles
  | none => Fragment.nothing

structure ServerCriteria where
  name : Option String
  facilityCode : Option String
  attributes : List AttributeFilter
  versioned : List AttributeFilter
  components : List ComponentGroup
  deriving DecidableEq

namespace ServerCriteria

def table : String := "servers"

def read (params : Params) : Except SearchFault ServerCriteria := do
  let attributes ← AttributeFilter.readAll params AttributeFilter.attributeParam
  let versioned ← AttributeFilter.readAll params AttributeFilter.versionedParam
  let components ← ComponentGroup.readAll params
  return {
    name := params.filled? "name"
    facilityCode := params.filled? "facility_code"
    attributes := attributes
    versioned := versioned
    components := components }

def fragment (c : ServerCriteria) : Fragment Predicate :=
  Fragment.all [givenText table "name" c.name,
    givenText table "facility_code" c.facilityCode,
    (AttributeFilter.fragments .server table "" c.attributes).singles,
    (AttributeFilter.fragments .serverVersioned table "" c.versioned).singles,
    ComponentGroup.rowFragments table c.components]

end ServerCriteria

structure ComponentCriteria where
  serverId : Option Uuid
  group : ComponentGroup
  deriving DecidableEq

namespace ComponentCriteria

def table : String := ComponentGroup.table

def read (params : Params) : Except SearchFault ComponentCriteria := do
  let attributes ← AttributeFilter.readAll params AttributeFilter.attributeParam
  let versioned ← AttributeFilter.readAll params AttributeFilter.versionedParam
  return {
    serverId := none
    group := {
      name := params.filled? "name"
      vendor := params.filled? "vendor"
      model := params.filled? "model"
      serial := params.filled? "serial"
      kind := params.filled? "type"
      attributes := attributes
      versioned := versioned } }

def ofServer (server : Uuid) : ComponentCriteria := ⟨some server, ComponentGroup.empty⟩

def serverFragment : Option Uuid → Fragment Predicate
  | some server => (Fragment.equals (.of table "server_id") (.uuid server)).singles
  | none => Fragment.nothing

def fragment (c : ComponentCriteria) : Fragment Predicate :=
  (serverFragment c.serverId).andThen (ComponentGroup.listedFragment table c.group)

end ComponentCriteria

structure FirmwareSetCriteria where
  name : Option String
  attributes : List AttributeFilter
  deriving DecidableEq

namespace FirmwareSetCriteria

def table : String := "component_firmware_set"

def read (params : Params) : Except SearchFault FirmwareSetCriteria := do
  let attributes ← AttributeFilter.readAll params AttributeFilter.attributeParam
  return ⟨params.filled? "name", attributes⟩

def fragment (c : FirmwareSetCriteria) : Fragment Predicate :=
  (givenText table "name" c.name).andThen
    (AttributeFilter.fragments .firmwareSet table "" c.attributes).singles

end FirmwareSetCriteria

structure FirmwareCriteria where
  vendor : Option String
  model : Option String
  version : Option String
  deriving DecidableEq

namespace FirmwareCriteria

def table : String := "component_firmware_version"

def read (params : Params) : FirmwareCriteria :=
  ⟨params.filled? "vendor", params.filled? "model", params.filled? "version"⟩

def fragment (c : FirmwareCriteria) : Fragment Predicate :=
  Fragment.all [givenText table "vendor" c.vendor, givenText table "model" c.model,
    givenText table "version" c.version]

end FirmwareCriteria
end FleetInventory
