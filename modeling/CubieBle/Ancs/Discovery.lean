import Mathlib.Logic.Function.Basic
import CubieBle.Machine.Run

/-! # ANCS discovery

The service, its characteristics and their descriptors are discovered one after the other. Each
request reports attributes from the receive thread and then sends a message, on which the main
thread makes the next request. The handles are kept from one connection to the next.

A result is missing where an index outside `char_data` would be used.
-/

namespace CubieBle.Ancs.Discovery

/-! ## The peer -/

abbrev Uuid := List UInt8

def ancsServiceUuid : Uuid :=
  [0xd0, 0x00, 0x2d, 0x12, 0x1e, 0x4b, 0x0f, 0xa4, 0x99, 0x4e, 0xce, 0xb5, 0x31, 0xf4, 0x05, 0x79]

inductive AttrKind
  | primary (uuid : Uuid) (endHandle : Nat)
  | characteristic (uuid : Uuid)
  | value
  | ccc
  | descriptor
deriving DecidableEq

structure Attr where
  handle : Nat
  kind : AttrKind
deriving DecidableEq

inductive DiscoverType
  | primary (uuid : Uuid)
  | characteristic
  | descriptor

def DiscoverType.reports : DiscoverType → AttrKind → Bool
  | .primary uuid, .primary other _ => uuid = other
  | .characteristic, .characteristic _ => true
  | .descriptor, .ccc => true
  | .descriptor, .descriptor => true
  | _, _ => false

/-- What `bt_gatt_discover` reports before `NULL`. -/
def reported (peer : List Attr) (type : DiscoverType) (startHandle endHandle : Nat) : List Attr :=
  peer.filter fun attr =>
    startHandle ≤ attr.handle ∧ attr.handle ≤ endHandle ∧ type.reports attr.kind

/-! ## The state -/

def invalidAttHandle : Nat := 0

def numChars : Nat := 3

/-- The UUIDs of `g_disc_ancs_char`: notification source, control point and data source. -/
def charUuid : Nat → Uuid
  | 0 => [0xbd, 0x1d, 0xa2, 0x99, 0xe6, 0x25, 0x58, 0x8c, 0xd9, 0x42, 0x01, 0x63, 0x0d, 0x12, 0xbf,
      0x9f]
  | 1 => [0xd9, 0xd9, 0xaa, 0xfd, 0xbd, 0x9b, 0x21, 0x98, 0xa8, 0x49, 0xe1, 0x45, 0xf3, 0xd8, 0xd1,
      0x69]
  | _ => [0xfb, 0x7b, 0x7c, 0xce, 0x6a, 0xb3, 0x44, 0xbe, 0xb5, 0x4b, 0xd6, 0x24, 0xe9, 0xc6, 0xea,
      0x22]

def hasCcd : Nat → Bool
  | 1 => false
  | _ => true

structure GattCharacteristic where
  startHandle : Nat
  endHandle : Nat
  ccdHandle : Nat

structure GattService where
  startHandle : Nat
  endHandle : Nat
  charIndex : Nat
  charData : Nat → GattCharacteristic

inductive Msg
  | connSecOpen
  | connClose
  | discPrimServ (status : Nat)
  | discServiceChar (status : Nat)
  | discServiceCharDesc (status : Nat)
  | discoveryCompelte (result : Bool)
deriving DecidableEq

structure App where
  service : GattService
  serviceIndex : Nat
  isDiscovering : Bool
  discoveryResult : Bool
  serviceIsFound : Bool
  chrcIsFound : Bool
  chrcDecIsFound : Bool
  notifConfiguring : Bool
  queue : List Msg
  /-- the service at each `BLE_DISCOVERY_COMPELTE_IND` -/
  completed : List GattService
  /-- the handles of the CCC and of the value in each subscription -/
  subscribed : List (Nat × Nat)

def App.send (app : App) (msg : Msg) : App := { app with queue := app.queue ++ [msg] }

/-- An access to `char_data`. -/
def GattService.modify (service : GattService) (index : Nat)
    (f : GattCharacteristic → GattCharacteristic) : Option GattService :=
  if index < numChars then
    some { service with
      charData := Function.update service.charData index (f (service.charData index)) }
  else none

/-! ## The receive thread -/

def App.withService (app : App) (service : GattService) : App := { app with service := service }

def handleDiscoverPrimaryServiceInd (app : App) (startHandle endHandle : Nat) : App :=
  app.withService { app.service with
    startHandle := startHandle
    endHandle := endHandle
    charIndex := 0 }

/-- `handle - 2` is a `u16_t`. -/
def handleGattServiceCharacteristicDeclarationInfoInd (app : App) (uuid : Uuid) (handle : Nat) :
    Option App :=
  match (List.range numChars).find? fun index => charUuid index = uuid with
  | none => some app
  | some index => do
      let service ← app.service.modify index fun chrc =>
        { chrc with
          startHandle := handle
          endHandle := app.service.endHandle }
      let service ←
        if app.service.charIndex ≠ 0xffff then
          service.modify app.service.charIndex fun chrc =>
            { chrc with endHandle := (handle + 0x10000 - 2) % 0x10000 }
        else some service
      return app.withService { service with charIndex := index }

def handleGattCharacteristicDescriptorInfoInd (app : App) (attr : Attr) : Option App :=
  if attr.kind = .ccc then do
    let service ← app.service.modify app.service.charIndex fun chrc =>
      { chrc with ccdHandle := attr.handle }
    return app.withService service
  else some app

/-- `discover_func` for an attribute, which is of the type that was asked for. -/
def discoverFunc (app : App) (attr : Attr) : Option App :=
  match attr.kind with
  | .primary _ endHandle =>
      some
        (handleDiscoverPrimaryServiceInd { app with serviceIsFound := true } attr.handle endHandle)
  | .characteristic uuid =>
      handleGattServiceCharacteristicDeclarationInfoInd { app with chrcIsFound := true } uuid
        attr.handle
  | _ => handleGattCharacteristicDescriptorInfoInd { app with chrcDecIsFound := true } attr

def statusOf (isFound : Bool) : Nat := if isFound then 0 else 1

/-- `discover_func` for `NULL`. -/
def discoverFuncNull (app : App) : DiscoverType → App
  | .primary _ =>
      { app.send (.discPrimServ (statusOf app.serviceIsFound)) with serviceIsFound := false }
  | .characteristic =>
      { app.send (.discServiceChar (statusOf app.chrcIsFound)) with chrcIsFound := false }
  | .descriptor =>
      { app.send (.discServiceCharDesc (statusOf app.chrcDecIsFound)) with chrcDecIsFound := false }

def btGattDiscover (peer : List Attr) (type : DiscoverType) (startHandle endHandle : Nat)
    (app : App) : Option App := do
  let app ← (reported peer type startHandle endHandle).foldlM discoverFunc app
  return discoverFuncNull app type

/-! ## The main thread -/

section Main

variable (peer : List Attr)

def stopGattDatabaseDiscovery (app : App) : App :=
  App.send { app with isDiscovering := false } (.discoveryCompelte app.discoveryResult)

def discoverAPrimaryService (app : App) : Option App :=
  btGattDiscover peer (.primary ancsServiceUuid) 0x0001 0xffff app

def startGattDatabaseDiscovery (app : App) : Option App :=
  discoverAPrimaryService peer
    { app with
      serviceIndex := 0
      isDiscovering := true
      discoveryResult := true }

/-- The next entry of `g_service_list`, which has one service before `NULL`. -/
def nextService (app : App) : Option App :=
  let app := { app with serviceIndex := app.serviceIndex + 1 }
  if app.serviceIndex < 1 then discoverAPrimaryService peer app
  else some (stopGattDatabaseDiscovery app)

def handleServiceDiscoveryPrimaryServiceByUuidCfm (app : App) (status : Nat) : Option App :=
  if status = 0 ∧ app.service.startHandle ≠ invalidAttHandle ∧
      app.service.endHandle ≠ invalidAttHandle then
    btGattDiscover peer .characteristic app.service.startHandle app.service.endHandle
      (app.withService { app.service with charIndex := 0xffff })
  else nextService peer { app with discoveryResult := false }

/-- The request for the descriptors of a characteristic; the handle is a `u16_t`. -/
def gattDiscoverAllCharDescriptors (app : App) (chrc : GattCharacteristic) : Option App :=
  btGattDiscover peer .descriptor ((chrc.startHandle + 2) % 0x10000)
    ((chrc.startHandle + 2) % 0x10000) app

def GattService.charAt (service : GattService) (index : Nat) : Option GattCharacteristic :=
  if index < numChars then some (service.charData index) else none

def handleGattDiscoverServiceCharacteristicCfm (app : App) (status : Nat) : Option App :=
  let found := (List.range numChars).find? fun index => hasCcd index
  let app :=
    match found with
    | some index => app.withService { app.service with charIndex := index }
    | none => app
  if status = 0 then do
    let chrc ← app.service.charAt (found.getD numChars)
    if chrc.startHandle ≠ invalidAttHandle ∧ found.isSome then
      gattDiscoverAllCharDescriptors peer app chrc
    else nextService peer app
  else nextService peer { app with discoveryResult := false }

def handleGattCharacteristicDescriptorCfm (app : App) (status : Nat) : Option App :=
  if status = 0 then
    match (List.range numChars).find? fun index =>
        (app.service.charIndex + 1) % 0x10000 ≤ index ∧ hasCcd index with
    | none => nextService peer app
    | some index => do
        let chrc ← app.service.charAt index
        gattDiscoverAllCharDescriptors peer
          (app.withService { app.service with charIndex := index }) chrc
  else some (stopGattDatabaseDiscovery { app with discoveryResult := false })

/-- The handles of `configure_ancs_data_source_notification` and then of
`configure_ancs_notifications`. -/
def subscriptions (service : GattService) : List (Nat × Nat) :=
  [((service.charData 2).ccdHandle, ((service.charData 2).startHandle + 1) % 0x10000),
    ((service.charData 0).ccdHandle, ((service.charData 0).startHandle + 1) % 0x10000)]

def handleDiscoveryCompelte (app : App) : App :=
  let app := { app with completed := app.completed ++ [app.service] }
  if (app.service.charData 0).ccdHandle ≠ invalidAttHandle ∧ app.notifConfiguring = false then
    { app with
      notifConfiguring := true
      subscribed := app.subscribed ++ subscriptions app.service }
  else app

def appBleEventHandle (app : App) : Msg → Option App
  | .connSecOpen => startGattDatabaseDiscovery peer app
  | .connClose => some { app with notifConfiguring := false }
  | .discPrimServ status => handleServiceDiscoveryPrimaryServiceByUuidCfm peer app status
  | .discServiceChar status => handleGattDiscoverServiceCharacteristicCfm peer app status
  | .discServiceCharDesc status => handleGattCharacteristicDescriptorCfm peer app status
  | .discoveryCompelte _ => some (handleDiscoveryCompelte app)

/-- The main loop for a number of messages, or until there are no more. -/
def mainLoop : Nat → App → Option App
  | 0, app => some app
  | count + 1, app =>
      match app.queue with
      | [] => some app
      | msg :: rest => do
          let app ← appBleEventHandle peer { app with queue := rest } msg
          mainLoop count app

end Main

/-- A connection: discovery once the link is secure, and its end. -/
def connection (app : App) (peer : List Attr) : Option App := do
  let app ← mainLoop peer 6 (App.send { app with completed := [], subscribed := [] } .connSecOpen)
  appBleEventHandle peer app .connClose

end CubieBle.Ancs.Discovery
