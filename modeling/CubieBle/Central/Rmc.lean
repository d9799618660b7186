import CubieBle.Central.Services
import CubieBle.Machine.Run

/-! # The central of the remote control

The receive thread gets the reports of the host, and the main thread handles the messages that it
sends. A scan is followed by a connection attempt, a connection by the discovery of the services,
and a discovery by subscriptions. What the calls of the host return comes with the events. The host
answers a request for a discovery that it accepts with the matching attributes in the order of
their handles.
-/

namespace CubieBle.Central

/-! ## The peer -/

inductive Declaration where
  | primary (uuid : Uuid) (endHandle : UInt16)
  | secondary (uuid : Uuid) (endHandle : UInt16)
  | characteristic (uuid : Uuid) (properties : UInt8)
deriving DecidableEq

structure Attr where
  handle : UInt16
  declaration : Declaration
deriving DecidableEq

abbrev Peer := List Attr

def DiscoverType.reports : DiscoverType → Declaration → Bool
  | .primary, .primary _ _ => true
  | .secondary, .secondary _ _ => true
  | .characteristic, .characteristic _ _ => true
  | _, _ => false

/-- What `bt_gatt_discover` reports of the handles from 1 on, before `NULL`. -/
def reported (peer : Peer) (type : DiscoverType) : List Attr :=
  peer.filter fun attr => 0x0001 ≤ attr.handle ∧ type.reports attr.declaration

/-! ## The state -/

/-- What the host is doing. -/
inductive Link where
  | idle
  | scanning
  | connecting
  | connected (peer : Peer)
deriving DecidableEq

inductive Msg where
  | connected
  | scan
  | disconnected
  | discoverComplete
deriving DecidableEq

/-- The main thread waits for a message, or is in the loops of `nofity_enable`. -/
inductive MainThread where
  | idle
  | notifying (i j : Nat)
deriving DecidableEq

structure SubscribeParams where
  cccHandle : UInt16
  valueHandle : UInt16
  value : UInt16
deriving DecidableEq

inductive Request where
  | subscribe (params : SubscribeParams)
  | security
deriving DecidableEq

/-- A connection, what the main thread asked of its peer, and how often a change of its security
made the receive thread ask for the level again. -/
structure Session where
  peer : Peer
  requests : List Request
  retries : Nat
deriving DecidableEq

/-- `pending` are the reports left of a discovery, and `sessions` the connections, the newest
one first. -/
structure Rmc where
  link : Link
  defaultConn : Option Peer
  table : ServiceTable
  discoverType : DiscoverType
  pending : Option (List Attr)
  main : MainThread
  queue : List Msg
  securityErrCnt : UInt8
  sessions : List Session

/-- The buffers of `msg_buffer_pool_async`. -/
def msgBufferPoolAsync : Nat := 8

/-- Without a free buffer the message is dropped. -/
def sendAsyncMsg (rmc : Rmc) (msgType : Msg) : Rmc :=
  if rmc.queue.length < msgBufferPoolAsync then { rmc with queue := rmc.queue ++ [msgType] }
  else rmc

/-- A call of the host for the peer that is connected, whose result is only printed. -/
def ask (rmc : Rmc) (request : Request) : Rmc :=
  match rmc.link, rmc.defaultConn, rmc.sessions with
  | .connected _, some _, session :: rest =>
      { rmc with
        sessions := { session with requests := session.requests ++ [request] } :: rest }
  | _, _, _ => rmc

/-! ## Discovery -/

/-- `err` is what the host returns: the reports are to come only if it is zero, and none come from a
link that is lost. -/
def btGattDiscover (rmc : Rmc) (err : Int) : Rmc :=
  if err ≠ 0 then rmc
  else
    match rmc.link with
    | .connected peer => { rmc with pending := some (reported peer rmc.discoverType) }
    | _ => rmc

def startDiscover (rmc : Rmc) (err : Int) : Rmc :=
  match rmc.defaultConn with
  | none => rmc
  | some _ => btGattDiscover { rmc with discoverType := .primary } err

/-- `err` is the result of `bt_gatt_discover`. -/
def discoverFunc (rmc : Rmc) (err : Int) : Option Attr → Rmc
  | none =>
      match rmc.discoverType with
      | .primary => btGattDiscover { rmc with discoverType := .secondary } err
      | .secondary => btGattDiscover { rmc with discoverType := .characteristic } err
      -- the parameters are cleared
      | .characteristic => sendAsyncMsg { rmc with discoverType := .primary } .discoverComplete
  | some attr =>
      match rmc.discoverType, attr.declaration with
      -- services of both types are listed as secondary ones
      | .primary, .primary uuid endHandle | .secondary, .secondary uuid endHandle =>
          { rmc with table := parseService rmc.table uuid attr.handle endHandle .secondary }
      | .characteristic, .characteristic uuid properties =>
          { rmc with table := parseCharicteristic rmc.table ⟨uuid, attr.handle, properties⟩ }
      | _, _ => rmc

/-! ## Subscriptions -/

def btGattChrcNotify : UInt8 := 0x10
def btGattChrcIndicate : UInt8 := 0x20
def btGattCccNotify : UInt16 := 0x0001
def btGattCccIndicate : UInt16 := 0x0002

def btUuidHids : Uuid := .uuid16 0x1812

/-- Vendor Primary Service UUID -/
def wpUuid : Uuid :=
  .uuid128 #v[0x78, 0x56, 0x34, 0x12, 0x99, 0x88, 0x77, 0x66,
    0x55, 0x44, 0x33, 0x22, 0xA0, 0x20, 0x11, 0x00]

/-- `bt_uuid_cmp` is a function of the host. -/
def isSubscribed (btUuidCmp : Uuid → Uuid → Int) (uuid : Uuid) : Bool :=
  !(btUuidCmp btUuidHids uuid ≠ 0 && btUuidCmp wpUuid uuid ≠ 0)

def BleChrc.notifies (chrc : BleChrc) : Bool :=
  chrc.properties &&& btGattChrcNotify ≠ 0 || chrc.properties &&& btGattChrcIndicate ≠ 0

def BleChrc.subscribeParams (chrc : BleChrc) : SubscribeParams where
  cccHandle := chrc.handle + 2
  valueHandle := chrc.handle + 1
  value := if chrc.properties &&& btGattChrcNotify ≠ 0 then btGattCccNotify else btGattCccIndicate

def pair (rmc : Rmc) : Rmc :=
  match rmc.defaultConn with
  | none => rmc
  | some _ => ask rmc .security

/-- `nofity_enable` from where its loops are to their next test. -/
def nofityEnable (btUuidCmp : Uuid → Uuid → Int) (rmc : Rmc) (i j : Nat) : Rmc :=
  if hi : i < rmc.table.svcCnt then
    let service := rmc.table.bleServices.get ⟨i, hi.trans_le rmc.table.svcCnt_le⟩
    if hj : isSubscribed btUuidCmp service.uuid = true ∧ j < service.chrcCnt then
      let chrc := service.chrc.get ⟨j, hj.2.trans_le service.chrcCnt_le⟩
      let rmc :=
        if chrc.notifies then ask rmc (.subscribe chrc.subscribeParams) else rmc
      { rmc with main := .notifying i (j + 1) }
    else { rmc with main := .notifying (i + 1) 0 }
  else { pair rmc with main := .idle }

/-! ## Scans and connections -/

def btDataNameShortened : UInt8 := 0x08
def btDataNameComplete : UInt8 := 0x09

def btLeAdvInd : UInt8 := 0x00
def btLeAdvDirectInd : UInt8 := 0x01
def btLeAdvScanRsp : UInt8 := 0x04

/-- "BLE_RMC" -/
def rmcName : List UInt8 := [0x42, 0x4c, 0x45, 0x5f, 0x52, 0x4d, 0x43]

/-- `err` is the result of `bt_le_scan_start`, which is not tried again if it fails. -/
def startScan (rmc : Rmc) (err : Int) : Rmc :=
  if err ≠ 0 then rmc else { rmc with link := .scanning }

/-- The result of `bt_le_scan_stop`, and whether `bt_conn_create_le` gives a connection. -/
structure ConnectResults where
  leScanStop : Int
  created : Bool
deriving DecidableEq

def rmcConnect (rmc : Rmc) (results : ConnectResults) : Int × Rmc :=
  if results.leScanStop ≠ 0 then (-1, rmc)
  else if results.created then (0, { rmc with link := .connecting })
  else (-1, sendAsyncMsg { rmc with link := .idle } .scan)

def rmcFound (rmc : Rmc) (type : UInt8) (data : List UInt8) (results : ConnectResults) :
    Bool × Rmc :=
  if type = btDataNameShortened ∨ type = btDataNameComplete then
    -- at most 29 bytes are copied, and compared up to the first zero
    if (data.take 29).takeWhile (· ≠ 0) = rmcName then
      let (err, rmc) := rmcConnect rmc results
      (err = 0, rmc)
    else (false, rmc)
  else (false, rmc)

/-- The first results of a list, after which no scan is stopped. -/
def nextResults (results : List ConnectResults) : ConnectResults := results.headD ⟨-1, false⟩

/-- An element takes the first results, and after a failure the next element takes the next. -/
def advParse : List ConnectResults → Nat → Rmc → List UInt8 → Rmc
  | results, fuel + 1, rmc, len :: type :: data =>
      if len = 0 ∨ data.length + 1 < len.toNat then rmc
      else
        match rmcFound rmc type (data.take (len.toNat - 1)) (nextResults results) with
        | (true, rmc) => rmc
        | (false, rmc) => advParse results.tail fuel rmc (data.drop (len.toNat - 1))
  | _, _, rmc, _ => rmc

def deviceFound (rmc : Rmc) (type : UInt8) (ad : List UInt8) (results : List ConnectResults) :
    Rmc :=
  if type = btLeAdvInd ∨ type = btLeAdvScanRsp then advParse results ad.length rmc ad
  else if type = btLeAdvDirectInd then (rmcConnect rmc (nextResults results)).2
  else rmc

/-- A connection attempt has failed, or has led to a connection. -/
def connected (rmc : Rmc) : Option Peer → Rmc
  | none => sendAsyncMsg { rmc with link := .idle } .scan
  | some peer =>
      sendAsyncMsg
        { rmc with
          link := .connected peer
          defaultConn := some peer
          sessions := ⟨peer, [], 0⟩ :: rmc.sessions } .connected

/-- There is no connection other than `default_conn`. -/
def disconnected (rmc : Rmc) : Rmc :=
  let rmc := { rmc with table := serviceInit rmc.table }
  match rmc.defaultConn with
  | none => rmc
  | some _ => sendAsyncMsg { rmc with defaultConn := none } .disconnected

/-! ## Security -/

inductive BtSecurity where
  | none
  | low
  | medium
  | high
  | fips
deriving DecidableEq

def rmcSecurityLevel : BtSecurity := .medium
def rmcSecurityTryMaxTimes : UInt8 := 3

/-- The keys of the peer are cleared and the level is asked for again. -/
def retrySecurity (rmc : Rmc) : Rmc :=
  match rmc.sessions with
  | [] => rmc
  | session :: rest =>
      { rmc with sessions := { session with retries := session.retries + 1 } :: rest }

/-- `err` is the result of `bt_conn_security`. -/
def securityChanged (rmc : Rmc) (level : BtSecurity) (err : Int) : Rmc :=
  if level ≠ rmcSecurityLevel then
    if rmc.securityErrCnt < rmcSecurityTryMaxTimes then
      if err ≠ 0 then { retrySecurity rmc with securityErrCnt := 0 }
      else { retrySecurity rmc with securityErrCnt := rmc.securityErrCnt + 1 }
    else { rmc with securityErrCnt := 0 }
  else { rmc with securityErrCnt := 0 }

/-! ## Steps -/

/-- What the receive thread is called for and the turns of the main thread, with the results of the
calls that they make. -/
inductive Event where
  | deviceFound (type : UInt8) (ad : List UInt8) (results : List ConnectResults)
  | connectionComplete (peer : Option Peer)
  | report (gattDiscover : Int)
  | linkLost (aborted : Bool) (gattDiscover : Int)
  | securityChanged (level : BtSecurity) (connSecurity : Int)
  | main (leScanStart gattDiscover : Int)
deriving DecidableEq

/-- The next report of a discovery. -/
def report (rmc : Rmc) (gattDiscover : Int) : Rmc :=
  match rmc.pending with
  | none => rmc
  | some [] => discoverFunc { rmc with pending := none } gattDiscover none
  | some (attr :: rest) => discoverFunc { rmc with pending := some rest } gattDiscover (some attr)

/-- The host may end a discovery before it reports that the connection is lost. -/
def linkLost (rmc : Rmc) (aborted : Bool) (gattDiscover : Int) : Rmc :=
  match rmc.pending, aborted with
  | some _, true =>
      disconnected (discoverFunc { rmc with link := .idle, pending := none } gattDiscover none)
  | _, _ => disconnected { rmc with link := .idle, pending := none }

/-- The body of the loop in `app_main`. -/
def handleMsg (rmc : Rmc) (leScanStart gattDiscover : Int) : Msg → Rmc
  | .connected => startDiscover rmc gattDiscover
  | .scan | .disconnected => startScan rmc leScanStart
  | .discoverComplete => { rmc with main := .notifying 0 0 }

def appMain (btUuidCmp : Uuid → Uuid → Int) (rmc : Rmc) (leScanStart gattDiscover : Int) : Rmc :=
  match rmc.main, rmc.queue with
  | .notifying i j, _ => nofityEnable btUuidCmp rmc i j
  | .idle, [] => rmc
  | .idle, msg :: rest => handleMsg { rmc with queue := rest } leScanStart gattDiscover msg

/-- An event that is not possible changes nothing. -/
def rmcStep (btUuidCmp : Uuid → Uuid → Int) (rmc : Rmc) : Event → Rmc
  | .deviceFound type ad results =>
      if rmc.link = .scanning then deviceFound rmc type ad results else rmc
  | .connectionComplete peer => if rmc.link = .connecting then connected rmc peer else rmc
  | .report gattDiscover => report rmc gattDiscover
  | .linkLost aborted gattDiscover =>
      match rmc.link with
      | .connected _ => linkLost rmc aborted gattDiscover
      | _ => rmc
  | .securityChanged level connSecurity =>
      match rmc.link with
      | .connected _ => securityChanged rmc level connSecurity
      | _ => rmc
  | .main leScanStart gattDiscover => appMain btUuidCmp rmc leScanStart gattDiscover

/-- The central after `service_init` and `start_scan`. -/
def rmcStart (leScanStart : Int) : Rmc :=
  startScan
    { link := .idle
      defaultConn := none
      table := serviceInit
        { svcCnt := 0
          bleServices := Vector.replicate svcMaxCnt
            { type := .primary
              uuid := .uuid16 0
              startHandle := 0
              endHandle := 0
              chrcCnt := 0
              chrc := Vector.replicate chrcMaxCnt ⟨.uuid16 0, 0, 0⟩
              chrcCnt_le := Nat.zero_le _ }
          svcCnt_le := Nat.zero_le _ }
      discoverType := .primary
      pending := none
      main := .idle
      queue := []
      securityErrCnt := 0
      sessions := [] } leScanStart

/-! ## What the host returns -/

/-- A scan that was stopped is not stopped again before it is started. -/
def Event.StopsOnce : Event → Prop
  | .deviceFound _ _ results => results.countP (fun result => result.leScanStop = 0) ≤ 1
  | _ => True

/-- The calls whose failure leaves the central without anything to go on with. -/
inductive HostCall where
  | leScanStart
  | gattDiscover

/-- The call succeeds if the event makes it. -/
def Event.Succeeds : HostCall → Event → Prop
  | .leScanStart, .main leScanStart _ => leScanStart = 0
  | .gattDiscover, .main _ gattDiscover => gattDiscover = 0
  | .gattDiscover, .report gattDiscover => gattDiscover = 0
  | _, _ => True

end CubieBle.Central
