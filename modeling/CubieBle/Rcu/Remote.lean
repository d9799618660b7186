import Mathlib.Data.List.Chain
import Mathlib.Data.UInt
import CubieBle.Machine.Run

/-! # The remote control

The state machine of the connection, the keys that are sent to the TV, and the callbacks
of the Bluetooth stack. A key that is used while the link is not ready is kept, and it is
sent when the link is secured.
-/

namespace CubieBle.Rcu

open Machine

/-! ## The state machine -/

inductive RmcStatus where
  | idle
  | advertising
  | connected
deriving DecidableEq

inductive RmcMsg where
  | inputKey
  | bleConnected
  | bleSecConnected
  | bleInputEnabled
  | bleUserDisconnected
  | bleNonUserDisconnected
  | timerAdvTimeout
  | timerDirectAdvTimeout
  | timerNoActTimeout
  | timerSecTimeout
  | reconnFail
  | powerUp
  | clearPiarKey
  | lowPower
deriving DecidableEq

inductive RmcAct where
  | none
  | adv
  | directAdv
  | stopAdv
  | disconnectConn
  | sendKey
  | connected
deriving DecidableEq

/-- `rmc_State_table`: the next state and the action. -/
def rmcStateTable : RmcStatus → RmcMsg → RmcStatus × RmcAct
  | .idle, .inputKey => (.advertising, .directAdv)
  -- the action is given as `RMC_MSG_BLE_CONNECTED`, which is the number of `RMC_SM_ACT_ADV`
  | .idle, .bleConnected => (.connected, .adv)
  | .idle, .bleSecConnected => (.connected, .sendKey)
  | .idle, .bleInputEnabled => (.connected, .none)
  | .idle, .bleUserDisconnected => (.idle, .none)
  | .idle, .bleNonUserDisconnected => (.idle, .directAdv)
  | .idle, .timerAdvTimeout => (.idle, .stopAdv)
  | .idle, .timerDirectAdvTimeout => (.advertising, .directAdv)
  | .idle, .timerNoActTimeout => (.idle, .none)
  | .idle, .timerSecTimeout => (.idle, .none)
  | .idle, .reconnFail => (.idle, .none)
  | .idle, .powerUp => (.advertising, .directAdv)
  | .idle, .clearPiarKey => (.advertising, .adv)
  | .idle, .lowPower => (.idle, .none)
  | .advertising, .inputKey => (.advertising, .none)
  | .advertising, .bleConnected => (.connected, .connected)
  | .advertising, .bleSecConnected => (.connected, .sendKey)
  | .advertising, .bleInputEnabled => (.connected, .none)
  | .advertising, .bleUserDisconnected => (.idle, .none)
  | .advertising, .bleNonUserDisconnected => (.idle, .none)
  | .advertising, .timerAdvTimeout => (.idle, .stopAdv)
  | .advertising, .timerDirectAdvTimeout => (.advertising, .directAdv)
  | .advertising, .timerNoActTimeout => (.idle, .stopAdv)
  | .advertising, .timerSecTimeout => (.idle, .none)
  | .advertising, .reconnFail => (.idle, .none)
  | .advertising, .powerUp => (.advertising, .directAdv)
  | .advertising, .clearPiarKey => (.advertising, .adv)
  | .advertising, .lowPower => (.idle, .stopAdv)
  | .connected, .inputKey => (.connected, .none)
  | .connected, .bleConnected => (.connected, .none)
  | .connected, .bleSecConnected => (.connected, .sendKey)
  | .connected, .bleInputEnabled => (.connected, .none)
  | .connected, .bleUserDisconnected => (.idle, .none)
  | .connected, .bleNonUserDisconnected => (.advertising, .directAdv)
  | .connected, .timerAdvTimeout => (.connected, .stopAdv)
  | .connected, .timerDirectAdvTimeout => (.connected, .none)
  | .connected, .timerNoActTimeout => (.idle, .disconnectConn)
  | .connected, .timerSecTimeout => (.idle, .disconnectConn)
  | .connected, .reconnFail => (.idle, .none)
  | .connected, .powerUp => (.advertising, .directAdv)
  | .connected, .clearPiarKey => (.connected, .none)
  | .connected, .lowPower => (.idle, .disconnectConn)

/-! ## Keys -/

def keyReserved : UInt16 := 0xff

def remoteKeyVoiceCommand : UInt16 := 0x0221

/-- The combinations from `REMOTE_COMB_KEY_OK_BACK` to `REMOTE_COMB_KEY_HCI_MODE`. -/
def remoteCombKeys : List UInt16 := [0xcb00, 0xcb01, 0xcb02, 0xcb03, 0xcb04, 0xcb05]

/-- The keys of the board and the codes that are sent for them. -/
def actsKeyMaps : List (UInt16 × UInt16) :=
  [(2, remoteKeyVoiceCommand), (3, 0x00e9), (4, 0x00ea), (5, 0x0030), (6, 0x0045), (7, 0x0043),
    (8, 0x0041), (9, 0x0044), (10, 0x0042), (11, 0x0224), (12, 0x0223), (13, 0xcb00),
    (14, 0xcb05)]

def actsGetBleKeycode (keyCode : UInt16) : UInt16 :=
  ((actsKeyMaps.find? fun map => map.1 = keyCode).map Prod.snd).getD keyReserved

/-- A mapped key that is neither the one for the voice nor a combination. -/
def ordinary (keyCode : UInt16) : Bool :=
  actsGetBleKeycode keyCode ≠ keyReserved && actsGetBleKeycode keyCode ≠ remoteKeyVoiceCommand &&
    actsGetBleKeycode keyCode ∉ remoteCombKeys

/-- A key event: the code, and whether the bit `KEY_TYPE_DOWN` is set. -/
structure KeyValue where
  code : UInt16
  down : Bool
deriving DecidableEq

def KeyValue.zero : KeyValue := { code := 0, down := false }

/-- A report that is passed to `hid_send_input_report`, with the press it is for. -/
structure HidReport where
  press : Nat
  button : UInt16
deriving DecidableEq

/-- What the stack and the hardware answer during a step: whether a bond is stored, whether
advertising fails to start, whether the reports are enabled, and whether a message can be
sent. -/
structure Env where
  paired : Bool
  advFails : Bool
  hidCccEnabled : Bool
  sent : Bool
deriving DecidableEq

/-- The variables of the remote control, with the messages for the state machine and the
reports. Presses are counted; the press of the kept key, and the keys that are held, are
what an observer knows. -/
structure Remote where
  rmcStatus : RmcStatus
  pconn : Bool
  rmcSecurityReadyFlag : Bool
  rmcTermConnFlag : Bool
  enterPairingMode : Bool
  reconnTimes : Nat
  pairCombKeyTimerStart : Bool
  hciModeCombKeyTimerStart : Bool
  pendingKey : KeyValue
  pendingPress : Nat
  bleStates : List RmcMsg
  presses : Nat
  held : List (UInt16 × Nat)
  reports : List HidReport
deriving DecidableEq

def Remote.init : Remote where
  rmcStatus := .idle
  pconn := false
  rmcSecurityReadyFlag := false
  rmcTermConnFlag := false
  enterPairingMode := false
  reconnTimes := 0
  pairCombKeyTimerStart := false
  hciModeCombKeyTimerStart := false
  pendingKey := KeyValue.zero
  pendingPress := 0
  bleStates := []
  presses := 0
  held := []
  reports := []

/-- Reports need an encrypted connection. -/
def hidAppRemoteReportEvent (press : Nat) (button : UInt16) (remote : Remote) : Remote :=
  if remote.pconn && remote.rmcSecurityReadyFlag then
    { remote with reports := remote.reports ++ [{ press := press, button := button }] }
  else remote

/-- The state machine is connected and the link is encrypted. -/
def Remote.ready (remote : Remote) : Bool :=
  remote.rmcStatus = .connected && remote.rmcSecurityReadyFlag

def sendBleKeycode (press : Nat) (key : KeyValue) (remote : Remote) : Remote :=
  if !remote.ready then { remote with pendingKey := key, pendingPress := press }
  else if actsGetBleKeycode key.code = keyReserved then remote
  else
    let remote := { remote with pendingKey := KeyValue.zero }
    if key.down then hidAppRemoteReportEvent press (actsGetBleKeycode key.code) remote
    else hidAppRemoteReportEvent press 0x0000 remote

def sendPendingKeycode (remote : Remote) : Remote :=
  if remote.pendingKey.down then sendBleKeycode remote.pendingPress remote.pendingKey remote
  else if actsGetBleKeycode remote.pendingKey.code = keyReserved then remote
  else
    hidAppRemoteReportEvent remote.pendingPress 0x0000
      (hidAppRemoteReportEvent remote.pendingPress (actsGetBleKeycode remote.pendingKey.code)
        remote)

/-! ## Actions -/

def maxReconnTimes : Nat := 3

def rmcSmActStartAdv (env : Env) (remote : Remote) : Remote :=
  if remote.pconn || env.advFails then remote else { remote with enterPairingMode := true }

/-- The action can give the state machine another event. -/
def rmcSmActStartDirectAdv (env : Env) (remote : Remote) : Remote × Option RmcMsg :=
  if env.paired && remote.reconnTimes < maxReconnTimes then
    (if env.advFails then remote else { remote with reconnTimes := remote.reconnTimes + 1 }, none)
  else
    ({ remote with reconnTimes := 0 },
      some (if remote.pairCombKeyTimerStart then .clearPiarKey else .reconnFail))

def rmcSmActStopAdv (remote : Remote) : Remote := { remote with enterPairingMode := false }

def rmcSmActDisconnectConn (remote : Remote) : Remote :=
  if remote.pconn then { remote with rmcTermConnFlag := true } else remote

def rmcSmActConnected (remote : Remote) : Remote := { remote with enterPairingMode := false }

/-- `rmc_sm_execute`, with a bound on the calls in its actions. -/
def rmcSmExecute (env : Env) : Nat → RmcMsg → Remote → Option Remote
  | 0, _, _ => none
  | calls + 1, evt, remote =>
      let (next, action) := rmcStateTable remote.rmcStatus evt
      let remote := { remote with rmcStatus := next }
      match action with
      | .none => some remote
      | .adv => some (rmcSmActStartAdv env remote)
      | .directAdv =>
          match rmcSmActStartDirectAdv env remote with
          | (remote, none) => some remote
          | (remote, some evt) => rmcSmExecute env calls evt remote
      | .stopAdv => some (rmcSmActStopAdv remote)
      | .disconnectConn => some (rmcSmActDisconnectConn remote)
      | .sendKey => some (sendPendingKeycode remote)
      | .connected => some (rmcSmActConnected remote)

/-- The state machine with the calls that it needs: one event leads to one more at most. -/
def execute (env : Env) (evt : RmcMsg) (remote : Remote) : Remote :=
  (rmcSmExecute env 2 evt remote).getD remote

/-! ## Callbacks and messages -/

def sendMsg (env : Env) (msg : RmcMsg) (remote : Remote) : Remote :=
  if env.sent then { remote with bleStates := remote.bleStates ++ [msg] } else remote

/-- The callback without an error. There is one connection at most. -/
def connected (env : Env) (remote : Remote) : Remote :=
  if remote.pconn then remote
  else sendMsg env .bleConnected { remote with pconn := true, enterPairingMode := false }

/-- The callback, and whether the reason is `BT_HCI_ERR_REMOTE_USER_TERM_CONN`. -/
def disconnected (env : Env) (userTerm : Bool) (remote : Remote) : Remote :=
  if !remote.pconn then remote
  else
    let msg : RmcMsg :=
      if remote.pairCombKeyTimerStart then .bleNonUserDisconnected
      else if remote.rmcTermConnFlag || userTerm then .bleUserDisconnected
      else .bleNonUserDisconnected
    sendMsg env msg
      { remote with pconn := false, rmcTermConnFlag := false, rmcSecurityReadyFlag := false }

def securityChanged (env : Env) (remote : Remote) : Remote :=
  if !remote.pconn then remote
  else if env.paired && !env.hidCccEnabled then execute env .clearPiarKey remote
  else sendMsg env .bleSecConnected { remote with rmcSecurityReadyFlag := true }

/-- The main thread takes the first message for the state machine. -/
def systemBleEventHandle (env : Env) (remote : Remote) : Remote :=
  match remote.bleStates with
  | [] => remote
  | msg :: rest => execute env msg { remote with bleStates := rest, reconnTimes := 0 }

/-- `is_need_deliver_to_app` for ordinary keys, which stop the timers of combinations. -/
def stopCombKeyTimers (remote : Remote) : Remote :=
  { remote with pairCombKeyTimerStart := false, hciModeCombKeyTimerStart := false }

/-- The handling of an ordinary key. -/
def systemInputEventHandle (env : Env) (press : Nat) (key : KeyValue) (remote : Remote) :
    Remote :=
  sendBleKeycode press key (stopCombKeyTimers (execute env .inputKey remote))

/-- A key goes down, which is a new press. -/
def keyDown (env : Env) (code : UInt16) (remote : Remote) : Remote :=
  if ordinary code then
    systemInputEventHandle env (remote.presses + 1) { code := code, down := true }
      { remote with
        presses := remote.presses + 1
        held := remote.held ++ [(code, remote.presses + 1)] }
  else remote

/-- The press of a key that is held. -/
def heldPress (remote : Remote) (code : UInt16) : Option Nat :=
  (remote.held.find? fun key => key.1 = code).map Prod.snd

/-- A key that is held goes up. -/
def keyUp (env : Env) (code : UInt16) (remote : Remote) : Remote :=
  match heldPress remote code with
  | none => remote
  | some press =>
      systemInputEventHandle env press { code := code, down := false }
        { remote with held := remote.held.erase (code, press) }

inductive RcuAction where
  | keyDown (env : Env) (code : UInt16)
  | keyUp (env : Env) (code : UInt16)
  | connected (env : Env)
  | disconnected (env : Env) (userTerm : Bool)
  | securityChanged (env : Env)
  | bleState (env : Env)
deriving DecidableEq

def rcuStep (remote : Remote) : RcuAction → Remote
  | .keyDown env code => keyDown env code remote
  | .keyUp env code => keyUp env code remote
  | .connected env => connected env remote
  | .disconnected env userTerm => disconnected env userTerm remote
  | .securityChanged env => securityChanged env remote
  | .bleState env => systemBleEventHandle env remote

/-- The end of `bt_ready`. -/
def btReady (env : Env) : Remote := execute env .powerUp Remote.init

/-! ## What the TV gets -/

/-- Each press is reported once at most, and it is released before the next report. -/
structure Delivered (remote : Remote) : Prop where
  once : ∀ press,
    remote.reports.countP (fun report => report.press = press ∧ report.button ≠ 0) ≤ 1
  released : remote.reports.IsChain fun first second => first.button = 0 ∨ second.button = 0

/-- A report with the code of the key was sent for the press. -/
def Reported (remote : Remote) (press : Nat) : Prop :=
  ∃ report ∈ remote.reports, report.press = press ∧ report.button ≠ 0

instance (remote : Remote) (press : Nat) : Decidable (Reported remote press) :=
  inferInstanceAs (Decidable (∃ report ∈ remote.reports,
    report.press = press ∧ report.button ≠ 0))

/-- No key that is held was reported. -/
def NoneReported (remote : Remote) : Prop :=
  ∀ key ∈ remote.held, ¬ Reported remote key.2

instance (remote : Remote) : Decidable (NoneReported remote) :=
  inferInstanceAs (Decidable (∀ key ∈ remote.held, ¬ Reported remote key.2))

/-- A code is sent while no key that was reported is held, a key that was reported is
released on a ready link, and the release that is kept is not sent after its press was
reported. -/
def PressKept (remote : Remote) : RcuAction → Prop
  | .keyDown _ code => ordinary code = true → remote.ready = true → NoneReported remote
  | .keyUp _ code => ∀ press ∈ heldPress remote code, Reported remote press →
      remote.ready = true
  | .bleState _ => remote.bleStates.head? = some .bleSecConnected →
      remote.rmcSecurityReadyFlag = true → remote.pendingKey ≠ KeyValue.zero →
      NoneReported remote ∧
        (remote.pendingKey.down = false → ¬ Reported remote remote.pendingPress)
  | _ => True

instance (remote : Remote) (action : RcuAction) : Decidable (PressKept remote action) :=
  match action with
  | .keyDown _ code => inferInstanceAs (Decidable (ordinary code = true →
      remote.ready = true → NoneReported remote))
  | .keyUp _ code => inferInstanceAs (Decidable (∀ press ∈ heldPress remote code,
      Reported remote press → remote.ready = true))
  | .bleState _ => inferInstanceAs (Decidable
      (remote.bleStates.head? = some .bleSecConnected →
        remote.rmcSecurityReadyFlag = true → remote.pendingKey ≠ KeyValue.zero →
        NoneReported remote ∧
          (remote.pendingKey.down = false → ¬ Reported remote remote.pendingPress)))
  | .connected _ => inferInstanceAs (Decidable True)
  | .disconnected _ _ => inferInstanceAs (Decidable True)
  | .securityChanged _ => inferInstanceAs (Decidable True)

end CubieBle.Rcu
