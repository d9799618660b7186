import CubieBle.Machine.Decimal
import CubieBle.Storage.Nvram

/-! # Settings of the peripheral module

The commands that set the configuration of the module, which change it in memory and
store it, and the function that loads what is stored when the module starts.
-/

namespace CubieBle.ModulePer

open Machine Storage

/-- The six UUIDs that can be set. -/
inductive Uuid where
  | dataSrv
  | tx
  | rx
  | drvSrv
  | adc
  | pwm
deriving DecidableEq

/-- The configuration in memory. Of the options of `app_adv_cfg`, only the one that can be
changed is kept. -/
structure Config where
  advState : UInt8
  advIntervalMin : UInt16
  advIntervalMax : UInt16
  connectable : Bool
  advNameData : Vector UInt8 21
  scanDataLen : UInt8
  baudIndex : UInt8
  connIntervalMin : UInt16
  connIntervalMax : UInt16
  advUserData : Vector UInt8 6
  uuid : Uuid → Vector UInt8 16
  rssiMode : UInt8
  rtsFuncEnable : UInt8

def bleAdvNameDataMax : Nat := 20

def bleAdvUserDataLen : Nat := 6

/-- The initialisers of the UUIDs. Those of `rx_char_uuid` and `tx_char_uuid` name each
other's constants. -/
def uuidDefault : Uuid → Vector UInt8 16
  | .dataSrv => #v[0x99, 0xca, 0xdc, 0x24, 0x0e, 0xe5, 0xa9, 0xe0, 0x93, 0xf3, 0xa3, 0xb5,
      0x01, 0x00, 0x40, 0x69]
  | .tx => #v[0x99, 0xca, 0xdc, 0x24, 0x0e, 0xe5, 0xa9, 0xe0, 0x93, 0xf3, 0xa3, 0xb5,
      0x03, 0x00, 0x40, 0x69]
  | .rx => #v[0x99, 0xca, 0xdc, 0x24, 0x0e, 0xe5, 0xa9, 0xe0, 0x93, 0xf3, 0xa3, 0xb5,
      0x02, 0x00, 0x40, 0x69]
  | .drvSrv => #v[0x9e, 0xca, 0xdc, 0x24, 0x0e, 0xe5, 0xa9, 0xe0, 0x93, 0xf3, 0xa3, 0xb5,
      0x04, 0x00, 0x51, 0x7f]
  | .adc => #v[0x9e, 0xca, 0xdc, 0x24, 0x0e, 0xe5, 0xa9, 0xe0, 0x93, 0xf3, 0xa3, 0xb5,
      0x05, 0x00, 0x51, 0x7f]
  | .pwm => #v[0x9e, 0xca, 0xdc, 0x24, 0x0e, 0xe5, 0xa9, 0xe0, 0x93, 0xf3, 0xa3, 0xb5,
      0x06, 0x00, 0x51, 0x7f]

/-- The memory image with which the module starts. -/
def Config.default : Config where
  advState := 1
  advIntervalMin := 0x0140
  advIntervalMax := 0x0140
  connectable := true
  advNameData := #v[0x43, 0x4d, 0x42, 0x4c, 0x45, 0x2d, 0x31, 0x31, 0x30, 0x33,
    0, 0, 0, 0, 0, 0, 0, 0, 0, 0, 0]
  scanDataLen := 10
  baudIndex := 0
  connIntervalMin := 0x10
  connIntervalMax := 0x10
  advUserData := #v[0x11, 0x22, 0x33, 0x44, 0x55, 0x66]
  uuid := uuidDefault
  rssiMode := 0
  rtsFuncEnable := 1

/-! ## Texts -/

def isHexDigit (byte : UInt8) : Bool :=
  isDigit byte || (0x61 ≤ byte && byte ≤ 0x66) || (0x41 ≤ byte && byte ≤ 0x46)

def isHexString (str : List UInt8) : Bool := str ≠ [] && str.all isHexDigit

/-- The digit, or an error that leaves the destination as it was. -/
def char2hex (char : UInt8) : Option UInt8 :=
  if isDigit char then some (char - 0x30)
  else if 0x61 ≤ char && char ≤ 0x66 then some (char - 0x61 + 10)
  else if 0x41 ≤ char && char ≤ 0x46 then some (char - 0x41 + 10)
  else none

/-- `strtoul` with base 16 on a text of digits. -/
def strtoul (str : List UInt8) : Nat :=
  min (2 ^ 32 - 1) ((str.filterMap char2hex).foldl (fun value digit => 16 * value + digit.toNat) 0)

/-! ## Commands -/

inductive Answer where
  | error
  /-- A text, the parameter if it is repeated, and the end of the line. -/
  | ok (text : String) (para : List UInt8)
  /-- `OK+RSSI-` with a number. -/
  | rssi (value : Int8)
deriving DecidableEq

/-- The configuration, the store, what was answered, and how many `MSG_EXIT_RSSI_MODE`
wait in the queue. -/
structure App where
  config : Config
  nvram : Nvram
  answers : List Answer
  exitRssiMsgs : Nat

def App.answer (app : App) (answer : Answer) : App :=
  { app with answers := app.answers ++ [answer] }

/-- The start of the advertising after a change: a state other than `ADV_STOP` can change
whether it is connectable. -/
def bleExecAdvOp (advState : UInt8) (config : Config) : Config :=
  if advState = 1 then { config with connectable := true }
  else if advState = 2 then { config with connectable := false }
  else config

def wordBytes (word : UInt16) : List UInt8 := [word.toUInt8, (word >>> 8).toUInt8]

/-- `AT+ADST` -/
def atCmdAdvSet (para : List UInt8) (app : App) : App :=
  let state := lowByte para
  if !isDecimalString para || 2 < state then app.answer .error
  else
    { app with
      config := { bleExecAdvOp state app.config with advState := state }
      nvram := nvramConfigSet "ADV_STATE" [state] app.nvram }.answer (.ok "OK+ADST-" para)

def advIntervalArray : List Nat := [20, 50, 100, 200, 300, 500, 1000, 2000]

def connIntervalArray : List Nat := [20, 30, 50, 100, 200, 300, 500, 1000, 2000]

/-- `AT+ADIT` -/
def atCmdAdvIntervalSet (para : List UInt8) (app : App) : App :=
  let index := lowByte para
  if !isDecimalString para || 7 < index then app.answer .error
  else
    let interval := UInt16.ofNat (advIntervalArray.getD index.toNat 0 * 1000 / 625)
    { app with
      config := bleExecAdvOp app.config.advState
        { app.config with advIntervalMin := interval, advIntervalMax := interval }
      nvram := nvramConfigSet "ADV_INTERVAL" (wordBytes interval) app.nvram }.answer
        (.ok "OK+ADIT-" para)

/-- The array of the name after its first bytes and its last one are written. -/
def writeName (data : Vector UInt8 21) (text : Nat → UInt8) (len : UInt8) : Vector UInt8 21 :=
  Vector.ofFn fun i =>
    if i.val = bleAdvNameDataMax then len
    else if i.val < len.toNat then text i.val
    else data.get i

/-- `AT+NAME` -/
def atCmdAdvNameSet (para : List UInt8) (app : App) : App :=
  let cpLen := UInt8.ofNat (min para.length bleAdvNameDataMax)
  let advNameData := writeName app.config.advNameData (fun i => para.getD i 0) cpLen
  { app with
    config := bleExecAdvOp app.config.advState
      { app.config with advNameData := advNameData, scanDataLen := cpLen }
    nvram := nvramConfigSet "ADV_NAME" advNameData.toList app.nvram }.answer (.ok "OK+NAME" [])

/-- `AT+BAUD` -/
def atCmdAdvBaudrateSet (para : List UInt8) (app : App) : App :=
  let index := lowByte para
  if !isDecimalString para || 4 < index then app.answer .error
  else
    { app with
      config := { app.config with baudIndex := index }
      nvram := nvramConfigSet "UART_BAUDRATE" [index] app.nvram }.answer (.ok "OK+BAUD-" para)

/-- `AT+CNIT` -/
def atCmdConnIntervalSet (para : List UInt8) (app : App) : App :=
  let index := lowByte para
  if !isDecimalString para || 8 < index then app.answer .error
  else
    let interval := UInt16.ofNat (connIntervalArray.getD index.toNat 0 * 100 / 125)
    { app with
      config := { app.config with connIntervalMin := interval, connIntervalMax := interval }
      nvram := nvramConfigSet "CONN_INTERVAL" (wordBytes interval) app.nvram }.answer
        (.ok "OK+CNIT-" para)

/-- The loop of `at_cmd_adv_data_set` from a position on. A character that is not a digit
leaves a local variable that was not set. -/
def userDataLoop (uninit : Nat → UInt8) : Nat → List UInt8 → List UInt8
  | i, high :: low :: rest =>
      ((char2hex high).getD (uninit i) <<< 4 + (char2hex low).getD (uninit (i + 1))) ::
        userDataLoop uninit (i + 2) rest
  | _, _ => []

/-- `AT+MAFD` -/
def atCmdAdvDataSet (uninit : Nat → UInt8) (para : List UInt8) (app : App) : App :=
  let bytes := userDataLoop uninit 0 (para.take (2 * bleAdvUserDataLen))
  let advUserData := Vector.ofFn fun i : Fin 6 => bytes.getD i.val 0
  { app with
    config := bleExecAdvOp app.config.advState { app.config with advUserData := advUserData }
    nvram := nvramConfigSet "ADV_USER_DATA" advUserData.toList app.nvram }.answer
      (.ok "OK+MAFD" [])

/-- The two bytes that can be set. -/
def writeUuid (uuid : Vector UInt8 16) (val : UInt16) : Vector UInt8 16 :=
  (uuid.set 13 (val >>> 8).toUInt8).set 12 val.toUInt8

def Config.setUuid (config : Config) (which : Uuid) (val : UInt16) : Config :=
  { config with uuid := Function.update config.uuid which (writeUuid (config.uuid which) val) }

def uuidVal (para : List UInt8) : UInt16 := UInt16.ofNat (strtoul para)

/-- The commands that set a UUID. -/
def uuidSet (which : Uuid) (key text : String) (para : List UInt8) (app : App) : App :=
  if !isHexString para then app.answer .error
  else
    { app with
      config := app.config.setUuid which (uuidVal para)
      nvram := nvramConfigSet key (wordBytes (uuidVal para)) app.nvram }.answer (.ok text [])

/-- `AT+SERN` -/
def atCmdDataSrvUuidSet : List UInt8 → App → App := uuidSet .dataSrv "DATA_SRV_UUID" "OK+SERN"

/-- `AT+SERD` -/
def atCmdDrvSrvUuidSet : List UInt8 → App → App := uuidSet .drvSrv "DRV_SRV_UUID" "OK+SERD"

/-- `AT+CHAT` -/
def atCmdDataTxCharUuidSet : List UInt8 → App → App := uuidSet .tx "TX_UUID" "OK+CHAT"

/-- `AT+CHAR` -/
def atCmdDataRxCharUuidSet : List UInt8 → App → App := uuidSet .rx "RX_UUID" "OK+CHAR"

/-- `AT+CHAD`, which also sets the UUID of the service in memory. -/
def atCmdDrvAdcCharUuidSet (para : List UInt8) (app : App) : App :=
  if !isHexString para then app.answer .error
  else
    { app with
      config := (app.config.setUuid .adc (uuidVal para)).setUuid .drvSrv (uuidVal para)
      nvram := nvramConfigSet "ADC_UUID" (wordBytes (uuidVal para)) app.nvram }.answer
        (.ok "OK+CHAD" [])

/-- `AT+CHAP` -/
def atCmdDrvPwmCharUuidSet : List UInt8 → App → App := uuidSet .pwm "PWM_UUID" "OK+CHAP"

/-- `AT+RSSI`. The value read from the controller is zero without a connection. The message
is dropped if there is no buffer for it. -/
def atCmdRssiSet (rssi : Int8) (sent : Bool) (para : List UInt8) (app : App) : App :=
  let param := lowByte para
  if !isDecimalString para || 2 < param then app.answer .error
  else if param = 0 then
    { app with
      config := { app.config with rssiMode := 0 }
      nvram := nvramConfigSet "RSSI_MODE" [0] app.nvram
      exitRssiMsgs := if sent then app.exitRssiMsgs + 1 else app.exitRssiMsgs }.answer (.rssi 0)
  else if param = 1 then
    { app with
      config := { app.config with rssiMode := 1 }
      nvram := nvramConfigSet "RSSI_MODE" [1] app.nvram }.answer (.rssi 1)
  else app.answer (.rssi rssi)

/-- `AT+CRTS` -/
def atCmdRtsFuncSet (para : List UInt8) (app : App) : App :=
  let enable : UInt8 := if lowByte para = 0 then 0 else 1
  if !isDecimalString para then app.answer .error
  else
    { app with
      config := { app.config with rtsFuncEnable := enable }
      nvram := nvramConfigSet "RTS" [enable] app.nvram }.answer (.ok "OK+CRTS-" para)

inductive SetCommand where
  | adst
  | adit
  | name
  | baud
  | cnit
  | mafd
  | sern
  | serd
  | chat
  | char
  | chad
  | chap
  | rssi
  | crts
deriving DecidableEq

/-- A command with its parameter, what its local variables hold before they are set, the
signal strength that the controller reports, and whether a message can be sent. -/
structure SetCall where
  command : SetCommand
  para : List UInt8
  uninit : Nat → UInt8
  rssi : Int8
  sent : Bool

/-- The callbacks of the commands. -/
def setCmd (app : App) (call : SetCall) : App :=
  match call.command with
  | .adst => atCmdAdvSet call.para app
  | .adit => atCmdAdvIntervalSet call.para app
  | .name => atCmdAdvNameSet call.para app
  | .baud => atCmdAdvBaudrateSet call.para app
  | .cnit => atCmdConnIntervalSet call.para app
  | .mafd => atCmdAdvDataSet call.uninit call.para app
  | .sern => atCmdDataSrvUuidSet call.para app
  | .serd => atCmdDrvSrvUuidSet call.para app
  | .chat => atCmdDataTxCharUuidSet call.para app
  | .char => atCmdDataRxCharUuidSet call.para app
  | .chad => atCmdDrvAdcCharUuidSet call.para app
  | .chap => atCmdDrvPwmCharUuidSet call.para app
  | .rssi => atCmdRssiSet call.rssi call.sent call.para app
  | .crts => atCmdRtsFuncSet call.para app

/-! ## Loading -/

/-- A byte of a buffer into which stored data was read. Behind the data it is what the
buffer held. -/
def bufByte (stack : Nat → UInt8) (data : List UInt8) (i : Nat) : UInt8 := data.getD i (stack i)

def bufWord (stack : Nat → UInt8) (data : List UInt8) : UInt16 :=
  (bufByte stack data 0).toUInt16 + ((bufByte stack data 1).toUInt16 <<< 8)

def loadU8 (stack : Nat → UInt8) (key : String) (nvram : Nvram) (old : UInt8) : UInt8 :=
  match nvramConfigGet key 1 nvram with
  | none => old
  | some data => bufByte stack data 0

def loadU16 (stack : Nat → UInt8) (key : String) (nvram : Nvram) (old : UInt16) : UInt16 :=
  match nvramConfigGet key 2 nvram with
  | none => old
  | some data => bufWord stack data

/-- The array of the name and its length. -/
def loadName (stack : Nat → UInt8) (nvram : Nvram) (old : Vector UInt8 21 × UInt8) :
    Vector UInt8 21 × UInt8 :=
  match nvramConfigGet "ADV_NAME" 21 nvram with
  | none => old
  | some data =>
      let stored := bufByte stack data bleAdvNameDataMax
      let len := if 20 < stored then 20 else stored
      (writeName old.1 (bufByte stack data) len, len)

def loadUserData (stack : Nat → UInt8) (nvram : Nvram) (old : Vector UInt8 6) :
    Vector UInt8 6 :=
  match nvramConfigGet "ADV_USER_DATA" 6 nvram with
  | none => old
  | some data => Vector.ofFn fun i => bufByte stack data i.val

def Uuid.key : Uuid → String
  | .dataSrv => "DATA_SRV_UUID"
  | .tx => "TX_UUID"
  | .rx => "RX_UUID"
  | .drvSrv => "DRV_SRV_UUID"
  | .adc => "ADC_UUID"
  | .pwm => "PWM_UUID"

def loadUuidCfgFromNv (stack : Nat → UInt8) (key : String) (nvram : Nvram)
    (old : Vector UInt8 16) : Vector UInt8 16 :=
  match nvramConfigGet key 2 nvram with
  | none => old
  | some data => writeUuid old (bufWord stack data)

def loadAppCfgFromNv (stack : Nat → UInt8) (nvram : Nvram) (config : Config) : Config where
  advState := loadU8 stack "ADV_STATE" nvram config.advState
  advIntervalMin := loadU16 stack "ADV_INTERVAL" nvram config.advIntervalMin
  advIntervalMax := loadU16 stack "ADV_INTERVAL" nvram config.advIntervalMax
  connectable := config.connectable
  advNameData := (loadName stack nvram (config.advNameData, config.scanDataLen)).1
  scanDataLen := (loadName stack nvram (config.advNameData, config.scanDataLen)).2
  baudIndex := loadU8 stack "UART_BAUDRATE" nvram config.baudIndex
  connIntervalMin := loadU16 stack "CONN_INTERVAL" nvram config.connIntervalMin
  connIntervalMax := loadU16 stack "CONN_INTERVAL" nvram config.connIntervalMax
  advUserData := loadUserData stack nvram config.advUserData
  uuid := fun which => loadUuidCfgFromNv stack which.key nvram (config.uuid which)
  rssiMode := loadU8 stack "RSSI_MODE" nvram config.rssiMode
  rtsFuncEnable := loadU8 stack "RTS" nvram config.rtsFuncEnable

def setAppCfgToDefault (nvram : Nvram) : Nvram :=
  let nvram := nvramConfigSet "ADV_STATE" [1] nvram
  let nvram := nvramConfigSet "ADV_INTERVAL" (wordBytes 0x0140) nvram
  let nvram := nvramConfigSet "ADV_NAME"
    (Config.default.advNameData.set 20 Config.default.scanDataLen).toList nvram
  let nvram := nvramConfigSet "UART_BAUDRATE" [0] nvram
  let nvram := nvramConfigSet "CONN_INTERVAL" (wordBytes 0x10) nvram
  let nvram := nvramConfigSet "TX_POWER" [1] nvram
  let nvram := nvramConfigSet "ADV_USER_DATA" Config.default.advUserData.toList nvram
  let nvram := nvramConfigSet "DATA_SRV_UUID" (wordBytes 0x0001) nvram
  let nvram := nvramConfigSet "TX_UUID" (wordBytes 0x0002) nvram
  let nvram := nvramConfigSet "RX_UUID" (wordBytes 0x0003) nvram
  let nvram := nvramConfigSet "DRV_SRV_UUID" (wordBytes 0x0004) nvram
  let nvram := nvramConfigSet "ADC_UUID" (wordBytes 0x0005) nvram
  let nvram := nvramConfigSet "PWM_UUID" (wordBytes 0x0006) nvram
  let nvram := nvramConfigSet "RSSI_MODE" [0] nvram
  nvramConfigSet "RTS" [1] nvram

/-- The store of a new module, or of one that was reset. -/
def defaultNvram (reset : Bool) : Nvram :=
  if reset then setAppCfgToDefault Nvram.empty else Nvram.empty

def App.start (nvram : Nvram) : App where
  config := loadAppCfgFromNv (fun _ => 0) nvram Config.default
  nvram := nvram
  answers := []
  exitRssiMsgs := 0

/-! ## What is set -/

inductive Setting where
  | advState
  | advInterval
  | name
  | baud
  | connInterval
  | userData
  | uuid (which : Uuid)
  | rssiMode
  | rts
deriving DecidableEq

def Setting.key : Setting → String
  | .advState => "ADV_STATE"
  | .advInterval => "ADV_INTERVAL"
  | .name => "ADV_NAME"
  | .baud => "UART_BAUDRATE"
  | .connInterval => "CONN_INTERVAL"
  | .userData => "ADV_USER_DATA"
  | .uuid which => which.key
  | .rssiMode => "RSSI_MODE"
  | .rts => "RTS"

/-- The numbers that make up a setting. The name ends where its length says. -/
def Config.value (config : Config) : Setting → List Nat
  | .advState => [config.advState.toNat]
  | .advInterval => [config.advIntervalMin.toNat, config.advIntervalMax.toNat]
  | .name => config.scanDataLen.toNat ::
      (config.advNameData.toList.take config.scanDataLen.toNat).map UInt8.toNat
  | .baud => [config.baudIndex.toNat]
  | .connInterval => [config.connIntervalMin.toNat, config.connIntervalMax.toNat]
  | .userData => config.advUserData.toList.map UInt8.toNat
  | .uuid which => (config.uuid which).toList.map UInt8.toNat
  | .rssiMode => [config.rssiMode.toNat]
  | .rts => [config.rtsFuncEnable.toNat]

/-- The setting that a command names. -/
def SetCommand.setting : SetCommand → Setting
  | .adst => .advState
  | .adit => .advInterval
  | .name => .name
  | .baud => .baud
  | .cnit => .connInterval
  | .mafd => .userData
  | .sern => .uuid .dataSrv
  | .serd => .uuid .drvSrv
  | .chat => .uuid .tx
  | .char => .uuid .rx
  | .chad => .uuid .adc
  | .chap => .uuid .pwm
  | .rssi => .rssiMode
  | .crts => .rts

/-- Loading what is stored into the default image gives the settings in memory. -/
def Survives (app : App) : Prop :=
  ∀ stack setting,
    (loadAppCfgFromNv stack app.nvram Config.default).value setting = app.config.value setting

/-- A command leaves the settings alone that it does not name. -/
def OnlyNamed (app : App) (call : SetCall) : Prop :=
  ∀ setting ≠ call.command.setting,
    (setCmd app call).config.value setting = app.config.value setting ∧
      (setCmd app call).nvram setting.key = app.nvram setting.key

def uuid16 (uuid : Vector UInt8 16) : UInt16 :=
  uuid[12].toUInt16 + (uuid[13].toUInt16 <<< 8)

/-- The UUID that `AT+CHAD` sets is the one that the service has already. -/
def AdcUuidShared (app : App) (call : SetCall) : Prop :=
  call.command = .chad → isHexString call.para = true →
    uuidVal call.para = uuid16 (app.config.uuid .drvSrv)

end CubieBle.ModulePer
