import Mathlib.Data.List.Infix
import CubieBle.BleModule.DataHandler
import CubieBle.Machine.Decimal
import CubieBle.Machine.Run

/-! # The inquiry for devices

A master lists the devices whose advertising data has a name of the right kind. Each
device is shown to the host with a number when its name becomes known, and the host
gives the number back to connect to the device.
-/

namespace CubieBle.BleModule

open Machine

def devTotal : Nat := 5

def rssiNum : Nat := 5

def bleNameMaxLen : Nat := 18

/-- `CONFIG_DEVICE_NAME_PREFIX`, which is `"ZRS"`. -/
def configDeviceNamePrefix : List UInt8 := ascii ['Z', 'R', 'S']

/-- `bt_addr_le_t` -/
structure Addr where
  type : UInt8
  val : Vector UInt8 6
deriving DecidableEq

/-- `struct ble_dev`. The name is an array of zeros after the bytes given here. -/
structure Device where
  addr : Addr
  rssiCurIndex : Nat
  rssi : Vector Int8 5
  rssiCnt : Nat
  name : List UInt8
deriving DecidableEq

/-- What `memset` leaves of a device. -/
def Device.zero : Device where
  addr := { type := 0, val := Vector.replicate 6 0 }
  rssiCurIndex := 0
  rssi := Vector.replicate 5 0
  rssiCnt := 0
  name := []

inductive BleRole where
  | slave
  | master
deriving DecidableEq

inductive BleState where
  | initialized
  | ready
  | pairable
  | paired
  | inquiring
  | advertising
  | connecting
  | connected
  | reconnting
  | unknown
deriving DecidableEq

/-- The part of `ble_param` that the inquiry uses. -/
structure BleParam where
  role : BleRole
  state : BleState
  devList : Vector Device 5
  devCnt : Nat
deriving DecidableEq

def BleParam.dev (param : BleParam) (i : Nat) : Device :=
  param.devList[i]?.getD Device.zero

def BleParam.setDev (param : BleParam) (i : Nat) (device : Device) : BleParam :=
  { param with devList := param.devList.setIfInBounds i device }

/-- An advertising report, with the bytes that lie behind its data in memory. -/
structure Report where
  addr : Addr
  rssi : Int8
  evtype : UInt8
  ad : List UInt8
  beyond : List UInt8
deriving DecidableEq

def strlen (text : List UInt8) : Nat := (text.takeWhile (· ≠ 0)).length

/-- Whether `strstr` finds the text in the string at the start of the memory. -/
def strstr (memory text : List UInt8) : Bool := text <:+: memory.takeWhile (· ≠ 0)

/-- `BT_DATA_NAME_SHORTENED` or `BT_DATA_NAME_COMPLETE` -/
def isNameType (type : UInt8) : Bool := type = 0x08 || type = 0x09

/-- The loop of `ad_parse`, which pulls at least two bytes each time. If it returns true,
the result is what it copied to `name`. -/
def adParseLoop (beyond : List UInt8) (nameLen : Nat) : Nat → List UInt8 → Option (List UInt8)
  | fuel + 1, len :: type :: data =>
      if len = 0 ∨ data.length + 1 < len.toNat then none
      else if isNameType type && strstr (data ++ beyond) configDeviceNamePrefix then
        some (data.take (min (len.toNat - 1) nameLen))
      else adParseLoop beyond nameLen fuel (data.drop (len.toNat - 1))
  | _, _ => none

def adParse (report : Report) (nameLen : Nat) : Option (List UInt8) :=
  adParseLoop report.beyond nameLen report.ad.length report.ad

def getDevIndex (param : BleParam) (addr : Addr) : Option Nat :=
  (List.range param.devCnt).find? fun i => (param.dev i).addr = addr

/-- The entry of a device that is not listed yet, over what its place in the list holds. -/
def newDevice (device : Device) (addr : Addr) (rssi : Int8) (name : List UInt8) : Device where
  addr := addr
  rssiCurIndex := 0
  rssi := device.rssi.setIfInBounds device.rssiCnt rssi
  rssiCnt := device.rssiCnt + 1
  name := if strlen name = 0 then device.name else name

def nextRssiIndex (device : Device) : Nat :=
  if device.rssiCurIndex + 1 = rssiNum then 0 else device.rssiCurIndex + 1

/-- A device takes a name if it does not have one. -/
def takesName (device : Device) (name : List UInt8) : Bool :=
  strlen name ≠ 0 && strlen device.name = 0

def updateDevice (device : Device) (rssi : Int8) (name : List UInt8) : Device where
  addr := device.addr
  rssiCurIndex := nextRssiIndex device
  rssi := device.rssi.setIfInBounds (nextRssiIndex device) rssi
  rssiCnt := if device.rssiCnt < rssiNum then device.rssiCnt + 1 else device.rssiCnt
  name := if takesName device name then name else device.name

/-- The list with a device at its end. -/
def BleParam.append (param : BleParam) (addr : Addr) (rssi : Int8) (name : List UInt8) :
    BleParam :=
  { param.setDev param.devCnt (newDevice (param.dev param.devCnt) addr rssi name) with
    devCnt := param.devCnt + 1 }

/-- The result says whether the device got a name. -/
def addScanDevList (param : BleParam) (addr : Addr) (rssi : Int8) (name : List UInt8) :
    BleParam × Bool :=
  match getDevIndex param addr with
  | none =>
      if param.devCnt < devTotal - 1 then (param.append addr rssi name, strlen name ≠ 0)
      else (param, false)
  | some index =>
      (param.setDev index (updateDevice (param.dev index) rssi name),
        takesName (param.dev index) name)

/-- `+INQ:` and what follows it. -/
structure InqLine where
  number : Nat
  addr : Addr
  name : List UInt8
  rssi : Int8
deriving DecidableEq

/-- The parameters, the lines sent to the host, and how often the list was found full. -/
structure Inquiry where
  param : BleParam
  printed : List InqLine
  full : Nat
deriving DecidableEq

/-- The name with which a report is taken into account. -/
def reportName (report : Report) : Option (List UInt8) :=
  if report.addr.type ≠ 0x00 ∨ (report.evtype ≠ 0x00 ∧ report.evtype ≠ 0x04) then none
  else adParse report (bleNameMaxLen - 1)

def deviceFound (inquiry : Inquiry) (report : Report) : Inquiry :=
  match reportName report with
  | none => inquiry
  | some name =>
      let (param, getName) := addScanDevList inquiry.param report.addr report.rssi name
      { param := param
        printed :=
          if getName then
            inquiry.printed ++
              [{ number := param.devCnt, addr := report.addr, name := name, rssi := report.rssi }]
          else inquiry.printed
        full := if param.devCnt = devTotal then inquiry.full + 1 else inquiry.full }

/-- `AT+INQ`. The state changes if the scan can be started. -/
def atCmdInq (scanStarts : Bool) (param : BleParam) : BleParam :=
  if param.role ≠ .master then param
  else
    { param with
      devList := Vector.replicate 5 Device.zero
      devCnt := 0
      state := if scanStarts then .inquiring else param.state }

def inquiryStart (scanStarts : Bool) (param : BleParam) : Inquiry where
  param := atCmdInq scanStarts param
  printed := []
  full := 0

inductive ConnAnswer where
  | error
  /-- A running scan is stopped, and `at_conn_create` is called. -/
  | create (stopScan : Bool) (addr : Addr)
deriving DecidableEq

/-- The index is a `u8_t`. -/
def connIndex (para : List UInt8) : Nat := ((atoi para - 1) % 256).toNat

/-- `AT+CONN` -/
def atCmdConnSet (param : BleParam) (para : List UInt8) : ConnAnswer :=
  if param.role ≠ .master ∨ param.devCnt = 0 ∨ param.devCnt < connIndex para then .error
  else .create (param.state = .inquiring) (param.dev (connIndex para)).addr

/-! ## What the numbers are for -/

/-- Every number that was shown belongs to the device it was shown for. -/
def Numbered (inquiry : Inquiry) : Prop :=
  ∀ line ∈ inquiry.printed, 1 ≤ line.number ∧ line.number ≤ inquiry.param.devCnt ∧
    (inquiry.param.dev (line.number - 1)).addr = line.addr

def Distinct (inquiry : Inquiry) : Prop :=
  ∀ i < inquiry.param.devCnt, ∀ j < inquiry.param.devCnt,
    (inquiry.param.dev i).addr = (inquiry.param.dev j).addr → i = j

/-- The text is the number of a listed device. -/
def ListedNumber (param : BleParam) (para : List UInt8) (n : Nat) : Prop :=
  1 ≤ n ∧ n ≤ param.devCnt ∧ Numeral para n

/-- The command connects to the device whose number it is given, and to no other one. -/
structure ConnAgrees (param : BleParam) (para : List UInt8) : Prop where
  create : ∀ n, ListedNumber param para n →
    ∃ stopScan, atCmdConnSet param para = .create stopScan (param.dev (n - 1)).addr
  error : (∀ n, ¬ ListedNumber param para n) → atCmdConnSet param para = .error

/-- The inquiry and the command mean the same devices. -/
structure InquiryAgrees (start : Inquiry) (reports : List Report) (para : List UInt8) :
    Prop where
  numbered : Throughout deviceFound Numbered start reports
  distinct : Throughout deviceFound Distinct start reports
  conn : ConnAgrees (run deviceFound start reports).param para

/-- A device that was listed without a name is the last one when it gets its name. -/
def NamedLast (inquiry : Inquiry) (report : Report) : Prop :=
  ∀ name ∈ reportName report, ∀ index ∈ getDevIndex inquiry.param report.addr,
    takesName (inquiry.param.dev index) name = true → index + 1 = inquiry.param.devCnt

instance (inquiry : Inquiry) (report : Report) : Decidable (NamedLast inquiry report) :=
  inferInstanceAs (Decidable (∀ name ∈ reportName report,
    ∀ index ∈ getDevIndex inquiry.param report.addr,
      takesName (inquiry.param.dev index) name = true → index + 1 = inquiry.param.devCnt))

/-- A text that is not the number of a listed device is not taken for one, nor for the
number after the last one. -/
def NumberClear (param : BleParam) (para : List UInt8) : Prop :=
  param.devCnt = 0 ∨ param.devCnt < connIndex para ∨ ∃ n, ListedNumber param para n

end CubieBle.BleModule
