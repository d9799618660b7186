import CubieBle.BleModule.DataHandler
import CubieBle.BleModule.Inquiry
import CubieBle.Machine.CString

/-! # A new name in the data of the module

In data mode a slave looks for the command that gives it a new name at the start of each
chunk. The name goes up to the end of the line, which may be in a later chunk. What is not
a part of the command is passed on.
-/

namespace CubieBle.BleModule

open Machine

/-- `"AT+NAME="`, in one of the builds without the equal sign -/
def atNameCmd (noEqualSign : Bool) : List UInt8 :=
  if noEqualSign then ascii ['A', 'T', '+', 'N', 'A', 'M', 'E']
  else ascii ['A', 'T', '+', 'N', 'A', 'M', 'E', '=']

def carriageReturn : UInt8 := 0x0d

def lineFeed : UInt8 := 0x0a

/-- The 31 bytes of `ad_name`. The last one is always zero. -/
structure AdName where
  bytes : List UInt8
  ended : bytes.drop 30 = [0]

def AdName.zero : AdName where
  bytes := List.replicate 31 0
  ended := rfl

def AdName.text (name : AdName) : List UInt8 := cstr name.bytes 0

theorem AdName.length_bytes (name : AdName) : name.bytes.length = 31 := by
  have hlength := congrArg List.length name.ended
  rw [List.length_drop, List.length_singleton] at hlength
  omega

/-- `memcpy` behind the text that is there, which keeps the last byte. -/
def AdName.append (name : AdName) (data : List UInt8) : AdName where
  bytes := (name.bytes.take name.text.length ++ data ++
    name.bytes.drop (name.text.length + data.length)).take 30 ++ [0]
  ended := by
    have hlength := name.length_bytes
    have htake : ∀ bytes : List UInt8, 30 ≤ bytes.length → (bytes.take 30).length = 30 :=
      fun bytes hle => by rw [List.length_take, Nat.min_eq_left hle]
    rw [List.drop_left' (htake _ _)]
    simp only [List.length_append, List.length_take, List.length_drop]
    omega

/-- The name that is being received, `ble_param.adv_name`, the values of `BT_NAME` that
were written to the nvram, and the bytes passed to `ble_send_data`. -/
structure SlaveMode where
  adName : AdName
  atNameGetting : Bool
  atNameGetR : Bool
  advName : List UInt8
  btName : List (List UInt8)
  sent : List UInt8

def SlaveMode.init : SlaveMode where
  adName := .zero
  atNameGetting := false
  atNameGetR := false
  advName := List.replicate bleNameMaxLen 0
  btName := []
  sent := []

def atNameMatch : List UInt8 → List UInt8 → Bool
  | byte :: data, char :: cmd => if byte = char then cmd.isEmpty || atNameMatch data cmd else false
  | _, _ => false

def atNameSet (mode : SlaveMode) : SlaveMode :=
  let name := mode.adName.text
  let cpLen := if bleNameMaxLen - 1 < name.length then bleNameMaxLen - 1 else name.length
  { mode with
    advName := name.take cpLen ++ List.replicate (bleNameMaxLen - cpLen) 0
    btName := mode.btName ++ [name.take cpLen] }

/-- What the loop of `at_name_get` looks for. -/
def endsName (atNameGetR : Bool) (byte : UInt8) : Bool :=
  if atNameGetR then byte = lineFeed else byte = carriageReturn || byte = lineFeed

/-- The bytes of the chunk that belong to the command are counted. -/
def atNameGet (mode : SlaveMode) (data : List UInt8) : SlaveMode × Nat :=
  let cpLen := 31 - mode.adName.text.length - 1
  let i := data.findIdx (endsName mode.atNameGetR)
  let cpLen := if i < cpLen then i else cpLen
  if i = data.length then
    if mode.atNameGetR then (atNameSet { mode with atNameGetting := false }, 0)
    else
      let mode := { mode with adName := mode.adName.append (data.take cpLen) }
      if cpLen = 0 then (atNameSet { mode with atNameGetting := false }, i) else (mode, i)
  else
    let mode := { mode with adName := mode.adName.append (data.take cpLen) }
    if data.getD i 0 = carriageReturn then
      let mode := { mode with atNameGetR := true }
      if i + 1 < data.length then
        let i := if data.getD (i + 1) 0 = lineFeed then i + 1 else i
        (atNameSet { mode with atNameGetting := false }, i + 1)
      else (mode, i + 1)
    else (atNameSet { mode with atNameGetting := false }, i + 1)

/-- What `data_handler` does when the prefix is found. -/
def SlaveMode.started (mode : SlaveMode) : SlaveMode :=
  { mode with adName := .zero, atNameGetting := true, atNameGetR := false }

/-- The part of a chunk from `data_start` on is passed on. -/
def slaveSendFrom (dataStart : Nat) (data : List UInt8) (mode : SlaveMode) : SlaveMode :=
  if dataStart % 256 < data.length then
    { mode with sent := mode.sent ++ data.drop (dataStart % 256) }
  else mode

/-- One iteration of `data_handler` with a connection and the role of a slave. -/
def slaveDataHandler (noEqualSign : Bool) (mode : SlaveMode) (data : List UInt8) : SlaveMode :=
  let cmd := atNameCmd noEqualSign
  if mode.atNameGetting then
    let (mode, dataStart) := atNameGet mode data
    slaveSendFrom dataStart data mode
  else if cmd.length ≤ data.length ∧ atNameMatch data cmd then
    let (mode, got) := atNameGet mode.started (data.drop cmd.length)
    slaveSendFrom (got + cmd.length) data mode
  else slaveSendFrom 0 data mode

end CubieBle.BleModule
