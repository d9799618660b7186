import Mathlib.Data.List.Infix
import CubieBle.Machine.CString
import CubieBle.Machine.Run

/-! # Commands in the data of the module

In data mode the module passes on what it receives on the UART. While it does so as a
master, it looks for the command that starts an update at the start of each chunk, and
for the command that ends the connection, which may be spread over several chunks.
-/

namespace CubieBle.BleModule

open Machine

/-- `"AT+DISCONNECT\r\n"` -/
def atDisconnCmd : List UInt8 :=
  ascii ['A', 'T', '+', 'D', 'I', 'S', 'C', 'O', 'N', 'N', 'E', 'C', 'T', '\r', '\n']

/-- `"AT+DISCON"` is enough if it is not completed. -/
def atDiscon : List UInt8 := atDisconnCmd.take 9

/-- `"AT+OTA\r\n"` -/
def atOtaCmd : List UInt8 := ascii ['A', 'T', '+', 'O', 'T', 'A', '\r', '\n']

def actDataMtu : Nat := 20

/-- A chunk with what the stack holds when it is handled: the first value of `match_len`,
which the code does not set, and the bytes behind the text of the command. -/
structure Chunk where
  data : List UInt8
  matchLen : UInt8
  stack : Nat → UInt8

/-- The loop of `at_disconn_match` from some byte on: the counter afterwards, whether
`MSG_DISCONNECT` is sent, and the length to skip. The index runs with the counter. -/
def atDisconnLoop (len : Nat) : List UInt8 → Nat → Nat × Bool × Nat
  | [], matchCnt => (matchCnt, false, len % 256)
  | byte :: rest, matchCnt =>
      if byte = atDisconnCmd.getD matchCnt 0 then
        if matchCnt + 1 = atDisconnCmd.length then (0, true, len % 256)
        else atDisconnLoop len rest (matchCnt + 1)
      else if atDiscon.length ≤ matchCnt then (0, true, len % 256)
      else (0, false, 0)

def atDisconnMatch (data : List UInt8) (matchCnt : Nat) : Nat × Bool × Nat :=
  atDisconnLoop data.length data matchCnt

/-- The loop of `at_ota_match` from index `i` on: whether the update is started, and the
length to skip. The text of the command is followed by a zero. -/
def atOtaLoop (stack : Nat → UInt8) (len : Nat) : Nat → List UInt8 → UInt8 → Bool × Nat
  | _, [], _ => (false, 0)
  | i, byte :: rest, matchLen =>
      if byte = (atOtaCmd ++ [0]).getD i (stack i) then
        if (matchLen + 1).toNat = atOtaCmd.length then (true, len % 256)
        else atOtaLoop stack len (i + 1) rest (matchLen + 1)
      else (false, 0)

def atOtaMatch (chunk : Chunk) : Bool × Nat :=
  if chunk.data.length < 7 then (false, 0)
  else atOtaLoop chunk.stack chunk.data.length 0 chunk.data chunk.matchLen

/-- The counter of `at_disconn_match`, the bytes passed to `ble_send_data`, and how often
the commands were found. -/
structure DataMode where
  atDisconnMatchCnt : Nat
  sent : List UInt8
  disconnects : Nat
  updates : Nat
deriving DecidableEq

def DataMode.init : DataMode where
  atDisconnMatchCnt := 0
  sent := []
  disconnects := 0
  updates := 0

/-- The end of an iteration of `data_handler`. -/
def bleSendFrom (dataStart : Nat) (data : List UInt8) (mode : DataMode) : DataMode :=
  if dataStart < data.length then { mode with sent := mode.sent ++ data.drop dataStart } else mode

/-- One iteration of `data_handler` with a connection and the role of a master. -/
def masterDataHandler (mode : DataMode) (chunk : Chunk) : DataMode :=
  let (update, dataStart) := atOtaMatch chunk
  let mode := if update then { mode with updates := mode.updates + 1 } else mode
  if dataStart = 0 then
    let (matchCnt, disconnect, dataStart) := atDisconnMatch chunk.data mode.atDisconnMatchCnt
    let mode := { mode with
      atDisconnMatchCnt := matchCnt
      disconnects := if disconnect then mode.disconnects + 1 else mode.disconnects }
    bleSendFrom dataStart chunk.data mode
  else bleSendFrom dataStart chunk.data mode

/-- The bytes sent for some chunks. -/
def sentBytes (chunks : List Chunk) : List UInt8 :=
  (run masterDataHandler .init chunks).sent

def received (chunks : List Chunk) : List UInt8 := (chunks.map Chunk.data).flatten

/-! ## Commands in a stream -/

/-- No chunk boundary is followed by a command. -/
def NoCommand (chunks : List Chunk) : Prop :=
  ∀ later ∈ chunks.tails, ¬ atDiscon <+: received later ∧ ¬ atOtaCmd <+: received later

/-- What follows some chunk boundary is a part of a command. -/
def EndsInCommand (chunks : List Chunk) : Prop :=
  ∃ later ∈ chunks.tails, received later ≠ [] ∧
    (received later <+: atDisconnCmd ∨ received later <+: atOtaCmd)

/-- The unset `match_len` does not complete a part of the command to update. -/
def OtaSafe (chunk : Chunk) : Prop :=
  7 ≤ chunk.data.length →
    ∀ k ≤ 7, 0 < k → chunk.matchLen.toNat + k = 8 → ¬ atOtaCmd.take k <+: chunk.data

instance decidableNoCommand (chunks : List Chunk) : Decidable (NoCommand chunks) :=
  inferInstanceAs (Decidable (∀ later ∈ chunks.tails, _))

instance decidableEndsInCommand (chunks : List Chunk) : Decidable (EndsInCommand chunks) :=
  inferInstanceAs (Decidable (∃ later ∈ chunks.tails, _))

instance decidableOtaSafe (chunk : Chunk) : Decidable (OtaSafe chunk) :=
  inferInstanceAs (Decidable (_ → ∀ k ≤ 7, 0 < k → _ → _))

end CubieBle.BleModule
