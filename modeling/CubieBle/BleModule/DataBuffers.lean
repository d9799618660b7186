import Mathlib.Logic.Function.Basic
import CubieBle.BleModule.DataHandler
import CubieBle.Machine.Pool

/-! # The buffers of data mode

The interrupt of the UART fills a buffer and queues it when it is full, or when a timer
finds it partly filled after 20 ms. The thread of the handler takes the queued buffers
and gives each one back.
-/

namespace CubieBle.BleModule

open Machine

def dataQueued : Nat := 60

/-- The elements of `data_buf`. -/
abbrev DataBuf := Fin dataQueued

/-- The buffers with their queues, the receiver, its timer, and the thread. -/
structure DataRx where
  data : DataBuf → Vector UInt8 actDataMtu
  dataLen : DataBuf → Nat
  availQueue : List DataBuf
  datasQueue : List DataBuf
  recvBuf : DataBuf
  recvOff : Nat
  sendPartialTimerStarted : Bool
  rxAbort : Bool
  /-- `send_partial_timer` runs. -/
  timerArmed : Bool
  /-- The buffer that the handler took and did not give back yet. -/
  held : Option DataBuf

/-- `act_data_init`: the first of the buffers is the one to receive into. -/
def actDataInit : DataRx where
  data _ := Vector.replicate actDataMtu 0
  dataLen _ := 0
  availQueue := (List.finRange dataQueued).tail
  datasQueue := []
  recvBuf := ⟨0, by decide⟩
  recvOff := 0
  sendPartialTimerStarted := false
  rxAbort := false
  timerArmed := false
  held := none

/-- Write bytes into a buffer from an offset on. -/
def writeAt (buf : Vector UInt8 actDataMtu) (off : Nat) (bytes : List UInt8) :
    Vector UInt8 actDataMtu :=
  Vector.ofFn fun i => if off ≤ i then bytes.getD (i - off) (buf.get i) else buf.get i

/-- Queue the buffer received into, and receive into the next one; without a next one
what it holds is dropped. -/
def flush (rx : DataRx) : DataRx :=
  match rx.availQueue with
  | [] => { rx with recvOff := 0 }
  | newBuf :: rest =>
      { rx with
        availQueue := rest
        dataLen := Function.update rx.dataLen rx.recvBuf rx.recvOff
        datasQueue := rx.datasQueue ++ [rx.recvBuf]
        recvBuf := newBuf
        recvOff := 0 }

def startTimer (rx : DataRx) : DataRx :=
  if 0 < rx.recvOff ∧ rx.sendPartialTimerStarted = false then
    { rx with sendPartialTimerStarted := true, timerArmed := true }
  else rx

def stopTimer (rx : DataRx) : DataRx :=
  if rx.sendPartialTimerStarted = true ∧ rx.rxAbort = false then { rx with timerArmed := false }
  else rx

/-- Called by the interrupt after each read, and by the timer. -/
def recvCb (rx : DataRx) : DataRx :=
  let rx := startTimer rx
  if rx.recvOff < actDataMtu ∧ rx.rxAbort = false then rx
  else flush { stopTimer rx with sendPartialTimerStarted := false, rxAbort := false }

/-- One iteration of `act_data_rx_isr`, which read some bytes from the UART. -/
def actDataRxIsr (bytes : List UInt8) (rx : DataRx) : DataRx :=
  if bytes = [] then rx
  else
    recvCb { rx with
      data := Function.update rx.data rx.recvBuf (writeAt (rx.data rx.recvBuf) rx.recvOff bytes)
      recvOff := rx.recvOff + bytes.length }

/-- The timer is not periodic. -/
def sendPartialHandler (rx : DataRx) : DataRx :=
  if rx.timerArmed then recvCb { rx with timerArmed := false, rxAbort := true } else rx

/-- The bytes of a queued buffer. -/
def chunkOf (rx : DataRx) (buf : DataBuf) : List UInt8 :=
  (rx.data buf).toList.take (rx.dataLen buf)

/-- The handler takes a buffer if it has none. -/
def dataHandlerGet (rx : DataRx) : DataRx :=
  match rx.held, rx.datasQueue with
  | none, buf :: rest => { rx with datasQueue := rest, held := some buf }
  | _, _ => rx

/-- The handler clears its buffer and gives it back. -/
def dataHandlerPut (rx : DataRx) : DataRx :=
  match rx.held with
  | none => rx
  | some buf =>
      { rx with
        data := Function.update rx.data buf (Vector.replicate actDataMtu 0)
        dataLen := Function.update rx.dataLen buf 0
        availQueue := rx.availQueue ++ [buf]
        held := none }

def enterIntoDataMode (rx : DataRx) : DataRx := { rx with recvOff := 0 }

inductive DataEvent where
  | rxIsr (bytes : List UInt8)
  | sendPartial
  | handlerGet
  | handlerPut
  | enterIntoDataMode
deriving DecidableEq

def dataStep (rx : DataRx) : DataEvent → DataRx
  | .rxIsr bytes => actDataRxIsr bytes rx
  | .sendPartial => sendPartialHandler rx
  | .handlerGet => dataHandlerGet rx
  | .handlerPut => dataHandlerPut rx
  | .enterIntoDataMode => enterIntoDataMode rx

/-- The bytes received in data mode, and the chunks that the handler took. -/
structure DataTrace where
  received : List UInt8 := []
  handled : List (List UInt8) := []

def observeData (rx : DataRx) (event : DataEvent) (trace : DataTrace) : DataTrace :=
  match event, rx.held, rx.datasQueue with
  | .rxIsr bytes, _, _ => { trace with received := trace.received ++ bytes }
  | .handlerGet, none, buf :: _ => { trace with handled := trace.handled ++ [chunkOf rx buf] }
  | _, _, _ => trace

abbrev DataRun := Tracked DataRx DataTrace

def dataRunStep : DataRun → DataEvent → DataRun := trackedStep dataStep observeData

/-- The UART never delivers more bytes than the receiver has space for. -/
def Fits (rx : DataRx) : DataEvent → Prop
  | .rxIsr bytes => bytes.length ≤ actDataMtu - rx.recvOff
  | _ => True

instance decidableFits (rx : DataRx) : ∀ event, Decidable (Fits rx event)
  | .rxIsr _ => inferInstanceAs (Decidable (_ ≤ _))
  | .sendPartial => inferInstanceAs (Decidable True)
  | .handlerGet => inferInstanceAs (Decidable True)
  | .handlerPut => inferInstanceAs (Decidable True)
  | .enterIntoDataMode => inferInstanceAs (Decidable True)

/-- The buffer is not queued for lack of a next one. -/
def Drops (rx : DataRx) : DataEvent → Prop
  | .rxIsr bytes => rx.recvOff + bytes.length = actDataMtu ∧ rx.availQueue = []
  | .sendPartial => rx.timerArmed = true ∧ rx.availQueue = []
  | _ => False

instance decidableDrops (rx : DataRx) : ∀ event, Decidable (Drops rx event)
  | .rxIsr _ => inferInstanceAs (Decidable (_ ∧ _))
  | .sendPartial => inferInstanceAs (Decidable (_ ∧ _))
  | .handlerGet => inferInstanceAs (Decidable False)
  | .handlerPut => inferInstanceAs (Decidable False)
  | .enterIntoDataMode => inferInstanceAs (Decidable False)

/-- The step keeps the stream: nothing is dropped and the mode does not change. -/
def KeepsStream (rx : DataRx) (event : DataEvent) : Prop :=
  ¬ Drops rx event ∧ event ≠ .enterIntoDataMode

instance decidableKeepsStream (rx : DataRx) (event : DataEvent) :
    Decidable (KeepsStream rx event) :=
  inferInstanceAs (Decidable (_ ∧ _))

/-! ## What is kept -/

def DataRx.places (rx : DataRx) : List DataBuf :=
  rx.availQueue ++ rx.datasQueue ++ [rx.recvBuf] ++ rx.held.toList

structure BuffersKept (rx : DataRx) : Prop where
  partitioned : Partitioned rx.places
  recvOff : rx.recvOff < actDataMtu
  dataLen : ∀ buf ∈ rx.datasQueue, rx.dataLen buf ≤ actDataMtu

/-- The bytes that the handler is still to take: the chunks queued and the current buffer. -/
def DataRx.unhandled (rx : DataRx) : List UInt8 :=
  (rx.datasQueue.map (chunkOf rx)).flatten ++ (rx.data rx.recvBuf).toList.take rx.recvOff

/-- The chunks handled and the bytes that are still to be taken are the bytes received. -/
def StreamKept (current : DataRun) : Prop :=
  current.history.handled.flatten ++ current.state.unhandled = current.history.received

end CubieBle.BleModule
