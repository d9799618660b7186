import Mathlib.Logic.Function.Basic
import CubieBle.Machine.Pool
import CubieBle.Machine.Run

/-! # The line buffers of command mode

In command mode the interrupt of the UART collects printable characters in a buffer and
queues it at the end of the line. The thread of the handler executes the queued lines
and gives the buffers back. A counter remembers that the interrupt has a buffer when
command mode is entered again.
-/

namespace CubieBle.BleModule

open Machine

def maxCmdQueued : Nat := 3

/-- The elements of `at_cmd_buf`. -/
abbrev LineBuf := Fin maxCmdQueued

def atCmdMaxLineLen : Nat := 256
def consoleMaxLineLen : Nat := 128

abbrev Line := Vector UInt8 atCmdMaxLineLen

structure AtRx where
  line : LineBuf → Line
  availQueue : List LineBuf
  cmdsQueue : List LineBuf
  inputCmd : Option LineBuf
  inputCur : Nat
  cmdQueueRef : Int
  /-- The buffer that the handler took and did not give back yet. -/
  held : Option LineBuf
  /-- The UART calls `at_cmd_rx_isr`. -/
  atMode : Bool

/-- `at_cmd_init`; command mode is entered later. -/
def atCmdInit : AtRx where
  line _ := Vector.replicate atCmdMaxLineLen 0
  availQueue := List.finRange maxCmdQueued
  cmdsQueue := []
  inputCmd := none
  inputCur := 0
  cmdQueueRef := 0
  held := none
  atMode := false

def isprint (byte : UInt8) : Bool := 0x20 ≤ byte && byte ≤ 0x7e

def setByte (buf : LineBuf) (i : Nat) (byte : UInt8) (rx : AtRx) : AtRx :=
  { rx with line := Function.update rx.line buf ((rx.line buf).setIfInBounds i byte) }

/-- The buffer to write to, and the receiver with it; there may be none. -/
def acquire (rx : AtRx) : Option (LineBuf × AtRx) :=
  match rx.inputCmd with
  | some buf => some (buf, rx)
  | none =>
      match rx.availQueue with
      | [] => none
      | buf :: rest =>
          some (buf, { rx with
            availQueue := rest
            inputCmd := some buf
            cmdQueueRef := rx.cmdQueueRef + 1 })

/-- The end of a line: its characters are cut to what fits. -/
def endLine (buf : LineBuf) (rx : AtRx) : AtRx :=
  let rx := setByte buf rx.inputCur 0 rx
  let rx :=
    if 1 ≤ rx.inputCur ∧ (rx.line buf).toList.getD (rx.inputCur - 1) 0 = 0x0d then
      setByte buf (rx.inputCur - 1) 0 rx
    else rx
  { rx with
    inputCur := 0
    cmdsQueue := rx.cmdsQueue ++ [buf]
    cmdQueueRef := rx.cmdQueueRef - 1
    inputCmd := none }

/-- A printable character, which is ignored if there is no space. -/
def typeChar (buf : LineBuf) (byte : UInt8) (rx : AtRx) : AtRx :=
  if rx.inputCur < consoleMaxLineLen - 1 then
    { setByte buf rx.inputCur byte rx with inputCur := rx.inputCur + 1 }
  else rx

/-- One iteration of `at_cmd_rx_isr`. -/
def atCmdRxIsr (byte : UInt8) (rx : AtRx) : AtRx :=
  match acquire rx with
  | none => rx
  | some (buf, rx) =>
      if isprint byte then typeChar buf byte rx
      else if byte = 0x0a then endLine buf rx
      else rx

def atCmdHandlerGet (rx : AtRx) : AtRx :=
  match rx.held, rx.cmdsQueue with
  | none, buf :: rest => { rx with cmdsQueue := rest, held := some buf }
  | _, _ => rx

/-- The execution of a command changes its line in some way. -/
def atCmdHandlerPut (line : Line) (rx : AtRx) : AtRx :=
  match rx.held with
  | none => rx
  | some buf =>
      { rx with
        line := Function.update rx.line buf line
        availQueue := rx.availQueue ++ [buf]
        held := none }

/-- A buffer that the interrupt has is queued with an empty line. -/
def recoverInput (rx : AtRx) : AtRx :=
  match rx.inputCmd with
  | some buf =>
      if rx.cmdQueueRef ≠ 0 then
        let rx := setByte buf 0 0 rx
        { rx with cmdsQueue := rx.cmdsQueue ++ [buf] }
      else rx
  | none => rx

def enterIntoAtCmdMode (rx : AtRx) : AtRx :=
  { recoverInput rx with cmdQueueRef := 0, inputCur := 0, inputCmd := none, atMode := true }

inductive LineEvent where
  | rxByte (byte : UInt8)
  | handlerGet
  | handlerPut (line : Line)
  | enterIntoDataMode
  | enterIntoAtCmdMode

/-- Bytes that arrive in data mode go elsewhere. -/
def lineStep (rx : AtRx) : LineEvent → AtRx
  | .rxByte byte => if rx.atMode then atCmdRxIsr byte rx else rx
  | .handlerGet => atCmdHandlerGet rx
  | .handlerPut line => atCmdHandlerPut line rx
  | .enterIntoDataMode => { rx with atMode := false }
  | .enterIntoAtCmdMode => enterIntoAtCmdMode rx

/-! ## What is typed -/

/-- The printable characters since the buffer was acquired, and the lines that should be in the
queue. -/
structure LineTrace where
  typed : List UInt8 := []
  expected : List (List UInt8) := []

/-- What is typed starts again with a new buffer. -/
def typedBefore (rx : AtRx) (trace : LineTrace) : List UInt8 :=
  if rx.inputCmd.isSome then trace.typed else []

/-- A byte is lost if there is no buffer for it, and else it is typed or ends the line. -/
def observeByte (byte : UInt8) (rx : AtRx) (trace : LineTrace) : LineTrace :=
  if rx.inputCmd = none ∧ rx.availQueue = [] then trace
  else
    let typed := typedBefore rx trace
    if isprint byte then { trace with typed := typed ++ [byte] }
    else if byte = 0x0a then
      { typed, expected := trace.expected ++ [typed.take (consoleMaxLineLen - 1)] }
    else { trace with typed }

/-- A line that is taken was the first one, and one that is broken off is queued empty. -/
def observeLine (rx : AtRx) (event : LineEvent) (trace : LineTrace) : LineTrace :=
  match event with
  | .rxByte byte => if rx.atMode then observeByte byte rx trace else trace
  | .handlerGet =>
      if rx.held = none then { trace with expected := trace.expected.tail } else trace
  | .enterIntoAtCmdMode =>
      if rx.inputCmd.isSome then { trace with expected := trace.expected ++ [[]] } else trace
  | .handlerPut _ | .enterIntoDataMode => trace

abbrev LineRun := Tracked AtRx LineTrace

def lineRunStep : LineRun → LineEvent → LineRun := trackedStep lineStep observeLine

/-! ## What is kept -/

def AtRx.places (rx : AtRx) : List LineBuf :=
  rx.availQueue ++ rx.cmdsQueue ++ rx.inputCmd.toList ++ rx.held.toList

/-- The characters of a line up to its terminating zero. -/
def lineText (rx : AtRx) (buf : LineBuf) : List UInt8 :=
  (rx.line buf).toList.takeWhile (· != 0)

structure LinesKept (rx : AtRx) (trace : LineTrace) : Prop where
  partitioned : Partitioned rx.places
  cmdQueueRef : rx.cmdQueueRef = if rx.inputCmd.isSome then 1 else 0
  inputCur : rx.inputCur < consoleMaxLineLen
  text : rx.cmdsQueue.map (lineText rx) = trace.expected
  terminated : ∀ buf ∈ rx.cmdsQueue, 0 ∈ (rx.line buf).toList

end CubieBle.BleModule
