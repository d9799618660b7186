import CubieBle.Machine.Run
import CubieBle.ModulePer.Config

/-! # Command mode and data mode

The input of the UART is taken by the thread for the commands or by the thread for the
data. The mode changes with the connection, and when the host leaves the mode in which it
can ask for the signal strength during a connection.
-/

namespace CubieBle.ModulePer

open Machine Storage

/-- A thread object, and whether the variable for its identifier is set. -/
structure Thread where
  running : Bool
  id : Bool
deriving DecidableEq

/-- Where the receive interrupt of the UART leads. -/
inductive UartInput where
  | disabled
  | atCmd
  | data
deriving DecidableEq

/-- The configuration, the connection, both threads, the UART, and how often a thread was
created while it was running. -/
structure Modes where
  app : App
  pconn : Bool
  atCmdThread : Thread
  dataThread : Thread
  uart : UartInput
  recreated : Nat

/-- `k_thread_create`, and the assignment of its result. -/
def kThreadCreate : Thread := { running := true, id := true }

/-- A thread that has an identifier is aborted, and the identifier is cleared. -/
def kThreadAbort (thread : Thread) : Thread :=
  if thread.id then { running := false, id := false } else thread

def enterIntoAtCmdMode (modes : Modes) : Modes :=
  { modes with
    atCmdThread := kThreadCreate
    recreated := if modes.atCmdThread.running then modes.recreated + 1 else modes.recreated
    uart := .atCmd }

def exitOutAtCmdMode (modes : Modes) : Modes :=
  { modes with uart := .disabled, atCmdThread := kThreadAbort modes.atCmdThread }

def enterIntoDataMode (modes : Modes) : Modes :=
  { modes with
    dataThread := kThreadCreate
    recreated := if modes.dataThread.running then modes.recreated + 1 else modes.recreated
    uart := .data }

def exitOutDataMode (modes : Modes) : Modes :=
  { modes with uart := .disabled, dataThread := kThreadAbort modes.dataThread }

/-- The callback without an error. There is one connection at most. -/
def connected (modes : Modes) : Modes :=
  if modes.pconn then modes
  else
    let modes := { modes with pconn := true }
    if modes.app.config.rssiMode = 0 then enterIntoDataMode (exitOutAtCmdMode modes) else modes

/-- The callback for a connection that ends. -/
def disconnected (modes : Modes) : Modes :=
  if modes.pconn then enterIntoAtCmdMode (exitOutDataMode { modes with pconn := false })
  else modes

def appCfgEventHandle (modes : Modes) : Modes :=
  if modes.app.config.rssiMode = 0 ∧ modes.pconn = true then
    enterIntoDataMode (exitOutAtCmdMode modes)
  else modes

/-- The main thread takes `MSG_EXIT_RSSI_MODE` from the queue. -/
def handleExitRssiMode (modes : Modes) : Modes :=
  if modes.app.exitRssiMsgs = 0 then modes
  else
    appCfgEventHandle
      { modes with app := { modes.app with exitRssiMsgs := modes.app.exitRssiMsgs - 1 } }

/-- The thread for the commands executes `AT+RSSI`. -/
def execRssiSet (rssi : Int8) (sent : Bool) (para : List UInt8) (modes : Modes) : Modes :=
  if modes.atCmdThread.running then
    { modes with app := atCmdRssiSet rssi sent para modes.app }
  else modes

inductive ModeAction where
  | connected
  | disconnected
  | rssiSet (rssi : Int8) (sent : Bool) (para : List UInt8)
  | exitRssiMode

def modeStep (modes : Modes) : ModeAction → Modes
  | .connected => connected modes
  | .disconnected => disconnected modes
  | .rssiSet rssi sent para => execRssiSet rssi sent para modes
  | .exitRssiMode => handleExitRssiMode modes

/-- The end of `bt_ready`, with what was stored before. -/
def btReady (nvram : Nvram) : Modes :=
  enterIntoAtCmdMode
    { app := App.start nvram
      pconn := false
      atCmdThread := { running := false, id := false }
      dataThread := { running := false, id := false }
      uart := .disabled
      recreated := 0 }

/-! ## Exclusion -/

/-- One thread is running, it takes the input of the UART, and no running thread was
created again. -/
structure Exclusive (modes : Modes) : Prop where
  one : modes.atCmdThread.running = !modes.dataThread.running
  uart : modes.uart = if modes.dataThread.running then .data else .atCmd
  created : modes.recreated = 0

/-- A connection ends in data mode, and the message finds the mode that it is to leave. -/
def ModeKept (modes : Modes) : ModeAction → Prop
  | .disconnected => modes.pconn = true → modes.dataThread.running = true
  | .exitRssiMode => modes.app.exitRssiMsgs ≠ 0 → modes.app.config.rssiMode = 0 →
      modes.pconn = true → modes.atCmdThread.running = true
  | _ => True

end CubieBle.ModulePer
