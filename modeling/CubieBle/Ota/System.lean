import CubieBle.Machine.Run
import CubieBle.Ota.Transfer

/-! # Runs of the OTA service

Attribute writes arrive in the Bluetooth callback, queued events are handled by
the main thread, and the peer may switch notifications at any time. Every order
of these steps is a run. Each write and each event handler is one step: neither
side waits inside it.
-/

namespace CubieBle.Ota

inductive Action where
  | write (conn : Conn) (handle : Handle) (packet : Packet)
  | dispatch
  | cccChanged (handle : Handle) (value : UInt16)
  | wakeupTimeout

/-- `BT_GATT_CCC_NOTIFY` -/
def cccNotify : UInt16 := 1

/-- `receive_msg` blocks on an empty queue, so such a dispatch does nothing. -/
def dispatch (env : Env) (sys : Sys) : Sys :=
  match sys.queue with
  | [] => sys
  | event :: rest => otaEventHandle env { sys with queue := rest } event

def step (env : Env) (sys : Sys) : Action → Sys
  | .write conn handle packet => (otaWriteCback env sys conn handle packet).2
  | .dispatch => dispatch env sys
  | .cccChanged handle value =>
      { sys with notifyOn := Function.update sys.notifyOn handle (value == cccNotify) }
  | .wakeupTimeout => { sys with cb.wakeupFlag := false }

/-- The state `ota_profile_init` leaves behind when the flash device is bound. -/
def otaProfileInit (flash : Flash) (notifyOn : Handle → Bool) : Sys where
  cb := { storage := true }
  flash := flash
  notifyOn := notifyOn

/-- A control write of the given bytes on connection `1`. -/
def Action.control (bytes : List UInt8) : Action := .write 1 .ftc (.ofBytes bytes)

/-- A data write of the given bytes on connection `1`. -/
def Action.data (bytes : List UInt8) : Action := .write 1 .ftd (.ofBytes bytes)

/-- `"2.0.00.18070920"` -/
def sysVersion : List UInt8 :=
  [0x32, 0x2e, 0x30, 0x2e, 0x30, 0x30, 0x2e, 0x31, 0x38, 0x30, 0x37, 0x30, 0x39, 0x32, 0x30]

/-- A flash that takes every write as it is and erases to `0xff`. -/
def plainEnv : Env where
  partitionTableAddr := 0xc00
  spi0Xip := true
  version := sysVersion
  version_length := by decide
  crc32 := fun data init => data.foldl (fun sum byte => sum + byte.toUInt32) init
  flashWrite := fun flash addr data at_ =>
    data.getD (at_ - addr).toNat (flash at_)
  flashErase := fun flash addr size at_ => if at_ - addr < size then 0xff else flash at_
  unread := fun _ => 0

end CubieBle.Ota
