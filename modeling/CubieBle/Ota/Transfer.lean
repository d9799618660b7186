import Mathlib.Data.List.Basic
import Mathlib.Data.UInt

/-! # The OTA file transfer service

The control block, the event queue and the functions of the OTA profile that
run in the Bluetooth callback (`ota_write_cback` and what it calls) and in the
main thread (`ota_event_handle` and what it calls). The flash driver, `crc32`
and the partition table register are code outside the repository and enter as
parameters.
-/

namespace CubieBle.Ota

/-- A `struct bt_conn *`; the null pointer is `0`. -/
abbrev Conn := Nat

/-- Flash contents by address; addresses wrap at 32 bits as in `u32_t`. -/
abbrev Flash := UInt32 → UInt8

/-- The `count` flash bytes from an address on. -/
def flashRange (flash : Flash) (addr : UInt32) (count : Nat) : List UInt8 :=
  (List.range count).map fun i => flash (addr + UInt32.ofNat i)

/-- File transfer control operations (`OTA_FTC_OP_*`). -/
inductive FtcOp where
  | none | getReq | getRsp | putReq | putRsp | eraseReq | eraseRsp | verifyReq | verifyRsp
  | abort | eof | packetReceived | systemReset | getVersionReq | getVersionRsp
deriving DecidableEq, Repr

namespace FtcOp

def code : FtcOp → UInt8
  | none => 0x00
  | getReq => 0x01
  | getRsp => 0x02
  | putReq => 0x03
  | putRsp => 0x04
  | eraseReq => 0x05
  | eraseRsp => 0x06
  | verifyReq => 0x07
  | verifyRsp => 0x08
  | abort => 0x09
  | eof => 0x0a
  | packetReceived => 0x0b
  | systemReset => 0x0c
  | getVersionReq => 0x0d
  | getVersionRsp => 0x0e

/-- The operation with a given code, if there is one. -/
def ofByte (byte : UInt8) : Option FtcOp :=
  [none, getReq, getRsp, putReq, putRsp, eraseReq, eraseRsp, verifyReq, verifyRsp, abort,
    eof, packetReceived, systemReset, getVersionReq, getVersionRsp].find? (·.code == byte)

end FtcOp

/-- File transfer control status (`OTA_FTC_ST_*`), those the code uses. -/
inductive FtcStatus where
  | success | inProgress | verification
deriving DecidableEq, Repr

def FtcStatus.code : FtcStatus → UInt8
  | success => 0
  | inProgress => 4
  | verification => 5

/-- The values of `MSG_OTA_EVENT` messages. -/
inductive Event where
  | ftd | ftc | ftcAsync | connParamUpdate | disconnect
deriving DecidableEq, Repr

/-- The writable attributes of the OTA service. -/
inductive Handle where
  | dc | ftc | ftd | au
deriving DecidableEq, Repr

def txMaskFtcBit : UInt8 := (1 : UInt8) <<< 2
def txMaskFtdBit : UInt8 := (1 : UInt8) <<< 3
def txMaskFtcAsyncBit : UInt8 := (1 : UInt8) <<< 5

/-- A written attribute value: its length and the memory at `p_value`. The code
parses some fields without checking the length, so it may read on behind it. -/
structure Packet where
  len : UInt16
  byte : Nat → UInt8

namespace Packet

/-- A value followed by zeros. -/
def ofBytes (bytes : List UInt8) : Packet := ⟨UInt16.ofNat bytes.length, fun i => bytes.getD i 0⟩

def payload (packet : Packet) : List UInt8 := (List.range packet.len.toNat).map packet.byte

/-- `BYTES_TO_UINT16` -/
@[irreducible] def uint16 (packet : Packet) (at_ : Nat) : UInt16 :=
  (packet.byte at_).toUInt16 + ((packet.byte (at_ + 1)).toUInt16 <<< 8)

/-- `BYTES_TO_UINT32` -/
@[irreducible] def uint32 (packet : Packet) (at_ : Nat) : UInt32 :=
  (packet.byte at_).toUInt32 + ((packet.byte (at_ + 1)).toUInt32 <<< 8) +
    ((packet.byte (at_ + 2)).toUInt32 <<< 16) + ((packet.byte (at_ + 3)).toUInt32 <<< 24)

end Packet

/-- `UINT16_TO_BYTES` -/
def uint16ToBytes (value : UInt16) : List UInt8 := [value.toUInt8, (value >>> 8).toUInt8]

structure ConnParam where
  intervalMin : UInt16
  intervalMax : UInt16
  latency : UInt16
  timeout : UInt16
deriving DecidableEq, Repr

/-- `struct otaCb_t`. The message buffer holds its first `ftc_msg_len` bytes;
`storage` says whether the flash device was bound. -/
structure OtaCb where
  txReadyMask : UInt8 := 0
  ftAddr : UInt32 := 0
  ftLen : UInt32 := 0
  ftCrc : UInt32 := 0
  ftHandle : UInt16 := 0
  ftcMsgBuf : List UInt8 := []
  ftInProgress : FtcOp := .none
  wakeupFlag : Bool := false
  pendingCount : UInt32 := 0
  sendCount : UInt32 := 0
  conn : Conn := 0
  storage : Bool := false

/-- Calls into the Bluetooth host, in order. -/
inductive HostCall where
  | notify (conn : Conn) (handle : Handle) (value : List UInt8)
  | connParamUpdate (conn : Conn) (param : ConnParam)
  | disconnect (conn : Conn)
deriving DecidableEq, Repr

/-- The control block with what it acts on: the queue of `MSG_OTA_EVENT`
messages, the flash, the requests made to the flash driver and the host so far,
and the notification flags set by the peer. -/
structure Sys where
  cb : OtaCb := {}
  queue : List Event := []
  flash : Flash
  flashWrites : List (UInt32 × List UInt8) := []
  calls : List HostCall := []
  notifyOn : Handle → Bool
  param : ConnParam := ⟨0, 0, 0, 0⟩
  needReset : Bool := false

/-- What the service calls but the repository does not contain. -/
structure Env where
  /-- `sys_read32(PARTITION_TABLE_ADDR)` -/
  partitionTableAddr : UInt32
  /-- `CONFIG_SPI0_XIP` -/
  spi0Xip : Bool
  /-- `sys_version_get()`, which with the header fits `ftc_msg_buf`. -/
  version : List UInt8
  version_length : version.length ≤ 16
  crc32 : List UInt8 → UInt32 → UInt32
  flashWrite : Flash → UInt32 → List UInt8 → Flash
  flashErase : Flash → UInt32 → UInt32 → Flash
  /-- What a local buffer holds when nothing was read into it. -/
  unread : Nat → UInt8

/-! ## Storage -/

def otaStorageWrite (env : Env) (sys : Sys) (addr : UInt32) (data : List UInt8) : Sys :=
  if sys.cb.storage then
    { sys with
      flash := env.flashWrite sys.flash addr data
      flashWrites := sys.flashWrites ++ [(addr, data)] }
  else sys

def otaStorageRead (env : Env) (sys : Sys) (addr : UInt32) (len : Nat) : List UInt8 :=
  if sys.cb.storage then flashRange sys.flash addr len else (List.range len).map env.unread

def otaStorageErase (env : Env) (sys : Sys) (addr size : UInt32) : Sys :=
  if sys.cb.storage then { sys with flash := env.flashErase sys.flash addr size } else sys

/-! ## Events and notifications -/

/-- `send_msg` never drops a message here. -/
def otaSendEvent (sys : Sys) (event : Event) : Sys :=
  { sys with queue := sys.queue ++ [event] }

def otaSendNotify (sys : Sys) (conn : Conn) (handle : Handle) (value : List UInt8) : Sys :=
  { sys with calls := sys.calls ++ [.notify conn handle value] }

def otaCccEnabled (sys : Sys) (handle : Handle) : Bool := sys.notifyOn handle

def otaFtcSend (sys : Sys) (conn : Conn) : Sys :=
  let sys := if otaCccEnabled sys .ftc then otaSendNotify sys conn .ftc sys.cb.ftcMsgBuf else sys
  { sys with cb.txReadyMask := sys.cb.txReadyMask &&& ~~~txMaskFtcBit }

/-- The acknowledgement of `count` bytes. -/
def ackMessage (handle count : UInt16) : List UInt8 :=
  [FtcOp.packetReceived.code] ++ uint16ToBytes handle ++ [0] ++ uint16ToBytes count

/-- The early return for an empty count precedes the clearing of the ready bit. -/
def otaFdcAsyncSend (sys : Sys) (conn : Conn) : Sys :=
  if sys.cb.pendingCount == sys.cb.sendCount then sys
  else
    let count := (sys.cb.pendingCount - sys.cb.sendCount).toUInt16
    let msg := ackMessage sys.cb.ftHandle count
    -- counted as sent also where notifications are off
    let sys := { sys with cb.sendCount := sys.cb.pendingCount }
    let sys := if otaCccEnabled sys .ftc then otaSendNotify sys conn .ftc msg else sys
    { sys with cb.txReadyMask := sys.cb.txReadyMask &&& ~~~txMaskFtcAsyncBit }

/-- The message `ota_ftc_send_rsp` builds in `ftc_msg_buf`. -/
def ftcMessage (env : Env) (op : FtcOp) (handle : UInt16) (status : UInt8) (extraInfo : UInt16) :
    List UInt8 :=
  [op.code] ++ uint16ToBytes handle ++ [status] ++
    match op with
    | .packetReceived => uint16ToBytes extraInfo
    | .getVersionRsp => env.version
    | _ => []

def otaFtcSendRsp (env : Env) (sys : Sys) (conn : Conn) (op : FtcOp) (handle : UInt16)
    (status : UInt8) (extraInfo : UInt16) : Sys :=
  if sys.cb.txReadyMask &&& txMaskFtcBit != 0 then sys
  else
    otaSendEvent
      { sys with
        cb.ftcMsgBuf := ftcMessage env op handle status extraInfo
        cb.txReadyMask := sys.cb.txReadyMask ||| txMaskFtcBit
        cb.conn := conn }
      .ftc

/-! ## Requests -/

/-- `sizeof(struct partition_table)` -/
def partitionTableSize : UInt32 := 384

/-- The part of `ota_ftc_proc_get_req` behind the progress check; file `0` is
the partition table. -/
def getReqSetup (env : Env) (sys : Sys) (handle : UInt16) (packet : Packet) : Sys :=
  { sys with
    cb.ftAddr := if handle == 0 then env.partitionTableAddr else packet.uint32 3
    cb.ftLen :=
      if handle == 0 then
        if env.spi0Xip then partitionTableSize * 34 / 32 else partitionTableSize
      else packet.uint32 7
    cb.ftHandle := handle
    cb.ftInProgress := .getReq }

def otaFtcProcGetReq (env : Env) (sys : Sys) (conn : Conn) (handle : UInt16) (packet : Packet) :
    Sys :=
  if sys.cb.ftInProgress ≠ .none then
    otaFtcSendRsp env sys conn .getRsp handle FtcStatus.inProgress.code 0
  else
    let sys := otaFtcSendRsp env (getReqSetup env sys handle packet) conn .getRsp handle
      FtcStatus.success.code 0
    otaSendEvent { sys with cb.conn := conn } .ftd

def putReqSetup (sys : Sys) (handle : UInt16) (packet : Packet) : Sys :=
  { sys with
    cb.ftHandle := handle
    cb.ftAddr := packet.uint32 3
    cb.ftLen := packet.uint32 7
    cb.ftInProgress := .putReq
    cb.pendingCount := 0
    cb.sendCount := 0 }

def otaFtcProcPutReq (env : Env) (sys : Sys) (conn : Conn) (handle : UInt16) (packet : Packet) :
    Sys :=
  if sys.cb.ftInProgress ≠ .none then
    otaFtcSendRsp env sys conn .putRsp handle FtcStatus.inProgress.code 0
  else
    otaFtcSendRsp env (putReqSetup sys handle packet) conn .putRsp handle
      FtcStatus.success.code 0

/-- The `while` loop of `ota_ftc_proc_verify_req`: pages of at most 256 bytes. -/
def verifyLoop (env : Env) (sys : Sys) (addr : UInt32) (len off : Nat) (crc : UInt32) : UInt32 :=
  if off < len then
    let readLen := min 256 (len - off)
    verifyLoop env sys addr len (off + readLen)
      (env.crc32 (otaStorageRead env sys (addr + UInt32.ofNat off) readLen) crc)
  else crc
termination_by len - off

def verifyStatus (env : Env) (sys : Sys) (addr len crc : UInt32) : FtcStatus :=
  if verifyLoop env sys addr len.toNat 0 0 == crc then .success else .verification

def verifyReqSetup (sys : Sys) (handle : UInt16) (packet : Packet) : Sys :=
  { sys with
    cb.ftHandle := handle
    cb.ftAddr := packet.uint32 3
    cb.ftLen := packet.uint32 7
    cb.ftCrc := packet.uint32 11 }

def otaFtcProcVerifyReq (env : Env) (sys : Sys) (conn : Conn) (handle : UInt16)
    (packet : Packet) : Sys :=
  if sys.cb.ftInProgress ≠ .none then
    otaFtcSendRsp env sys conn .verifyRsp handle FtcStatus.inProgress.code 0
  else
    otaFtcSendRsp env (verifyReqSetup sys handle packet) conn .verifyRsp handle
      (verifyStatus env sys (packet.uint32 3) (packet.uint32 7) (packet.uint32 11)).code 0

def eraseReqSetup (env : Env) (sys : Sys) (handle : UInt16) (packet : Packet) : Sys :=
  otaStorageErase env
    { sys with
      cb.ftHandle := handle
      cb.ftAddr := packet.uint32 3
      cb.ftLen := packet.uint32 7 }
    (packet.uint32 3) (packet.uint32 7)

def otaFtcProcEraseReq (env : Env) (sys : Sys) (conn : Conn) (handle : UInt16)
    (packet : Packet) : Sys :=
  if sys.cb.ftInProgress ≠ .none then
    otaFtcSendRsp env sys conn .eraseRsp handle FtcStatus.inProgress.code 0
  else
    otaFtcSendRsp env (eraseReqSetup env sys handle packet) conn .eraseRsp handle
      FtcStatus.success.code 0

def otaFtcProcAbort (sys : Sys) : Sys :=
  if sys.cb.ftInProgress ≠ .none then
    { sys with cb.ftInProgress := .none, cb.ftLen := 0, cb.ftAddr := 0 }
  else sys

def otaFtcProcGetVersionReq (env : Env) (sys : Sys) (conn : Conn) (handle : UInt16) : Sys :=
  otaFtcSendRsp env sys conn .getVersionRsp handle FtcStatus.success.code 0

def otaFtcProcReset (sys : Sys) : Sys :=
  otaSendEvent { sys with needReset := true } .disconnect

/-! ## Attribute writes -/

def attErrInvalidHandle : UInt8 := 0x01
def attErrInvalidAttributeLen : UInt8 := 0x0d
def attErrUnlikely : UInt8 := 0x0e
def attErrOutOfRange : UInt8 := 0xff

def ftdHdrLen : UInt16 := 0
def ftcHdrLen : UInt16 := 1
def ftcHandleLen : UInt16 := 2
def dcHdrLen : UInt16 := 2
def dcLenConnParamReq : UInt16 := 8

/-- The end of a put request: the last acknowledgement is posted without
looking at the ready bit, and the end of file response follows. -/
def ftdWriteDone (env : Env) (sys : Sys) (conn : Conn) : Sys :=
  let sys := otaSendEvent { sys with cb.ftInProgress := .none } .ftcAsync
  otaFtcSendRsp env sys conn .eof sys.cb.ftHandle 0 0

/-- Post an acknowledgement unless one is already waiting. -/
def ftdWriteMore (sys : Sys) : Sys :=
  if sys.cb.txReadyMask &&& txMaskFtcAsyncBit == 0 then
    otaSendEvent { sys with cb.txReadyMask := sys.cb.txReadyMask ||| txMaskFtcAsyncBit } .ftcAsync
  else sys

/-- Store a packet and advance the transfer. -/
def ftdWriteTake (env : Env) (sys : Sys) (conn : Conn) (packet : Packet) : Sys :=
  let sys := otaStorageWrite env sys sys.cb.ftAddr packet.payload
  { sys with
    cb.ftAddr := sys.cb.ftAddr + packet.len.toUInt32
    cb.ftLen := sys.cb.ftLen - packet.len.toUInt32
    cb.pendingCount := sys.cb.pendingCount + packet.len.toUInt32
    cb.conn := conn }

def otaFtdWrite (env : Env) (sys : Sys) (conn : Conn) (packet : Packet) : UInt8 × Sys :=
  if sys.cb.ftInProgress ≠ .putReq then (attErrUnlikely, sys)
  else if packet.len ≤ ftdHdrLen then (attErrInvalidAttributeLen, sys)
  else if packet.len.toUInt32 ≤ sys.cb.ftLen then
    let sys := ftdWriteTake env sys conn packet
    (0, if sys.cb.ftLen == 0 then ftdWriteDone env sys conn else ftdWriteMore sys)
  -- a packet longer than the rest of the file is dropped without an error
  else (0, sys)

def otaFtcWrite (env : Env) (sys : Sys) (conn : Conn) (packet : Packet) : UInt8 × Sys :=
  if packet.len < ftcHdrLen + ftcHandleLen then (attErrInvalidAttributeLen, sys)
  else
    let handle := packet.uint16 1
    (0, match FtcOp.ofByte (packet.byte 0) with
      | some .getReq => otaFtcProcGetReq env sys conn handle packet
      | some .putReq => otaFtcProcPutReq env sys conn handle packet
      | some .verifyReq => otaFtcProcVerifyReq env sys conn handle packet
      | some .eraseReq => otaFtcProcEraseReq env sys conn handle packet
      | some .abort => otaFtcProcAbort sys
      | some .systemReset => otaFtcProcReset sys
      | some .getVersionReq => otaFtcProcGetVersionReq env sys conn handle
      -- responses and unknown opcodes are accepted and ignored
      | _ => sys)

def otaDcSetConnParamReq (sys : Sys) (conn : Conn) (len : UInt16) (packet : Packet) :
    UInt8 × Sys :=
  if len ≠ dcLenConnParamReq then (attErrInvalidAttributeLen, sys)
  else
    (0, otaSendEvent
      { sys with
        param := ⟨packet.uint16 2, packet.uint16 4, packet.uint16 6, packet.uint16 8⟩
        cb.conn := conn }
      .connParamUpdate)

def otaDcWrite (sys : Sys) (conn : Conn) (packet : Packet) : UInt8 × Sys :=
  if packet.len < dcHdrLen then (attErrInvalidAttributeLen, sys)
  else
    let op := packet.byte 0
    let id := packet.byte 1
    if op == 0x02 then
      if id == 0x01 then otaDcSetConnParamReq sys conn (packet.len - dcHdrLen) packet
      else (attErrOutOfRange, sys)
    else if op == 0x01 then
      if id == 0x02 then (0, sys) else (attErrOutOfRange, sys)
    else (attErrOutOfRange, sys)

/-- Every write (re)arms the wakeup flag; the wake lock itself is not modelled. -/
def Sys.awake (sys : Sys) : Sys := { sys with cb.wakeupFlag := true }

def otaWriteCback (env : Env) (sys : Sys) (conn : Conn) (handle : Handle) (packet : Packet) :
    UInt8 × Sys :=
  match handle with
  | .dc => otaDcWrite sys.awake conn packet
  | .ftc => otaFtcWrite env sys.awake conn packet
  | .ftd => otaFtdWrite env sys.awake conn packet
  | .au => (attErrInvalidHandle, sys.awake)

/-! ## Event handling -/

/-- The bytes of the next data notification. -/
def ftdReadLen (sys : Sys) : UInt32 := if 20 < sys.cb.ftLen then 20 else sys.cb.ftLen

/-- Read and notify the next piece, if there is one. -/
def ftdSendPiece (env : Env) (sys : Sys) (conn : Conn) : Sys :=
  if 0 < ftdReadLen sys then
    otaSendNotify
      { sys with
        cb.ftLen := sys.cb.ftLen - ftdReadLen sys
        cb.ftAddr := sys.cb.ftAddr + ftdReadLen sys }
      conn .ftd (otaStorageRead env sys sys.cb.ftAddr (ftdReadLen sys).toNat)
  else sys

def ftdSendDone (env : Env) (sys : Sys) (conn : Conn) : Sys :=
  otaFtcSendRsp env
    { sys with
      cb.ftInProgress := .none
      cb.txReadyMask := sys.cb.txReadyMask &&& ~~~txMaskFtdBit }
    conn .eof sys.cb.ftHandle 0 0

/-- `ota_ftd_send` does not look at `ft_in_progress`. -/
def otaFtdSend (env : Env) (sys : Sys) (conn : Conn) : Sys :=
  if otaCccEnabled sys .ftd then
    let readLen := ftdReadLen sys
    let sys := ftdSendPiece env sys conn
    -- an aborted transfer has nothing left and ends here too
    if sys.cb.ftLen == 0 || readLen == 0 then ftdSendDone env sys conn
    else otaSendEvent { sys with cb.conn := conn } .ftd
  else sys

def otaEventHandle (env : Env) (sys : Sys) (event : Event) : Sys :=
  match event with
  | .ftd => otaFtdSend env sys sys.cb.conn
  | .ftc => otaFtcSend sys sys.cb.conn
  | .ftcAsync => otaFdcAsyncSend sys sys.cb.conn
  | .connParamUpdate =>
      { sys with calls := sys.calls ++ [.connParamUpdate sys.cb.conn sys.param] }
  | .disconnect => { sys with calls := sys.calls ++ [.disconnect sys.cb.conn] }

end CubieBle.Ota
