import Mathlib.Algebra.Group.Nat.Defs
import Mathlib.Data.List.Basic
import Mathlib.Logic.Function.Iterate
import CubieBle.Machine.Run

/-! # AirSync

The phone writes packets in fragments. A fragment is parsed where it is, or behind those that
are in a cache, and the parser says whether a packet is complete. A complete packet advances
the state of the handshake, whatever it is.
-/

namespace CubieBle.AirSync

/-! ## The parser -/

/-- `err_code` of the base response, if there is one. -/
structure AuthResponse where
  baseResponse : Option Int
deriving DecidableEq

structure InitResponse where
  baseResponse : Option Int
  challeangeAnswer : Option UInt32
deriving DecidableEq

structure SendDataResponse where
  baseResponse : Option Int
deriving DecidableEq

/-- The functions `epb_unpack_*`, on the bytes that they are given; `none` and `false` stand
for `NULL`. -/
structure Unpackers where
  authResponse : List UInt8 → Option AuthResponse
  initResponse : List UInt8 → Option InitResponse
  sendDataResponse : List UInt8 → Option SendDataResponse
  recvDataPush : List UInt8 → Bool
  switchViewPush : List UInt8 → Bool
  switchBackgroudPush : List UInt8 → Bool

/-- What the unpackers make of a few bodies: responses with error code 0 and 1, the answer to
`CMD_INIT` without a challenge, and one pushed byte. -/
def sampleUnpackers : Unpackers where
  authResponse body :=
    if body = [0x0a, 2, 8, 0, 0x12, 0] then some ⟨some 0⟩
    else if body = [0x0a, 2, 8, 1, 0x12, 0] then some ⟨some 1⟩
    else none
  initResponse body :=
    if body = [0x0a, 2, 8, 0, 0x10, 0, 0x18, 0] then some ⟨some 0, none⟩ else none
  sendDataResponse _ := none
  recvDataPush body := body = [0x0a, 0, 0x12, 1, 0x41]
  switchViewPush _ := false
  switchBackgroudPush _ := false

/-- The part of `wxbt_state` that received packets change. -/
structure WxbtState where
  wechatsSwitchState : Bool
  authState : Bool
  initState : Bool
  pushDataSeq : UInt16
deriving DecidableEq

def crcTable (index : UInt32) : UInt32 :=
  (fun c : UInt32 => if c &&& 1 ≠ 0 then (0xedb88320 : UInt32) ^^^ (c >>> 1) else c >>> 1)^[8] index

def wechatCrc32 (crc : UInt32) (buf : List UInt8) : UInt32 :=
  buf.foldl (fun crc byte => crcTable ((crc ^^^ byte.toUInt32) &&& 0xff) ^^^ (crc >>> 8))
    (crc ^^^ 0xffffffff) ^^^ 0xffffffff

def challeange : List UInt8 := [0x11, 0x22, 0x33, 0x44]

def eciRespAuth : Nat := 20001
def eciRespSendData : Nat := 20002
def eciRespInit : Nat := 20003
def eciPushRecvData : Nat := 30001
def eciPushSwitchView : Nat := 30002
def eciPushSwitchBackgroud : Nat := 30003

def errorCodeUnpackAuthResp : Int := -0x9990
def errorCodeUnpackInitResp : Int := -0x9991
def errorCodeUnpackSendDataResp : Int := -0x9992
def errorCodeUnpackRecvDataPush : Int := -0x9994
def errorCodeUnpackSwitchViewPush : Int := -0x9995
def errorCodeUnpackSwitchBackgroundPush : Int := -0x9996

/-- Memory from a pointer on. -/
abbrev Buffer := Nat → UInt8

def Buffer.bytes (buffer : Buffer) (start count : Nat) : List UInt8 :=
  (List.range count).map fun i => buffer (start + i)

def fixHeadLen : Nat := 8

/-- `ntohs` of the fields of the header. -/
def nLength (buffer : Buffer) : Nat := (buffer 2).toNat * 256 + (buffer 3).toNat

def nCmdId (buffer : Buffer) : Nat := (buffer 4).toNat * 256 + (buffer 5).toNat

section Code

variable (unpack : Unpackers)

/-- The switch over the commands. An `err_code` other than 0 is read again after its memory
has been freed, so that `freed` is returned for it. -/
def consumePacket (freed : Int) (wx : WxbtState) (cmdId : Nat) (body : List UInt8) (len : Nat) :
    Int × WxbtState :=
  if cmdId = eciRespAuth then
    match unpack.authResponse body with
    | none => (errorCodeUnpackAuthResp, wx)
    | some authResp =>
        match authResp.baseResponse with
        | none => (len, wx)
        | some errCode =>
            if errCode = 0 then (len, { wx with authState := true }) else (freed, wx)
  else if cmdId = eciRespInit then
    match unpack.initResponse body with
    | none => (errorCodeUnpackInitResp, wx)
    | some initResp =>
        match initResp.baseResponse with
        | none => (len, wx)
        | some errCode =>
            if errCode = 0 then
              let answered :=
                match initResp.challeangeAnswer with
                | some answer => if wechatCrc32 0 challeange = answer then true else wx.initState
                | none => true
              (len, { wx with initState := answered, wechatsSwitchState := true })
            else (freed, wx)
  else if cmdId = eciRespSendData then
    match unpack.sendDataResponse body with
    | none => (errorCodeUnpackSendDataResp, wx)
    | some sendDataResp =>
        match sendDataResp.baseResponse with
        | none => (len, wx)
        | some errCode => if errCode = 0 then (len, wx) else (freed, wx)
  else if cmdId = eciPushRecvData then
    if unpack.recvDataPush body then (len, { wx with pushDataSeq := wx.pushDataSeq + 1 })
    else (errorCodeUnpackRecvDataPush, wx)
  else if cmdId = eciPushSwitchView then
    let wx := { wx with wechatsSwitchState := !wx.wechatsSwitchState }
    if unpack.switchViewPush body then (len, wx) else (errorCodeUnpackSwitchViewPush, wx)
  else if cmdId = eciPushSwitchBackgroud then
    if unpack.switchBackgroudPush body then (len, wx)
    else (errorCodeUnpackSwitchBackgroundPush, wx)
  else (len, wx)

/-- The body of a packet, whose length is a `uint32_t` that may wrap around. -/
def packetBody (buffer : Buffer) : List UInt8 :=
  buffer.bytes fixHeadLen ((nLength buffer + 2 ^ 32 - fixHeadLen) % 2 ^ 32)

def dataConsumeFuncRec (freed : Int) (wx : WxbtState) (buffer : Buffer) (len : Nat) :
    Int × WxbtState :=
  if len < nLength buffer then (0, wx)
  else consumePacket unpack freed wx (nCmdId buffer) (packetBody buffer) (nLength buffer)

end Code

/-! ## Receiving -/

def rxPktCacheLen : Nat := 384

inductive ProtoStatus
  | canNotInd
  | idle
  | authSending
  | authRspReceived
  | initSending
  | initRspReceived
  | sendOrRecv
deriving DecidableEq

structure AirsyncPriv where
  protoStatus : ProtoStatus
  pktCache : Buffer
  cachedLen : Nat
  wxbtState : WxbtState

/-- A write of the peer, with what lies behind its bytes in memory and what the parser may
read from freed memory. -/
structure Write where
  bytes : List UInt8
  beyond : Buffer
  freed : Int

def Write.buffer (write : Write) : Buffer := fun i =>
  write.bytes.getD i (write.beyond (i - write.bytes.length))

/-- `memcpy` into a buffer. -/
def Buffer.copy (buffer : Buffer) (start : Nat) (bytes : List UInt8) : Buffer := fun i =>
  if start ≤ i ∧ i < start + bytes.length then bytes.getD (i - start) 0 else buffer i

/-- What the parser is given, after the write is merged with cached data; nothing if the
cache would be too small. -/
def parseInput (as : AirsyncPriv) (write : Write) : Option (Buffer × Nat) :=
  if 0 < as.cachedLen then
    if rxPktCacheLen < as.cachedLen + write.bytes.length then none
    else some (as.pktCache.copy as.cachedLen write.bytes, as.cachedLen + write.bytes.length)
  else some (write.buffer, write.bytes.length)

/-- `airsync_proto_recv_cb` up to the lock, with the result of the parser. -/
def recvParse (unpack : Unpackers) (as : AirsyncPriv) (write : Write) : Int × AirsyncPriv :=
  match parseInput as write with
  | none => (0, { as with cachedLen := 0 })
  | some (buffer, len) =>
      let (ret, wx) := dataConsumeFuncRec unpack write.freed as.wxbtState buffer len
      let as := { as with wxbtState := wx }
      let as :=
        if 0 < as.cachedLen then { as with pktCache := buffer, cachedLen := len } else as
      if ret = 0 then
        if as.cachedLen = 0 then
          (ret, { as with
            pktCache := as.pktCache.copy 0 write.bytes, cachedLen := write.bytes.length })
        else (ret, as)
      else if ret < 0 then (ret, { as with cachedLen := 0 })
      else if ret < as.cachedLen then
        let rest := as.cachedLen - ret.toNat
        (ret, { as with
          pktCache := as.pktCache.copy 0 (as.pktCache.bytes ret.toNat rest), cachedLen := rest })
      else (ret, { as with cachedLen := 0 })

/-- The part of `airsync_proto_recv_cb` with the lock, after a packet was consumed. -/
def recvCommit (as : AirsyncPriv) : AirsyncPriv :=
  match as.protoStatus with
  | .authSending => { as with protoStatus := .authRspReceived }
  | .initSending => { as with protoStatus := .initRspReceived }
  | _ => as

def airsyncProtoRecvCb (unpack : Unpackers) (as : AirsyncPriv) (write : Write) : AirsyncPriv :=
  let (ret, as) := recvParse unpack as write
  if 0 < ret then recvCommit as else as

end CubieBle.AirSync
