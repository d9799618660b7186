import CubieBle.Machine.Mask
import CubieBle.Ota.System

/-! # What attribute writes do to the control block

One frame lemma or one effect lemma for each function, so that the properties of
whole runs never unfold them. Responses only touch the message buffer, its ready
bit and the queue; while an operation is in progress every request but an abort
is answered and otherwise ignored.
-/

namespace CubieBle.Ota

/-- A response is waiting in `ftc_msg_buf`. -/
def Sys.ftcWaiting (sys : Sys) : Bool := sys.cb.txReadyMask &&& txMaskFtcBit != 0

/-- An acknowledgement has been posted and not yet sent. -/
def Sys.asyncWaiting (sys : Sys) : Bool := sys.cb.txReadyMask &&& txMaskFtcAsyncBit != 0

/-- Two states agree on everything that describes the transfer: the fields of
the control block that the operations share, the flash and its accesses. -/
structure SameTransfer (first second : Sys) : Prop where
  ftAddr : second.cb.ftAddr = first.cb.ftAddr
  ftLen : second.cb.ftLen = first.cb.ftLen
  ftHandle : second.cb.ftHandle = first.cb.ftHandle
  ftInProgress : second.cb.ftInProgress = first.cb.ftInProgress
  storage : second.cb.storage = first.cb.storage
  flash : second.flash = first.flash
  flashWrites : second.flashWrites = first.flashWrites

/-- Two states agree on the acknowledgement counters and their ready bit. -/
structure SameCounters (first second : Sys) : Prop where
  pendingCount : second.cb.pendingCount = first.cb.pendingCount
  sendCount : second.cb.sendCount = first.cb.sendCount
  asyncWaiting : second.asyncWaiting = first.asyncWaiting

theorem SameTransfer.refl (sys : Sys) : SameTransfer sys sys :=
  ⟨rfl, rfl, rfl, rfl, rfl, rfl, rfl⟩

theorem SameTransfer.trans {first second third : Sys} (hfirst : SameTransfer first second)
    (hsecond : SameTransfer second third) : SameTransfer first third where
  ftAddr := hsecond.ftAddr.trans hfirst.ftAddr
  ftLen := hsecond.ftLen.trans hfirst.ftLen
  ftHandle := hsecond.ftHandle.trans hfirst.ftHandle
  ftInProgress := hsecond.ftInProgress.trans hfirst.ftInProgress
  storage := hsecond.storage.trans hfirst.storage
  flash := hsecond.flash.trans hfirst.flash
  flashWrites := hsecond.flashWrites.trans hfirst.flashWrites

theorem SameCounters.refl (sys : Sys) : SameCounters sys sys := ⟨rfl, rfl, rfl⟩

theorem SameCounters.trans {first second third : Sys} (hfirst : SameCounters first second)
    (hsecond : SameCounters second third) : SameCounters first third where
  pendingCount := hsecond.pendingCount.trans hfirst.pendingCount
  sendCount := hsecond.sendCount.trans hfirst.sendCount
  asyncWaiting := hsecond.asyncWaiting.trans hfirst.asyncWaiting

theorem awake_sameTransfer (sys : Sys) : SameTransfer sys sys.awake :=
  ⟨rfl, rfl, rfl, rfl, rfl, rfl, rfl⟩

/-! ## Responses -/

section Response

variable (env : Env) (sys : Sys) (conn : Conn) (op : FtcOp) (handle : UInt16) (status : UInt8)
  (extraInfo : UInt16)

theorem otaFtcSendRsp_sameTransfer :
    SameTransfer sys (otaFtcSendRsp env sys conn op handle status extraInfo) := by
  unfold otaFtcSendRsp
  split
  · exact SameTransfer.refl sys
  · exact ⟨rfl, rfl, rfl, rfl, rfl, rfl, rfl⟩

theorem otaFtcSendRsp_sameCounters :
    SameCounters sys (otaFtcSendRsp env sys conn op handle status extraInfo) := by
  unfold otaFtcSendRsp
  split
  · exact SameCounters.refl sys
  · refine ⟨rfl, rfl, ?_⟩
    simp only [Sys.asyncWaiting, otaSendEvent]
    rw [Machine.or_and_of_disjoint (by decide)]

@[simp] theorem otaFtcSendRsp_calls :
    (otaFtcSendRsp env sys conn op handle status extraInfo).calls = sys.calls := by
  unfold otaFtcSendRsp
  split <;> rfl

@[simp] theorem otaFtcSendRsp_notifyOn :
    (otaFtcSendRsp env sys conn op handle status extraInfo).notifyOn = sys.notifyOn := by
  unfold otaFtcSendRsp
  split <;> rfl

@[simp] theorem otaFtcSendRsp_queue :
    (otaFtcSendRsp env sys conn op handle status extraInfo).queue =
      sys.queue ++ if sys.ftcWaiting then [] else [.ftc] := by
  unfold otaFtcSendRsp
  by_cases hwaiting : sys.ftcWaiting = true
  · rw [if_pos (by simpa [Sys.ftcWaiting] using hwaiting), if_pos hwaiting, List.append_nil]
  · rw [if_neg (by simpa [Sys.ftcWaiting] using hwaiting), if_neg hwaiting]
    rfl

@[simp] theorem otaFtcSendRsp_ftcWaiting :
    (otaFtcSendRsp env sys conn op handle status extraInfo).ftcWaiting = true := by
  unfold otaFtcSendRsp
  split
  · assumption
  · simp only [Sys.ftcWaiting, otaSendEvent]
    rw [Machine.or_and_self]
    decide

@[simp] theorem otaFtcSendRsp_ftcMsgBuf :
    (otaFtcSendRsp env sys conn op handle status extraInfo).cb.ftcMsgBuf =
      if sys.ftcWaiting then sys.cb.ftcMsgBuf else ftcMessage env op handle status extraInfo := by
  unfold otaFtcSendRsp
  by_cases hwaiting : sys.ftcWaiting = true
  · rw [if_pos (by simpa [Sys.ftcWaiting] using hwaiting), if_pos hwaiting]
  · rw [if_neg (by simpa [Sys.ftcWaiting] using hwaiting), if_neg hwaiting]
    rfl

end Response

/-! ## Storage -/

theorem flashRange_add (flash : Flash) (addr : UInt32) (first second : Nat) :
    flashRange flash addr first ++ flashRange flash (addr + UInt32.ofNat first) second =
      flashRange flash addr (first + second) := by
  unfold flashRange
  rw [List.range_add, List.map_append, List.map_map]
  congr 1
  apply List.map_congr_left
  intro i _
  simp [UInt32.ofNat_add, UInt32.add_assoc]

/-! ## Control writes -/

@[simp] theorem otaStorageErase_cb (env : Env) (sys : Sys) (addr size : UInt32) :
    (otaStorageErase env sys addr size).cb = sys.cb := by
  unfold otaStorageErase
  split <;> rfl

/-- The transfer as a control write leaves it, before any response is built. -/
def ftcSetup (env : Env) (sys : Sys) (packet : Packet) : Sys :=
  if packet.len < 3 then sys
  else if FtcOp.ofByte (packet.byte 0) = some .abort then otaFtcProcAbort sys
  else if sys.cb.ftInProgress ≠ .none then sys
  else
    match FtcOp.ofByte (packet.byte 0) with
    | some .getReq => getReqSetup env sys (packet.uint16 1) packet
    | some .putReq => putReqSetup sys (packet.uint16 1) packet
    | some .verifyReq => verifyReqSetup sys (packet.uint16 1) packet
    | some .eraseReq => eraseReqSetup env sys (packet.uint16 1) packet
    | _ => sys

/-- The response a control write calls for: its operation and status. -/
def ftcResponse (env : Env) (sys : Sys) (packet : Packet) : Option (FtcOp × FtcStatus) :=
  if packet.len < 3 then none
  else
    match FtcOp.ofByte (packet.byte 0) with
    | some .getReq => some (.getRsp, if sys.cb.ftInProgress ≠ .none then .inProgress else .success)
    | some .putReq => some (.putRsp, if sys.cb.ftInProgress ≠ .none then .inProgress else .success)
    | some .verifyReq =>
        some (.verifyRsp,
          if sys.cb.ftInProgress ≠ .none then .inProgress
          else verifyStatus env sys (packet.uint32 3) (packet.uint32 7) (packet.uint32 11))
    | some .eraseReq =>
        some (.eraseRsp, if sys.cb.ftInProgress ≠ .none then .inProgress else .success)
    | some .getVersionReq => some (.getVersionRsp, .success)
    | _ => none

theorem ftcResponse_ne_packetReceived (env : Env) (sys : Sys) (packet : Packet) {op : FtcOp}
    {status : FtcStatus} (hresponse : ftcResponse env sys packet = some (op, status)) :
    op ≠ .packetReceived := by
  rintro rfl
  unfold ftcResponse at hresponse
  repeat' split at hresponse
  all_goals simp at hresponse

/-- The events a control write posts besides that of its response. -/
def ftcEvents (sys : Sys) (packet : Packet) : List Event :=
  if packet.len < 3 then []
  else
    match FtcOp.ofByte (packet.byte 0) with
    | some .getReq => if sys.cb.ftInProgress ≠ .none then [] else [.ftd]
    | some .systemReset => [.disconnect]
    | _ => []

/-- Everything a control write can do: it prepares the transfer, hands at most
one response to `ota_ftc_send_rsp` and posts its events. -/
structure FtcEffect (env : Env) (sys : Sys) (packet : Packet) (next : Sys) : Prop where
  transfer : SameTransfer (ftcSetup env sys packet) next
  counters : SameCounters (ftcSetup env sys packet) next
  calls : next.calls = sys.calls
  notifyOn : next.notifyOn = sys.notifyOn
  queue : next.queue =
    (sys.queue ++ if sys.ftcWaiting || (ftcResponse env sys packet).isNone then [] else [.ftc]) ++
      ftcEvents sys packet
  ftcWaiting : next.ftcWaiting = (sys.ftcWaiting || (ftcResponse env sys packet).isSome)
  ftcMsgBuf : next.cb.ftcMsgBuf =
    match ftcResponse env sys packet with
    | none => sys.cb.ftcMsgBuf
    | some (op, status) =>
        if sys.ftcWaiting then sys.cb.ftcMsgBuf
        else ftcMessage env op (packet.uint16 1) status.code 0

/-- The parts of the state a request leaves to its response. -/
structure SameMessages (first second : Sys) : Prop where
  calls : second.calls = first.calls
  notifyOn : second.notifyOn = first.notifyOn
  queue : second.queue = first.queue
  txReadyMask : second.cb.txReadyMask = first.cb.txReadyMask
  ftcMsgBuf : second.cb.ftcMsgBuf = first.cb.ftcMsgBuf

theorem SameMessages.ftcWaiting {first second : Sys} (hsame : SameMessages first second) :
    second.ftcWaiting = first.ftcWaiting := by
  rw [Sys.ftcWaiting, Sys.ftcWaiting, hsame.txReadyMask]

section Effect

variable (env : Env) (sys base : Sys) (packet : Packet)

theorem FtcEffect.of_silent (hsetup : ftcSetup env sys packet = base)
    (hresponse : ftcResponse env sys packet = none) (hevents : ftcEvents sys packet = [])
    (hsame : SameMessages sys base) : FtcEffect env sys packet base where
  transfer := hsetup ▸ SameTransfer.refl base
  counters := hsetup ▸ SameCounters.refl base
  calls := hsame.calls
  notifyOn := hsame.notifyOn
  queue := by simp [hresponse, hevents, hsame.queue]
  ftcWaiting := by simp [hresponse, hsame.ftcWaiting]
  ftcMsgBuf := by simp [hresponse, hsame.ftcMsgBuf]

theorem FtcEffect.of_response (conn : Conn) (op : FtcOp) (status : FtcStatus)
    (hsetup : ftcSetup env sys packet = base)
    (hresponse : ftcResponse env sys packet = some (op, status))
    (hevents : ftcEvents sys packet = []) (hsame : SameMessages sys base) :
    FtcEffect env sys packet
      (otaFtcSendRsp env base conn op (packet.uint16 1) status.code 0) where
  transfer := hsetup ▸ otaFtcSendRsp_sameTransfer env base conn op _ _ 0
  counters := hsetup ▸ otaFtcSendRsp_sameCounters env base conn op _ _ 0
  calls := by rw [otaFtcSendRsp_calls, hsame.calls]
  notifyOn := by rw [otaFtcSendRsp_notifyOn, hsame.notifyOn]
  queue := by simp [hresponse, hevents, hsame.queue, hsame.ftcWaiting]
  ftcWaiting := by simp [hresponse]
  ftcMsgBuf := by simp [hresponse, hsame.ftcMsgBuf, hsame.ftcWaiting]

end Effect

theorem eraseReqSetup_sameMessages (env : Env) (sys : Sys) (handle : UInt16)
    (packet : Packet) : SameMessages sys (eraseReqSetup env sys handle packet) := by
  unfold eraseReqSetup otaStorageErase
  split <;> exact ⟨rfl, rfl, rfl, rfl, rfl⟩

section Requests

variable (env : Env) (sys : Sys) (conn : Conn) (packet : Packet) (hlen : ¬ packet.len < 3)
include hlen

/-- A request refused because another operation is in progress. -/
theorem FtcEffect.of_busy (op rsp : FtcOp) (hop : FtcOp.ofByte (packet.byte 0) = some op)
    (hrsp : (op, rsp) ∈ [(FtcOp.getReq, FtcOp.getRsp), (.putReq, .putRsp),
      (.verifyReq, .verifyRsp), (.eraseReq, .eraseRsp)])
    (hbusy : sys.cb.ftInProgress ≠ .none) :
    FtcEffect env sys packet
      (otaFtcSendRsp env sys conn rsp (packet.uint16 1) FtcStatus.inProgress.code 0) := by
  apply FtcEffect.of_response env sys sys packet conn rsp .inProgress
  all_goals
    simp only [List.mem_cons, Prod.mk.injEq, List.not_mem_nil, or_false] at hrsp
    obtain ⟨rfl, rfl⟩ | ⟨rfl, rfl⟩ | ⟨rfl, rfl⟩ | ⟨rfl, rfl⟩ := hrsp
  all_goals
    first
    | exact ⟨rfl, rfl, rfl, rfl, rfl⟩
    | simp [ftcSetup, ftcResponse, ftcEvents, hlen, hop, hbusy]

theorem otaFtcProcGetReq_effect (hop : FtcOp.ofByte (packet.byte 0) = some .getReq) :
    FtcEffect env sys packet (otaFtcProcGetReq env sys conn (packet.uint16 1) packet) := by
  by_cases hidle : sys.cb.ftInProgress = .none
  · rw [otaFtcProcGetReq, if_neg (not_not.mpr hidle)]
    have hsetup : ftcSetup env sys packet = getReqSetup env sys (packet.uint16 1) packet := by
      simp [ftcSetup, hlen, hop, hidle]
    have hresponse : ftcResponse env sys packet = some (.getRsp, .success) := by
      simp [ftcResponse, hlen, hop, hidle]
    have hevents : ftcEvents sys packet = [.ftd] := by simp [ftcEvents, hlen, hop, hidle]
    obtain ⟨h1, h2, h3, h4, h5, h6, h7⟩ := otaFtcSendRsp_sameTransfer env
      (getReqSetup env sys (packet.uint16 1) packet) conn .getRsp (packet.uint16 1)
      FtcStatus.success.code 0
    obtain ⟨h8, h9, h10⟩ := otaFtcSendRsp_sameCounters env
      (getReqSetup env sys (packet.uint16 1) packet) conn .getRsp (packet.uint16 1)
      FtcStatus.success.code 0
    have hwaiting : (getReqSetup env sys (packet.uint16 1) packet).ftcWaiting = sys.ftcWaiting :=
      rfl
    constructor
    case transfer => rw [hsetup]; exact ⟨h1, h2, h3, h4, h5, h6, h7⟩
    case counters => rw [hsetup]; exact ⟨h8, h9, h10⟩
    case calls =>
      simp only [otaSendEvent, otaFtcSendRsp_calls]
      rfl
    case notifyOn =>
      simp only [otaSendEvent, otaFtcSendRsp_notifyOn]
      rfl
    case queue =>
      simp only [otaSendEvent, otaFtcSendRsp_queue, hwaiting, hresponse, hevents]
      simp [getReqSetup]
    case ftcWaiting =>
      rw [hresponse, Option.isSome_some, Bool.or_true]
      exact otaFtcSendRsp_ftcWaiting env _ conn .getRsp _ _ 0
    case ftcMsgBuf =>
      simp only [otaSendEvent, otaFtcSendRsp_ftcMsgBuf, hwaiting, hresponse]
      rfl
  · rw [otaFtcProcGetReq, if_pos hidle]
    exact .of_busy env sys conn packet hlen .getReq .getRsp hop (by simp) hidle

theorem otaFtcProcPutReq_effect (hop : FtcOp.ofByte (packet.byte 0) = some .putReq) :
    FtcEffect env sys packet (otaFtcProcPutReq env sys conn (packet.uint16 1) packet) := by
  by_cases hidle : sys.cb.ftInProgress = .none
  · rw [otaFtcProcPutReq, if_neg (not_not.mpr hidle)]
    exact .of_response env sys (putReqSetup sys (packet.uint16 1) packet) packet conn .putRsp
      .success (by simp [ftcSetup, hlen, hop, hidle]) (by simp [ftcResponse, hlen, hop, hidle])
      (by simp [ftcEvents, hlen, hop]) ⟨rfl, rfl, rfl, rfl, rfl⟩
  · rw [otaFtcProcPutReq, if_pos hidle]
    exact .of_busy env sys conn packet hlen .putReq .putRsp hop (by simp) hidle

theorem otaFtcProcVerifyReq_effect (hop : FtcOp.ofByte (packet.byte 0) = some .verifyReq) :
    FtcEffect env sys packet (otaFtcProcVerifyReq env sys conn (packet.uint16 1) packet) := by
  by_cases hidle : sys.cb.ftInProgress = .none
  · rw [otaFtcProcVerifyReq, if_neg (not_not.mpr hidle)]
    exact .of_response env sys (verifyReqSetup sys (packet.uint16 1) packet) packet conn
      .verifyRsp (verifyStatus env sys (packet.uint32 3) (packet.uint32 7) (packet.uint32 11))
      (by simp [ftcSetup, hlen, hop, hidle]) (by simp [ftcResponse, hlen, hop, hidle])
      (by simp [ftcEvents, hlen, hop]) ⟨rfl, rfl, rfl, rfl, rfl⟩
  · rw [otaFtcProcVerifyReq, if_pos hidle]
    exact .of_busy env sys conn packet hlen .verifyReq .verifyRsp hop (by simp) hidle

theorem otaFtcProcEraseReq_effect (hop : FtcOp.ofByte (packet.byte 0) = some .eraseReq) :
    FtcEffect env sys packet (otaFtcProcEraseReq env sys conn (packet.uint16 1) packet) := by
  by_cases hidle : sys.cb.ftInProgress = .none
  · rw [otaFtcProcEraseReq, if_neg (not_not.mpr hidle)]
    exact .of_response env sys (eraseReqSetup env sys (packet.uint16 1) packet) packet conn
      .eraseRsp .success (by simp [ftcSetup, hlen, hop, hidle])
      (by simp [ftcResponse, hlen, hop, hidle]) (by simp [ftcEvents, hlen, hop])
      (eraseReqSetup_sameMessages env sys _ packet)
  · rw [otaFtcProcEraseReq, if_pos hidle]
    exact .of_busy env sys conn packet hlen .eraseReq .eraseRsp hop (by simp) hidle

theorem otaFtcProcAbort_effect (hop : FtcOp.ofByte (packet.byte 0) = some .abort) :
    FtcEffect env sys packet (otaFtcProcAbort sys) := by
  apply FtcEffect.of_silent env sys (otaFtcProcAbort sys) packet
  · simp [ftcSetup, hlen, hop]
  · simp [ftcResponse, hlen, hop]
  · simp [ftcEvents, hlen, hop]
  · unfold otaFtcProcAbort
    split <;> exact ⟨rfl, rfl, rfl, rfl, rfl⟩

end Requests

theorem otaFtcWrite_effect (env : Env) (sys : Sys) (conn : Conn) (packet : Packet) :
    FtcEffect env sys packet (otaFtcWrite env sys conn packet).2 := by
  have hself : SameMessages sys sys := ⟨rfl, rfl, rfl, rfl, rfl⟩
  unfold otaFtcWrite
  split
  next hlen =>
    have hlen : packet.len < 3 := hlen
    exact .of_silent env sys sys packet (by simp [ftcSetup, hlen]) (by simp [ftcResponse, hlen])
      (by simp [ftcEvents, hlen]) hself
  next hlen =>
    have hlen : ¬ packet.len < 3 := hlen
    dsimp only
    split
    next hop => exact otaFtcProcGetReq_effect env sys conn packet hlen hop
    next hop => exact otaFtcProcPutReq_effect env sys conn packet hlen hop
    next hop => exact otaFtcProcVerifyReq_effect env sys conn packet hlen hop
    next hop => exact otaFtcProcEraseReq_effect env sys conn packet hlen hop
    next hop => exact otaFtcProcAbort_effect env sys packet hlen hop
    next hop =>
      have hsetup : ftcSetup env sys packet = sys := by simp [ftcSetup, hlen, hop]
      refine ⟨hsetup.symm ▸ ⟨rfl, rfl, rfl, rfl, rfl, rfl, rfl⟩, hsetup.symm ▸ ⟨rfl, rfl, rfl⟩,
        rfl, rfl, ?_, ?_, ?_⟩
      · simp [otaFtcProcReset, otaSendEvent, ftcResponse, ftcEvents, hlen, hop]
      · simp [otaFtcProcReset, otaSendEvent, ftcResponse, Sys.ftcWaiting, hlen, hop]
      · simp [otaFtcProcReset, otaSendEvent, ftcResponse, hlen, hop]
    next hop =>
      exact .of_response env sys sys packet conn .getVersionRsp .success
        (by simp [ftcSetup, hlen, hop]) (by simp [ftcResponse, hlen, hop])
        (by simp [ftcEvents, hlen, hop]) hself
    next hget hput hverify herase habort _ hversion =>
      exact .of_silent env sys sys packet
        (by simp [ftcSetup, hlen, show FtcOp.ofByte (packet.byte 0) ≠ some .abort from habort])
        (by simp [ftcResponse, hlen]) (by simp [ftcEvents, hlen]) hself

/-! ## What a control write prepares -/

theorem ftcSetup_of_busy (env : Env) (sys : Sys) (packet : Packet)
    (hbusy : sys.cb.ftInProgress ≠ .none)
    (habort : 3 ≤ packet.len → FtcOp.ofByte (packet.byte 0) ≠ some .abort) :
    ftcSetup env sys packet = sys := by
  by_cases hlen : packet.len < 3
  · rw [ftcSetup, if_pos hlen]
  · rw [ftcSetup, if_neg hlen, if_neg (habort (UInt16.not_lt.mp hlen)), if_pos hbusy]

theorem ftcSetup_abort (env : Env) (sys : Sys) (packet : Packet) (hlen : 3 ≤ packet.len)
    (hop : FtcOp.ofByte (packet.byte 0) = some .abort) :
    ftcSetup env sys packet = otaFtcProcAbort sys := by
  rw [ftcSetup, if_neg (UInt16.not_lt.mpr hlen), if_pos hop]

theorem ftcSetup_put (env : Env) (sys : Sys) (packet : Packet) (hlen : 3 ≤ packet.len)
    (hop : FtcOp.ofByte (packet.byte 0) = some .putReq) (hidle : sys.cb.ftInProgress = .none) :
    ftcSetup env sys packet = putReqSetup sys (packet.uint16 1) packet := by
  simp [ftcSetup, UInt16.not_lt.mpr hlen, hop, hidle]

theorem ftcSetup_get (env : Env) (sys : Sys) (packet : Packet) (hlen : 3 ≤ packet.len)
    (hop : FtcOp.ofByte (packet.byte 0) = some .getReq) (hidle : sys.cb.ftInProgress = .none) :
    ftcSetup env sys packet = getReqSetup env sys (packet.uint16 1) packet := by
  simp [ftcSetup, UInt16.not_lt.mpr hlen, hop, hidle]

theorem otaFtcProcAbort_ftInProgress (sys : Sys) :
    (otaFtcProcAbort sys).cb.ftInProgress = .none := by
  unfold otaFtcProcAbort
  split
  · rfl
  next hidle => exact not_not.mp hidle

/-- The operation a control write starts when none is in progress. -/
def startedOp (packet : Packet) : FtcOp :=
  if packet.len < 3 then .none
  else
    match FtcOp.ofByte (packet.byte 0) with
    | some .getReq => .getReq
    | some .putReq => .putReq
    | _ => .none

theorem ftcSetup_ftInProgress_of_idle (env : Env) (sys : Sys) (packet : Packet)
    (hidle : sys.cb.ftInProgress = .none) :
    (ftcSetup env sys packet).cb.ftInProgress = startedOp packet := by
  unfold ftcSetup startedOp
  split
  next => exact hidle
  next =>
    split
    next habort =>
      rw [habort]
      exact otaFtcProcAbort_ftInProgress sys
    next =>
      rw [if_neg (not_not.mpr hidle)]
      split
      next hop => rw [hop]; rfl
      next hop => rw [hop]; rfl
      next hop => rw [hop]; exact hidle
      next hop => rw [hop]; simpa [eraseReqSetup] using hidle
      next hget hput hverify herase =>
        rw [hidle]
        split
        next hop => exact absurd hop hget
        next hop => exact absurd hop hput
        next => rfl

theorem ftcSetup_storage (env : Env) (sys : Sys) (packet : Packet) :
    (ftcSetup env sys packet).cb.storage = sys.cb.storage := by
  unfold ftcSetup
  split
  next => rfl
  next =>
    split
    next =>
      unfold otaFtcProcAbort
      split <;> rfl
    next =>
      split
      next => rfl
      next =>
        split
        · rfl
        · rfl
        · rfl
        · simp [eraseReqSetup]
        · rfl

/-! ## Data writes -/

/-- The checks of `ota_ftd_write` that let a packet through to the flash. -/
def FtdAccepts (sys : Sys) (packet : Packet) : Prop :=
  sys.cb.ftInProgress = .putReq ∧ 0 < packet.len ∧ packet.len.toUInt32 ≤ sys.cb.ftLen

instance (sys : Sys) (packet : Packet) : Decidable (FtdAccepts sys packet) :=
  inferInstanceAs (Decidable (_ ∧ _ ∧ _))

/-- Everything a data write can do. -/
inductive FtdEffect (env : Env) (sys : Sys) (conn : Conn) (packet : Packet) : Sys → Prop
  | rejected (hrejects : ¬ FtdAccepts sys packet) : FtdEffect env sys conn packet sys
  | last (haccepts : FtdAccepts sys packet)
      (hlast : (ftdWriteTake env sys conn packet).cb.ftLen = 0) :
      FtdEffect env sys conn packet
        (ftdWriteDone env (ftdWriteTake env sys conn packet) conn)
  | more (haccepts : FtdAccepts sys packet)
      (hmore : (ftdWriteTake env sys conn packet).cb.ftLen ≠ 0) :
      FtdEffect env sys conn packet (ftdWriteMore (ftdWriteTake env sys conn packet))

theorem otaFtdWrite_effect (env : Env) (sys : Sys) (conn : Conn) (packet : Packet) :
    FtdEffect env sys conn packet (otaFtdWrite env sys conn packet).2 := by
  unfold otaFtdWrite
  split
  next hprogress => exact .rejected fun haccepts => hprogress haccepts.1
  next hprogress =>
    split
    next hlen => exact .rejected fun haccepts => UInt16.not_lt.mpr hlen haccepts.2.1
    next hlen =>
      split
      next hfits =>
        have haccepts : FtdAccepts sys packet :=
          ⟨not_not.mp hprogress, UInt16.not_le.mp hlen, hfits⟩
        dsimp only
        split
        next hlast => exact .last haccepts (by simpa using hlast)
        next hmore => exact .more haccepts (by simpa using hmore)
      next hfits => exact .rejected fun haccepts => hfits haccepts.2.2

section Take

variable (env : Env) (sys : Sys) (conn : Conn) (packet : Packet)

@[simp] theorem otaStorageWrite_cb (addr : UInt32) (data : List UInt8) :
    (otaStorageWrite env sys addr data).cb = sys.cb := by
  unfold otaStorageWrite
  split <;> rfl

@[simp] theorem ftdWriteTake_ftAddr :
    (ftdWriteTake env sys conn packet).cb.ftAddr = sys.cb.ftAddr + packet.len.toUInt32 := by
  simp [ftdWriteTake]

@[simp] theorem ftdWriteTake_ftLen :
    (ftdWriteTake env sys conn packet).cb.ftLen = sys.cb.ftLen - packet.len.toUInt32 := by
  simp [ftdWriteTake]

@[simp] theorem ftdWriteTake_ftInProgress :
    (ftdWriteTake env sys conn packet).cb.ftInProgress = sys.cb.ftInProgress := by
  simp [ftdWriteTake]

@[simp] theorem ftdWriteTake_storage :
    (ftdWriteTake env sys conn packet).cb.storage = sys.cb.storage := by
  simp [ftdWriteTake]

theorem ftdWriteTake_flashWrites (hstorage : sys.cb.storage = true) :
    (ftdWriteTake env sys conn packet).flashWrites =
      sys.flashWrites ++ [(sys.cb.ftAddr, packet.payload)] := by
  simp [ftdWriteTake, otaStorageWrite, hstorage]

/-- Finishing a put only resets the progress code. -/
theorem ftdWriteDone_sameTransfer :
    SameTransfer { sys with cb.ftInProgress := .none } (ftdWriteDone env sys conn) := by
  obtain ⟨h1, h2, h3, h4, h5, h6, h7⟩ := otaFtcSendRsp_sameTransfer env
    (otaSendEvent { sys with cb.ftInProgress := .none } .ftcAsync) conn .eof sys.cb.ftHandle 0 0
  exact ⟨h1, h2, h3, h4, h5, h6, h7⟩

theorem ftdWriteMore_sameTransfer : SameTransfer sys (ftdWriteMore sys) := by
  unfold ftdWriteMore
  split
  · exact ⟨rfl, rfl, rfl, rfl, rfl, rfl, rfl⟩
  · exact SameTransfer.refl sys

end Take

/-- The transfer after an accepted packet. -/
structure FtdTaken (sys : Sys) (packet : Packet) (next : Sys) : Prop where
  ftAddr : next.cb.ftAddr = sys.cb.ftAddr + packet.len.toUInt32
  ftLen : next.cb.ftLen = sys.cb.ftLen - packet.len.toUInt32
  ftInProgress : next.cb.ftInProgress = if next.cb.ftLen = 0 then .none else .putReq
  storage : next.cb.storage = sys.cb.storage
  flashWrites : sys.cb.storage = true →
    next.flashWrites = sys.flashWrites ++ [(sys.cb.ftAddr, packet.payload)]

/-- Reporting a packet keeps the transfer, whether or not it was the last one. -/
theorem ftdTaken_of_sameTransfer {env : Env} {sys next : Sys} {conn : Conn} {packet : Packet}
    {op : FtcOp}
    (hsame : SameTransfer { ftdWriteTake env sys conn packet with cb.ftInProgress := op } next)
    (hop : op = if (ftdWriteTake env sys conn packet).cb.ftLen = 0 then .none else .putReq) :
    FtdTaken sys packet next where
  ftAddr := hsame.ftAddr.trans (ftdWriteTake_ftAddr env sys conn packet)
  ftLen := hsame.ftLen.trans (ftdWriteTake_ftLen env sys conn packet)
  ftInProgress := by
    rw [hsame.ftInProgress, hsame.ftLen]
    exact hop
  storage := hsame.storage.trans (ftdWriteTake_storage env sys conn packet)
  flashWrites := fun hstorage => hsame.flashWrites.trans
    (ftdWriteTake_flashWrites env sys conn packet hstorage)

theorem otaFtdWrite_rejected (env : Env) (sys : Sys) (conn : Conn) (packet : Packet)
    (hrejects : ¬ FtdAccepts sys packet) : (otaFtdWrite env sys conn packet).2 = sys := by
  have heffect := otaFtdWrite_effect env sys conn packet
  generalize (otaFtdWrite env sys conn packet).2 = next at heffect
  cases heffect with
  | rejected => rfl
  | last haccepts => exact absurd haccepts hrejects
  | more haccepts => exact absurd haccepts hrejects

theorem otaFtdWrite_taken (env : Env) (sys : Sys) (conn : Conn) (packet : Packet)
    (haccepts : FtdAccepts sys packet) :
    FtdTaken sys packet (otaFtdWrite env sys conn packet).2 := by
  have heffect := otaFtdWrite_effect env sys conn packet
  generalize (otaFtdWrite env sys conn packet).2 = next at heffect
  cases heffect with
  | rejected hrejects => exact absurd haccepts hrejects
  | last _ hlast =>
      apply ftdTaken_of_sameTransfer (ftdWriteDone_sameTransfer env _ conn)
      rw [if_pos hlast]
  | more _ hmore =>
      apply ftdTaken_of_sameTransfer (ftdWriteMore_sameTransfer _)
      rw [if_neg hmore]
      exact (ftdWriteTake_ftInProgress env sys conn packet).trans haccepts.1

/-- The messages an accepted packet leads to: an acknowledgement event, unless
one is waiting and more is expected, and at the end the end of file response. -/
structure FtdMessages (env : Env) (sys : Sys) (packet : Packet) (next : Sys) : Prop where
  pendingCount : next.cb.pendingCount = sys.cb.pendingCount + packet.len.toUInt32
  sendCount : next.cb.sendCount = sys.cb.sendCount
  ftHandle : next.cb.ftHandle = sys.cb.ftHandle
  calls : next.calls = sys.calls
  notifyOn : next.notifyOn = sys.notifyOn
  asyncWaiting : next.asyncWaiting = (sys.asyncWaiting || next.cb.ftLen != 0)
  ftcWaiting : next.ftcWaiting = (sys.ftcWaiting || next.cb.ftLen == 0)
  queue : next.queue = sys.queue ++
    if next.cb.ftLen = 0 then .ftcAsync :: if sys.ftcWaiting then [] else [.ftc]
    else if sys.asyncWaiting then [] else [.ftcAsync]
  ftcMsgBuf : next.cb.ftcMsgBuf =
    if next.cb.ftLen = 0 ∧ sys.ftcWaiting = false then ftcMessage env .eof sys.cb.ftHandle 0 0
    else sys.cb.ftcMsgBuf

/-- Storing a packet sends and posts nothing. -/
theorem ftdWriteTake_sameMessages (env : Env) (sys : Sys) (conn : Conn) (packet : Packet) :
    SameMessages sys (ftdWriteTake env sys conn packet) := by
  unfold ftdWriteTake otaStorageWrite
  split <;> exact ⟨rfl, rfl, rfl, rfl, rfl⟩

@[simp] theorem ftdWriteTake_pendingCount (env : Env) (sys : Sys) (conn : Conn)
    (packet : Packet) : (ftdWriteTake env sys conn packet).cb.pendingCount =
      sys.cb.pendingCount + packet.len.toUInt32 := by
  simp [ftdWriteTake]

@[simp] theorem ftdWriteTake_sendCount (env : Env) (sys : Sys) (conn : Conn)
    (packet : Packet) : (ftdWriteTake env sys conn packet).cb.sendCount = sys.cb.sendCount := by
  simp [ftdWriteTake]

@[simp] theorem ftdWriteTake_ftHandle (env : Env) (sys : Sys) (conn : Conn)
    (packet : Packet) : (ftdWriteTake env sys conn packet).cb.ftHandle = sys.cb.ftHandle := by
  simp [ftdWriteTake]

theorem SameMessages.asyncWaiting {first second : Sys} (hsame : SameMessages first second) :
    second.asyncWaiting = first.asyncWaiting := by
  rw [Sys.asyncWaiting, Sys.asyncWaiting, hsame.txReadyMask]

section Done

variable (env : Env) (sys : Sys) (conn : Conn)

theorem ftdWriteDone_sameCounters : SameCounters sys (ftdWriteDone env sys conn) := by
  obtain ⟨h1, h2, h3⟩ := otaFtcSendRsp_sameCounters env
    (otaSendEvent { sys with cb.ftInProgress := .none } .ftcAsync) conn .eof sys.cb.ftHandle 0 0
  exact ⟨h1, h2, h3⟩

@[simp] theorem ftdWriteDone_calls : (ftdWriteDone env sys conn).calls = sys.calls :=
  otaFtcSendRsp_calls env _ conn .eof _ 0 0

@[simp] theorem ftdWriteDone_notifyOn : (ftdWriteDone env sys conn).notifyOn = sys.notifyOn :=
  otaFtcSendRsp_notifyOn env _ conn .eof _ 0 0

@[simp] theorem ftdWriteDone_ftcWaiting : (ftdWriteDone env sys conn).ftcWaiting = true :=
  otaFtcSendRsp_ftcWaiting env _ conn .eof _ 0 0

@[simp] theorem ftdWriteDone_queue : (ftdWriteDone env sys conn).queue =
    sys.queue ++ .ftcAsync :: if sys.ftcWaiting then [] else [.ftc] := by
  have hqueue := otaFtcSendRsp_queue env
    (otaSendEvent { sys with cb.ftInProgress := .none } .ftcAsync) conn .eof sys.cb.ftHandle 0 0
  refine hqueue.trans ?_
  simp only [otaSendEvent, List.append_assoc, List.singleton_append]
  rfl

@[simp] theorem ftdWriteDone_ftcMsgBuf : (ftdWriteDone env sys conn).cb.ftcMsgBuf =
    if sys.ftcWaiting then sys.cb.ftcMsgBuf else ftcMessage env .eof sys.cb.ftHandle 0 0 :=
  otaFtcSendRsp_ftcMsgBuf env
    (otaSendEvent { sys with cb.ftInProgress := .none } .ftcAsync) conn .eof sys.cb.ftHandle 0 0

end Done

/-- Expecting more data touches the ready bit and the queue, nothing else. -/
theorem ftdWriteMore_frame (sys : Sys) :
    (ftdWriteMore sys).cb.pendingCount = sys.cb.pendingCount ∧
      (ftdWriteMore sys).cb.sendCount = sys.cb.sendCount ∧
      (ftdWriteMore sys).cb.ftcMsgBuf = sys.cb.ftcMsgBuf ∧
      (ftdWriteMore sys).calls = sys.calls ∧ (ftdWriteMore sys).notifyOn = sys.notifyOn := by
  unfold ftdWriteMore
  split <;> exact ⟨rfl, rfl, rfl, rfl, rfl⟩

theorem asyncWaiting_eq_false (sys : Sys) :
    sys.asyncWaiting = false ↔ (sys.cb.txReadyMask &&& txMaskFtcAsyncBit == 0) = true := by
  simp [Sys.asyncWaiting]

@[simp] theorem ftdWriteMore_asyncWaiting (sys : Sys) : (ftdWriteMore sys).asyncWaiting = true := by
  unfold ftdWriteMore
  split
  · simp only [Sys.asyncWaiting, otaSendEvent]
    rw [Machine.or_and_self]
    decide
  next hwaiting => simpa [Sys.asyncWaiting] using hwaiting

@[simp] theorem ftdWriteMore_ftcWaiting (sys : Sys) :
    (ftdWriteMore sys).ftcWaiting = sys.ftcWaiting := by
  unfold ftdWriteMore
  split
  · simp only [Sys.ftcWaiting, otaSendEvent]
    rw [Machine.or_and_of_disjoint (by decide)]
  · rfl

@[simp] theorem ftdWriteMore_queue (sys : Sys) : (ftdWriteMore sys).queue =
    sys.queue ++ if sys.asyncWaiting then [] else [.ftcAsync] := by
  unfold ftdWriteMore
  by_cases hwaiting : sys.asyncWaiting = false
  · rw [if_pos ((asyncWaiting_eq_false sys).mp hwaiting), hwaiting]
    rfl
  · rw [if_neg fun hzero => hwaiting ((asyncWaiting_eq_false sys).mpr hzero)]
    simp [hwaiting]

theorem otaFtdWrite_messages (env : Env) (sys : Sys) (conn : Conn) (packet : Packet)
    (haccepts : FtdAccepts sys packet) :
    FtdMessages env sys packet (otaFtdWrite env sys conn packet).2 := by
  have heffect := otaFtdWrite_effect env sys conn packet
  generalize (otaFtdWrite env sys conn packet).2 = next at heffect
  have htake := ftdWriteTake_sameMessages env sys conn packet
  cases heffect with
  | rejected hrejects => exact absurd haccepts hrejects
  | last _ hlast =>
      have hsame := ftdWriteDone_sameTransfer env (ftdWriteTake env sys conn packet) conn
      have hcounters := ftdWriteDone_sameCounters env (ftdWriteTake env sys conn packet) conn
      have hzero : (ftdWriteDone env (ftdWriteTake env sys conn packet) conn).cb.ftLen = 0 :=
        hsame.ftLen.trans hlast
      constructor
      case pendingCount => simp [hcounters.pendingCount]
      case sendCount => simp [hcounters.sendCount]
      case ftHandle => simp [hsame.ftHandle]
      case calls => simp [htake.calls]
      case notifyOn => simp [htake.notifyOn]
      case asyncWaiting => simp [hzero, hcounters.asyncWaiting, htake.asyncWaiting]
      case ftcWaiting => simp [hzero]
      case queue => simp [hzero, htake.queue, htake.ftcWaiting]
      case ftcMsgBuf =>
        simp only [hzero, ftdWriteDone_ftcMsgBuf, htake.ftcWaiting, htake.ftcMsgBuf,
          ftdWriteTake_ftHandle, true_and]
        cases sys.ftcWaiting <;> rfl
  | more _ hmore =>
      have hsame := ftdWriteMore_sameTransfer (ftdWriteTake env sys conn packet)
      obtain ⟨hpending, hsend, hbuffer, hcalls, hnotify⟩ :=
        ftdWriteMore_frame (ftdWriteTake env sys conn packet)
      have hlen : (ftdWriteMore (ftdWriteTake env sys conn packet)).cb.ftLen ≠ 0 := by
        rw [hsame.ftLen]
        exact hmore
      constructor
      case pendingCount => simp [hpending]
      case sendCount => simp [hsend]
      case ftHandle => simp [hsame.ftHandle]
      case calls => rw [hcalls, htake.calls]
      case notifyOn => rw [hnotify, htake.notifyOn]
      case asyncWaiting => simp [hlen]
      case ftcWaiting => simp [hlen, htake.ftcWaiting]
      case queue => simp [hlen, htake.queue, htake.asyncWaiting]
      case ftcMsgBuf => rw [if_neg (fun hzero => hlen hzero.1), hbuffer, htake.ftcMsgBuf]

/-! ## Device configuration writes -/

/-- A device configuration write at most requests new connection parameters. -/
theorem otaDcWrite_cases (sys : Sys) (conn : Conn) (packet : Packet) :
    (otaDcWrite sys conn packet).2 = sys ∨
      ∃ param, (otaDcWrite sys conn packet).2 =
        otaSendEvent { sys with param := param, cb.conn := conn } .connParamUpdate := by
  unfold otaDcWrite otaDcSetConnParamReq
  dsimp only
  repeat' split
  all_goals first | exact .inl rfl | exact .inr ⟨_, rfl⟩

theorem otaDcWrite_sameTransfer (sys : Sys) (conn : Conn) (packet : Packet) :
    SameTransfer sys (otaDcWrite sys conn packet).2 := by
  obtain heq | ⟨param, heq⟩ := otaDcWrite_cases sys conn packet
  · rw [heq]
    exact SameTransfer.refl sys
  · rw [heq]
    exact ⟨rfl, rfl, rfl, rfl, rfl, rfl, rfl⟩

end CubieBle.Ota
