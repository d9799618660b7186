import CubieBle.AirSync.Protocol
import CubieBle.Machine.History

/-! # The handshake

The application sends a command and waits for the receive thread to move the status on, which
that does for any packet. The two threads interleave: a packet is parsed before the lock is
taken, so that the status it is counted for may be a later one.
-/

namespace CubieBle.AirSync

open Machine

/-! ## The two threads -/

inductive Cmd
  | auth
  | init
  | sendDat
deriving DecidableEq

/-- `airsync_proto_handle`, with the command it sends. -/
def airsyncProtoHandle (as : AirsyncPriv) : AirsyncPriv × Option Cmd :=
  match as.protoStatus with
  | .idle => ({ as with protoStatus := .authSending }, some .auth)
  | .authRspReceived => ({ as with protoStatus := .initSending }, some .init)
  | .initRspReceived => ({ as with protoStatus := .sendOrRecv }, some .sendDat)
  | _ => (as, none)

def airsyncProtoIndStatusCb (as : AirsyncPriv) (onoff : Bool) : AirsyncPriv :=
  { as with
    protoStatus := if onoff then .idle else .canNotInd
    cachedLen := 0 }

structure Threads where
  as : AirsyncPriv
  /-- The receive thread has consumed a packet and waits for the lock. -/
  receiving : Bool

inductive Event
  | indStatus (onoff : Bool)
  | write (write : Write)
  /-- The receive thread gets the lock. -/
  | locked
  | handle

def Threads.step (unpack : Unpackers) (threads : Threads) : Event → Threads
  | .indStatus onoff =>
      if threads.receiving then threads
      else { threads with as := airsyncProtoIndStatusCb threads.as onoff }
  | .write write =>
      if threads.receiving then threads
      else
        let (ret, as) := recvParse unpack threads.as write
        ⟨as, 0 < ret⟩
  | .locked => if threads.receiving then ⟨recvCommit threads.as, false⟩ else threads
  | .handle => { threads with as := (airsyncProtoHandle threads.as).1 }

/-! ## What is observed -/

structure Packet where
  length : Nat
  cmdId : Nat
  body : List UInt8
deriving DecidableEq

/-- The packet that a write completes. -/
def completedBy (as : AirsyncPriv) (write : Write) : Option Packet :=
  (parseInput as write).bind fun (buffer, len) =>
    if len < nLength buffer then none
    else some ⟨nLength buffer, nCmdId buffer, packetBody buffer⟩

inductive Observation
  | indStatus (onoff : Bool)
  | sent (cmd : Cmd)
  | consumed (packet : Packet)
deriving DecidableEq

def observed (threads : Threads) : Event → List Observation
  | .indStatus onoff => if threads.receiving then [] else [.indStatus onoff]
  | .write write =>
      if threads.receiving then [] else (completedBy threads.as write).toList.map .consumed
  | .locked => []
  | .handle => (airsyncProtoHandle threads.as).2.toList.map .sent

/-- The threads with the history of what was observed. -/
def Threads.trackedStep (unpack : Unpackers) :
    Tracked Threads (List Observation) → Event → Tracked Threads (List Observation) :=
  Machine.trackedStep (Threads.step unpack) fun threads event history =>
    history ++ observed threads event

section Answers

variable (unpack : Unpackers)

/-- `ECI_resp_auth` with `err_code` 0. -/
def AuthOk (packet : Packet) : Prop :=
  packet.cmdId = eciRespAuth ∧ unpack.authResponse packet.body = some ⟨some 0⟩

/-- `ECI_resp_init` with `err_code` 0 and the right answer to the challenge, if it has one. -/
def InitOk (packet : Packet) : Prop :=
  packet.cmdId = eciRespInit ∧
    (unpack.initResponse packet.body = some ⟨some 0, none⟩ ∨
      unpack.initResponse packet.body = some ⟨some 0, some (wechatCrc32 0 challeange)⟩)

def Enabled (observation : Observation) : Prop := observation = .indStatus true

def AuthSent : List Observation → Prop :=
  Since Enabled fun _ observation => observation = .sent .auth

def AuthAnswered : List Observation → Prop :=
  Since Enabled fun before observation =>
    (∃ packet, observation = .consumed packet ∧ AuthOk unpack packet) ∧ AuthSent before

def InitSent : List Observation → Prop :=
  Since Enabled fun before observation => observation = .sent .init ∧ AuthAnswered unpack before

def InitAnswered : List Observation → Prop :=
  Since Enabled fun before observation =>
    (∃ packet, observation = .consumed packet ∧ InitOk unpack packet) ∧ InitSent unpack before

/-- What has to be in the history before a command. -/
def Needs : Observation → List Observation → Prop
  | .sent .init, before => AuthAnswered unpack before
  | .sent .sendDat, before => InitAnswered unpack before
  | _, _ => True

end Answers

/-! ## Packets that do not count -/

/-- A response with an error code other than 0. -/
inductive HasError (unpack : Unpackers) (packet : Packet) : Prop
  | auth (hcmd : packet.cmdId = eciRespAuth)
      (h : ∃ errCode, errCode ≠ 0 ∧ unpack.authResponse packet.body = some ⟨some errCode⟩)
  | init (hcmd : packet.cmdId = eciRespInit)
      (h : ∃ errCode answer, errCode ≠ 0 ∧
        unpack.initResponse packet.body = some ⟨some errCode, answer⟩)
  | sendData (hcmd : packet.cmdId = eciRespSendData)
      (h : ∃ errCode, errCode ≠ 0 ∧ unpack.sendDataResponse packet.body = some ⟨some errCode⟩)

/-- A packet that the parser does not report as consumed: it has no length and no error code, its
error code is not 0 and is not positive when it is read again, or its body cannot be unpacked. -/
inductive Rejected (unpack : Unpackers) (freed : Int) (packet : Packet) : Prop
  | empty (h : packet.length = 0) (hnone : ¬ HasError unpack packet)
  | error (h : HasError unpack packet) (hfreed : freed ≤ 0)
  | auth (hcmd : packet.cmdId = eciRespAuth) (h : unpack.authResponse packet.body = none)
  | init (hcmd : packet.cmdId = eciRespInit) (h : unpack.initResponse packet.body = none)
  | sendData (hcmd : packet.cmdId = eciRespSendData)
      (h : unpack.sendDataResponse packet.body = none)
  | recvData (hcmd : packet.cmdId = eciPushRecvData) (h : unpack.recvDataPush packet.body = false)
  | switchView (hcmd : packet.cmdId = eciPushSwitchView)
      (h : unpack.switchViewPush packet.body = false)
  | switchBackgroud (hcmd : packet.cmdId = eciPushSwitchBackgroud)
      (h : unpack.switchBackgroudPush packet.body = false)

/-- The answer that is awaited is the only packet that counts, and no command is sent between
the parser and the lock. -/
def Awaited (unpack : Unpackers) (threads : Threads) : Event → Prop
  | .write write =>
      threads.receiving = false → ∀ packet ∈ completedBy threads.as write,
        (threads.as.protoStatus = .authSending →
          AuthOk unpack packet ∨ Rejected unpack write.freed packet) ∧
        (threads.as.protoStatus = .initSending →
          InitOk unpack packet ∨ Rejected unpack write.freed packet)
  | .handle =>
      threads.receiving = true →
        threads.as.protoStatus ≠ .idle ∧ threads.as.protoStatus ≠ .authRspReceived
  | _ => True

section Parser

variable {unpack : Unpackers} {as : AirsyncPriv} {write : Write}

/-- The parser answers an error code with what it reads from freed memory. -/
theorem consumePacket_of_hasError {packet : Packet} (herror : HasError unpack packet) (freed : Int)
    (wx : WxbtState) :
    (consumePacket unpack freed wx packet.cmdId packet.body packet.length).1 = freed := by
  cases herror with
  | auth hcmd h =>
      obtain ⟨errCode, herr, hresp⟩ := h
      simp [consumePacket, hcmd, hresp, herr]
  | init hcmd h =>
      obtain ⟨errCode, answer, herr, hresp⟩ := h
      simp [consumePacket, hcmd, hresp, herr, eciRespAuth, eciRespInit]
  | sendData hcmd h =>
      obtain ⟨errCode, herr, hresp⟩ := h
      simp [consumePacket, hcmd, hresp, herr, eciRespAuth, eciRespInit, eciRespSendData]

/-- Without an error code it answers with the length, or with a negative code. -/
theorem consumePacket_le_length {packet : Packet} (hnone : ¬ HasError unpack packet) (freed : Int)
    (wx : WxbtState) :
    (consumePacket unpack freed wx packet.cmdId packet.body packet.length).1 ≤ packet.length := by
  have hcode : ∀ code : Nat, Int.negSucc code ≤ (packet.length : Int) := fun code =>
    Int.le_trans (Int.le_of_lt (Int.negSucc_lt_zero code)) (Int.natCast_nonneg packet.length)
  simp only [consumePacket]
  split
  next hauth =>
    rcases hresp : unpack.authResponse packet.body with _ | ⟨_ | errCode⟩
    · exact hcode _
    · exact Int.le_refl _
    · have herr : errCode = 0 := by
        by_contra herr
        exact hnone (.auth hauth ⟨errCode, herr, hresp⟩)
      simp only [if_pos herr]
      exact Int.le_refl _
  next =>
  split
  next hinit =>
    rcases hresp : unpack.initResponse packet.body with _ | ⟨_ | errCode, answer⟩
    · exact hcode _
    · exact Int.le_refl _
    · have herr : errCode = 0 := by
        by_contra herr
        exact hnone (.init hinit ⟨errCode, answer, herr, hresp⟩)
      simp only [if_pos herr]
      exact Int.le_refl _
  next =>
  split
  next hdata =>
    rcases hresp : unpack.sendDataResponse packet.body with _ | ⟨_ | errCode⟩
    · exact hcode _
    · exact Int.le_refl _
    · have herr : errCode = 0 := by
        by_contra herr
        exact hnone (.sendData hdata ⟨errCode, herr, hresp⟩)
      simp only [if_pos herr]
      exact Int.le_refl _
  next =>
    repeat' split
    all_goals first
      | exact Int.le_refl _
      | exact hcode _

theorem consumePacket_of_rejected {freed : Int} {packet : Packet}
    (hrejected : Rejected unpack freed packet) (wx : WxbtState) :
    (consumePacket unpack freed wx packet.cmdId packet.body packet.length).1 ≤ 0 := by
  cases hrejected with
  | empty h hnone =>
      have hle := consumePacket_le_length hnone freed wx
      rw [h] at hle ⊢
      exact hle
  | error h hfreed =>
      rw [consumePacket_of_hasError h]
      exact hfreed
  | auth hcmd h =>
      simp [consumePacket, hcmd, h, errorCodeUnpackAuthResp]
  | init hcmd h =>
      simp [consumePacket, hcmd, h, errorCodeUnpackInitResp, eciRespAuth, eciRespInit]
  | sendData hcmd h =>
      simp [consumePacket, hcmd, h, errorCodeUnpackSendDataResp, eciRespAuth,
        eciRespInit, eciRespSendData]
  | recvData hcmd h =>
      simp [consumePacket, hcmd, h, errorCodeUnpackRecvDataPush, eciRespAuth,
        eciRespInit, eciRespSendData, eciPushRecvData]
  | switchView hcmd h =>
      simp [consumePacket, hcmd, h, errorCodeUnpackSwitchViewPush, eciRespAuth,
        eciRespInit, eciRespSendData, eciPushRecvData, eciPushSwitchView]
  | switchBackgroud hcmd h =>
      simp [consumePacket, hcmd, h, errorCodeUnpackSwitchBackgroundPush, eciRespAuth,
        eciRespInit, eciRespSendData, eciPushRecvData, eciPushSwitchView, eciPushSwitchBackgroud]

/-- A write after which the receive thread waits for the lock has completed a packet that is
not rejected. -/
theorem exists_completed_of_pos (hpos : 0 < (recvParse unpack as write).1) :
    ∃ packet, completedBy as write = some packet ∧ ¬ Rejected unpack write.freed packet := by
  cases hinput : parseInput as write with
  | none => simp [recvParse, hinput] at hpos
  | some input =>
      obtain ⟨buffer, len⟩ := input
      have hret : (recvParse unpack as write).1 =
          (dataConsumeFuncRec unpack write.freed as.wxbtState buffer len).1 := by
        simp only [recvParse, hinput]
        repeat' split
        all_goals rfl
      rw [hret, dataConsumeFuncRec] at hpos
      by_cases hmore : len < nLength buffer
      · rw [if_pos hmore] at hpos
        exact absurd hpos (Int.lt_irrefl 0)
      · rw [if_neg hmore] at hpos
        refine ⟨⟨nLength buffer, nCmdId buffer, packetBody buffer⟩, ?_, ?_⟩
        · simp only [completedBy, hinput, Option.bind_some, if_neg hmore]
        · intro hrejected
          have hnonpos := consumePacket_of_rejected hrejected as.wxbtState
          dsimp only at hnonpos
          exact Int.not_lt.mpr hnonpos hpos

end Parser

/-! ## The invariant -/

section Invariant

variable {unpack : Unpackers} {history : List Observation}

/-- What the history contains in each status. A packet that waits for the lock has been the
awaited one. -/
def Known (unpack : Unpackers) (receiving : Bool) (history : List Observation) :
    ProtoStatus → Prop
  | .authSending => AuthSent history ∧ (receiving = true → AuthAnswered unpack history)
  | .authRspReceived => AuthAnswered unpack history
  | .initSending => InitSent unpack history ∧ (receiving = true → InitAnswered unpack history)
  | .initRspReceived => InitAnswered unpack history
  | _ => True

structure InStep (unpack : Unpackers) (current : Tracked Threads (List Observation)) : Prop where
  justified : Justified (Needs unpack) current.history
  known : Known unpack current.state.receiving current.history current.state.as.protoStatus

theorem Known.append {receiving : Bool} {status : ProtoStatus}
    (hknown : Known unpack receiving history status) {more : List Observation}
    (hmore : ∀ later ∈ more, ¬ Enabled later) :
    Known unpack receiving (history ++ more) status := by
  cases status with
  | authSending => exact ⟨hknown.1.append hmore, fun h => (hknown.2 h).append hmore⟩
  | authRspReceived => exact Since.append hknown hmore
  | initSending => exact ⟨hknown.1.append hmore, fun h => (hknown.2 h).append hmore⟩
  | initRspReceived => exact Since.append hknown hmore
  | _ => trivial

theorem Known.recvCommit {as : AirsyncPriv} (hknown : Known unpack true history as.protoStatus) :
    Known unpack false history (recvCommit as).protoStatus := by
  simp only [AirSync.recvCommit]
  cases hstatus : as.protoStatus with
  | authSending =>
      rw [hstatus] at hknown
      exact hknown.2 rfl
  | initSending =>
      rw [hstatus] at hknown
      exact hknown.2 rfl
  | _ =>
      rw [hstatus] at hknown
      simp only [hstatus]
      exact hknown

theorem recvParse_protoStatus (as : AirsyncPriv) (write : Write) :
    (recvParse unpack as write).2.protoStatus = as.protoStatus := by
  simp only [recvParse]
  cases parseInput as write with
  | none => rfl
  | some input =>
      dsimp only
      repeat' split
      all_goals rfl

theorem not_enabled_consumed (packets : List Packet) :
    ∀ later ∈ packets.map Observation.consumed, ¬ Enabled later := by
  intro later hlater henabled
  obtain ⟨packet, -, rfl⟩ := List.mem_map.mp hlater
  exact absurd henabled (by simp [Enabled])

/-- A packet that the receive thread stops at is the awaited one. -/
theorem Known.write {as : AirsyncPriv} {write : Write}
    (hknown : Known unpack false history as.protoStatus)
    (hawaited : Awaited unpack ⟨as, false⟩ (.write write)) :
    Known unpack (0 < (recvParse unpack as write).1)
      (history ++ (completedBy as write).toList.map .consumed)
      (recvParse unpack as write).2.protoStatus := by
  rw [recvParse_protoStatus]
  have hmore := hknown.append (not_enabled_consumed (completedBy as write).toList)
  by_cases hpos : 0 < (recvParse unpack as write).1
  · obtain ⟨packet, hcompleted, hrejected⟩ := exists_completed_of_pos hpos
    obtain ⟨hauth, hinit⟩ := hawaited rfl packet hcompleted
    rw [hcompleted] at hmore ⊢
    cases hstatus : as.protoStatus with
    | authSending =>
        rw [hstatus] at hknown hmore
        have hok := (hauth hstatus).resolve_right hrejected
        exact ⟨hmore.1, fun _ => Since.now ⟨⟨packet, rfl, hok⟩, hknown.1⟩⟩
    | initSending =>
        rw [hstatus] at hknown hmore
        have hok := (hinit hstatus).resolve_right hrejected
        exact ⟨hmore.1, fun _ => Since.now ⟨⟨packet, rfl, hok⟩, hknown.1⟩⟩
    | _ =>
        rw [hstatus] at hmore
        exact hmore
  · rw [decide_eq_false hpos]
    exact hmore

/-- The application sends a command only when the answer to the one before is there. -/
theorem inStep_handle {threads : Threads} (hin : InStep unpack ⟨threads, history⟩)
    (hawaited : Awaited unpack threads .handle) :
    InStep unpack (Threads.trackedStep unpack ⟨threads, history⟩ .handle) := by
  obtain ⟨as, receiving⟩ := threads
  obtain ⟨hjustified, hknown⟩ := hin
  have hreceiving : as.protoStatus = .idle ∨ as.protoStatus = .authRspReceived →
      receiving = true → False := by
    intro hstatus h
    rcases hstatus with hidle | hreceived
    · exact (hawaited h).1 hidle
    · exact (hawaited h).2 hreceived
  dsimp only at hjustified hknown
  simp only [Threads.trackedStep, trackedStep, Threads.step, observed, airsyncProtoHandle]
  cases hstatus : as.protoStatus with
  | idle =>
      have hsent : AuthSent (history ++ [.sent .auth]) := Since.now rfl
      exact ⟨hjustified.snoc trivial, hsent,
        fun h => (hreceiving (.inl hstatus) h).elim⟩
  | authRspReceived =>
      rw [hstatus] at hknown
      have hsent : InitSent unpack (history ++ [.sent .init]) := Since.now ⟨rfl, hknown⟩
      exact ⟨hjustified.snoc hknown, hsent, fun h => (hreceiving (.inr hstatus) h).elim⟩
  | initRspReceived =>
      rw [hstatus] at hknown
      exact ⟨hjustified.snoc hknown, trivial⟩
  | _ =>
      simp only [Option.toList_none, List.map_nil, List.append_nil]
      exact ⟨hjustified, hknown⟩

theorem inStep_write {as : AirsyncPriv} (hin : InStep unpack ⟨⟨as, false⟩, history⟩)
    {write : Write} (hawaited : Awaited unpack ⟨as, false⟩ (.write write)) :
    InStep unpack (Threads.trackedStep unpack ⟨⟨as, false⟩, history⟩ (.write write)) where
  justified := by
    show Justified (Needs unpack) (history ++ (completedBy as write).toList.map .consumed)
    cases completedBy as write with
    | none =>
        rw [Option.toList_none, List.map_nil, List.append_nil]
        exact hin.justified
    | some packet => exact hin.justified.snoc trivial
  known := hin.known.write hawaited

theorem inStep_indStatus {as : AirsyncPriv} (hin : InStep unpack ⟨⟨as, false⟩, history⟩)
    (onoff : Bool) :
    InStep unpack (Threads.trackedStep unpack ⟨⟨as, false⟩, history⟩ (.indStatus onoff)) where
  justified := hin.justified.snoc trivial
  known := by cases onoff <;> trivial

theorem inStep_step (current : Tracked Threads (List Observation)) (event : Event)
    (hin : InStep unpack current) (hawaited : Awaited unpack current.state event) :
    InStep unpack (Threads.trackedStep unpack current event) := by
  obtain ⟨⟨as, receiving⟩, history⟩ := current
  cases event with
  | handle => exact inStep_handle hin hawaited
  | locked =>
      simp only [Threads.trackedStep, trackedStep, Threads.step, observed, List.append_nil]
      cases receiving with
      | true => exact ⟨hin.justified, hin.known.recvCommit⟩
      | false => exact hin
  | write write =>
      cases receiving with
      | true =>
          simp only [Threads.trackedStep, trackedStep, Threads.step, observed, if_true,
            List.append_nil]
          exact hin
      | false => exact inStep_write hin hawaited
  | indStatus onoff =>
      cases receiving with
      | true =>
          simp only [Threads.trackedStep, trackedStep, Threads.step, observed, if_true,
            List.append_nil]
          exact hin
      | false => exact inStep_indStatus hin onoff

end Invariant

/-- In every run in which only the awaited answers count, `CMD_INIT` and `CMD_SENDDAT` are sent
after the right ones. -/
theorem commands_justified_of_awaited (unpack : Unpackers) (as : AirsyncPriv)
    (hstart : as.protoStatus = .canNotInd) (events : List Event)
    (hrun : Along (Threads.trackedStep unpack)
      (fun current event => Awaited unpack current.state event) ⟨⟨as, false⟩, []⟩ events) :
    Throughout (Threads.trackedStep unpack)
      (fun current => Justified (Needs unpack) current.history) ⟨⟨as, false⟩, []⟩ events := by
  have hinit : InStep unpack ⟨⟨as, false⟩, []⟩ := by
    refine ⟨justified_nil, ?_⟩
    rw [hstart]
    trivial
  have hall := throughout_of_invariant (InStep unpack) inStep_step hinit hrun
  exact hall.imp fun _ hin => hin.justified

/-- The bytes of a packet in one write. -/
def packetWrite (cmdId : UInt8 × UInt8) (body : List UInt8) : Write :=
  ⟨[0xfe, 1, 0, UInt8.ofNat (fixHeadLen + body.length), cmdId.1, cmdId.2, 0, 0] ++ body,
    fun _ => 0, 0⟩

/-- The system before any event. -/
def started : Tracked Threads (List Observation) :=
  ⟨⟨⟨.canNotInd, fun _ => 0, 0, ⟨false, false, false, 0⟩⟩, false⟩, []⟩

/-- A response in the status that awaits it. -/
theorem awaited_of_completed {unpack : Unpackers} {threads : Threads} {write : Write}
    (packet : Packet) (hcompleted : completedBy threads.as write = some packet)
    (hauth : threads.as.protoStatus = .authSending → AuthOk unpack packet)
    (hinit : threads.as.protoStatus = .initSending → InitOk unpack packet) :
    Awaited unpack threads (.write write) := by
  intro _ other hother
  obtain rfl := Option.some.inj (hcompleted.symm.trans hother)
  exact ⟨fun hstatus => .inl (hauth hstatus), fun hstatus => .inl (hinit hstatus)⟩

/-- The whole handshake, with a push afterwards. -/
theorem commands_justified_of_answers :
    let events : List Event :=
      [.indStatus true, .handle, .write (packetWrite (0x4e, 0x21) [0x0a, 2, 8, 0, 0x12, 0]),
        .locked, .handle, .write (packetWrite (0x4e, 0x23) [0x0a, 2, 8, 0, 0x10, 0, 0x18, 0]),
        .locked, .handle, .write (packetWrite (0x75, 0x31) [0x0a, 0, 0x12, 1, 0x41]), .locked]
    .sent .sendDat ∈ (run (Threads.trackedStep sampleUnpackers) started events).history ∧
      Throughout (Threads.trackedStep sampleUnpackers)
        (fun current => Justified (Needs sampleUnpackers) current.history) started events := by
  intro events
  refine ⟨by decide, commands_justified_of_awaited sampleUnpackers _ rfl _ ?_⟩
  refine ⟨trivial, nofun, ?_, trivial, nofun, ?_, trivial, nofun, ?_, trivial, trivial⟩
  · refine awaited_of_completed ⟨14, 20001, [0x0a, 2, 8, 0, 0x12, 0]⟩ ?_ ?_ ?_
    · decide
    · intro _
      exact ⟨rfl, rfl⟩
    · intro h
      exact absurd h (by decide)
  · refine awaited_of_completed ⟨16, 20003, [0x0a, 2, 8, 0, 0x10, 0, 0x18, 0]⟩ ?_ ?_ ?_
    · decide
    · intro h
      exact absurd h (by decide)
    · intro _
      exact ⟨rfl, .inl rfl⟩
  · refine awaited_of_completed ⟨13, 30001, [0x0a, 0, 0x12, 1, 0x41]⟩ ?_ ?_ ?_
    · decide
    · intro h
      exact absurd h (by decide)
    · intro h
      exact absurd h (by decide)

/-- A push that comes while the answer to `CMD_AUTH` is awaited counts as the answer. -/
theorem cmdInit_sent_after_push :
    ¬ Throughout (Threads.trackedStep sampleUnpackers)
      (fun current => Justified (Needs sampleUnpackers) current.history) started
      [.indStatus true, .handle, .write (packetWrite (0x75, 0x31) [0x0a, 0, 0x12, 1, 0x41]),
        .locked, .handle] := by
  intro hall
  have hhistory : (run (Threads.trackedStep sampleUnpackers) started
      [.indStatus true, .handle, .write (packetWrite (0x75, 0x31) [0x0a, 0, 0x12, 1, 0x41]),
        .locked, .handle]).history =
      [.indStatus true, .sent .auth, .consumed ⟨13, 30001, [0x0a, 0, 0x12, 1, 0x41]⟩] ++
        [.sent .init] := by
    decide
  have hanswered : AuthAnswered sampleUnpackers _ := hall.last _ (.sent .init) [] hhistory
  obtain ⟨before, observation, hmem, ⟨packet, hconsumed, hok⟩, -⟩ := hanswered.exists_mem
  subst hconsumed
  simp only [List.mem_cons, reduceCtorEq, List.not_mem_nil, or_false, false_or,
    Observation.consumed.injEq] at hmem
  subst hmem
  exact absurd hok.1 (by decide)

end CubieBle.AirSync
