import CubieBle.AirSync.Frames
import CubieBle.AirSync.Responses

/-! # A complete handshake

The phone answers each request with a message that the unpackers take, in fragments of any size
behind the header, while the main loop goes on polling. Then the handshake completes.
-/

namespace CubieBle.AirSync

open Machine Epb

/-! ## Polling -/

/-- Events with polls of the main loop between them. -/
inductive Polled : List Event → List Event → Prop
  | nil : Polled [] []
  | event {events polled : List Event} (event : Event) (hrest : Polled events polled) :
      Polled (event :: events) (event :: polled)
  | handle {events polled : List Event} (hrest : Polled events polled) :
      Polled events (.handle :: polled)

/-- A status in which the main loop waits for a response. -/
def Waits (status : ProtoStatus) : Prop := status = .authSending ∨ status = .initSending

section Waiting

variable {unpack : Unpackers} {as : AirsyncPriv} {history : List Observation}

theorem airsyncProtoHandle_of_waits (hwaits : Waits as.protoStatus) :
    airsyncProtoHandle as = (as, none) := by
  rw [airsyncProtoHandle]
  rcases hwaits with hstatus | hstatus <;> rw [hstatus]

theorem step_handle_of_quiet (hquiet : airsyncProtoHandle as = (as, none)) (receiving : Bool) :
    Threads.trackedStep unpack ⟨⟨as, receiving⟩, history⟩ .handle = ⟨⟨as, receiving⟩, history⟩ := by
  simp only [Threads.trackedStep, trackedStep, Threads.step, observed, hquiet,
    Option.toList_none, List.map_nil, List.append_nil]

theorem run_polls_of_quiet (hquiet : airsyncProtoHandle as = (as, none)) (receiving : Bool)
    {polls : List Event} (hpolls : Polled [] polls) :
    run (Threads.trackedStep unpack) ⟨⟨as, receiving⟩, history⟩ polls =
      ⟨⟨as, receiving⟩, history⟩ := by
  generalize hnone : ([] : List Event) = none at hpolls
  induction hpolls with
  | nil => rfl
  | event event hrest ih => cases hnone
  | handle hrest ih => rw [run_cons, step_handle_of_quiet hquiet receiving, ih hnone]

end Waiting

/-! ## The fragments of a response -/

/-- What is observed of a packet. -/
def packetOf (packet : List UInt8) : Packet :=
  ⟨packet.length, nCmdId (packetBuffer packet), packetBody (packetBuffer packet)⟩

section Fragments

variable {unpack : Unpackers} {packet : List UInt8} {as : AirsyncPriv} {cached : List UInt8}
  {write : Write}

theorem completedBy_of_more (hcached : Cached as cached)
    (hheader : fixHeadLen ≤ (cached ++ write.bytes).length)
    (hfront : cached ++ write.bytes <+: packet)
    (hmore : (cached ++ write.bytes).length < packet.length) (hpacket : IsPacket unpack packet) :
    completedBy as write = none := by
  have hfits := Nat.le_trans (Nat.le_of_lt hmore) hpacket.fits
  obtain ⟨buffer, hinput, hstarts⟩ := parseInput_of_cached hcached write hfits
  have hlength : nLength buffer = packet.length := by
    rw [(hstarts.header hfront hheader).1, hpacket.length]
  simp only [completedBy, hinput, Option.bind_some, hlength, if_pos hmore]

theorem completedBy_of_last (hcached : Cached as cached) (hlast : cached ++ write.bytes = packet)
    (hpacket : IsPacket unpack packet) : completedBy as write = some (packetOf packet) := by
  obtain ⟨buffer, hinput, hstarts⟩ := parseInput_of_cached hcached write (hlast ▸ hpacket.fits)
  rw [hlast] at hinput hstarts
  have hheader := hstarts.header (List.prefix_refl packet) hpacket.header
  have hlength : nLength buffer = packet.length := by rw [hheader.1, hpacket.length]
  simp only [completedBy, hinput, Option.bind_some, hlength, if_neg (Nat.lt_irrefl _), hheader.2,
    hstarts.body hpacket.header hpacket.length]
  rfl

/-- The receiver does not wait for the lock until the packet is complete. -/
theorem recvParse_of_more (hcached : Cached as cached)
    (hheader : fixHeadLen ≤ (cached ++ write.bytes).length)
    (hfront : cached ++ write.bytes <+: packet)
    (hmore : (cached ++ write.bytes).length < packet.length) (hpacket : IsPacket unpack packet) :
    ¬ 0 < (recvParse unpack as write).1 := by
  intro hpos
  obtain ⟨other, hother, -⟩ := exists_completed_of_pos hpos
  rw [completedBy_of_more hcached hheader hfront hmore hpacket] at hother
  cases hother

theorem recvParse_of_last (hwaits : Waits as.protoStatus) (hcached : Cached as cached)
    (hlast : cached ++ write.bytes = packet) (hpacket : IsPacket unpack packet) :
    0 < (recvParse unpack as write).1 := by
  obtain ⟨hstate, -⟩ := recv_of_last hcached hlast hpacket
  by_contra hnone
  -- otherwise the status would not have changed
  have hstatus := hstate.protoStatus
  simp only [airsyncProtoRecvCb, if_neg hnone, recvParse_protoStatus] at hstatus
  rcases hwaits with hauth | hinit
  · simp [received, recvCommit, hauth] at hstatus
  · simp [received, recvCommit, hinit] at hstatus

theorem step_write (unpack : Unpackers) (as : AirsyncPriv) (write : Write)
    (history : List Observation) :
    Threads.trackedStep unpack ⟨⟨as, false⟩, history⟩ (.write write) =
      ⟨⟨(recvParse unpack as write).2, 0 < (recvParse unpack as write).1⟩,
        history ++ (completedBy as write).toList.map .consumed⟩ := rfl

/-- The fragments of a packet, with polls between them, leave the receiver waiting for the lock
with the packet consumed. -/
theorem run_fragments (as : AirsyncPriv) (hpacket : IsPacket unpack packet) {writes : List Write}
    {events polled : List Event} (hpolled : Polled events polled)
    (hevents : events = writes.map .write) (hsizes : ∀ write ∈ writes, 1 ≤ write.bytes.length)
    (hwaits : Waits as.protoStatus) (hcached : Cached as cached)
    (hbytes : cached ++ bytesOf writes = packet)
    (hheader : ∀ write ∈ writes.head?, fixHeadLen ≤ (cached ++ write.bytes).length)
    (hnonempty : writes ≠ []) (history : List Observation) :
    ∃ last, run (Threads.trackedStep unpack) ⟨⟨as, false⟩, history⟩ polled =
        ⟨⟨last, true⟩, history ++ [.consumed (packetOf packet)]⟩ ∧
      Waits last.protoStatus ∧ SameButCache (recvCommit last) (received unpack as packet) := by
  induction hpolled generalizing writes as cached history with
  | nil => exact absurd (List.map_eq_nil_iff.mp hevents.symm) hnonempty
  | handle hrest ih =>
      rw [run_cons, step_handle_of_quiet (airsyncProtoHandle_of_waits hwaits)]
      exact ih as hevents hsizes hwaits hcached hbytes hheader hnonempty history
  | @event others polled event hrest ih =>
      cases writes with
      | nil => exact absurd rfl hnonempty
      | cons write rest =>
          obtain ⟨rfl, hothers⟩ := List.cons.inj hevents
          have hhead := hheader write rfl
          have hwrites : bytesOf (write :: rest) = write.bytes ++ bytesOf rest := rfl
          rw [hwrites, ← List.append_assoc] at hbytes
          rw [run_cons, step_write]
          cases rest with
          | nil =>
              rw [bytesOf, List.flatMap_nil, List.append_nil] at hbytes
              obtain ⟨hstate, -⟩ := recv_of_last hcached hbytes hpacket
              have hpos := recvParse_of_last hwaits hcached hbytes hpacket
              have hstatus : (recvParse unpack as write).2.protoStatus = as.protoStatus :=
                recvParse_protoStatus as write
              rw [← hstatus] at hwaits
              subst hothers
              rw [completedBy_of_last hcached hbytes hpacket, decide_eq_true hpos,
                run_polls_of_quiet (airsyncProtoHandle_of_waits hwaits) true hrest]
              refine ⟨_, rfl, hwaits, ?_⟩
              simpa only [airsyncProtoRecvCb, if_pos hpos] using hstate
          | cons next later =>
              have hnext : 1 ≤ next.bytes.length := hsizes next (by simp)
              have hlength := congrArg List.length hbytes
              have hlater : bytesOf (next :: later) = next.bytes ++ bytesOf later := rfl
              rw [hlater] at hlength
              simp only [List.length_append] at hlength hhead
              have hmore : (cached ++ write.bytes).length < packet.length := by
                rw [List.length_append]
                omega
              have hfront : cached ++ write.bytes <+: packet := ⟨_, hbytes⟩
              have hhead' : fixHeadLen ≤ (cached ++ write.bytes).length := by
                rwa [List.length_append]
              obtain ⟨hcached', hstatus, hwx, -⟩ :=
                recv_of_more hcached hhead' hfront hmore hpacket
              have hzero := recvParse_of_more hcached hhead' hfront hmore hpacket
              have hsame : airsyncProtoRecvCb unpack as write = (recvParse unpack as write).2 := by
                simp only [airsyncProtoRecvCb, if_neg hzero]
              rw [hsame] at hcached' hstatus hwx
              rw [completedBy_of_more hcached hhead' hfront hmore hpacket,
                decide_eq_false hzero, Option.toList_none, List.map_nil, List.append_nil]
              obtain ⟨last, hrun, hlast, hreceived⟩ := ih _ hothers
                (fun other hother => hsizes other (List.mem_cons_of_mem _ hother))
                (by rwa [hstatus]) hcached' hbytes (by
                  intro other hother
                  rw [List.length_append]
                  exact Nat.le_trans hhead' (Nat.le_add_right _ _)) (by simp) history
              exact ⟨last, hrun, hlast, hreceived.trans (received_congr hstatus hwx)⟩

end Fragments

/-! ## Messages of the phone -/

/-- A message that fits in a packet. -/
structure PhoneMessage where
  fields : List WireField
  supported : ∀ field ∈ fields, Supported field
  fits : (encodeFields fields).length + fixHeadLen ≤ rxPktCacheLen

namespace PhoneMessage

variable (message : PhoneMessage)

def packet (cmdId seq : UInt16) : List UInt8 :=
  fixHead (UInt16.ofNat ((encodeFields message.fields).length + fixHeadLen)) cmdId seq ++
    encodeFields message.fields

@[simp] theorem length_packet (cmdId seq : UInt16) :
    (message.packet cmdId seq).length = (encodeFields message.fields).length + fixHeadLen := by
  rw [packet, List.length_append, Nat.add_comm]
  rfl

theorem nLength_packet (cmdId seq : UInt16) :
    nLength (packetBuffer (message.packet cmdId seq)) = (message.packet cmdId seq).length := by
  have hfits := message.fits
  rw [rxPktCacheLen] at hfits
  rw [length_packet, packet, (header_fixHead _ _ _ _).1, UInt16.toNat_ofNat']
  omega

theorem packetBody_packet (cmdId seq : UInt16) :
    packetBody (packetBuffer (message.packet cmdId seq)) = encodeFields message.fields := by
  have hfits := message.fits
  rw [rxPktCacheLen, fixHeadLen] at hfits
  have hcount : (nLength (packetBuffer (message.packet cmdId seq)) + 2 ^ 32 - fixHeadLen) % 2 ^ 32 =
      (encodeFields message.fields).length := by
    rw [nLength_packet, length_packet, fixHeadLen]
    omega
  rw [packetBody, hcount]
  apply List.ext_getElem
  · simp [Buffer.bytes]
  · intro i hi hlt
    simp only [Buffer.bytes, List.getElem_map, List.getElem_range]
    show (message.packet cmdId seq).getD (fixHeadLen + i) 0 = _
    have hindex : fixHeadLen + i - fixHeadLen = i := Nat.add_sub_cancel_left fixHeadLen i
    rw [packet, List.getD_append_right _ _ _ _ (Nat.le_add_right fixHeadLen i)]
    show (encodeFields message.fields).getD (fixHeadLen + i - fixHeadLen) 0 = _
    rw [hindex, List.getD_eq_getElem _ _ hlt]

theorem isPacket {unpack : Unpackers} {cmdId seq : UInt16}
    (haccepted : Accepted unpack cmdId.toNat (encodeFields message.fields)) :
    IsPacket unpack (message.packet cmdId seq) where
  header := by
    rw [length_packet]
    exact Nat.le_add_left _ _
  fits := by
    rw [length_packet]
    exact message.fits
  length := message.nLength_packet cmdId seq
  accepted := by
    rw [packetBody_packet, packet, (header_fixHead _ _ _ _).2.1]
    exact haccepted

theorem encodes (beyond : Buffer) :
    Encodes (bodyReader beyond (encodeFields message.fields)) message.fields := by
  have hfits := message.fits
  rw [rxPktCacheLen] at hfits
  exact encodes_bodyReader beyond message.supported (by omega)

end PhoneMessage

/-- A response with error code 0. -/
structure Answer (message : PhoneMessage) (base : List WireField) : Prop where
  inner : bytesAt message.fields 0x0a = some (encodeFields base)
  supported : ∀ field ∈ base, Supported field
  errCode : (varintAt base 0x08).map int32Of = some 0

structure AuthAnswer (message : PhoneMessage) (base : List WireField) : Prop
    extends Answer message base where
  aesSessionKey : (bytesAt message.fields 0x12).isSome = true

/-- The answer to the challenge, if there is one, is its check sum. -/
structure InitAnswer (message : PhoneMessage) (base : List WireField) : Prop
    extends Answer message base where
  userIdHigh : (varintAt message.fields 0x10).isSome = true
  userIdLow : (varintAt message.fields 0x18).isSome = true
  challeangeAnswer : ∀ answer ∈ varintAt message.fields 0x20,
    UInt32.ofNat answer = wechatCrc32 0 challeange

section Answers

variable {message : PhoneMessage} {base : List WireField} (uninit : UInt32) (beyond : Buffer)

theorem Answer.encodesResponse (hanswer : Answer message base) :
    EncodesResponse (bodyReader beyond (encodeFields message.fields)) (some base)
      message.fields where
  encodes := message.encodes beyond
  message := hanswer.inner
  supported := by
    rintro inner ⟨⟩
    exact hanswer.supported

theorem Answer.baseResponse (hanswer : Answer message base) :
    BaseResponse.ofFields base = some ⟨0, bytesAt base 0x12⟩ := by
  obtain ⟨errCode, hfound, hzero⟩ := Option.map_eq_some_iff.mp hanswer.errCode
  rw [BaseResponse.ofFields, hfound]
  show some (BaseResponse.mk (int32Of errCode) _) = _
  rw [hzero]

theorem AuthAnswer.authResponse (hanswer : AuthAnswer message base) :
    (epbUnpackers uninit beyond).authResponse (encodeFields message.fields) = some ⟨some 0⟩ := by
  obtain ⟨key, hkey⟩ := Option.isSome_iff_exists.mp hanswer.aesSessionKey
  show (epbUnpackAuthResponse uninit _).map _ = _
  rw [epbUnpackAuthResponse_of_encodes uninit (hanswer.encodesResponse beyond),
    AuthResponse.ofFields, hkey, Option.bind_some, hanswer.baseResponse]
  rfl

theorem InitAnswer.initResponse (hanswer : InitAnswer message base) :
    (epbUnpackers uninit beyond).initResponse (encodeFields message.fields) =
      some ⟨some 0, (varintAt message.fields 0x20).map UInt32.ofNat⟩ := by
  obtain ⟨high, hhigh⟩ := Option.isSome_iff_exists.mp hanswer.userIdHigh
  obtain ⟨low, hlow⟩ := Option.isSome_iff_exists.mp hanswer.userIdLow
  show (epbUnpackInitResponse uninit _).map _ = _
  rw [epbUnpackInitResponse_of_encodes uninit (hanswer.encodesResponse beyond),
    InitResponse.ofFields, hhigh, hlow, Option.bind_some, hanswer.baseResponse]
  rfl

end Answers

/-! ## The handshake -/

section Handshake

variable {auth init : PhoneMessage} {authBase initBase : List WireField} (uninit : UInt32)
  (beyond : Buffer)

theorem AuthAnswer.isPacket (hauth : AuthAnswer auth authBase) (seq : UInt16) :
    IsPacket (epbUnpackers uninit beyond) (auth.packet 20001 seq) := by
  apply auth.isPacket
  constructor <;> intro hcmd
  · refine ⟨_, hauth.authResponse uninit beyond, ?_⟩
    rintro errCode ⟨⟩
    rfl
  all_goals exact absurd hcmd (by decide)

theorem InitAnswer.isPacket (hinit : InitAnswer init initBase) (seq : UInt16) :
    IsPacket (epbUnpackers uninit beyond) (init.packet 20003 seq) := by
  apply init.isPacket
  constructor <;> intro hcmd
  · exact absurd hcmd (by decide)
  · refine ⟨_, hinit.initResponse uninit beyond, ?_⟩
    rintro errCode ⟨⟩
    rfl
  all_goals exact absurd hcmd (by decide)

theorem nCmdId_packet (message : PhoneMessage) (cmdId seq : UInt16) :
    nCmdId (packetBuffer (message.packet cmdId seq)) = cmdId.toNat := by
  rw [PhoneMessage.packet, (header_fixHead _ _ _ _).2.1]

/-- What the device keeps of the answers. -/
theorem received_auth (hauth : AuthAnswer auth authBase) (seq : UInt16) (as : AirsyncPriv)
    (hstatus : as.protoStatus = .authSending) :
    (received (epbUnpackers uninit beyond) as (auth.packet 20001 seq)).protoStatus =
        .authRspReceived ∧
      (received (epbUnpackers uninit beyond) as (auth.packet 20001 seq)).wxbtState =
        { as.wxbtState with authState := true } := by
  have hresponse := hauth.authResponse uninit beyond
  have hconsume : consumePacket (epbUnpackers uninit beyond) 0 as.wxbtState 20001
      (encodeFields auth.fields) (auth.packet 20001 seq).length =
      (((auth.packet 20001 seq).length : Int), { as.wxbtState with authState := true }) := by
    simp [consumePacket, eciRespAuth, hresponse]
  have hcmd : nCmdId (packetBuffer (auth.packet 20001 seq)) = 20001 := by
    simp [nCmdId_packet]
  rw [received, hcmd, auth.packetBody_packet, hconsume]
  simp only [recvCommit]
  rw [hstatus]
  exact ⟨rfl, rfl⟩

theorem received_init (hinit : InitAnswer init initBase) (seq : UInt16) (as : AirsyncPriv)
    (hstatus : as.protoStatus = .initSending) :
    (received (epbUnpackers uninit beyond) as (init.packet 20003 seq)).protoStatus =
        .initRspReceived ∧
      (received (epbUnpackers uninit beyond) as (init.packet 20003 seq)).wxbtState =
        { as.wxbtState with initState := true, wechatsSwitchState := true } := by
  have hresponse := hinit.initResponse uninit beyond
  have hconsume : consumePacket (epbUnpackers uninit beyond) 0 as.wxbtState 20003
      (encodeFields init.fields) (init.packet 20003 seq).length =
      (((init.packet 20003 seq).length : Int),
        { as.wxbtState with initState := true, wechatsSwitchState := true }) := by
    cases hanswer : varintAt init.fields 0x20 with
    | none => simp [consumePacket, eciRespAuth, eciRespInit, hresponse, hanswer]
    | some answer =>
        have hright := hinit.challeangeAnswer answer hanswer
        simp [consumePacket, eciRespAuth, eciRespInit, hresponse, hanswer, hright]
  have hcmd : nCmdId (packetBuffer (init.packet 20003 seq)) = 20003 := by
    simp [nCmdId_packet]
  rw [received, hcmd, init.packetBody_packet, hconsume]
  simp only [recvCommit]
  rw [hstatus]
  exact ⟨rfl, rfl⟩

theorem airsyncProtoHandle_of_authRspReceived {as : AirsyncPriv}
    (hstatus : as.protoStatus = .authRspReceived) :
    airsyncProtoHandle as = ({ as with protoStatus := .initSending }, some .init) := by
  rw [airsyncProtoHandle, hstatus]

theorem airsyncProtoHandle_of_initRspReceived {as : AirsyncPriv}
    (hstatus : as.protoStatus = .initRspReceived) :
    airsyncProtoHandle as = ({ as with protoStatus := .sendOrRecv }, some .sendDat) := by
  rw [airsyncProtoHandle, hstatus]

/-- The lock, and the poll that sends the next command. -/
theorem run_locked_handle {unpack : Unpackers} {last next : AirsyncPriv} {cmd : Cmd}
    (hnext : airsyncProtoHandle (recvCommit last) = (next, some cmd))
    (history : List Observation) (rest : List Event) :
    run (Threads.trackedStep unpack) ⟨⟨last, true⟩, history⟩ (.locked :: .handle :: rest) =
      run (Threads.trackedStep unpack) ⟨⟨next, false⟩, history ++ [.sent cmd]⟩ rest := by
  rw [run_cons, run_cons]
  congr 1
  simp [Threads.trackedStep, trackedStep, Threads.step, observed, hnext]

end Handshake

/-- Whatever was before, indications that are enabled and two answers, in fragments of any size
behind the header and with polls of the main loop anywhere, bring the handshake to its end. The
commands are sent in order, each one after the answer to the one before. -/
theorem handshake_completes (uninit : UInt32) (beyond : Buffer) (as : AirsyncPriv)
    {auth init : PhoneMessage} {authBase initBase : List WireField}
    (hauth : AuthAnswer auth authBase) (hinit : InitAnswer init initBase) (authSeq initSeq : UInt16)
    {authWrites initWrites : List Write}
    (hauthCut : IsCutting (auth.packet 20001 authSeq) authWrites)
    (hinitCut : IsCutting (init.packet 20003 initSeq) initWrites)
    {authPolled initPolled rest : List Event}
    (hauthPolled : Polled (authWrites.map .write) authPolled)
    (hinitPolled : Polled (initWrites.map .write) initPolled) (hrest : Polled [] rest) :
    let final := run (Threads.trackedStep (epbUnpackers uninit beyond)) ⟨⟨as, false⟩, []⟩
      (.indStatus true :: .handle :: (authPolled ++
        .locked :: .handle :: (initPolled ++ .locked :: .handle :: rest)))
    final.history = [.indStatus true, .sent .auth, .consumed (packetOf (auth.packet 20001 authSeq)),
      .sent .init, .consumed (packetOf (init.packet 20003 initSeq)), .sent .sendDat] ∧
    final.state.receiving = false ∧ final.state.as.protoStatus = .sendOrRecv ∧
    final.state.as.cachedLen = 0 ∧
    final.state.as.wxbtState =
      { as.wxbtState with authState := true, initState := true, wechatsSwitchState := true } := by
  intro final
  have hauthPacket := hauth.isPacket uninit beyond authSeq
  have hinitPacket := hinit.isPacket uninit beyond initSeq
  -- the first poll sends `CMD_AUTH`
  let asked : AirsyncPriv := { as with protoStatus := .authSending, cachedLen := 0 }
  have hasked : ∀ events, run (Threads.trackedStep (epbUnpackers uninit beyond))
      ⟨⟨as, false⟩, []⟩ (.indStatus true :: .handle :: events) =
      run (Threads.trackedStep (epbUnpackers uninit beyond))
        ⟨⟨asked, false⟩, [.indStatus true, .sent .auth]⟩ events := fun _ => rfl
  obtain ⟨authed, hauthRun, -, hauthState⟩ := run_fragments asked hauthPacket hauthPolled rfl
    (fun write hwrite => (hauthCut.sizes write hwrite).1) (.inl rfl) (cached_nil rfl)
    hauthCut.bytes hauthCut.header (hauthCut.ne_nil hauthPacket)
    [.indStatus true, .sent .auth]
  obtain ⟨hauthStatus, hauthWx⟩ := received_auth uninit beyond hauth authSeq asked rfl
  rw [← hauthState.protoStatus] at hauthStatus
  rw [← hauthState.wxbtState] at hauthWx
  have hauthCached := hauthState.cachedLen.trans (received_cachedLen asked)
  -- the next one `CMD_INIT`
  let told : AirsyncPriv := { recvCommit authed with protoStatus := .initSending }
  have hinitNext : airsyncProtoHandle (recvCommit authed) = (told, some .init) :=
    airsyncProtoHandle_of_authRspReceived hauthStatus
  obtain ⟨inited, hinitRun, -, hinitState⟩ := run_fragments told hinitPacket hinitPolled rfl
    (fun write hwrite => (hinitCut.sizes write hwrite).1) (.inr rfl)
    (cached_nil hauthCached) hinitCut.bytes hinitCut.header (hinitCut.ne_nil hinitPacket)
    ([.indStatus true, .sent .auth] ++ [.consumed (packetOf (auth.packet 20001 authSeq))] ++
      [.sent .init])
  obtain ⟨hinitStatus, hinitWx⟩ := received_init uninit beyond hinit initSeq told rfl
  rw [← hinitState.protoStatus] at hinitStatus
  rw [← hinitState.wxbtState] at hinitWx
  have hinitCached := hinitState.cachedLen.trans (received_cachedLen told)
  -- and the last one `CMD_SENDDAT`, after which there is nothing to send
  let done : AirsyncPriv := { recvCommit inited with protoStatus := .sendOrRecv }
  have hdoneNext : airsyncProtoHandle (recvCommit inited) = (done, some .sendDat) :=
    airsyncProtoHandle_of_initRspReceived hinitStatus
  have hfinal : final = ⟨⟨done, false⟩, [.indStatus true, .sent .auth,
      .consumed (packetOf (auth.packet 20001 authSeq)), .sent .init,
      .consumed (packetOf (init.packet 20003 initSeq)), .sent .sendDat]⟩ := by
    show run _ _ _ = _
    rw [hasked, run_append, hauthRun, run_locked_handle hinitNext, run_append,
      hinitRun, run_locked_handle hdoneNext, run_polls_of_quiet rfl false hrest]
    rfl
  rw [hfinal]
  refine ⟨rfl, rfl, rfl, hinitCached, ?_⟩
  show (recvCommit inited).wxbtState = _
  rw [hinitWx]
  show { (recvCommit authed).wxbtState with initState := true, wechatsSwitchState := true } = _
  rw [hauthWx]

def shortestAnswer : PhoneMessage where
  fields := shortestFields
  supported := supported_shortest.2
  fits := by
    rw [length_shortest.2]
    decide

theorem answer_shortest : Answer shortestAnswer shortestBase where
  inner := rfl
  supported := supported_shortest.1
  errCode := rfl

/-- A packet in two fragments. -/
def fragments (packet : List UInt8) : List Write :=
  [⟨packet.take 9, fun _ => 0, 0⟩, ⟨packet.drop 9, fun _ => 0, 0⟩]

theorem isCutting_fragments {packet : List UInt8} (hmore : 9 < packet.length)
    (hless : packet.length ≤ 29) : IsCutting packet (fragments packet) where
  bytes := by
    rw [bytesOf, fragments, List.flatMap_cons, List.flatMap_singleton]
    exact List.take_append_drop 9 packet
  sizes := by
    intro write hwrite
    simp only [fragments, List.mem_cons, List.not_mem_nil, or_false] at hwrite
    rcases hwrite with rfl | rfl
    · rw [List.length_take]
      omega
    · rw [List.length_drop]
      omega
  header := by
    rintro write ⟨⟩
    rw [List.length_take, fixHeadLen]
    omega

theorem polled_self (events : List Event) : Polled events events := by
  induction events with
  | nil => exact .nil
  | cons event rest ih => exact .event event ih

theorem handshake_completes_of_shortest :
    (run (Threads.trackedStep (epbUnpackers 0 fun _ => 0))
      ⟨⟨⟨.canNotInd, fun _ => 0, 0, ⟨false, false, false, 0⟩⟩, false⟩, []⟩
      (.indStatus true :: .handle ::
        (.handle :: (fragments (shortestAnswer.packet 20001 0)).map .write ++
          .locked :: .handle :: ((fragments (shortestAnswer.packet 20003 1)).map .write ++
            .locked :: .handle :: [.handle])))).state.as.protoStatus = .sendOrRecv := by
  have hlength : ∀ cmdId seq : UInt16, (shortestAnswer.packet cmdId seq).length = 18 := by
    intro cmdId seq
    rw [PhoneMessage.length_packet]
    exact congrArg (· + fixHeadLen) length_shortest.2
  have hcut : ∀ cmdId seq : UInt16, IsCutting (shortestAnswer.packet cmdId seq)
      (fragments (shortestAnswer.packet cmdId seq)) := by
    intro cmdId seq
    have hsize := hlength cmdId seq
    exact isCutting_fragments (by omega) (by omega)
  have hinit : InitAnswer shortestAnswer shortestBase := by
    refine ⟨answer_shortest, rfl, rfl, ?_⟩
    intro answer hanswer
    cases hanswer
  exact (handshake_completes 0 (fun _ => 0) ⟨.canNotInd, fun _ => 0, 0, ⟨false, false, false, 0⟩⟩
    ⟨answer_shortest, rfl⟩ hinit 0 1 (hcut 20001 0) (hcut 20003 1) (.handle (polled_self _))
    (polled_self _) (.handle .nil)).2.2.1

end CubieBle.AirSync
