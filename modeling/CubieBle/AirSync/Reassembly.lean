import CubieBle.AirSync.Protocol

/-! # Reassembly does not depend on the fragments

A packet is consumed at the last of its fragments, with its own bytes, as if it had come in one
piece. What differs is only what is left in the cache behind the packet.
-/

namespace CubieBle.AirSync

open Machine

/-! ## Packets and fragments -/

/-- The bytes of a packet in memory. -/
def packetBuffer (packet : List UInt8) : Buffer := fun i => packet.getD i 0

/-- The unpacker takes the body, and its error code, if there is one, is 0. -/
structure Accepted (unpack : Unpackers) (cmdId : Nat) (body : List UInt8) : Prop where
  auth : cmdId = eciRespAuth → ∃ resp, unpack.authResponse body = some resp ∧
    ∀ errCode ∈ resp.baseResponse, errCode = 0
  init : cmdId = eciRespInit → ∃ resp, unpack.initResponse body = some resp ∧
    ∀ errCode ∈ resp.baseResponse, errCode = 0
  sendData : cmdId = eciRespSendData → ∃ resp, unpack.sendDataResponse body = some resp ∧
    ∀ errCode ∈ resp.baseResponse, errCode = 0
  recvData : cmdId = eciPushRecvData → unpack.recvDataPush body = true
  switchView : cmdId = eciPushSwitchView → unpack.switchViewPush body = true
  switchBackgroud : cmdId = eciPushSwitchBackgroud → unpack.switchBackgroudPush body = true

/-- A packet that fits into the cache, with its length in the header. -/
structure IsPacket (unpack : Unpackers) (packet : List UInt8) : Prop where
  header : fixHeadLen ≤ packet.length
  fits : packet.length ≤ rxPktCacheLen
  length : nLength (packetBuffer packet) = packet.length
  accepted : Accepted unpack (nCmdId (packetBuffer packet)) (packetBody (packetBuffer packet))

/-- The bytes of writes. -/
def bytesOf (writes : List Write) : List UInt8 := writes.flatMap Write.bytes

/-- The writes cut a packet, and the first one has the whole header. -/
structure IsCutting (packet : List UInt8) (writes : List Write) : Prop where
  bytes : bytesOf writes = packet
  sizes : ∀ write ∈ writes, 1 ≤ write.bytes.length ∧ write.bytes.length ≤ 20
  header : ∀ write ∈ writes.head?, fixHeadLen ≤ write.bytes.length

/-! ## Consumption -/

/-- The packet that a write lets the parser consume, as long as the parser says. -/
def consumedBy (unpack : Unpackers) (as : AirsyncPriv) (write : Write) : Option (List UInt8) :=
  (parseInput as write).bind fun (buffer, len) =>
    let (ret, _) := dataConsumeFuncRec unpack write.freed as.wxbtState buffer len
    if 0 < ret then some (buffer.bytes 0 ret.toNat) else none

/-- The receiver with the list of the packets that were consumed. -/
def recvStep (unpack : Unpackers) : Tracked AirsyncPriv (List (List UInt8)) → Write →
    Tracked AirsyncPriv (List (List UInt8)) :=
  trackedStep (airsyncProtoRecvCb unpack) fun as write consumed =>
    consumed ++ (consumedBy unpack as write).toList

/-- Two receivers that differ in their caches only. -/
structure SameButCache (first second : AirsyncPriv) : Prop where
  protoStatus : first.protoStatus = second.protoStatus
  cachedLen : first.cachedLen = second.cachedLen
  wxbtState : first.wxbtState = second.wxbtState

theorem SameButCache.trans {first second third : AirsyncPriv} (hfirst : SameButCache first second)
    (hsecond : SameButCache second third) : SameButCache first third where
  protoStatus := hfirst.protoStatus.trans hsecond.protoStatus
  cachedLen := hfirst.cachedLen.trans hsecond.cachedLen
  wxbtState := hfirst.wxbtState.trans hsecond.wxbtState

theorem SameButCache.symm {first second : AirsyncPriv} (hsame : SameButCache first second) :
    SameButCache second first where
  protoStatus := hsame.protoStatus.symm
  cachedLen := hsame.cachedLen.symm
  wxbtState := hsame.wxbtState.symm

theorem SameButCache.recvCommit {first second : AirsyncPriv} (hsame : SameButCache first second) :
    SameButCache (recvCommit first) (recvCommit second) := by
  obtain ⟨hstatus, hcached, hwx⟩ := hsame
  simp only [AirSync.recvCommit, hstatus]
  cases second.protoStatus with
  | authSending => exact ⟨rfl, hcached, hwx⟩
  | initSending => exact ⟨rfl, hcached, hwx⟩
  | _ => exact ⟨hstatus, hcached, hwx⟩

/-- The receiver after a packet. -/
def received (unpack : Unpackers) (as : AirsyncPriv) (packet : List UInt8) : AirsyncPriv :=
  recvCommit
    { as with
      cachedLen := 0
      wxbtState := (consumePacket unpack 0 as.wxbtState (nCmdId (packetBuffer packet))
        (packetBody (packetBuffer packet)) packet.length).2 }

/-! ## Reading a packet from memory -/

/-- Memory starts with some bytes. -/
def StartsWith (buffer : Buffer) (bytes : List UInt8) : Prop :=
  ∀ i < bytes.length, buffer i = bytes.getD i 0

section StartsWith

variable {buffer : Buffer} {bytes packet : List UInt8}

theorem startsWith_write (write : Write) : StartsWith write.buffer write.bytes := by
  intro i hi
  rw [Write.buffer, List.getD_eq_getElem?_getD, List.getD_eq_getElem?_getD,
    List.getElem?_eq_getElem hi]
  rfl

/-- Bytes that are copied behind others. -/
theorem StartsWith.copy (hstarts : StartsWith buffer bytes) (more : List UInt8) :
    StartsWith (buffer.copy bytes.length more) (bytes ++ more) := by
  intro i hi
  rw [List.length_append] at hi
  simp only [Buffer.copy, List.getD_eq_getElem?_getD, List.getElem?_append]
  by_cases hbefore : i < bytes.length
  · rw [if_neg (by omega), if_pos hbefore, hstarts i hbefore, List.getD_eq_getElem?_getD]
  · rw [if_pos (by omega), if_neg hbefore]

theorem startsWith_copy_zero (buffer : Buffer) (bytes : List UInt8) :
    StartsWith (buffer.copy 0 bytes) bytes := by
  have hempty : StartsWith buffer [] := fun i hi => absurd hi (Nat.not_lt_zero i)
  exact hempty.copy bytes

/-- The header is that of the packet once its bytes are there. -/
theorem StartsWith.header (hstarts : StartsWith buffer bytes) (hfront : bytes <+: packet)
    (hheader : fixHeadLen ≤ bytes.length) :
    nLength buffer = nLength (packetBuffer packet) ∧
      nCmdId buffer = nCmdId (packetBuffer packet) := by
  have hbyte : ∀ i < 8, buffer i = packetBuffer packet i := by
    intro i hi
    have hinside : i < bytes.length := Nat.lt_of_lt_of_le hi hheader
    obtain ⟨rest, rfl⟩ := hfront
    rw [hstarts i hinside, packetBuffer, List.getD_eq_getElem?_getD, List.getD_eq_getElem?_getD,
      List.getElem?_append_left hinside]
  rw [nLength, nLength, nCmdId, nCmdId, hbyte 2 (by decide), hbyte 3 (by decide),
    hbyte 4 (by decide), hbyte 5 (by decide)]
  exact ⟨rfl, rfl⟩

theorem StartsWith.bytes_eq (hstarts : StartsWith buffer packet) :
    buffer.bytes 0 packet.length = packet := by
  apply List.ext_getElem
  · simp only [Buffer.bytes, List.length_map, List.length_range]
  · intro i hi hpacket
    simp only [Buffer.bytes]
    rw [List.getElem_map, List.getElem_range, Nat.zero_add, hstarts i hpacket,
      List.getD_eq_getElem?_getD, List.getElem?_eq_getElem hpacket]
    rfl

theorem StartsWith.body (hstarts : StartsWith buffer packet)
    (hheader : fixHeadLen ≤ packet.length)
    (hlength : nLength (packetBuffer packet) = packet.length) :
    packetBody buffer = packetBody (packetBuffer packet) := by
  have hsame := (hstarts.header (List.prefix_refl packet) hheader).1
  have hsmall : packet.length < 2 ^ 16 := by
    rw [← hlength, nLength]
    have h2 := (packetBuffer packet 2).toNat_lt
    have h3 := (packetBuffer packet 3).toNat_lt
    omega
  rw [packetBody, packetBody, hsame, hlength, Buffer.bytes, Buffer.bytes]
  apply List.map_congr_left
  intro i hi
  rw [List.mem_range] at hi
  rw [fixHeadLen] at hheader hi ⊢
  exact hstarts (8 + i) (by omega)

end StartsWith

/-! ## One write -/

section Write

variable {unpack : Unpackers} {as : AirsyncPriv} {packet cached : List UInt8}

/-- What an accepted packet does depends on its bytes only. -/
theorem consumePacket_of_accepted {cmdId : Nat} {body : List UInt8}
    (haccepted : Accepted unpack cmdId body) (freed : Int) (wx : WxbtState) (len : Nat) :
    consumePacket unpack freed wx cmdId body len =
      ((len : Int), (consumePacket unpack 0 wx cmdId body len).2) := by
  simp only [consumePacket]
  by_cases hauth : cmdId = eciRespAuth
  · obtain ⟨⟨baseResponse⟩, hresp, herr⟩ := haccepted.auth hauth
    cases baseResponse with
    | none => simp [if_pos hauth, hresp]
    | some errCode => simp [if_pos hauth, hresp, herr errCode rfl]
  simp only [if_neg hauth]
  by_cases hinit : cmdId = eciRespInit
  · obtain ⟨⟨baseResponse, answer⟩, hresp, herr⟩ := haccepted.init hinit
    cases baseResponse with
    | none => simp [if_pos hinit, hresp]
    | some errCode => simp [if_pos hinit, hresp, herr errCode rfl]
  simp only [if_neg hinit]
  by_cases hdata : cmdId = eciRespSendData
  · obtain ⟨⟨baseResponse⟩, hresp, herr⟩ := haccepted.sendData hdata
    cases baseResponse with
    | none => simp [if_pos hdata, hresp]
    | some errCode => simp [if_pos hdata, hresp, herr errCode rfl]
  simp only [if_neg hdata]
  by_cases hrecv : cmdId = eciPushRecvData
  · simp [if_pos hrecv, haccepted.recvData hrecv]
  simp only [if_neg hrecv]
  by_cases hview : cmdId = eciPushSwitchView
  · simp [if_pos hview, haccepted.switchView hview]
  simp only [if_neg hview]
  by_cases hback : cmdId = eciPushSwitchBackgroud
  · simp [haccepted.switchBackgroud hback]
  · simp [if_neg hback]

/-- The cache holds the first bytes of a packet. -/
structure Cached (as : AirsyncPriv) (cached : List UInt8) : Prop where
  length : as.cachedLen = cached.length
  bytes : StartsWith as.pktCache cached

theorem cached_nil (hempty : as.cachedLen = 0) : Cached as [] :=
  ⟨hempty, fun i hi => absurd hi (Nat.not_lt_zero i)⟩

/-- The parser sees all bytes so far, from the cache or in place. -/
theorem parseInput_of_cached (hcached : Cached as cached) (write : Write)
    (hfits : (cached ++ write.bytes).length ≤ rxPktCacheLen) :
    ∃ buffer, parseInput as write = some (buffer, (cached ++ write.bytes).length) ∧
      StartsWith buffer (cached ++ write.bytes) := by
  have hlen := hcached.length
  rw [List.length_append] at hfits
  rw [parseInput]
  by_cases hsome : 0 < as.cachedLen
  · refine ⟨as.pktCache.copy as.cachedLen write.bytes, ?_, ?_⟩
    · rw [if_pos hsome, if_neg (by omega), List.length_append, hlen]
    · rw [hlen]
      exact hcached.bytes.copy write.bytes
  · have hnil : cached = [] := List.eq_nil_of_length_eq_zero (by omega)
    subst hnil
    rw [if_neg hsome]
    exact ⟨write.buffer, rfl, startsWith_write write⟩

/-- A fragment that is not the last one goes into the cache. -/
theorem recv_of_more (hcached : Cached as cached) {write : Write}
    (hheader : fixHeadLen ≤ (cached ++ write.bytes).length)
    (hfront : cached ++ write.bytes <+: packet)
    (hmore : (cached ++ write.bytes).length < packet.length) (hpacket : IsPacket unpack packet) :
    Cached (airsyncProtoRecvCb unpack as write) (cached ++ write.bytes) ∧
      (airsyncProtoRecvCb unpack as write).protoStatus = as.protoStatus ∧
      (airsyncProtoRecvCb unpack as write).wxbtState = as.wxbtState ∧
      consumedBy unpack as write = none := by
  have hfits := Nat.le_trans (Nat.le_of_lt hmore) hpacket.fits
  obtain ⟨buffer, hinput, hstarts⟩ := parseInput_of_cached hcached write hfits
  have hlength : nLength buffer = packet.length := by
    rw [(hstarts.header hfront hheader).1, hpacket.length]
  have hparse : dataConsumeFuncRec unpack write.freed as.wxbtState buffer
      (cached ++ write.bytes).length = (0, as.wxbtState) := by
    rw [dataConsumeFuncRec, hlength, if_pos hmore]
  have hnone : consumedBy unpack as write = none := by
    simp only [consumedBy, hinput, Option.bind_some, hparse, if_neg (Int.lt_irrefl 0)]
  simp only [airsyncProtoRecvCb, recvParse, hinput, hparse]
  by_cases hsome : 0 < as.cachedLen
  · have hpos : (cached ++ write.bytes).length ≠ 0 :=
      Nat.ne_of_gt (Nat.lt_of_lt_of_le (by decide) hheader)
    simp only [if_pos hsome, if_neg hpos, Int.lt_irrefl, if_false, if_true]
    exact ⟨⟨rfl, hstarts⟩, trivial, trivial, hnone⟩
  · have hempty : as.cachedLen = 0 := Nat.eq_zero_of_not_pos hsome
    have hnil : cached = [] := List.eq_nil_of_length_eq_zero (hcached.length ▸ hempty)
    subst hnil
    simp only [if_neg hsome, if_pos hempty, Int.lt_irrefl, if_false, if_true]
    exact ⟨⟨rfl, startsWith_copy_zero as.pktCache write.bytes⟩, trivial, trivial, hnone⟩

/-- The last fragment makes the parser consume the packet. -/
theorem recv_of_last (hcached : Cached as cached) {write : Write}
    (hlast : cached ++ write.bytes = packet) (hpacket : IsPacket unpack packet) :
    SameButCache (airsyncProtoRecvCb unpack as write) (received unpack as packet) ∧
      consumedBy unpack as write = some packet := by
  obtain ⟨buffer, hinput, hstarts⟩ := parseInput_of_cached hcached write (hlast ▸ hpacket.fits)
  rw [hlast] at hinput hstarts
  have hheader := hstarts.header (List.prefix_refl packet) hpacket.header
  have hlength : nLength buffer = packet.length := by rw [hheader.1, hpacket.length]
  have hparse : dataConsumeFuncRec unpack write.freed as.wxbtState buffer packet.length =
      ((packet.length : Int), (consumePacket unpack 0 as.wxbtState (nCmdId (packetBuffer packet))
        (packetBody (packetBuffer packet)) packet.length).2) := by
    rw [dataConsumeFuncRec, hlength, if_neg (Nat.lt_irrefl _), hheader.2,
      hstarts.body hpacket.header hpacket.length, consumePacket_of_accepted hpacket.accepted]
  have hpos : 0 < packet.length := Nat.lt_of_lt_of_le (by decide) hpacket.header
  have hret : ¬ (packet.length : Int) < 0 := by omega
  have hsome : ¬ (packet.length : Int) = 0 := by omega
  have hconsume : 0 < (packet.length : Int) := by omega
  have hconsumed : consumedBy unpack as write = some packet := by
    simp only [consumedBy, hinput, Option.bind_some, hparse, if_pos hconsume, Int.toNat_natCast,
      hstarts.bytes_eq]
  refine ⟨?_, hconsumed⟩
  simp only [airsyncProtoRecvCb, recvParse, hinput, hparse, if_neg hret, if_neg hsome]
  by_cases hfilled : 0 < as.cachedLen
  · simp only [if_pos hfilled, if_neg (Int.lt_irrefl packet.length), if_pos hconsume]
    exact SameButCache.recvCommit ⟨rfl, rfl, rfl⟩
  · have hover : ¬ (packet.length : Int) < (as.cachedLen : Int) := by omega
    simp only [if_neg hfilled, if_neg hover, if_pos hconsume]
    exact SameButCache.recvCommit ⟨rfl, rfl, rfl⟩

end Write

/-! ## All writes of a packet -/

section Packet

variable {unpack : Unpackers} {packet : List UInt8}

theorem received_congr {first second : AirsyncPriv}
    (hstatus : first.protoStatus = second.protoStatus) (hwx : first.wxbtState = second.wxbtState) :
    SameButCache (received unpack first packet) (received unpack second packet) := by
  apply SameButCache.recvCommit
  exact ⟨hstatus, rfl, by rw [hwx]⟩

theorem received_cachedLen (as : AirsyncPriv) : (received unpack as packet).cachedLen = 0 := by
  simp only [received, recvCommit]
  cases as.protoStatus <;> rfl

/-- Writes make the parser consume a packet at the last of them and not before. -/
structure ConsumesAtLast (unpack : Unpackers) (current : Tracked AirsyncPriv (List (List UInt8)))
    (packet : List UInt8) (writes : List Write) : Prop where
  before : ∀ first rest, writes = first ++ rest → rest ≠ [] →
    (run (recvStep unpack) current first).history = current.history
  consumed : (run (recvStep unpack) current writes).history = current.history ++ [packet]
  state : SameButCache (run (recvStep unpack) current writes).state
    (received unpack current.state packet)
  bounded : Throughout (recvStep unpack)
    (fun later => later.state.cachedLen ≤ rxPktCacheLen) current writes

theorem consumesAtLast_singleton {current : Tracked AirsyncPriv (List (List UInt8))}
    {write : Write} (hfill : current.state.cachedLen ≤ rxPktCacheLen)
    (hstate : SameButCache (airsyncProtoRecvCb unpack current.state write)
      (received unpack current.state packet))
    (hconsumed : consumedBy unpack current.state write = some packet) :
    ConsumesAtLast unpack current packet [write] where
  before := by
    intro first rest hsplit hrest
    cases first with
    | nil => rfl
    | cons head tail =>
        have hnil := (List.cons.inj hsplit).2.symm
        exact absurd (List.append_eq_nil_iff.mp hnil).2 hrest
  consumed := by
    show current.history ++ (consumedBy unpack current.state write).toList = _
    rw [hconsumed, Option.toList_some]
  state := hstate
  bounded := by
    have hempty := hstate.cachedLen.trans (received_cachedLen current.state)
    exact ⟨hfill, Nat.le_trans (Nat.le_of_eq hempty) (Nat.zero_le _)⟩

/-- A write that nothing is consumed at goes before the others. -/
theorem ConsumesAtLast.cons {current : Tracked AirsyncPriv (List (List UInt8))}
    {write : Write} {writes : List Write} (hfill : current.state.cachedLen ≤ rxPktCacheLen)
    (hstatus : (airsyncProtoRecvCb unpack current.state write).protoStatus =
      current.state.protoStatus)
    (hwx : (airsyncProtoRecvCb unpack current.state write).wxbtState = current.state.wxbtState)
    (hnone : consumedBy unpack current.state write = none)
    (hrest : ConsumesAtLast unpack (recvStep unpack current write) packet writes) :
    ConsumesAtLast unpack current packet (write :: writes) := by
  have hhistory : (recvStep unpack current write).history = current.history := by
    show current.history ++ (consumedBy unpack current.state write).toList = _
    rw [hnone, Option.toList_none, List.append_nil]
  refine ⟨?_, ?_, ?_, hfill, hrest.bounded⟩
  · intro first rest hsplit hlater
    cases first with
    | nil => rfl
    | cons head tail =>
        obtain ⟨rfl, htail⟩ := List.cons.inj hsplit
        rw [run_cons, hrest.before tail rest htail hlater, hhistory]
  · rw [run_cons, hrest.consumed, hhistory]
  · exact hrest.state.trans (received_congr hstatus hwx)

-- The induction is on the writes that are left, with the bytes of the others in the cache.
theorem consumesAtLast_of_cached (hpacket : IsPacket unpack packet) (writes : List Write)
    (hnonempty : writes ≠ []) (hsizes : ∀ write ∈ writes, 1 ≤ write.bytes.length)
    (current : Tracked AirsyncPriv (List (List UInt8))) (cached : List UInt8)
    (hcached : Cached current.state cached) (hbytes : cached ++ bytesOf writes = packet)
    (hheader : ∀ write ∈ writes.head?, fixHeadLen ≤ (cached ++ write.bytes).length) :
    ConsumesAtLast unpack current packet writes := by
  induction writes generalizing current cached with
  | nil => exact absurd rfl hnonempty
  | cons write rest ih =>
      have hlen := congrArg List.length hbytes
      rw [bytesOf, List.flatMap_cons, List.length_append, List.length_append] at hlen
      have hfill : current.state.cachedLen ≤ rxPktCacheLen := by
        have hfits := hpacket.fits
        rw [hcached.length]
        omega
      have hhead := hheader write rfl
      cases rest with
      | nil =>
          rw [bytesOf, List.flatMap_cons, List.flatMap_nil, List.append_nil] at hbytes
          obtain ⟨hstate, hconsumed⟩ := recv_of_last hcached hbytes hpacket
          exact consumesAtLast_singleton hfill hstate hconsumed
      | cons next others =>
          have hnext := hsizes next (by simp)
          rw [List.flatMap_cons, List.length_append] at hlen
          have hsplit : (cached ++ write.bytes) ++ bytesOf (next :: others) = packet := by
            rw [List.append_assoc]
            exact hbytes
          have hmore : (cached ++ write.bytes).length < packet.length := by
            rw [List.length_append]
            omega
          obtain ⟨hlater, hstatus, hwx, hnone⟩ :=
            recv_of_more hcached hhead ⟨_, hsplit⟩ hmore hpacket
          refine ConsumesAtLast.cons hfill hstatus hwx hnone ?_
          apply ih (by simp) (fun other hother => hsizes other (List.mem_cons_of_mem _ hother))
            (recvStep unpack current write) (cached ++ write.bytes) hlater hsplit
          intro other _
          rw [List.length_append]
          exact Nat.le_trans hhead (Nat.le_add_right _ _)

theorem IsCutting.ne_nil {writes : List Write} (hcut : IsCutting packet writes)
    (hpacket : IsPacket unpack packet) : writes ≠ [] := by
  intro hnil
  have hheader := hpacket.header
  rw [← hcut.bytes, hnil] at hheader
  exact absurd hheader (by decide)

theorem IsCutting.consumesAtLast {writes : List Write} (hcut : IsCutting packet writes)
    (hpacket : IsPacket unpack packet) {current : Tracked AirsyncPriv (List (List UInt8))}
    (hempty : current.state.cachedLen = 0) : ConsumesAtLast unpack current packet writes :=
  consumesAtLast_of_cached hpacket writes (hcut.ne_nil hpacket)
    (fun write hwrite => (hcut.sizes write hwrite).1) current [] (cached_nil hempty) hcut.bytes
    hcut.header

end Packet

/-! ## All packets -/

section Packets

variable {unpack : Unpackers}

/-- A packet with the writes it comes in. -/
structure Delivery where
  packet : List UInt8
  writes : List Write

def writesOf (deliveries : List Delivery) : List Write := deliveries.flatMap Delivery.writes

/-- Every packet is one that the parser accepts, in fragments. -/
def WellCut (unpack : Unpackers) (deliveries : List Delivery) : Prop :=
  ∀ delivery ∈ deliveries,
    IsPacket unpack delivery.packet ∧ IsCutting delivery.packet delivery.writes

/-- The receiver after packets. -/
def receivedAll (unpack : Unpackers) (as : AirsyncPriv) (packets : List (List UInt8)) :
    AirsyncPriv :=
  packets.foldl (received unpack) as

structure ConsumesAll (unpack : Unpackers) (current : Tracked AirsyncPriv (List (List UInt8)))
    (deliveries : List Delivery) : Prop where
  consumed : (run (recvStep unpack) current (writesOf deliveries)).history =
    current.history ++ deliveries.map Delivery.packet
  state : SameButCache (run (recvStep unpack) current (writesOf deliveries)).state
    (receivedAll unpack current.state (deliveries.map Delivery.packet))
  bounded : Throughout (recvStep unpack)
    (fun later => later.state.cachedLen ≤ rxPktCacheLen) current (writesOf deliveries)

theorem receivedAll_congr (packets : List (List UInt8)) {first second : AirsyncPriv}
    (hsame : SameButCache first second) :
    SameButCache (receivedAll unpack first packets) (receivedAll unpack second packets) := by
  induction packets generalizing first second with
  | nil => exact hsame
  | cons packet rest ih => exact ih (received_congr hsame.protoStatus hsame.wxbtState)

theorem receivedAll_cachedLen (packets : List (List UInt8)) {as : AirsyncPriv}
    (hempty : as.cachedLen = 0) : (receivedAll unpack as packets).cachedLen = 0 := by
  induction packets generalizing as with
  | nil => exact hempty
  | cons packet rest ih => exact ih (received_cachedLen as)

theorem ConsumesAtLast.cachedLen {current : Tracked AirsyncPriv (List (List UInt8))}
    {packet : List UInt8} {writes : List Write}
    (hlast : ConsumesAtLast unpack current packet writes) :
    (run (recvStep unpack) current writes).state.cachedLen = 0 :=
  hlast.state.cachedLen.trans (received_cachedLen current.state)

theorem consumesAll_of_each (deliveries : List Delivery)
    (heach : ∀ delivery ∈ deliveries, ∀ current : Tracked AirsyncPriv (List (List UInt8)),
      current.state.cachedLen = 0 →
      ConsumesAtLast unpack current delivery.packet delivery.writes)
    (current : Tracked AirsyncPriv (List (List UInt8))) (hempty : current.state.cachedLen = 0) :
    ConsumesAll unpack current deliveries := by
  induction deliveries generalizing current with
  | nil =>
      exact ⟨(List.append_nil _).symm, ⟨rfl, rfl, rfl⟩,
        Nat.le_trans (Nat.le_of_eq hempty) (Nat.zero_le _)⟩
  | cons delivery rest ih =>
      have hfirst := heach delivery (by simp) current hempty
      have hrest := ih (fun other hother => heach other (List.mem_cons_of_mem _ hother))
        (run (recvStep unpack) current delivery.writes) hfirst.cachedLen
      have hwrites : writesOf (delivery :: rest) = delivery.writes ++ writesOf rest := rfl
      refine ⟨?_, ?_, ?_⟩
      · rw [hwrites, run_append, hrest.consumed, hfirst.consumed, List.append_assoc]
        rfl
      · rw [hwrites, run_append]
        exact hrest.state.trans (receivedAll_congr _ hfirst.state)
      · rw [hwrites]
        exact hfirst.bounded.append hrest.bounded

theorem ConsumesAll.cachedLen {current : Tracked AirsyncPriv (List (List UInt8))}
    {deliveries : List Delivery} (hall : ConsumesAll unpack current deliveries)
    (hempty : current.state.cachedLen = 0) :
    (run (recvStep unpack) current (writesOf deliveries)).state.cachedLen = 0 := by
  rw [hall.state.cachedLen]
  exact receivedAll_cachedLen _ hempty

/-- Packets in one piece each. -/
theorem consumesAll_whole (whole : List Write)
    (hpackets : ∀ write ∈ whole, IsPacket unpack write.bytes)
    (current : Tracked AirsyncPriv (List (List UInt8))) (hempty : current.state.cachedLen = 0) :
    ConsumesAll unpack current (whole.map fun write => ⟨write.bytes, [write]⟩) := by
  refine consumesAll_of_each _ ?_ current hempty
  intro delivery hdelivery later hlater
  obtain ⟨write, hwrite, rfl⟩ := List.mem_map.mp hdelivery
  obtain ⟨hstate, hconsumed⟩ :=
    recv_of_last (cached_nil hlater) (List.nil_append write.bytes) (hpackets write hwrite)
  exact consumesAtLast_singleton (Nat.le_trans (Nat.le_of_eq hlater) (Nat.zero_le _)) hstate
    hconsumed

theorem writesOf_whole (whole : List Write) :
    writesOf (whole.map fun write => ⟨write.bytes, [write]⟩) = whole := by
  rw [writesOf, List.flatMap_map]
  exact List.flatMap_singleton' whole

end Packets

/-- Packets that come in fragments are consumed in order, each one at its last write, and leave
the receiver as they do when each one comes in one piece. -/
theorem airsyncProtoRecvCb_independent_of_cutting (unpack : Unpackers) (as : AirsyncPriv)
    (hempty : as.cachedLen = 0) (deliveries : List Delivery) (hcut : WellCut unpack deliveries) :
    Throughout (recvStep unpack) (fun current => current.state.cachedLen ≤ rxPktCacheLen) ⟨as, []⟩
        (writesOf deliveries) ∧
      (∀ before delivery after, deliveries = before ++ delivery :: after →
        (∀ first rest, delivery.writes = first ++ rest → rest ≠ [] →
          (run (recvStep unpack) ⟨as, []⟩ (writesOf before ++ first)).history =
            before.map Delivery.packet) ∧
        (run (recvStep unpack) ⟨as, []⟩ (writesOf before ++ delivery.writes)).history =
          before.map Delivery.packet ++ [delivery.packet] ∧
        (run (recvStep unpack) ⟨as, []⟩
          (writesOf before ++ delivery.writes)).state.cachedLen = 0) ∧
      ∀ whole : List Write, whole.map Write.bytes = deliveries.map Delivery.packet →
        (run (recvStep unpack) ⟨as, []⟩ (writesOf deliveries)).history =
            (run (recvStep unpack) ⟨as, []⟩ whole).history ∧
          SameButCache (run (recvStep unpack) ⟨as, []⟩ (writesOf deliveries)).state
            (run (recvStep unpack) ⟨as, []⟩ whole).state := by
  have heach : ∀ delivery ∈ deliveries, ∀ current : Tracked AirsyncPriv (List (List UInt8)),
      current.state.cachedLen = 0 →
      ConsumesAtLast unpack current delivery.packet delivery.writes := by
    intro delivery hdelivery current hcurrent
    obtain ⟨hpacket, hfragments⟩ := hcut delivery hdelivery
    exact hfragments.consumesAtLast hpacket hcurrent
  have hall := consumesAll_of_each deliveries heach ⟨as, []⟩ hempty
  refine ⟨hall.bounded, ?_, ?_⟩
  · intro before delivery after hsplit
    subst hsplit
    have hbefore := consumesAll_of_each before
      (fun other hother => heach other (List.mem_append_left _ hother)) ⟨as, []⟩ hempty
    have hlast := heach delivery (by simp) _ (hbefore.cachedLen hempty)
    have hhistory := hbefore.consumed
    rw [List.nil_append] at hhistory
    refine ⟨?_, ?_, ?_⟩
    · intro first rest hfirst hrest
      rw [run_append, hlast.before first rest hfirst hrest, hhistory]
    · rw [run_append, hlast.consumed, hhistory]
    · rw [run_append, hlast.cachedLen]
  · intro whole hwhole
    have hpackets : ∀ write ∈ whole, IsPacket unpack write.bytes := by
      intro write hwrite
      have hmem : write.bytes ∈ deliveries.map Delivery.packet :=
        hwhole ▸ List.mem_map_of_mem hwrite
      obtain ⟨delivery, hdelivery, hpacket⟩ := List.mem_map.mp hmem
      exact hpacket ▸ (hcut delivery hdelivery).1
    have hsingle := consumesAll_whole whole hpackets ⟨as, []⟩ hempty
    have hsame : (whole.map fun write => (⟨write.bytes, [write]⟩ : Delivery)).map Delivery.packet =
        deliveries.map Delivery.packet := by
      rw [List.map_map, ← hwhole]
      rfl
    obtain ⟨hconsumed, hstate, -⟩ := hsingle
    rw [writesOf_whole, hsame] at hconsumed hstate
    exact ⟨hall.consumed.trans hconsumed.symm, hall.state.trans hstate.symm⟩

/-- A push of 13 bytes in three writes, the last ones of one byte, between two that come in
one piece. -/
theorem airsyncProtoRecvCb_pushes :
    let push : List UInt8 := [0xfe, 1, 0, 13, 0x75, 0x31, 0, 0, 0x0a, 0, 0x12, 1, 0x41]
    let write : List UInt8 → Write := fun bytes => ⟨bytes, fun _ => 0, 0⟩
    let as : AirsyncPriv := ⟨.sendOrRecv, fun _ => 0, 0, ⟨true, true, true, 0⟩⟩
    let fragments := [write (push.take 11), write [1], write [0x41]]
    (run (recvStep sampleUnpackers) ⟨as, []⟩ (write push :: fragments.take 2)).history = [push] ∧
      (run (recvStep sampleUnpackers) ⟨as, []⟩ (write push :: fragments)).history =
        [push, push] := by
  intro push write as fragments
  have hpacket : IsPacket sampleUnpackers push := by
    refine ⟨by decide, by decide, by decide, ?_⟩
    constructor <;> intro hcmd
    · exact absurd hcmd (by decide)
    · exact absurd hcmd (by decide)
    · exact absurd hcmd (by decide)
    · decide
    · exact absurd hcmd (by decide)
    · exact absurd hcmd (by decide)
  have hcut : WellCut sampleUnpackers
      [⟨push, [write push]⟩, ⟨push, fragments⟩, ⟨push, [write push]⟩] := by
    intro delivery hdelivery
    simp only [List.mem_cons, List.not_mem_nil, or_false] at hdelivery
    rcases hdelivery with rfl | rfl | rfl
    · exact ⟨hpacket, rfl, by decide, by decide⟩
    · exact ⟨hpacket, rfl, by decide, by decide⟩
    · exact ⟨hpacket, rfl, by decide, by decide⟩
  obtain ⟨-, hdeliveries, -⟩ :=
    airsyncProtoRecvCb_independent_of_cutting sampleUnpackers as rfl _ hcut
  obtain ⟨hbefore, hlast, -⟩ := hdeliveries [⟨push, [write push]⟩] ⟨push, fragments⟩ _ rfl
  exact ⟨hbefore (fragments.take 2) (fragments.drop 2) rfl (by decide), hlast⟩

end CubieBle.AirSync
