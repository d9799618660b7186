import Mathlib.Data.Int.Basic
import CubieBle.AirSync.Protocol

/-! # What the parser reads and returns

The header is copied before anything is known about the length, the length that it contains is
compared from above only, and an error code is returned in the place of a length.
-/

namespace CubieBle.AirSync

/-! ## The accesses of a call -/

/-- What `memcpy` reads for the header. -/
def headerReads : List Nat := List.range fixHeadLen

/-- The commands whose bodies go to an unpacker. -/
def unpacked (cmdId : Nat) : Bool :=
  [eciRespAuth, eciRespInit, eciRespSendData, eciPushRecvData, eciPushSwitchView,
    eciPushSwitchBackgroud].contains cmdId

/-- `len - fix_head_len`, which is unsigned, as the `int` that the unpackers take. -/
def bufLen (buffer : Buffer) : Int :=
  (BitVec.ofNat 32 (nLength buffer) - BitVec.ofNat 32 fixHeadLen).toInt

/-- Where the body that is passed to an unpacker starts, and its length. -/
def unpackedBody (buffer : Buffer) (len : Nat) : Option (Nat × Int) :=
  if len < nLength buffer then none
  else if unpacked (nCmdId buffer) then some (fixHeadLen, bufLen buffer)
  else none

section Call

variable (unpack : Unpackers)

/-- `err_code` of a response. -/
def responseErrCode (cmdId : Nat) (body : List UInt8) : Option Int :=
  if cmdId = eciRespAuth then (unpack.authResponse body).bind AuthResponse.baseResponse
  else if cmdId = eciRespInit then (unpack.initResponse body).bind InitResponse.baseResponse
  else if cmdId = eciRespSendData then
    (unpack.sendDataResponse body).bind SendDataResponse.baseResponse
  else none

/-- A call stays inside the first `len` bytes and returns 0 for what is no full packet yet, an
error, or a number of bytes that are there. -/
structure InBounds (freed : Int) (wx : WxbtState) (buffer : Buffer) (len : Nat) : Prop where
  header : ∀ i ∈ headerReads, i < len
  body : ∀ start count, unpackedBody buffer len = some (start, count) →
    0 ≤ count ∧ (start : Int) + count ≤ len
  ret : ((dataConsumeFuncRec unpack freed wx buffer len).1 = 0 ∧
      (len < fixHeadLen ∨ len < nLength buffer)) ∨
    (dataConsumeFuncRec unpack freed wx buffer len).1 < 0 ∨
    ((fixHeadLen : Int) ≤ (dataConsumeFuncRec unpack freed wx buffer len).1 ∧
      (dataConsumeFuncRec unpack freed wx buffer len).1 ≤ len)
  errCode : ∀ errCode, responseErrCode unpack (nCmdId buffer) (packetBody buffer) = some errCode →
    0 < errCode → (dataConsumeFuncRec unpack freed wx buffer len).1 ≤ 0

/-- What is read from freed memory in the place of an error code can be returned for it. -/
def ReadsAsError (freed errCode : Int) (len : Nat) : Prop :=
  freed < 0 ∨ (errCode < 0 ∧ (fixHeadLen : Int) ≤ freed ∧ freed ≤ len)

/-- There is a whole header, and a packet that is complete is not shorter than that and has no
error code, or freed memory happens to hold an error in its place. -/
structure Parsable (freed : Int) (buffer : Buffer) (len : Nat) : Prop where
  header : fixHeadLen ≤ len
  length : nLength buffer ≤ len → fixHeadLen ≤ nLength buffer
  errCode : nLength buffer ≤ len →
    ∀ errCode, responseErrCode unpack (nCmdId buffer) (packetBody buffer) = some errCode →
      errCode ≠ 0 → ReadsAsError freed errCode len

end Call

/-! ## The switch over the commands -/

section Packet

variable {unpack : Unpackers} {cmdId : Nat} {body : List UInt8}

/-- For an error code other than 0 the parser returns what it finds in freed memory. -/
theorem consumePacket_of_errCode {errCode : Int}
    (herr : responseErrCode unpack cmdId body = some errCode) (hne : errCode ≠ 0) (freed : Int)
    (wx : WxbtState) (len : Nat) : (consumePacket unpack freed wx cmdId body len).1 = freed := by
  rw [responseErrCode] at herr
  rw [consumePacket]
  split_ifs at herr ⊢ with hauth hinit hdata
  · obtain ⟨⟨base⟩, hresp, hbase⟩ := Option.bind_eq_some_iff.mp herr
    obtain rfl : base = some errCode := hbase
    simp only [hresp, if_neg hne]
  · obtain ⟨⟨base, answer⟩, hresp, hbase⟩ := Option.bind_eq_some_iff.mp herr
    obtain rfl : base = some errCode := hbase
    simp only [hresp, if_neg hne]
  · obtain ⟨⟨base⟩, hresp, hbase⟩ := Option.bind_eq_some_iff.mp herr
    obtain rfl : base = some errCode := hbase
    simp only [hresp, if_neg hne]

/-- A response without an error code other than 0 has none at all, has 0, or is not unpacked. -/
theorem response_cases {Resp : Type} {resp : Option Resp} {baseResponse : Resp → Option Int}
    (herr : ∀ errCode, resp.bind baseResponse = some errCode → errCode = 0) :
    resp = none ∨
      ∃ unpacked, resp = some unpacked ∧
        (baseResponse unpacked = none ∨ baseResponse unpacked = some 0) := by
  cases hresp : resp with
  | none => exact .inl rfl
  | some unpacked =>
      refine .inr ⟨unpacked, rfl, ?_⟩
      cases hbase : baseResponse unpacked with
      | none => exact .inl rfl
      | some errCode =>
          have hzero := herr errCode (by rw [hresp, Option.bind_some, hbase])
          exact .inr (congrArg some hzero)

/-- Otherwise it returns the length of the packet, or an error of its own. -/
theorem consumePacket_of_no_errCode
    (herr : ∀ errCode, responseErrCode unpack cmdId body = some errCode → errCode = 0)
    (freed : Int) (wx : WxbtState) (len : Nat) :
    (consumePacket unpack freed wx cmdId body len).1 = len ∨
      (consumePacket unpack freed wx cmdId body len).1 < 0 := by
  simp only [responseErrCode] at herr
  rw [consumePacket]
  split_ifs at herr ⊢ with hauth hinit hdata hrecv hpush hview hswitch hback hbackgroud
  -- the three commands that carry a `base_response` go by its cases
  iterate 3
    · rcases response_cases herr with hresp | ⟨resp, hresp, hbase | hbase⟩
      · simp only [hresp]
        exact .inr (Int.negSucc_lt_zero _)
      · exact .inl (by simp only [hresp, hbase])
      · exact .inl (by simp only [hresp, hbase, if_pos])
  all_goals first
    | exact .inl rfl
    | exact .inr (Int.negSucc_lt_zero _)

end Packet

/-! ## One call -/

section Bounds

variable {unpack : Unpackers} {freed : Int} {wx : WxbtState} {buffer : Buffer} {len : Nat}

theorem nLength_lt (buffer : Buffer) : nLength buffer < 2 ^ 16 := by
  have hhigh := (buffer 2).toNat_lt
  have hlow := (buffer 3).toNat_lt
  rw [nLength]
  omega

/-- The length of the body is negative for a packet without a whole header. -/
theorem bufLen_eq (buffer : Buffer) : bufLen buffer = (nLength buffer : Int) - 8 := by
  have hlt := nLength_lt buffer
  have hlength : (nLength buffer : Int).bmod (2 ^ 32) = nLength buffer :=
    Int.bmod_eq_of_le (by omega) (by omega)
  have hdiff : ((nLength buffer : Int) - 8).bmod (2 ^ 32) = nLength buffer - 8 :=
    Int.bmod_eq_of_le (by omega) (by omega)
  have hhead : (BitVec.ofNat 32 fixHeadLen).toInt = 8 := by decide
  rw [bufLen, BitVec.toInt_sub, BitVec.toInt_ofNat', hlength, hhead, hdiff]

theorem header_iff : (∀ i ∈ headerReads, i < len) ↔ fixHeadLen ≤ len := by
  constructor
  · intro hreads
    exact hreads 7 (by decide)
  · intro hlen i hi
    exact Nat.lt_of_lt_of_le (List.mem_range.mp hi) hlen

/-- Without an unpacker, the parser returns the length that the header contains. -/
theorem consumePacket_of_not_unpacked {cmdId : Nat} (hcmd : unpacked cmdId = false)
    (body : List UInt8) (count : Nat) :
    (consumePacket unpack freed wx cmdId body count).1 = count := by
  simp only [unpacked, List.contains_eq_mem, List.mem_cons, List.not_mem_nil, or_false,
    decide_eq_false_iff_not, not_or] at hcmd
  obtain ⟨hauth, hinit, hdata, hrecv, hview, hback⟩ := hcmd
  rw [consumePacket, if_neg hauth, if_neg hinit, if_neg hdata, if_neg hrecv, if_neg hview,
    if_neg hback]

theorem dataConsumeFuncRec_of_more (hmore : len < nLength buffer) :
    (dataConsumeFuncRec unpack freed wx buffer len).1 = 0 := by
  rw [dataConsumeFuncRec, if_pos hmore]

theorem dataConsumeFuncRec_of_full (hfull : nLength buffer ≤ len) :
    (dataConsumeFuncRec unpack freed wx buffer len).1 =
      (consumePacket unpack freed wx (nCmdId buffer) (packetBody buffer) (nLength buffer)).1 := by
  rw [dataConsumeFuncRec, if_neg (Nat.not_lt.mpr hfull)]

theorem InBounds.length (hbounds : InBounds unpack freed wx buffer len)
    (hfull : nLength buffer ≤ len) : fixHeadLen ≤ nLength buffer := by
  have hlen := header_iff.mp hbounds.header
  cases hcmd : unpacked (nCmdId buffer) with
  | true =>
      have hbody := (hbounds.body fixHeadLen (bufLen buffer)
        (by rw [unpackedBody, if_neg (Nat.not_lt.mpr hfull), if_pos hcmd])).1
      rw [bufLen_eq] at hbody
      rw [fixHeadLen]
      omega
  | false =>
      have hret := hbounds.ret
      rw [dataConsumeFuncRec_of_full hfull, consumePacket_of_not_unpacked hcmd] at hret
      rw [fixHeadLen] at hret hlen ⊢
      omega

theorem InBounds.parsable (hbounds : InBounds unpack freed wx buffer len) :
    Parsable unpack freed buffer len where
  header := header_iff.mp hbounds.header
  length := hbounds.length
  errCode := by
    intro hfull errCode herr hne
    have hlen := header_iff.mp hbounds.header
    have hret := hbounds.ret
    have hpos := hbounds.errCode errCode herr
    rw [dataConsumeFuncRec_of_full hfull, consumePacket_of_errCode herr hne] at hret hpos
    rw [fixHeadLen] at hret hlen
    rw [ReadsAsError, fixHeadLen]
    omega

/-- The body ends where the packet ends. -/
theorem unpackedBody_inside (hlength : nLength buffer ≤ len → fixHeadLen ≤ nLength buffer)
    {start : Nat} {count : Int} (hbody : unpackedBody buffer len = some (start, count)) :
    0 ≤ count ∧ (start : Int) + count ≤ len := by
  rw [unpackedBody] at hbody
  obtain ⟨hmore, hbody⟩ := Option.ite_none_left_eq_some.mp hbody
  obtain ⟨-, hbody⟩ := Option.ite_none_right_eq_some.mp hbody
  obtain ⟨rfl, rfl⟩ := Prod.mk.inj (Option.some.inj hbody)
  have hfull := Nat.not_lt.mp hmore
  have hhead := hlength hfull
  rw [bufLen_eq]
  rw [fixHeadLen] at hhead ⊢
  omega

theorem Parsable.inBounds (hparsable : Parsable unpack freed buffer len) :
    InBounds unpack freed wx buffer len where
  header := header_iff.mpr hparsable.header
  body := fun start count => unpackedBody_inside hparsable.length
  ret := by
    rcases Nat.lt_or_ge len (nLength buffer) with hmore | hfull
    · exact .inl ⟨dataConsumeFuncRec_of_more hmore, .inr hmore⟩
    · rw [dataConsumeFuncRec_of_full hfull]
      by_cases herr : ∃ errCode, responseErrCode unpack (nCmdId buffer) (packetBody buffer) =
          some errCode ∧ errCode ≠ 0
      · obtain ⟨errCode, hcode, hne⟩ := herr
        rw [consumePacket_of_errCode hcode hne]
        exact .inr ((hparsable.errCode hfull errCode hcode hne).imp_right And.right)
      · have hzero : ∀ errCode, responseErrCode unpack (nCmdId buffer) (packetBody buffer) =
            some errCode → errCode = 0 := by
          intro errCode hcode
          by_contra hne
          exact herr ⟨errCode, hcode, hne⟩
        rcases consumePacket_of_no_errCode hzero freed wx (nLength buffer) with hret | hret
        · rw [hret]
          exact .inr (.inr ⟨Int.ofNat_le.mpr (hparsable.length hfull), Int.ofNat_le.mpr hfull⟩)
        · exact .inr (.inl hret)
  errCode := by
    intro errCode hcode hpos
    rcases Nat.lt_or_ge len (nLength buffer) with hmore | hfull
    · exact Int.le_of_eq (dataConsumeFuncRec_of_more hmore)
    · have hne := Int.ne_of_gt hpos
      rw [dataConsumeFuncRec_of_full hfull, consumePacket_of_errCode hcode hne]
      have hfreed := hparsable.errCode hfull errCode hcode hne
      exact Int.le_of_lt (hfreed.resolve_right fun hneg => Int.lt_asymm hneg.1 hpos)

end Bounds

theorem parsed_in_bounds_iff (unpack : Unpackers) (freed : Int) (wx : WxbtState)
    (buffer : Buffer) (len : Nat) :
    InBounds unpack freed wx buffer len ↔ Parsable unpack freed buffer len :=
  ⟨InBounds.parsable, Parsable.inBounds⟩

/-- A header is read where only one byte was received. -/
theorem one_byte_not_in_bounds :
    ¬∀ (unpack : Unpackers) (freed : Int) (wx : WxbtState) (buffer : Buffer) (len : Nat),
      1 ≤ len → InBounds unpack freed wx buffer len := by
  intro hall
  have hbounds := hall sampleUnpackers 0 ⟨false, false, false, 0⟩ (fun _ => 0xfe) 1 (by decide)
  exact absurd (hbounds.header 7 (by decide)) (by decide)

end CubieBle.AirSync
