import CubieBle.Ota.WriteLaws

/-! # What a control write is decided by

The operations parse their fields from a cursor that does not know how much was received, so
a request that ends early is completed with whatever follows it in the receive buffer.
-/

namespace CubieBle.Ota

/-- The buffers agree on the bytes that were received. -/
structure SameReceived (first second : Packet) : Prop where
  len : second.len = first.len
  byte : ∀ i < first.len.toNat, second.byte i = first.byte i

/-- Two writes have the same effect on the transfer, the flash and the response. -/
structure SameOutcome (first second : UInt8 × Sys) : Prop where
  code : second.1 = first.1
  ftAddr : second.2.cb.ftAddr = first.2.cb.ftAddr
  ftLen : second.2.cb.ftLen = first.2.cb.ftLen
  ftCrc : second.2.cb.ftCrc = first.2.cb.ftCrc
  ftHandle : second.2.cb.ftHandle = first.2.cb.ftHandle
  ftInProgress : second.2.cb.ftInProgress = first.2.cb.ftInProgress
  flash : second.2.flash = first.2.flash
  queue : second.2.queue = first.2.queue
  ftcMsgBuf : second.2.cb.ftcMsgBuf = first.2.cb.ftcMsgBuf

/-- Nothing behind the received bytes has an influence, whatever an erase does to the flash. -/
def DecidedByReceived (sys : Sys) (conn : Conn) (packet : Packet) : Prop :=
  ∀ (env : Env) (other : Packet), SameReceived packet other →
    SameOutcome (otaFtcWrite env sys conn packet) (otaFtcWrite env sys conn other)

/-- The bytes that the operation uses when none is in progress. -/
def parsedLen (packet : Packet) : UInt16 :=
  match FtcOp.ofByte (packet.byte 0) with
  | some .getReq => if packet.uint16 1 = 0 then 3 else 11
  | some .putReq => 11
  | some .eraseReq => 11
  | some .verifyReq => 15
  | _ => 3

/-- The request is refused without parsing its fields, or they were all received. -/
def FieldsReceived (sys : Sys) (packet : Packet) : Prop :=
  packet.len < ftcHdrLen + ftcHandleLen ∨ sys.cb.ftInProgress ≠ .none ∨
    parsedLen packet ≤ packet.len

/-! ## Received fields -/

section Fields

variable {packet other : Packet}

theorem SameReceived.uint16 (hsame : SameReceived packet other) {at_ : Nat}
    (hat : at_ + 2 ≤ packet.len.toNat) : other.uint16 at_ = packet.uint16 at_ := by
  unfold Packet.uint16
  rw [hsame.byte at_ (by omega), hsame.byte (at_ + 1) (by omega)]

theorem SameReceived.uint32 (hsame : SameReceived packet other) {at_ : Nat}
    (hat : at_ + 4 ≤ packet.len.toNat) : other.uint32 at_ = packet.uint32 at_ := by
  unfold Packet.uint32
  rw [hsame.byte at_ (by omega), hsame.byte (at_ + 1) (by omega),
    hsame.byte (at_ + 2) (by omega), hsame.byte (at_ + 3) (by omega)]

/-- The same buffer with another byte at one place. -/
def Packet.flipped (packet : Packet) (at_ : Nat) : Packet where
  len := packet.len
  byte := Function.update packet.byte at_ (packet.byte at_ + 1)

theorem sameReceived_flipped {at_ : Nat} (hat : packet.len.toNat ≤ at_) :
    SameReceived packet (packet.flipped at_) where
  len := rfl
  byte := fun _ hi => Function.update_of_ne (Nat.ne_of_lt (Nat.lt_of_lt_of_le hi hat)) _ _

theorem uint32_flipped (packet : Packet) (at_ : Nat) :
    (packet.flipped (at_ + 3)).uint32 at_ ≠ packet.uint32 at_ := by
  have hbyte : ∀ i < at_ + 3, (packet.flipped (at_ + 3)).byte i = packet.byte i :=
    fun i hi => Function.update_of_ne (Nat.ne_of_lt hi) _ _
  have hlast : (packet.flipped (at_ + 3)).byte (at_ + 3) = packet.byte (at_ + 3) + 1 :=
    Function.update_self _ _ _
  unfold Packet.uint32
  rw [hbyte at_ (by omega), hbyte (at_ + 1) (by omega), hbyte (at_ + 2) (by omega), hlast]
  intro heq
  have hhigh := add_left_cancel heq
  have hlt := (packet.byte (at_ + 3)).toNat_lt
  rw [← UInt32.toNat_inj] at hhigh
  simp only [UInt32.toNat_shiftLeft, UInt8.toNat_toUInt32, UInt8.toNat_add, UInt8.toNat_one,
    UInt32.reduceToNat, Nat.shiftLeft_eq, Nat.reduceMod, Nat.reducePow] at hhigh
  omega

end Fields

/-! ## The operations -/

section Operations

variable (env : Env) {sys : Sys} (conn : Conn) {packet other : Packet} {handle : UInt16}

/-- A request that is refused is answered without a look at its fields. -/
theorem proc_busy (packet other : Packet) (handle : UInt16)
    (hbusy : sys.cb.ftInProgress ≠ .none) :
    otaFtcProcGetReq env sys conn handle other = otaFtcProcGetReq env sys conn handle packet ∧
      otaFtcProcPutReq env sys conn handle other = otaFtcProcPutReq env sys conn handle packet ∧
      otaFtcProcVerifyReq env sys conn handle other =
        otaFtcProcVerifyReq env sys conn handle packet ∧
      otaFtcProcEraseReq env sys conn handle other =
        otaFtcProcEraseReq env sys conn handle packet := by
  simp only [otaFtcProcGetReq, otaFtcProcPutReq, otaFtcProcVerifyReq, otaFtcProcEraseReq,
    if_pos hbusy, and_self]

theorem getReq_congr (hsame : SameReceived packet other)
    (hfields : handle = 0 ∨ 11 ≤ packet.len.toNat) :
    otaFtcProcGetReq env sys conn handle other = otaFtcProcGetReq env sys conn handle packet := by
  rw [otaFtcProcGetReq, otaFtcProcGetReq, getReqSetup, getReqSetup]
  rcases hfields with hzero | hlen
  -- the partition table is read whatever the request says
  · simp only [hzero, beq_self_eq_true, if_true]
  · rw [hsame.uint32 (by omega), hsame.uint32 (by omega)]

theorem putReq_congr (hsame : SameReceived packet other) (hlen : 11 ≤ packet.len.toNat) :
    otaFtcProcPutReq env sys conn handle other = otaFtcProcPutReq env sys conn handle packet := by
  rw [otaFtcProcPutReq, otaFtcProcPutReq, putReqSetup, putReqSetup, hsame.uint32 (by omega),
    hsame.uint32 (by omega)]

theorem eraseReq_congr (hsame : SameReceived packet other) (hlen : 11 ≤ packet.len.toNat) :
    otaFtcProcEraseReq env sys conn handle other =
      otaFtcProcEraseReq env sys conn handle packet := by
  rw [otaFtcProcEraseReq, otaFtcProcEraseReq, eraseReqSetup, eraseReqSetup,
    hsame.uint32 (by omega), hsame.uint32 (by omega)]

theorem verifyReq_congr (hsame : SameReceived packet other) (hlen : 15 ≤ packet.len.toNat) :
    otaFtcProcVerifyReq env sys conn handle other =
      otaFtcProcVerifyReq env sys conn handle packet := by
  rw [otaFtcProcVerifyReq, otaFtcProcVerifyReq, verifyReqSetup, verifyReqSetup,
    hsame.uint32 (by omega), hsame.uint32 (by omega), hsame.uint32 (by omega)]

/-- A write is decided by the received bytes if these hold the fields that it parses. -/
theorem otaFtcWrite_congr (hsame : SameReceived packet other)
    (hreceived : FieldsReceived sys packet) :
    otaFtcWrite env sys conn other = otaFtcWrite env sys conn packet := by
  rw [otaFtcWrite, otaFtcWrite, hsame.len]
  by_cases hshort : packet.len < ftcHdrLen + ftcHandleLen
  · rw [if_pos hshort, if_pos hshort]
  have hlen : 3 ≤ packet.len.toNat := by
    rw [UInt16.lt_iff_toNat_lt, Nat.not_lt] at hshort
    exact hshort
  rw [if_neg hshort, if_neg hshort, hsame.byte 0 (by omega), hsame.uint16 (by omega)]
  dsimp only
  rcases hreceived.resolve_left hshort with hbusy | hfields
  · obtain ⟨hget, hput, hverify, herase⟩ :=
      proc_busy env conn packet other (packet.uint16 1) hbusy
    rw [hget, hput, hverify, herase]
  · rw [parsedLen, UInt16.le_iff_toNat_le] at hfields
    cases hop : FtcOp.ofByte (packet.byte 0) with
    | none => rfl
    | some op =>
        rw [hop] at hfields
        cases op with
        | getReq =>
            dsimp only at hfields ⊢
            rw [getReq_congr env conn hsame]
            by_cases hhandle : packet.uint16 1 = 0
            · exact .inl hhandle
            · rw [if_neg hhandle] at hfields
              exact .inr hfields
        | putReq =>
            dsimp only
            rw [putReq_congr env conn hsame hfields]
        | eraseReq =>
            dsimp only
            rw [eraseReq_congr env conn hsame hfields]
        | verifyReq =>
            dsimp only
            rw [verifyReq_congr env conn hsame hfields]
        | _ => rfl

theorem otaFtcSendRsp_ftCrc (sys : Sys) (op : FtcOp) (handle : UInt16) (status : UInt8)
    (extraInfo : UInt16) :
    (otaFtcSendRsp env sys conn op handle status extraInfo).cb.ftCrc = sys.cb.ftCrc := by
  unfold otaFtcSendRsp
  split
  · rfl
  · rfl

/-- A request that is taken leaves the length it asks for in the control block. -/
theorem otaFtcWrite_ftLen {op : FtcOp} (hlong : ¬packet.len < ftcHdrLen + ftcHandleLen)
    (hidle : sys.cb.ftInProgress = .none) (hop : FtcOp.ofByte (packet.byte 0) = some op)
    (hfields : op = .getReq ∧ packet.uint16 1 ≠ 0 ∨ op = .putReq ∨ op = .eraseReq) :
    (otaFtcWrite env sys conn packet).2.cb.ftLen = packet.uint32 7 := by
  rw [otaFtcWrite, if_neg hlong, hop]
  rcases hfields with ⟨rfl, hhandle⟩ | rfl | rfl
  · dsimp only
    rw [otaFtcProcGetReq, if_neg (not_not.mpr hidle)]
    refine (otaFtcSendRsp_sameTransfer env _ conn _ _ _ _).ftLen.trans ?_
    rw [getReqSetup, beq_eq_false_iff_ne.mpr hhandle]
    rfl
  · dsimp only
    rw [otaFtcProcPutReq, if_neg (not_not.mpr hidle)]
    exact (otaFtcSendRsp_sameTransfer env _ conn _ _ _ _).ftLen
  · dsimp only
    rw [otaFtcProcEraseReq, if_neg (not_not.mpr hidle)]
    refine (otaFtcSendRsp_sameTransfer env _ conn _ _ _ _).ftLen.trans ?_
    rw [eraseReqSetup, otaStorageErase_cb]

theorem otaFtcWrite_ftCrc (hlong : ¬packet.len < ftcHdrLen + ftcHandleLen)
    (hidle : sys.cb.ftInProgress = .none)
    (hop : FtcOp.ofByte (packet.byte 0) = some .verifyReq) :
    (otaFtcWrite env sys conn packet).2.cb.ftCrc = packet.uint32 11 := by
  rw [otaFtcWrite, if_neg hlong, hop]
  dsimp only
  rw [otaFtcProcVerifyReq, if_neg (not_not.mpr hidle), otaFtcSendRsp_ftCrc]
  rfl

end Operations

section Cut

variable {sys : Sys} {conn : Conn} {packet : Packet}
  (hlong : ¬packet.len < ftcHdrLen + ftcHandleLen) (hidle : sys.cb.ftInProgress = .none)

include hlong hidle

theorem not_decided_ftLen {op : FtcOp} (hop : FtcOp.ofByte (packet.byte 0) = some op)
    (hfields : op = .getReq ∧ packet.uint16 1 ≠ 0 ∨ op = .putReq ∨ op = .eraseReq)
    (hcut : packet.len.toNat ≤ 7 + 3) : ¬DecidedByReceived sys conn packet := by
  intro hdecided
  have hsame : SameReceived packet (packet.flipped (7 + 3)) := sameReceived_flipped hcut
  have hlen : 3 ≤ packet.len.toNat := by
    rw [UInt16.lt_iff_toNat_lt, Nat.not_lt] at hlong
    exact hlong
  have hftLen := (hdecided plainEnv _ hsame).ftLen
  rw [otaFtcWrite_ftLen plainEnv conn hlong hidle hop hfields] at hftLen
  have hflipped : ¬(packet.flipped (7 + 3)).len < ftcHdrLen + ftcHandleLen := hlong
  rw [← hsame.byte 0 (by omega)] at hop
  rw [← hsame.uint16 (show 1 + 2 ≤ packet.len.toNat from hlen)] at hfields
  rw [otaFtcWrite_ftLen plainEnv conn hflipped hidle hop hfields] at hftLen
  exact uint32_flipped packet 7 hftLen

theorem not_decided_ftCrc (hop : FtcOp.ofByte (packet.byte 0) = some .verifyReq)
    (hcut : packet.len.toNat ≤ 11 + 3) : ¬DecidedByReceived sys conn packet := by
  intro hdecided
  have hsame : SameReceived packet (packet.flipped (11 + 3)) := sameReceived_flipped hcut
  have hlen : 3 ≤ packet.len.toNat := by
    rw [UInt16.lt_iff_toNat_lt, Nat.not_lt] at hlong
    exact hlong
  have hftCrc := (hdecided plainEnv _ hsame).ftCrc
  rw [otaFtcWrite_ftCrc plainEnv conn hlong hidle hop] at hftCrc
  have hflipped : ¬(packet.flipped (11 + 3)).len < ftcHdrLen + ftcHandleLen := hlong
  rw [← hsame.byte 0 (by omega)] at hop
  rw [otaFtcWrite_ftCrc plainEnv conn hflipped hidle hop] at hftCrc
  exact uint32_flipped packet 11 hftCrc

/-- An accepted request that ends inside its fields is completed with what follows it. -/
theorem not_decided_of_cut (hcut : packet.len < parsedLen packet) :
    ¬DecidedByReceived sys conn packet := by
  have hnone : ¬packet.len < 3 := hlong
  rw [parsedLen] at hcut
  cases hop : FtcOp.ofByte (packet.byte 0) with
  | none =>
      rw [hop] at hcut
      exact absurd hcut hnone
  | some op =>
      rw [hop] at hcut
      cases op with
      | getReq =>
          dsimp only at hcut
          by_cases hhandle : packet.uint16 1 = 0
          · rw [if_pos hhandle] at hcut
            exact absurd hcut hnone
          · rw [if_neg hhandle] at hcut
            exact not_decided_ftLen hlong hidle hop (.inl ⟨rfl, hhandle⟩)
              (Nat.le_of_lt_succ hcut)
      | putReq =>
          exact not_decided_ftLen hlong hidle hop (.inr (.inl rfl)) (Nat.le_of_lt_succ hcut)
      | eraseReq =>
          exact not_decided_ftLen hlong hidle hop (.inr (.inr rfl)) (Nat.le_of_lt_succ hcut)
      | verifyReq => exact not_decided_ftCrc hlong hidle hop (Nat.le_of_lt_succ hcut)
      | _ => exact absurd hcut hnone

end Cut

/-- A control write is decided by the received bytes exactly if it is refused or these hold
all the fields of its operation. -/
theorem controlWrite_decided_iff (sys : Sys) (conn : Conn) (packet : Packet) :
    DecidedByReceived sys conn packet ↔ FieldsReceived sys packet := by
  constructor
  · intro hdecided
    rw [FieldsReceived, or_iff_not_imp_left, or_iff_not_imp_left]
    intro hlong hidle
    rw [not_not] at hidle
    rw [UInt16.le_iff_toNat_le, ← Nat.not_lt, ← UInt16.lt_iff_toNat_lt]
    exact fun hcut => not_decided_of_cut hlong hidle hcut hdecided
  · intro hreceived env other hsame
    rw [otaFtcWrite_congr env conn hsame hreceived]
    exact ⟨rfl, rfl, rfl, rfl, rfl, rfl, rfl, rfl, rfl⟩

/-- An erase request without its fields, and the receive buffer behind it. -/
def cutErase (behind : UInt8) : Packet where
  len := 3
  byte := fun i => if i = 0 then FtcOp.eraseReq.code else if i < 3 then 0 else behind

/-- The erase acts on what is left in the buffer. -/
theorem cutErase_not_decided :
    ¬DecidedByReceived (otaProfileInit (fun _ => 0) fun _ => true) 1 (cutErase 0) := by
  intro hdecided
  have hsame : SameReceived (cutErase 0) (cutErase 1) := by
    refine ⟨rfl, fun i hi => ?_⟩
    have hi : i < 3 := hi
    simp only [cutErase, if_pos hi]
  have hftLen := (hdecided plainEnv (cutErase 1) hsame).ftLen
  rw [otaFtcWrite_ftLen plainEnv 1 (by decide) rfl rfl (.inr (.inr rfl)),
    otaFtcWrite_ftLen plainEnv 1 (by decide) rfl rfl (.inr (.inr rfl))] at hftLen
  unfold Packet.uint32 at hftLen
  exact absurd hftLen (by decide)

end CubieBle.Ota
