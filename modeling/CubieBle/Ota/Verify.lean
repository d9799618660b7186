import CubieBle.Ota.WriteLaws

/-! # The verification of a range

The loop of `ota_ftc_proc_verify_req` in its own 32-bit arithmetic, together with the reads
that it makes. It reads the range once, from the front to the end, and the CRC that it carries
from page to page is that of the range as a whole.
-/

namespace CubieBle.Ota

/-- `OTA_MIN(256, otaCb.ft_len - off)` -/
def pageLen (len off : UInt32) : UInt32 := if 256 < len - off then 256 else len - off

theorem pageLen_le (len off : UInt32) : (pageLen len off).toNat ≤ 256 := by
  rw [pageLen]
  split
  next => decide
  next hle =>
    rw [UInt32.lt_iff_toNat_lt, Nat.not_lt] at hle
    exact hle

/-- A page lies inside the rest of the range, so that the offset does not wrap. -/
theorem pageLen_spec {len off : UInt32} (hoff : off < len) :
    (pageLen len off).toNat = min 256 (len.toNat - off.toNat) ∧
      (off + pageLen len off).toNat = off.toNat + (pageLen len off).toNat := by
  rw [UInt32.lt_iff_toNat_lt] at hoff
  have hlen := len.toNat_lt
  have hrest : (len - off).toNat = len.toNat - off.toNat :=
    UInt32.toNat_sub_of_le _ _ (UInt32.le_iff_toNat_le.mpr (Nat.le_of_lt hoff))
  have hpage : (pageLen len off).toNat = min 256 (len.toNat - off.toNat) := by
    rw [pageLen]
    split
    next hlt =>
      rw [UInt32.lt_iff_toNat_lt, hrest] at hlt
      exact (Nat.min_eq_left (Nat.le_of_lt hlt)).symm
    next hle =>
      rw [UInt32.lt_iff_toNat_lt, hrest] at hle
      rw [hrest]
      exact (Nat.min_eq_right (Nat.le_of_not_lt hle)).symm
  refine ⟨hpage, ?_⟩
  rw [UInt32.toNat_add, Nat.mod_eq_of_lt]
  rw [hpage]
  omega

/-- A page and what follows it make up the rest of the range. -/
theorem pageLen_rest {len off : UInt32} (hoff : off < len) :
    len.toNat - off.toNat =
      (pageLen len off).toNat + (len.toNat - (off + pageLen len off).toNat) := by
  obtain ⟨hpage, hnext⟩ := pageLen_spec hoff
  rw [hnext, hpage]
  omega

/-- The arguments of a call of `ota_storage_read`. -/
structure PageRead where
  addr : UInt32
  len : UInt32
deriving DecidableEq

def PageRead.addresses (read : PageRead) : List Nat :=
  List.range' read.addr.toNat read.len.toNat

/-- The CRC at the end of the loop, and the reads on the way there. -/
def verifyPages (env : Env) (sys : Sys) (addr len off crc : UInt32) : UInt32 × List PageRead :=
  if off < len then
    let readLen := pageLen len off
    let rest := verifyPages env sys addr len (off + readLen)
      (env.crc32 (otaStorageRead env sys (addr + off) readLen.toNat) crc)
    (rest.1, ⟨addr + off, readLen⟩ :: rest.2)
  else (crc, [])
termination_by len.toNat - off.toNat
decreasing_by
  obtain ⟨hpage, hnext⟩ := pageLen_spec ‹off < len›
  have hlt := UInt32.lt_iff_toNat_lt.mp ‹off < len›
  rw [hnext, hpage]
  omega

section Pages

variable {env : Env} {sys : Sys} {addr len : UInt32}

/-- The two loops compute the same CRC. -/
theorem verifyLoop_eq_pages (off crc : UInt32) :
    verifyLoop env sys addr len.toNat off.toNat crc =
      (verifyPages env sys addr len off crc).1 := by
  induction off, crc using verifyPages.induct env sys addr len with
  | case1 off crc hlt readLen ih =>
      obtain ⟨hpage, hnext⟩ := pageLen_spec hlt
      rw [verifyPages, if_pos hlt, verifyLoop, if_pos (UInt32.lt_iff_toNat_lt.mp hlt)]
      dsimp only
      rw [← ih, hnext, hpage, UInt32.ofNat_toNat]
  | case2 off crc hge =>
      rw [verifyPages, if_neg hge, verifyLoop, if_neg (mt UInt32.lt_iff_toNat_lt.mpr hge)]

theorem pages_le (off crc : UInt32) :
    ∀ read ∈ (verifyPages env sys addr len off crc).2, read.len.toNat ≤ 256 := by
  induction off, crc using verifyPages.induct env sys addr len with
  | case1 off crc hlt readLen ih =>
      rw [verifyPages, if_pos hlt]
      intro read hread
      rcases List.mem_cons.mp hread with rfl | hread
      · exact pageLen_le len off
      · exact ih read hread
  | case2 off crc hge =>
      rw [verifyPages, if_neg hge]
      exact fun read hread => absurd hread List.not_mem_nil

/-- The pages follow each other without a gap up to the end of the range. -/
theorem pages_addresses (hrange : addr.toNat + len.toNat ≤ 2 ^ 32) (off crc : UInt32) :
    (verifyPages env sys addr len off crc).2.flatMap PageRead.addresses =
      List.range' (addr.toNat + off.toNat) (len.toNat - off.toNat) := by
  induction off, crc using verifyPages.induct env sys addr len with
  | case1 off crc hlt readLen ih =>
      have hoff := UInt32.lt_iff_toNat_lt.mp hlt
      have haddr : (addr + off).toNat = addr.toNat + off.toNat := by
        rw [UInt32.toNat_add, Nat.mod_eq_of_lt (by omega)]
      rw [verifyPages, if_pos hlt]
      dsimp only
      rw [List.flatMap_cons, ih, PageRead.addresses, haddr, pageLen_rest hlt,
        ← List.range'_append_1, (pageLen_spec hlt).2, Nat.add_assoc]
  | case2 off crc hge =>
      rw [verifyPages, if_neg hge]
      rw [UInt32.lt_iff_toNat_lt, Nat.not_lt] at hge
      rw [Nat.sub_eq_zero_of_le hge]
      rfl

/-- With a CRC that can be continued, the loop computes that of the rest of the range. -/
theorem pages_crc
    (hread : ∀ addr count, otaStorageRead env sys addr count = flashRange sys.flash addr count)
    (happend : ∀ first second init,
      env.crc32 (first ++ second) init = env.crc32 second (env.crc32 first init))
    (hempty : ∀ init, env.crc32 [] init = init) (off crc : UInt32) :
    (verifyPages env sys addr len off crc).1 =
      env.crc32 (flashRange sys.flash (addr + off) (len.toNat - off.toNat)) crc := by
  induction off, crc using verifyPages.induct env sys addr len with
  | case1 off crc hlt readLen ih =>
      rw [verifyPages, if_pos hlt]
      dsimp only
      rw [ih, hread, ← happend, pageLen_rest hlt, ← flashRange_add, UInt32.ofNat_toNat, add_assoc]
  | case2 off crc hge =>
      rw [verifyPages, if_neg hge]
      rw [UInt32.lt_iff_toNat_lt, Nat.not_lt] at hge
      rw [Nat.sub_eq_zero_of_le hge]
      exact (hempty crc).symm

end Pages

/-- The verdict on a range as a whole. -/
def rangeStatus (env : Env) (flash : Flash) (addr len crc : UInt32) : FtcStatus :=
  if env.crc32 (flashRange flash addr len.toNat) 0 = crc then .success else .verification

/-- The request is answered with the verdict on its range, which is read once. -/
structure VerifiesRange (env : Env) (sys : Sys) (conn : Conn) (handle : UInt16)
    (packet : Packet) : Prop where
  loop : verifyLoop env sys (packet.uint32 3) (packet.uint32 7).toNat 0 0 =
    (verifyPages env sys (packet.uint32 3) (packet.uint32 7) 0 0).1
  pageBuf : ∀ read ∈ (verifyPages env sys (packet.uint32 3) (packet.uint32 7) 0 0).2,
    read.len.toNat ≤ 256
  reads : (verifyPages env sys (packet.uint32 3) (packet.uint32 7) 0 0).2.flatMap
      PageRead.addresses =
    List.range' (packet.uint32 3).toNat (packet.uint32 7).toNat
  status : otaFtcProcVerifyReq env sys conn handle packet =
    otaFtcSendRsp env (verifyReqSetup sys handle packet) conn .verifyRsp handle
      (rangeStatus env sys.flash (packet.uint32 3) (packet.uint32 7) (packet.uint32 11)).code 0
  response : sys.ftcWaiting = false →
    (otaFtcProcVerifyReq env sys conn handle packet).cb.ftcMsgBuf =
        [FtcOp.verifyRsp.code] ++ uint16ToBytes handle ++
          [(rangeStatus env sys.flash (packet.uint32 3) (packet.uint32 7)
            (packet.uint32 11)).code] ∧
      (otaFtcProcVerifyReq env sys conn handle packet).queue = sys.queue ++ [.ftc]
  flash : (otaFtcProcVerifyReq env sys conn handle packet).flash = sys.flash
  ftInProgress : (otaFtcProcVerifyReq env sys conn handle packet).cb.ftInProgress = .none

/-- A verification request in an idle state checks every byte of its range. -/
theorem otaFtcProcVerifyReq_verifies (env : Env) (sys : Sys) (conn : Conn) (handle : UInt16)
    (packet : Packet) (hidle : sys.cb.ftInProgress = .none)
    (hrange : (packet.uint32 3).toNat + (packet.uint32 7).toNat ≤ 2 ^ 32)
    (hread : ∀ addr count, otaStorageRead env sys addr count = flashRange sys.flash addr count)
    (happend : ∀ first second init,
      env.crc32 (first ++ second) init = env.crc32 second (env.crc32 first init))
    (hempty : ∀ init, env.crc32 [] init = init) :
    VerifiesRange env sys conn handle packet := by
  have hloop : verifyLoop env sys (packet.uint32 3) (packet.uint32 7).toNat 0 0 =
      (verifyPages env sys (packet.uint32 3) (packet.uint32 7) 0 0).1 := verifyLoop_eq_pages 0 0
  have hstatus : verifyStatus env sys (packet.uint32 3) (packet.uint32 7) (packet.uint32 11) =
      rangeStatus env sys.flash (packet.uint32 3) (packet.uint32 7) (packet.uint32 11) := by
    rw [verifyStatus, rangeStatus, hloop, pages_crc hread happend hempty, add_zero]
    simp only [beq_iff_eq]
    rfl
  have hnext : otaFtcProcVerifyReq env sys conn handle packet =
      otaFtcSendRsp env (verifyReqSetup sys handle packet) conn .verifyRsp handle
        (rangeStatus env sys.flash (packet.uint32 3) (packet.uint32 7)
          (packet.uint32 11)).code 0 := by
    rw [otaFtcProcVerifyReq, if_neg (not_not.mpr hidle), hstatus]
  have hsame := otaFtcSendRsp_sameTransfer env (verifyReqSetup sys handle packet) conn .verifyRsp
    handle (rangeStatus env sys.flash (packet.uint32 3) (packet.uint32 7) (packet.uint32 11)).code 0
  constructor
  case loop => exact hloop
  case pageBuf => exact pages_le 0 0
  case reads => exact pages_addresses hrange 0 0
  case status => exact hnext
  case response =>
    intro hfree
    have hfree : (verifyReqSetup sys handle packet).ftcWaiting = false := hfree
    rw [hnext, otaFtcSendRsp_ftcMsgBuf, otaFtcSendRsp_queue, hfree]
    exact ⟨List.append_nil _, rfl⟩
  case flash => rw [hnext, hsame.flash]; rfl
  case ftInProgress => rw [hnext, hsame.ftInProgress]; exact hidle

/-- One byte of the reflected CRC-32. -/
def crc32Byte (crc : UInt32) (byte : UInt8) : UInt32 :=
  (fun crc : UInt32 => if crc &&& 1 ≠ 0 then (crc >>> 1) ^^^ 0xedb88320 else crc >>> 1)^[8]
    (crc ^^^ byte.toUInt32)

/-- The environment with the CRC that image files are sealed with. -/
def crc32Env : Env :=
  { plainEnv with
    crc32 := fun data init => data.foldl crc32Byte (init ^^^ 0xffffffff) ^^^ 0xffffffff }

/-- The digits `123456789` at address 64, and the request that asks for their CRC. -/
def digitsFlash : Flash := fun addr => if 64 ≤ addr ∧ addr < 73 then (addr - 15).toUInt8 else 0xff

def verifyDigits : Packet :=
  .ofBytes [FtcOp.verifyReq.code, 1, 0, 64, 0, 0, 0, 9, 0, 0, 0, 0x26, 0x39, 0xf4, 0xcb]

theorem crc32Env_append (first second : List UInt8) (init : UInt32) :
    crc32Env.crc32 (first ++ second) init = crc32Env.crc32 second (crc32Env.crc32 first init) := by
  simp only [crc32Env, List.foldl_append, UInt32.xor_assoc, UInt32.xor_self, UInt32.xor_zero]

theorem crc32Env_nil (init : UInt32) : crc32Env.crc32 [] init = init := by
  simp only [crc32Env, List.foldl_nil, UInt32.xor_assoc, UInt32.xor_self, UInt32.xor_zero]

theorem otaFtcProcVerifyReq_verifies_digits :
    VerifiesRange crc32Env (otaProfileInit digitsFlash fun _ => true) 1 1 verifyDigits ∧
      rangeStatus crc32Env digitsFlash 64 9 0xcbf43926 = .success := by
  have hrange : (verifyDigits.uint32 3).toNat + (verifyDigits.uint32 7).toNat ≤ 2 ^ 32 := by
    unfold Packet.uint32
    decide
  exact ⟨otaFtcProcVerifyReq_verifies crc32Env _ 1 1 verifyDigits rfl hrange (fun _ _ => rfl)
    crc32Env_append crc32Env_nil, by decide +kernel⟩

end CubieBle.Ota
