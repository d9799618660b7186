import Mathlib.Tactic.IntervalCases

/-! # The link to the controller

The host asks the controller to fetch a packet by whole words, and describes with two small
fields where in these words the packet lies. If the controller finds a wrong checksum, the
host computes it again from the description.
-/

namespace CubieBle.Hci

/-! ## CRC-8 -/

abbrev Memory := UInt32 → UInt8

set_option maxRecDepth 1000 in
def crc8Table : Vector UInt8 256 := #v[
  0x00, 0x1d, 0x3a, 0x27, 0x74, 0x69, 0x4e, 0x53, 0xe8, 0xf5, 0xd2, 0xcf, 0x9c, 0x81, 0xa6, 0xbb,
  0xcd, 0xd0, 0xf7, 0xea, 0xb9, 0xa4, 0x83, 0x9e, 0x25, 0x38, 0x1f, 0x02, 0x51, 0x4c, 0x6b, 0x76,
  0x87, 0x9a, 0xbd, 0xa0, 0xf3, 0xee, 0xc9, 0xd4, 0x6f, 0x72, 0x55, 0x48, 0x1b, 0x06, 0x21, 0x3c,
  0x4a, 0x57, 0x70, 0x6d, 0x3e, 0x23, 0x04, 0x19, 0xa2, 0xbf, 0x98, 0x85, 0xd6, 0xcb, 0xec, 0xf1,
  0x13, 0x0e, 0x29, 0x34, 0x67, 0x7a, 0x5d, 0x40, 0xfb, 0xe6, 0xc1, 0xdc, 0x8f, 0x92, 0xb5, 0xa8,
  0xde, 0xc3, 0xe4, 0xf9, 0xaa, 0xb7, 0x90, 0x8d, 0x36, 0x2b, 0x0c, 0x11, 0x42, 0x5f, 0x78, 0x65,
  0x94, 0x89, 0xae, 0xb3, 0xe0, 0xfd, 0xda, 0xc7, 0x7c, 0x61, 0x46, 0x5b, 0x08, 0x15, 0x32, 0x2f,
  0x59, 0x44, 0x63, 0x7e, 0x2d, 0x30, 0x17, 0x0a, 0xb1, 0xac, 0x8b, 0x96, 0xc5, 0xd8, 0xff, 0xe2,
  0x26, 0x3b, 0x1c, 0x01, 0x52, 0x4f, 0x68, 0x75, 0xce, 0xd3, 0xf4, 0xe9, 0xba, 0xa7, 0x80, 0x9d,
  0xeb, 0xf6, 0xd1, 0xcc, 0x9f, 0x82, 0xa5, 0xb8, 0x03, 0x1e, 0x39, 0x24, 0x77, 0x6a, 0x4d, 0x50,
  0xa1, 0xbc, 0x9b, 0x86, 0xd5, 0xc8, 0xef, 0xf2, 0x49, 0x54, 0x73, 0x6e, 0x3d, 0x20, 0x07, 0x1a,
  0x6c, 0x71, 0x56, 0x4b, 0x18, 0x05, 0x22, 0x3f, 0x84, 0x99, 0xbe, 0xa3, 0xf0, 0xed, 0xca, 0xd7,
  0x35, 0x28, 0x0f, 0x12, 0x41, 0x5c, 0x7b, 0x66, 0xdd, 0xc0, 0xe7, 0xfa, 0xa9, 0xb4, 0x93, 0x8e,
  0xf8, 0xe5, 0xc2, 0xdf, 0x8c, 0x91, 0xb6, 0xab, 0x10, 0x0d, 0x2a, 0x37, 0x64, 0x79, 0x5e, 0x43,
  0xb2, 0xaf, 0x88, 0x95, 0xc6, 0xdb, 0xfc, 0xe1, 0x5a, 0x47, 0x60, 0x7d, 0x2e, 0x33, 0x14, 0x09,
  0x7f, 0x62, 0x45, 0x58, 0x0b, 0x16, 0x31, 0x2c, 0x97, 0x8a, 0xad, 0xb0, 0xe3, 0xfe, 0xd9, 0xc4]

/-- The loop over the bytes that are left. -/
def crc8Loop (memory : Memory) : UInt32 → Nat → UInt8 → UInt8
  | _, 0, crc => crc
  | data, len + 1, crc =>
      crc8Loop memory (data + 1) len (crc8Table.get (memory data ^^^ crc).toFin)

def crc8Compute (memory : Memory) (data len : UInt32) : UInt8 := crc8Loop memory data len.toNat 0

def computeChecksum (memory : Memory) (ptr len : UInt32) : UInt8 := crc8Compute memory ptr len

/-! ## The control block -/

inductive LlccState
  | idle
  | wait
  | ready
deriving DecidableEq

/-- The transfer data that the two functions use. -/
structure XferData where
  pBuf : UInt32
  align : UInt8
  checksum : UInt8
  len : UInt16
  type : UInt16
  seqNum : UInt8
deriving DecidableEq

structure Llcc where
  txBusyFlag : Bool
  state : LlccState
  useXfer2 : Bool
  consecutiveErr : UInt8
  wdogTimeoutTicks : UInt32
  tx : XferData
  pTxContext : UInt32
deriving DecidableEq

structure HciStats where
  numDataOut : UInt16 := 0
  numEvtOut : UInt16 := 0
  numCmdOut : UInt16 := 0
  numHdrCrcErrRx : UInt16 := 0
  numDataCrcErrTx : UInt16 := 0
  numTxBufferErr : UInt16 := 0
deriving DecidableEq

/-- Calls of functions in the ROM and of the platform. -/
inductive LlccCall
  | platformWakeLockInc
  | llccWdogTxEna (ticks : UInt32)
  | llccTxXferReq2Cmd (type align : UInt8) (len : UInt16) (checksum seq : UInt8)
  | llccTxXferReqCmd (type align : UInt8) (len : UInt16)
  | llccDmaSetupTx (pBuf len : UInt32)
  | llccTxError2Cmd (code0 code1 : UInt8)
  | llccTxCmdCrc (cmd : List UInt8)
  | llccTxRetryHelper (consecutiveCounts : Bool)
  | llccRxcmdValidHandler (data0 data1 : UInt32)
deriving DecidableEq

/-- What a function leaves: the control block, the statistics and the calls it made. -/
structure LlccResult where
  llcc : Llcc
  stats : HciStats
  calls : List LlccCall
deriving DecidableEq

/-! ## Writing -/

def hciCmdType : UInt32 := 1
def hciAclType : UInt32 := 2
def hciEvtType : UInt32 := 4

/-- The counters of `llcc_write_new`. -/
def HciStats.countOut (stats : HciStats) (cmd : UInt32) : HciStats :=
  if cmd = hciAclType then { stats with numDataOut := stats.numDataOut + 1 }
  else if cmd = hciEvtType then { stats with numEvtOut := stats.numEvtOut + 1 }
  else if cmd = hciCmdType then { stats with numCmdOut := stats.numCmdOut + 1 }
  else stats

/-- `llcc_write_new`, which waits as long as the channel is not free. -/
def llccWriteNew (memory : Memory) (llcc : Llcc) (stats : HciStats) (cmd pData : UInt32)
    (len : UInt16) (pContext : UInt32) : Option LlccResult :=
  if llcc.state ≠ .ready ∨ llcc.txBusyFlag then none
  else
    let align := (pData &&& 3).toUInt8
    let stats := stats.countOut cmd
    let checksum := if llcc.useXfer2 then computeChecksum memory pData len.toUInt32 else 0
    -- rounded up to the next multiple of 32 bits
    let tlen := UInt16.ofNat ((len.toNat + 3) / 4)
    let tx : XferData :=
      { llcc.tx with
        pBuf := pData, type := cmd.toUInt16, align := align &&& 3, len := tlen,
        checksum := checksum }
    if llcc.useXfer2 then
      -- the difference may be negative, and its bits are cut to the field
      let leftover := UInt8.ofInt (((tlen.toNat : Int) * 4 - len.toNat - align.toNat) * 4)
      let tx := { tx with align := tx.align ||| leftover, seqNum := tx.seqNum + 1 }
      some {
        llcc := { llcc with txBusyFlag := true, tx := tx, pTxContext := pContext }
        stats := stats
        calls := [.platformWakeLockInc, .llccWdogTxEna llcc.wdogTimeoutTicks,
          .llccTxXferReq2Cmd tx.type.toUInt8 tx.align tx.len tx.checksum tx.seqNum] }
    else
      some {
        llcc := { llcc with txBusyFlag := true, tx := tx, pTxContext := pContext }
        stats := stats
        calls := [.platformWakeLockInc, .llccTxXferReqCmd cmd.toUInt8 tx.align tx.len,
          .llccDmaSetupTx (pData - align.toUInt32) tx.len.toUInt32] }

/-! ## Received commands -/

/-- The bytes of a command in the two data registers. -/
def cmdBytes (data0 data1 : UInt32) : Vector UInt8 8 :=
  #v[data0.toUInt8, (data0 >>> 8).toUInt8, (data0 >>> 16).toUInt8, (data0 >>> 24).toUInt8,
    data1.toUInt8, (data1 >>> 8).toUInt8, (data1 >>> 16).toUInt8, (data1 >>> 24).toUInt8]

/-- The sum of a command before its last byte. -/
def headerChecksum (cmd : Vector UInt8 8) : UInt8 :=
  (cmd.toList.take 7).foldl (· + ·) (~~~0)

def llccCmdSoftReset : UInt8 := 1
def llccCmdSoftResetAck : UInt8 := 2
def llccCmd2Error : UInt8 := 14
def llccError2HdrErr : UInt8 := 1
def llccError2DataErr : UInt8 := 3
def llccMaxConsecutiveErr : UInt8 := 250

/-- The acknowledgement; the bytes after the flags are those that were on the stack. -/
def softResetAckCmd (stack : Vector UInt8 4) : List UInt8 :=
  [llccCmdSoftResetAck, 0x5a, 0xa5, 0xbe] ++ stack.toList

/-- The checksum of the payload, from the description of the transfer. -/
def revalidateChecksum (memory : Memory) (tx : XferData) : UInt8 :=
  let ptr := tx.pBuf + (tx.align &&& 0x3).toUInt32
  let len := UInt16.ofInt ((tx.len.toNat : Int) * 4 - (tx.align &&& 0x3).toNat -
    ((tx.align >>> 2) &&& 0x3).toNat)
  computeChecksum memory ptr len.toUInt32

/-- `llcc_rx_cmd_valid_handler_new`. `llccInit` is in the ROM. -/
def llccRxCmdValidHandlerNew (llccInit : Llcc → Llcc) (stack : Vector UInt8 4) (memory : Memory)
    (llcc : Llcc) (stats : HciStats) (data0 data1 : UInt32) : LlccResult :=
  let cmd := cmdBytes data0 data1
  if llcc.useXfer2 ∧ headerChecksum cmd ≠ cmd.get 7 then
    { llcc := llcc
      stats := { stats with numHdrCrcErrRx := stats.numHdrCrcErrRx + 1 }
      calls := [.llccTxError2Cmd llccError2HdrErr 0] }
  else if cmd.get 0 = llccCmdSoftReset then
    let reset := llccInit llcc
    { llcc :=
        { reset with
          state := .ready, tx := { reset.tx with seqNum := 0 },
          useXfer2 := cmd.get 1 = 0x5a ∧ cmd.get 2 = 0xa5 }
      stats := stats
      calls := [.llccTxCmdCrc (softResetAckCmd stack)] }
  else if cmd.get 0 = llccCmd2Error ∧ cmd.get 1 = llccError2DataErr then
    if !llcc.txBusyFlag then { llcc := llcc, stats := stats, calls := [] }
    else if revalidateChecksum memory llcc.tx ≠ llcc.tx.checksum then
      -- the data is corrupted, and the error counter is at its limit for the helper
      { llcc := { llcc with consecutiveErr := llccMaxConsecutiveErr }
        stats := { stats with numTxBufferErr := stats.numTxBufferErr + 1 }
        calls := [.llccTxRetryHelper true] }
    else
      { llcc := llcc
        stats := { stats with numDataCrcErrTx := stats.numDataCrcErrTx + 1 }
        calls := [.llccTxRetryHelper true] }
  else { llcc := llcc, stats := stats, calls := [.llccRxcmdValidHandler data0 data1] }

/-! ## The contract -/

/-- The length of the packet in bytes, as it can be recovered from the description. -/
def XferData.trueLength (tx : XferData) : Int :=
  (tx.len.toNat : Int) * 4 - (tx.align &&& 3).toNat - ((tx.align >>> 2) &&& 3).toNat

/-- The transfer is pending in a control block. -/
structure Pending (tx : XferData) (llcc : Llcc) : Prop where
  busy : llcc.txBusyFlag = true
  xfer2 : llcc.useXfer2 = true
  pBuf : llcc.tx.pBuf = tx.pBuf
  align : llcc.tx.align = tx.align
  len : llcc.tx.len = tx.len
  checksum : llcc.tx.checksum = tx.checksum

/-- The command that reports a wrong checksum of the payload, with a valid header. -/
def IsDataErr (data0 data1 : UInt32) : Prop :=
  let cmd := cmdBytes data0 data1
  headerChecksum cmd = cmd.get 7 ∧ cmd.get 0 = llccCmd2Error ∧ cmd.get 1 = llccError2DataErr

/-- The transfer describes the packet of `len` bytes at `a` in a memory. -/
structure Describes (memory : Memory) (a : UInt32) (len : UInt16) (tx : XferData) : Prop where
  length : tx.trueLength = len.toNat
  covers : ∀ k < len.toNat, ∃ j < 4 * tx.len.toNat,
    a + UInt32.ofNat k = a - a % 4 + UInt32.ofNat j
  checksum : ∀ later : Memory, (∀ k < len.toNat, later (a + UInt32.ofNat k) =
    memory (a + UInt32.ofNat k)) → ∀ llcc, Pending tx llcc →
      revalidateChecksum later llcc.tx = tx.checksum
  retried : ∀ later : Memory, (∀ k < len.toNat, later (a + UInt32.ofNat k) =
    memory (a + UInt32.ofNat k)) → ∀ llcc, Pending tx llcc → ∀ llccInit stack stats data0 data1,
      IsDataErr data0 data1 →
        llccRxCmdValidHandlerNew llccInit stack later llcc stats data0 data1 =
          { llcc := llcc
            stats := { stats with numDataCrcErrTx := stats.numDataCrcErrTx + 1 }
            calls := [.llccTxRetryHelper true] }

/-! ## The checksum -/

theorem crc8Table_zero : crc8Table.get (0 : UInt8).toFin = 0 := rfl

theorem crc8Table_ne_zero {index : UInt8} (hindex : index ≠ 0) :
    crc8Table.get index.toFin ≠ 0 := by
  have hall : crc8Table.toList.tail.all (fun entry => entry ≠ 0) = true := by decide +kernel
  have htail : ∀ entry ∈ crc8Table.toList.tail, entry ≠ 0 := by
    intro entry hentry
    exact of_decide_eq_true (List.all_eq_true.mp hall entry hentry)
  apply htail
  obtain ⟨rest, hrest⟩ : ∃ rest, index.toNat = rest + 1 :=
    Nat.exists_eq_succ_of_ne_zero fun hzero => hindex (UInt8.toNat_inj.mp hzero)
  have hlt := index.toNat_lt
  rw [List.mem_iff_getElem]
  refine ⟨rest, ?_, ?_⟩
  · rw [List.length_tail, Vector.length_toList]
    omega
  · rw [List.getElem_tail, Vector.getElem_toList]
    simp only [← hrest]
    rfl

theorem crc8Loop_congr {memory later : Memory} (len : Nat) (data : UInt32) (crc : UInt8)
    (hsame : ∀ k < len, later (data + UInt32.ofNat k) = memory (data + UInt32.ofNat k)) :
    crc8Loop later data len crc = crc8Loop memory data len crc := by
  induction len generalizing data crc with
  | zero => rfl
  | succ len ih =>
      have hfirst := hsame 0 (by omega)
      rw [show UInt32.ofNat 0 = 0 from rfl, UInt32.add_zero] at hfirst
      rw [crc8Loop, crc8Loop, hfirst]
      apply ih
      intro k hk
      have hnext := hsame (k + 1) (by omega)
      rwa [UInt32.ofNat_add, UInt32.add_comm (UInt32.ofNat k), ← UInt32.add_assoc] at hnext

/-- Zeros keep the remainder zero or not zero. -/
theorem crc8Loop_zeros_iff {memory : Memory} (len : Nat) (data : UInt32) (crc : UInt8)
    (hzeros : ∀ k < len, memory (data + UInt32.ofNat k) = 0) :
    crc8Loop memory data len crc = 0 ↔ crc = 0 := by
  induction len generalizing data crc with
  | zero => rfl
  | succ len ih =>
      have hfirst := hzeros 0 (by omega)
      rw [show UInt32.ofNat 0 = 0 from rfl, UInt32.add_zero] at hfirst
      rw [crc8Loop, hfirst, UInt8.zero_xor, ih]
      · constructor
        · intro htable
          by_contra hcrc
          exact crc8Table_ne_zero hcrc htable
        · intro hcrc
          rw [hcrc, crc8Table_zero]
      · intro k hk
        have hnext := hzeros (k + 1) (by omega)
        rwa [UInt32.ofNat_add, UInt32.add_comm (UInt32.ofNat k), ← UInt32.add_assoc] at hnext

/-! ## The description -/

/-- The two fields of the alignment, from the offset in the first word and the difference
that is left. -/
theorem align_fields (offset : Nat) (left : Int) (hoffset : offset < 4) (hlow : -3 ≤ left)
    (hhigh : left ≤ 3) :
    ((UInt8.ofNat offset ||| UInt8.ofInt (left * 4)) &&& 3).toNat = offset ∧
      (((UInt8.ofNat offset ||| UInt8.ofInt (left * 4)) >>> 2) &&& 3).toNat = (left % 4).toNat := by
  interval_cases offset
  all_goals
    interval_cases left
    all_goals decide

/-- The number of words for a packet. -/
def wordCount (len : UInt16) : Nat := (len.toNat + 3) / 4

/-- What `llcc_write_new` puts into the description of a packet. -/
structure Written (memory : Memory) (a : UInt32) (len : UInt16) (tx : XferData) : Prop where
  pBuf : tx.pBuf = a
  words : tx.len.toNat = wordCount len
  offset : (tx.align &&& 3).toNat = a.toNat % 4
  left : ((tx.align >>> 2) &&& 3).toNat =
    (((wordCount len : Int) * 4 - len.toNat - (a.toNat % 4 : Nat)) % 4).toNat
  checksum : tx.checksum = crc8Loop memory a len.toNat 0

/-- The channel is free for a transfer with checksums. -/
structure Free (llcc : Llcc) : Prop where
  state : llcc.state = .ready
  idle : llcc.txBusyFlag = false
  xfer2 : llcc.useXfer2 = true

theorem llccWriteNew_spec {llcc : Llcc} (hfree : Free llcc) (memory : Memory) (stats : HciStats)
    (cmd a : UInt32) (len : UInt16) (context : UInt32) :
    ∃ result, llccWriteNew memory llcc stats cmd a len context = some result ∧
      Pending result.llcc.tx result.llcc ∧ Written memory a len result.llcc.tx := by
  have hlen := len.toNat_lt
  have htlen : (UInt16.ofNat ((len.toNat + 3) / 4)).toNat = wordCount len := by
    rw [UInt16.toNat_ofNat', wordCount]
    omega
  have hmod : (a &&& 3).toNat = a.toNat % 4 := by
    rw [UInt32.toNat_and]
    exact Nat.and_two_pow_sub_one_eq_mod a.toNat 2
  have halign : (a &&& 3).toUInt8 = UInt8.ofNat (a.toNat % 4) := by
    rw [← hmod]
    rfl
  have hoffset : (UInt8.ofNat (a.toNat % 4)).toNat = a.toNat % 4 := by
    rw [UInt8.toNat_ofNat']
    omega
  have hcut : UInt8.ofNat (a.toNat % 4) &&& 3 = UInt8.ofNat (a.toNat % 4) := by
    obtain h | h | h | h : a.toNat % 4 = 0 ∨ a.toNat % 4 = 1 ∨ a.toNat % 4 = 2 ∨
        a.toNat % 4 = 3 := by omega
    all_goals
      rw [h]
      rfl
  have hfields := align_fields (a.toNat % 4)
    ((wordCount len : Int) * 4 - len.toNat - (a.toNat % 4 : Nat)) (by omega)
    (by rw [wordCount]; omega) (by rw [wordCount]; omega)
  rw [llccWriteNew, if_neg (by rw [hfree.state, hfree.idle]; decide), if_pos hfree.xfer2,
    if_pos hfree.xfer2]
  refine ⟨_, rfl, ⟨rfl, hfree.xfer2, rfl, rfl, rfl, rfl⟩, rfl, htlen, ?_, ?_, ?_⟩
  · dsimp only
    rw [halign, hcut, hoffset, htlen]
    exact hfields.1
  · dsimp only
    rw [halign, hcut, hoffset, htlen]
    exact hfields.2
  · change crc8Loop memory a len.toUInt32.toNat 0 = _
    rw [UInt16.toNat_toUInt32]

section Written

variable {memory : Memory} {a : UInt32} {len : UInt16} {tx : XferData}
  (hwritten : Written memory a len tx)
include hwritten

/-- The checksum is computed again from as many bytes behind the start of the packet as the
packet is behind the start of a word. -/
theorem revalidateChecksum_eq (later : Memory) {llcc : Llcc} (hpending : Pending tx llcc) :
    revalidateChecksum later llcc.tx =
      crc8Loop later (a + UInt32.ofNat (a.toNat % 4)) (UInt16.ofInt tx.trueLength).toNat 0 := by
  have hptr : (tx.align &&& 3).toUInt32 = UInt32.ofNat (a.toNat % 4) := by
    apply UInt32.toNat_inj.mp
    rw [UInt8.toNat_toUInt32, hwritten.offset, UInt32.toNat_ofNat']
    omega
  rw [revalidateChecksum, hpending.pBuf, hpending.align, hpending.len, hwritten.pBuf]
  change crc8Loop later (a + (tx.align &&& 3).toUInt32) _ 0 = _
  rw [hptr, UInt16.toNat_toUInt32]
  rfl

theorem trueLength_eq :
    tx.trueLength =
      if a.toNat % 4 + len.toNat ≤ 4 * wordCount len then (len.toNat : Int) else len.toNat - 4 := by
  rw [XferData.trueLength, hwritten.words, hwritten.offset, hwritten.left, wordCount]
  split
  next hfits => omega
  next hshort => omega

/-- A packet at the start of a word is described as it is. -/
theorem describes_of_aligned (haligned : a % 4 = 0) : Describes memory a len tx := by
  have hzero : a.toNat % 4 = 0 := by
    have := congrArg UInt32.toNat haligned
    rwa [UInt32.toNat_mod] at this
  have hlength : tx.trueLength = len.toNat := by
    rw [trueLength_eq hwritten, if_pos (by rw [wordCount]; omega)]
  have hcut : (UInt16.ofInt tx.trueLength).toNat = len.toNat := by
    have hlt := len.toNat_lt
    rw [hlength, UInt16.ofInt, UInt16.toNat_ofNat']
    omega
  have hchecksum : ∀ later : Memory, (∀ k < len.toNat, later (a + UInt32.ofNat k) =
      memory (a + UInt32.ofNat k)) → ∀ llcc, Pending tx llcc →
        revalidateChecksum later llcc.tx = tx.checksum := by
    intro later hsame llcc hpending
    rw [revalidateChecksum_eq hwritten later hpending, hzero, hcut, hwritten.checksum,
      show UInt32.ofNat 0 = 0 from rfl, UInt32.add_zero]
    exact crc8Loop_congr len.toNat a 0 hsame
  refine ⟨hlength, ?_, hchecksum, ?_⟩
  · intro k hk
    refine ⟨k, ?_, ?_⟩
    · rw [hwritten.words, wordCount]
      omega
    · rw [haligned, UInt32.sub_zero]
  · intro later hsame llcc hpending llccInit stack stats data0 data1 herr
    obtain ⟨hheader, htype, hcode⟩ := herr
    have hright : ¬revalidateChecksum later llcc.tx ≠ llcc.tx.checksum := by
      rw [hchecksum later hsame llcc hpending, hpending.checksum]
      exact not_not_intro rfl
    rw [llccRxCmdValidHandlerNew]
    dsimp only
    rw [if_neg (fun hbad => hbad.2 hheader), if_neg (by rw [htype]; decide),
      if_pos ⟨htype, hcode⟩, hpending.busy]
    rw [if_neg (by decide), if_neg hright]

end Written

/-- A memory that is zero except for one byte. -/
def oneAt (a : UInt32) : Memory := fun addr => if addr = a then 1 else 0

theorem oneAt_add {a : UInt32} {k : Nat} (hpos : 0 < k) (hlt : k < 2 ^ 32) :
    oneAt a (a + UInt32.ofNat k) = 0 := by
  rw [oneAt, if_neg]
  intro heq
  have hzero : UInt32.ofNat k = 0 := by
    rw [← UInt32.add_zero a, UInt32.add_assoc, UInt32.zero_add, UInt32.add_right_inj] at heq
    exact heq
  have hnat := congrArg UInt32.toNat hzero
  rw [UInt32.toNat_ofNat'] at hnat
  change k % 2 ^ 32 = 0 at hnat
  omega

/-- Behind the start of a word the checksum is computed from other bytes. -/
theorem not_describes_of_unaligned {a : UInt32} {len : UInt16} {tx : XferData} {llcc : Llcc}
    (hlen : 1 ≤ len) (hwritten : Written (oneAt a) a len tx) (hpending : Pending tx llcc)
    (hunaligned : a % 4 ≠ 0) : ¬Describes (oneAt a) a len tx := by
  intro hdescribes
  have hoffset : 0 < a.toNat % 4 := by
    apply Nat.pos_of_ne_zero
    intro hzero
    apply hunaligned
    apply UInt32.toNat_inj.mp
    rw [UInt32.toNat_mod]
    exact hzero
  have hpositive : 1 ≤ len.toNat := hlen
  have hsame := hdescribes.checksum (oneAt a) (fun _ _ => rfl) llcc hpending
  rw [revalidateChecksum_eq hwritten (oneAt a) hpending, hwritten.checksum] at hsame
  -- what is read again is all zeros
  have hzero : crc8Loop (oneAt a) (a + UInt32.ofNat (a.toNat % 4))
      (UInt16.ofInt tx.trueLength).toNat 0 = 0 := by
    rw [crc8Loop_zeros_iff]
    intro k hk
    have hk' := (UInt16.ofInt tx.trueLength).toNat_lt
    rw [UInt32.add_assoc, ← UInt32.ofNat_add]
    exact oneAt_add (by omega) (by omega)
  -- the packet starts with a one
  have hone : crc8Loop (oneAt a) a len.toNat 0 ≠ 0 := by
    obtain ⟨rest, hrest⟩ : ∃ rest, len.toNat = rest + 1 := ⟨len.toNat - 1, by omega⟩
    rw [hrest, crc8Loop, Ne, crc8Loop_zeros_iff]
    · rw [oneAt, if_pos rfl]
      exact crc8Table_ne_zero (by decide)
    · intro k hk
      have := len.toNat_lt
      rw [UInt32.add_assoc, show (1 : UInt32) = UInt32.ofNat 1 from rfl, ← UInt32.ofNat_add]
      exact oneAt_add (by omega) (by omega)
  rw [hzero] at hsame
  exact hone hsame.symm

/-- On a free channel, a packet of any length at an address is described right, whatever it
contains, if and only if it starts with a word. -/
theorem transfer_describes_packet_iff (llcc : Llcc) (hfree : Free llcc) (stats : HciStats)
    (cmd a : UInt32) (len : UInt16) (hlen : 1 ≤ len) (context : UInt32) :
    (∀ memory, ∃ result, llccWriteNew memory llcc stats cmd a len context = some result ∧
      Pending result.llcc.tx result.llcc ∧ Describes memory a len result.llcc.tx) ↔
      a % 4 = 0 := by
  constructor
  · intro hdescribes
    by_contra hunaligned
    obtain ⟨result, hresult, hpending, hpacket⟩ := hdescribes (oneAt a)
    obtain ⟨other, hother, -, hwritten⟩ :=
      llccWriteNew_spec hfree (oneAt a) stats cmd a len context
    obtain rfl := Option.some.inj (hresult.symm.trans hother)
    exact not_describes_of_unaligned hlen hwritten hpending hunaligned hpacket
  · intro haligned memory
    obtain ⟨result, hresult, hpending, hwritten⟩ :=
      llccWriteNew_spec hfree memory stats cmd a len context
    exact ⟨result, hresult, hpending, describes_of_aligned hwritten haligned⟩

/-- A free channel with its counters at zero. -/
def freeLlcc : Llcc where
  txBusyFlag := false
  state := .ready
  useXfer2 := true
  consecutiveErr := 0
  wdogTimeoutTicks := 0
  tx := { pBuf := 0, align := 0, checksum := 0, len := 0, type := 0, seqNum := 0 }
  pTxContext := 0

theorem transfer_describes_packet_aligned :
    ∃ result,
      llccWriteNew (oneAt 0x20000004) freeLlcc {} hciAclType 0x20000004 5 0 = some result ∧
      Pending result.llcc.tx result.llcc ∧
      Describes (oneAt 0x20000004) 0x20000004 5 result.llcc.tx :=
  (transfer_describes_packet_iff freeLlcc ⟨rfl, rfl, rfl⟩ {} hciAclType 0x20000004 5 (by decide)
    0).mpr rfl (oneAt 0x20000004)

/-- Two bytes that start one byte behind a word: the length and the words are right, but the
controller's complaint drops the packet. -/
theorem unaligned_packet_dropped :
    ∃ result, llccWriteNew (oneAt 0x20000001) freeLlcc {} hciAclType 0x20000001 2 0 = some result ∧
      result.llcc.tx.trueLength = 2 ∧ IsDataErr 0x0000030e 0x10000000 ∧
      (llccRxCmdValidHandlerNew id (.replicate 4 0) (oneAt 0x20000001) result.llcc {} 0x0000030e
        0x10000000).llcc.consecutiveErr = llccMaxConsecutiveErr ∧
      ¬Describes (oneAt 0x20000001) 0x20000001 2 result.llcc.tx := by
  obtain ⟨result, hresult, hpending, hwritten⟩ := llccWriteNew_spec
    (show Free freeLlcc from ⟨rfl, rfl, rfl⟩) (oneAt 0x20000001) {} hciAclType 0x20000001 2 0
  have heval : (llccWriteNew (oneAt 0x20000001) freeLlcc {} hciAclType 0x20000001 2 0).map
      (fun result => (result.llcc.tx.trueLength,
        (llccRxCmdValidHandlerNew id (.replicate 4 0) (oneAt 0x20000001) result.llcc {} 0x0000030e
          0x10000000).llcc.consecutiveErr)) = some (2, llccMaxConsecutiveErr) := by
    decide
  rw [hresult, Option.map_some, Option.some.injEq, Prod.mk.injEq] at heval
  exact ⟨result, hresult, heval.1, ⟨rfl, rfl, rfl⟩, heval.2,
    not_describes_of_unaligned (by decide) hwritten hpending (by decide)⟩

end CubieBle.Hci
