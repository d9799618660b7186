import Mathlib.Order.Bounds.Basic
import CubieBle.BleModule.Strongest

/-! # The connection to the strongest device

When the inquiry is over, the module gives itself the command to connect. Its parameter is one
character, and is read as a string, with what lies behind the character in memory.
-/

namespace CubieBle.BleModule

open Machine

def BleParam.stopScan (param : BleParam) : BleParam := { param with state := .ready }

/-- The bytes of a string, up to its end. -/
def cString (memory : List UInt8) : List UInt8 := memory.takeWhile (· ≠ 0)

/-- `at_cmd_conn_set(&index_str)` for the strongest device, if there is one. The number of the
first device is the character `zero`. -/
def connectStrongest (param : BleParam) (zero : UInt8) (beyond : List UInt8) :
    Option ConnAnswer :=
  match getMaxRissDevIndex param with
  | some index =>
      if 0 ≤ index then
        let indexStr := zero + UInt8.ofNat index.toNat
        some (atCmdConnSet param (cString (indexStr :: beyond)))
      else none
  | none => none

/-- `MSG_SCAN_TIME_OUT`, after which the host is answered `OK`. -/
def scanTimeOut (autoConn : Bool) (param : BleParam) (beyond : List UInt8) :
    BleParam × Option ConnAnswer :=
  let param := param.stopScan
  (param, if autoConn then connectStrongest param 0x31 beyond else none)

/-- What `device_found` does once the report has been added to the list. -/
def listFull (autoConn : Bool) (param : BleParam) (beyond : List UInt8) : Option ConnAnswer :=
  if autoConn ∧ param.devCnt = devTotal then connectStrongest param 0x30 beyond else none

/-- A connection that the module starts by itself is to the chosen device. -/
structure ConnectsStrongest (param : BleParam) (beyond : List UInt8) : Prop where
  timeOut : ∀ i : Nat, getMaxRissDevIndex param = some (i : Int) →
    ∃ stopped, (scanTimeOut true param beyond).2 = some (.create stopped (param.dev i).addr)
  full : param.devCnt = devTotal → ∀ i : Nat, getMaxRissDevIndex param = some (i : Int) →
    ∃ stopped, listFull true param beyond = some (.create stopped (param.dev i).addr)

/-- The number that the character for an index makes with the digits behind it. -/
def numberWith (i : Nat) (beyond : List UInt8) : Nat :=
  decimalValue ((0x31 + UInt8.ofNat i) :: beyond.takeWhile isDigit)

/-- The number that is read is the one of the strongest device, or the one after the last device
if the strongest one has the address that the entry there has. -/
def NumberReads (param : BleParam) (beyond : List UInt8) : Prop :=
  ∀ i, IsLeast {i | Strongest param i} i → numberWith i beyond < 2 ^ 31 ∧
    (numberWith i beyond % 256 = i + 1 ∨
      numberWith i beyond % 256 = param.devCnt + 1 ∧ (param.dev i).addr = Device.zero.addr)

/-! ## The number that is read -/

theorem takeWhile_isDigit_cString (memory : List UInt8) :
    (cString memory).takeWhile isDigit = memory.takeWhile isDigit := by
  rw [cString, List.takeWhile_takeWhile]
  congr 1
  funext byte
  by_cases hzero : byte = 0
  · subst hzero
    rfl
  · simp [hzero]

theorem digit_of_index {i : Nat} (hi : i < 4) :
    isDigit (0x31 + UInt8.ofNat i) = true ∧
      decimalValue [0x31 + UInt8.ofNat i] = i + 1 ∧ (0x31 + UInt8.ofNat i) ≠ 0 := by
  revert i
  decide

theorem le_numberWith {i : Nat} (hi : i < 4) (beyond : List UInt8) :
    i + 1 ≤ numberWith i beyond := by
  obtain ⟨-, hvalue, -⟩ := digit_of_index hi
  rw [← hvalue]
  exact le_decimalValue_append [0x31 + UInt8.ofNat i] (beyond.takeWhile isDigit)

/-- Without a digit behind it, the character is the number. -/
theorem numberWith_of_noDigit {i : Nat} (hi : i < 4) {beyond : List UInt8}
    (hnone : beyond.takeWhile isDigit = []) : numberWith i beyond = i + 1 := by
  rw [numberWith, hnone, (digit_of_index hi).2.1]

theorem atoi_index {i : Nat} (hi : i < 4) (beyond : List UInt8) :
    atoi (cString ((0x31 + UInt8.ofNat i) :: beyond)) = clampInt (numberWith i beyond) := by
  obtain ⟨hdigit, -, hzero⟩ := digit_of_index hi
  have hcons : cString ((0x31 + UInt8.ofNat i) :: beyond) =
      (0x31 + UInt8.ofNat i) :: cString beyond := by
    rw [cString, List.takeWhile_cons, if_pos (decide_eq_true hzero), cString]
  rw [hcons, atoi_cons hdigit, takeWhile_isDigit_cString, numberWith]

/-- The index that is read is one below the number, as far as the number fits. -/
theorem connIndex_index {i j : Nat} (hi : i < 4) (hj : j < 5) (beyond : List UInt8) :
    connIndex (cString ((0x31 + UInt8.ofNat i) :: beyond)) = j ↔
      numberWith i beyond < 2 ^ 31 ∧ numberWith i beyond % 256 = j + 1 := by
  have hpos := le_numberWith hi beyond
  rw [connIndex, atoi_index hi, clampInt]
  omega

/-! ## The device that is meant -/

section Meant

variable {inquiry : Inquiry} {reports : List Report}

theorem scanTimeOut_of_index {param : BleParam} {i : Nat}
    (hindex : getMaxRissDevIndex param = some (i : Int)) (beyond : List UInt8) :
    (scanTimeOut true param beyond).2 =
      some (atCmdConnSet param.stopScan (cString ((0x31 + UInt8.ofNat i) :: beyond))) := by
  have hsame : getMaxRissDevIndex param.stopScan = some (i : Int) := hindex
  rw [scanTimeOut, if_pos rfl, connectStrongest, hsame]
  dsimp only
  rw [if_pos (Int.natCast_nonneg i), Int.toNat_natCast]

theorem atCmdConnSet_create_iff {param : BleParam} (hrole : param.role = .master)
    (hcnt : param.devCnt ≠ 0) (para : List UInt8) (addr : Addr) :
    (∃ stopped, atCmdConnSet param para = .create stopped addr) ↔
      connIndex para ≤ param.devCnt ∧ (param.dev (connIndex para)).addr = addr := by
  unfold atCmdConnSet
  split
  next herror =>
    refine iff_of_false (by simp) fun hboth => ?_
    rcases herror with hne | hzero | hlt
    · exact hne hrole
    · exact hcnt hzero
    · exact absurd hboth.1 (Nat.not_le_of_lt hlt)
  next hno =>
    have hle : connIndex para ≤ param.devCnt := Nat.le_of_not_lt fun hlt => hno (.inr (.inr hlt))
    simp [hle]

/-- Which entries have the address of a listed device. -/
theorem Scanned.addr_eq_iff (hscanned : Scanned inquiry reports) {i j : Nat}
    (hi : i < inquiry.param.devCnt) (hj : j ≤ inquiry.param.devCnt) :
    (inquiry.param.dev j).addr = (inquiry.param.dev i).addr ↔
      j = i ∨ j = inquiry.param.devCnt ∧ (inquiry.param.dev i).addr = Device.zero.addr := by
  rcases Nat.lt_or_eq_of_le hj with hlt | rfl
  · constructor
    · intro haddr
      exact .inl (hscanned.kept.distinct j hlt i hi haddr)
    · rintro (rfl | ⟨rfl, -⟩)
      · rfl
      · exact absurd hlt (Nat.lt_irrefl _)
  · rw [hscanned.fresh _ (Nat.le_refl _)]
    have hne : inquiry.param.devCnt ≠ i := Nat.ne_of_gt hi
    simp [hne, eq_comm]

/-- The connection is to a listed device exactly if its number is read, or the one after the last
device. -/
theorem Scanned.timeOut_iff (hscanned : Scanned inquiry reports) {i : Nat}
    (hi : i < inquiry.param.devCnt) (hindex : getMaxRissDevIndex inquiry.param = some (i : Int))
    (beyond : List UInt8) :
    (∃ stopped, (scanTimeOut true inquiry.param beyond).2 =
        some (.create stopped (inquiry.param.dev i).addr)) ↔
      numberWith i beyond < 2 ^ 31 ∧ (numberWith i beyond % 256 = i + 1 ∨
        numberWith i beyond % 256 = inquiry.param.devCnt + 1 ∧
          (inquiry.param.dev i).addr = Device.zero.addr) := by
  have hbound := hscanned.kept.bound
  have hcnt : inquiry.param.devCnt ≠ 0 := Nat.ne_zero_of_lt hi
  have hself := connIndex_index (show i < 4 by omega) (show i < 5 by omega) beyond
  have hlast := connIndex_index (show i < 4 by omega)
    (show inquiry.param.devCnt < 5 by omega) beyond
  rw [scanTimeOut_of_index hindex]
  simp only [Option.some.injEq]
  rw [atCmdConnSet_create_iff (show inquiry.param.stopScan.role = .master from
    hscanned.kept.role) hcnt]
  change _ ≤ inquiry.param.devCnt ∧ (inquiry.param.dev _).addr = _ ↔ _
  constructor
  · rintro ⟨hle, haddr⟩
    rcases (hscanned.addr_eq_iff hi hle).mp haddr with hsame | ⟨hsame, hzero⟩
    · obtain ⟨hfits, hnumber⟩ := hself.mp hsame
      exact ⟨hfits, .inl hnumber⟩
    · obtain ⟨hfits, hnumber⟩ := hlast.mp hsame
      exact ⟨hfits, .inr ⟨hnumber, hzero⟩⟩
  · rintro ⟨hfits, hnumber | ⟨hnumber, hzero⟩⟩
    · rw [hself.mpr ⟨hfits, hnumber⟩]
      exact ⟨hi.le, rfl⟩
    · rw [hlast.mpr ⟨hfits, hnumber⟩]
      exact ⟨Nat.le_refl _, (hscanned.addr_eq_iff hi (Nat.le_refl _)).mpr (.inr ⟨rfl, hzero⟩)⟩

end Meant

/-- After any reports, the module connects to the strongest device exactly if the number of that
device is read, whatever lies behind the character. -/
theorem connectsStrongest_iff (scanStarts : Bool) (param : BleParam)
    (hrole : param.role = .master) (reports : List Report) (beyond : List UInt8) :
    ConnectsStrongest (run deviceFound (inquiryStart scanStarts param) reports).param beyond ↔
      NumberReads (run deviceFound (inquiryStart scanStarts param) reports).param beyond := by
  have hscanned := scanned_run scanStarts hrole reports
  have hbound := hscanned.kept.bound
  generalize run deviceFound (inquiryStart scanStarts param) reports = after at hscanned hbound ⊢
  have hstores : ∀ i < after.param.devCnt, ∃ values, (after.param.dev i).Stores values :=
    fun i hi => ⟨_, hscanned.stores i hi⟩
  constructor
  · intro hconnects i hleast
    have hi := hleast.1.1
    obtain ⟨first, hfirst, hindex⟩ := getMaxRissDevIndex_of_pos hstores (Nat.zero_lt_of_lt hi)
    obtain rfl := hfirst.unique hleast
    exact (hscanned.timeOut_iff hi hindex beyond).mp (hconnects.timeOut first hindex)
  · intro hreads
    constructor
    · intro i hindex
      by_cases hempty : after.param.devCnt = 0
      · rw [getMaxRissDevIndex_of_empty hempty, Option.some.injEq] at hindex
        omega
      · obtain ⟨first, hfirst, hsome⟩ :=
          getMaxRissDevIndex_of_pos hstores (Nat.pos_of_ne_zero hempty)
        have hsame := Option.some.inj (hsome.symm.trans hindex)
        obtain rfl := Int.ofNat_inj.mp hsame
        exact (hscanned.timeOut_iff hfirst.1.1 hindex beyond).mpr (hreads first hfirst)
    · -- the list is never found full
      intro hfull
      rw [devTotal] at hfull
      omega

/-- The string ends behind the character. -/
theorem nearer_second_connected :
    ConnectsStrongest (run deviceFound (inquiryStart true sampleParam) nearerSecond).param [0] := by
  refine (connectsStrongest_iff true sampleParam rfl nearerSecond [0]).mpr fun i hleast => ?_
  have hcnt : (run deviceFound (inquiryStart true sampleParam) nearerSecond).param.devCnt = 2 := by
    decide
  have hi : i < 2 := hcnt ▸ hleast.1.1
  rw [numberWith_of_noDigit (by omega) rfl]
  omega

/-- The only device is meant by the number 1, and a zero behind it makes it a 10. -/
theorem digit_behind_index :
    ¬∀ (scanStarts : Bool) (param : BleParam) (reports : List Report) (beyond : List UInt8),
      param.role = .master →
        ConnectsStrongest (run deviceFound (inquiryStart scanStarts param) reports).param
          beyond := by
  intro hall
  obtain ⟨stopped, hcreate⟩ := (hall true sampleParam [sampleReport 1] (ascii ['0']) rfl).timeOut
    0 (by decide)
  have herror : (scanTimeOut true (run deviceFound (inquiryStart true sampleParam)
      [sampleReport 1]).param (ascii ['0'])).2 = some .error := by
    decide
  rw [herror] at hcreate
  exact absurd (Option.some.inj hcreate) nofun

end CubieBle.BleModule
