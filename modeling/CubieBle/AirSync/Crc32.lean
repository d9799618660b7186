import CubieBle.AirSync.Protocol
import CubieBle.Machine.CrcReflected

/-! # The checksum of the challenge

The answer to the challenge is a checksum that the code computes eight bytes at a time, with an
entry of the table computed for each byte. It is the reflected check of order 32.
-/

namespace CubieBle.AirSync

open Machine

/-! ## The code -/

/-- `crc` and `buf` of `wechat_crc32`, and what is behind `buf`. -/
structure CrcLoop where
  crc : UInt32
  buf : Nat
deriving DecidableEq

section Loop

variable (data : Nat → UInt8)

def do1 (state : CrcLoop) : CrcLoop where
  crc := crcTable ((state.crc ^^^ (data state.buf).toUInt32) &&& 0xff) ^^^ (state.crc >>> 8)
  buf := state.buf + 1

def do2 (state : CrcLoop) : CrcLoop := do1 data (do1 data state)

def do4 (state : CrcLoop) : CrcLoop := do2 data (do2 data state)

def do8 (state : CrcLoop) : CrcLoop := do4 data (do4 data state)

/-- `while (len >= 8)`. -/
def eights (state : CrcLoop) (len : Nat) : CrcLoop × Nat :=
  if 8 ≤ len then eights (do8 data state) (len - 8) else (state, len)

/-- `do … while (--len)`. -/
def singles (state : CrcLoop) : Nat → CrcLoop
  | 0 => state
  | len + 1 => singles (do1 data state) len

def wechatCrc32Loop (crc : UInt32) (len : Nat) : UInt32 :=
  let (state, len) := eights data ⟨crc ^^^ 0xffffffff, 0⟩ len
  (singles data state len).crc ^^^ 0xffffffff

/-! ## The loops -/

theorem singles_add (state : CrcLoop) (first second : Nat) :
    singles data state (first + second) = singles data (singles data state first) second := by
  induction first generalizing state with
  | zero => rw [Nat.zero_add, singles]
  | succ first ih => rw [Nat.succ_add, singles, ih, singles]

theorem singles_eights (state : CrcLoop) (len : Nat) :
    singles data (eights data state len).1 (eights data state len).2 = singles data state len := by
  fun_induction eights data state len with
  | case1 state len hlen ih =>
      have height : do8 data state = singles data state 8 := rfl
      rw [ih, height, ← singles_add, Nat.add_sub_cancel' hlen]
  | case2 state len hlen => rfl

/-- The bytes from a place on. -/
def bytesFrom (start len : Nat) : List UInt8 := (List.range' start len).map data

theorem singles_eq (state : CrcLoop) (len : Nat) :
    (singles data state len).crc =
      (bytesFrom data state.buf len).foldl
        (fun crc byte => crcTable ((crc ^^^ byte.toUInt32) &&& 0xff) ^^^ (crc >>> 8))
          state.crc := by
  induction len generalizing state with
  | zero => rfl
  | succ len ih =>
      have hbytes : bytesFrom data state.buf (len + 1) =
          data state.buf :: bytesFrom data (state.buf + 1) len := by
        rw [bytesFrom, List.range'_succ]
        rfl
      rw [singles, ih, hbytes]
      rfl

theorem wechatCrc32Loop_eq (crc : UInt32) (len : Nat) :
    wechatCrc32Loop data crc len = wechatCrc32 crc (bytesFrom data 0 len) := by
  rw [wechatCrc32Loop, wechatCrc32]
  dsimp only
  rw [singles_eights, singles_eq]

end Loop

/-! ## The reflected check -/

def crc32Poly : BitVec 32 := 0xedb88320#32

theorem toBitVec_crcTable (index : UInt32) :
    (crcTable index).toBitVec =
      crcBitsRight crc32Poly index.toBitVec (List.replicate 8 false) := by
  have hround : Function.Semiconj UInt32.toBitVec
      (fun c : UInt32 => if c &&& 1 ≠ 0 then (0xedb88320 : UInt32) ^^^ (c >>> 1) else c >>> 1)
      fun c => crcBitRight crc32Poly c false := by
    intro c
    have hlow : c &&& 1 ≠ 0 ↔ c.toBitVec.getLsbD 0 = true := by
      rw [ne_eq, ← UInt32.toBitVec_inj, UInt32.toBitVec_and]
      show ¬c.toBitVec &&& 1#32 = 0#32 ↔ _
      rw [BitVec.and_one_eq_setWidth_ofBool_getLsbD]
      cases c.toBitVec.getLsbD 0 with
      | false => decide
      | true => decide
    show (if c &&& 1 ≠ 0 then (0xedb88320 : UInt32) ^^^ (c >>> 1) else c >>> 1).toBitVec =
      crcBitRight crc32Poly c.toBitVec false
    rw [crcBitRight, Bool.xor_false]
    by_cases hbit : c &&& 1 ≠ 0
    · rw [if_pos hbit, if_pos (hlow.mp hbit), BitVec.xor_comm]
      rfl
    · rw [if_neg hbit, if_neg fun hleaves => hbit (hlow.mpr hleaves)]
      rfl
  rw [crcBitsRight_replicate]
  exact hround.iterate_right 8 index

theorem toBitVec_crcStep (crc : UInt32) (byte : UInt8) :
    (crcTable ((crc ^^^ byte.toUInt32) &&& 0xff) ^^^ (crc >>> 8)).toBitVec =
      crcBitsRight crc32Poly crc.toBitVec (lsbBits byte.toBitVec) := by
  have hindex : ((crc ^^^ byte.toUInt32) &&& 0xff).toBitVec =
      (crc.toBitVec.setWidth 8 ^^^ byte.toBitVec).setWidth 32 := by
    apply BitVec.eq_of_getLsbD_eq
    intro i hi
    have hmask : ∀ j < 32, (0xff#32).getLsbD j = decide (j < 8) := by decide
    have hword : ((crc ^^^ byte.toUInt32) &&& 0xff).toBitVec =
        (crc.toBitVec ^^^ byte.toBitVec.setWidth 32) &&& 0xff#32 := rfl
    rw [hword, BitVec.getLsbD_and, hmask i hi]
    by_cases hlow : i < 8
    · simp [hi, hlow]
    · simp [hlow, BitVec.getLsbD_of_ge byte.toBitVec i (by omega)]
  have hshift : (crc >>> 8).toBitVec = crc.toBitVec >>> 8 := rfl
  rw [UInt32.toBitVec_xor, toBitVec_crcTable, hindex, hshift, BitVec.xor_comm,
    crcBitsRight_table (by decide) (by decide)]

theorem toBitVec_foldl (message : List UInt8) (crc : UInt32) :
    (message.foldl
        (fun crc byte => crcTable ((crc ^^^ byte.toUInt32) &&& 0xff) ^^^ (crc >>> 8))
          crc).toBitVec =
      crcBitsRight crc32Poly crc.toBitVec (byteBits message) := by
  induction message generalizing crc with
  | nil => rfl
  | cons byte message ih =>
      rw [List.foldl_cons, ih, toBitVec_crcStep, byteBits_cons, crcBitsRight_append]

/-- The check of order 32 with a register of ones at the start, and turned over at the end. -/
def crc32Reflected (message : List UInt8) : BitVec 32 :=
  ~~~crcBitsRight crc32Poly (BitVec.allOnes 32) (byteBits message)

theorem toBitVec_wechatCrc32 (message : List UInt8) :
    (wechatCrc32 0 message).toBitVec = crc32Reflected message := by
  have hones : (0xffffffff : UInt32).toBitVec = BitVec.allOnes 32 := rfl
  rw [wechatCrc32, UInt32.toBitVec_xor, toBitVec_foldl, hones, crc32Reflected,
    UInt32.zero_xor, hones, BitVec.xor_allOnes]

/-- The checksum of a message goes on from the checksum of its beginning. -/
theorem wechatCrc32_append (crc : UInt32) (first second : List UInt8) :
    wechatCrc32 crc (first ++ second) = wechatCrc32 (wechatCrc32 crc first) second := by
  rw [wechatCrc32, wechatCrc32, wechatCrc32, List.foldl_append, UInt32.xor_assoc, UInt32.xor_self,
    UInt32.xor_zero]

/-! ## Errors -/

/-- What the register holds at the start adds what it leaves on a message of zeros. -/
theorem crcBits_register {w : Nat} (poly c : BitVec w) (bits : List Bool) :
    crcBits poly c bits =
      crcBits poly c (List.replicate bits.length false) ^^^ crcBits poly 0 bits := by
  have hlength : (List.replicate bits.length false).length = bits.length :=
    List.length_replicate
  have hsum := crcBits_xor poly hlength c 0
  have hbits : List.zipWith Bool.xor (List.replicate bits.length false) bits = bits := by
    apply List.ext_getElem (by simp)
    intro i hi hbit
    simp
  rw [← hsum, hbits]
  exact congrArg (fun c => crcBits poly c bits) (BitVec.xor_zero).symm

theorem crc32Reflected_ne_of_burst {first second : List UInt8}
    (hlength : (byteBits first).length = (byteBits second).length) {start : Nat}
    (hsame : ∀ i, i < start ∨ start + 32 ≤ i → (byteBits first)[i]? = (byteBits second)[i]?)
    (hne : byteBits first ≠ byteBits second) : crc32Reflected first ≠ crc32Reflected second := by
  have hodd : crc32Poly.reverse.getLsbD 0 = true := by
    rw [BitVec.getLsbD_reverse]
    decide
  have hburst := crcBits_ne_of_burst hodd hlength hsame hne
  intro heq
  apply hburst
  have hones := congrArg (fun word : BitVec 32 => ~~~word) heq
  simp only [crc32Reflected, BitVec.not_not, crcBitsRight_eq] at hones
  have hmirror := congrArg BitVec.reverse hones
  rw [BitVec.reverse_reverse_eq, BitVec.reverse_reverse_eq, crcBits_register,
    crcBits_register _ _ (byteBits second), hlength, BitVec.xor_right_inj] at hmirror
  exact hmirror

theorem length_byteBits (message : List UInt8) :
    (byteBits message).length = 8 * message.length := by
  induction message with
  | nil => rfl
  | cons byte message ih =>
      rw [byteBits_cons, List.length_append, length_lsbBits, ih, List.length_cons]
      omega

theorem lsbBits_injective {w : Nat} {first second : BitVec w}
    (heq : lsbBits first = lsbBits second) : first = second := by
  apply BitVec.eq_of_getLsbD_eq
  intro i _
  rw [← getD_lsbBits, ← getD_lsbBits, heq]

theorem byteBits_injective : Function.Injective byteBits := by
  intro first second heq
  induction first generalizing second with
  | nil =>
      have hlength := congrArg List.length heq
      rw [length_byteBits, length_byteBits, List.length_nil] at hlength
      exact (List.length_eq_zero_iff.mp (by omega)).symm
  | cons byte first ih =>
      cases second with
      | nil =>
          have hlength := congrArg List.length heq
          rw [length_byteBits, length_byteBits, List.length_cons, List.length_nil] at hlength
          omega
      | cons other second =>
          rw [byteBits_cons, byteBits_cons] at heq
          obtain ⟨hbyte, hrest⟩ := List.append_inj heq (by simp)
          rw [ih hrest, UInt8.toBitVec_inj.mp (lsbBits_injective hbyte)]

theorem length_bytesFrom (data : Nat → UInt8) (start len : Nat) :
    (bytesFrom data start len).length = len := by
  rw [bytesFrom, List.length_map, List.length_range']

theorem bytesFrom_add (data : Nat → UInt8) (len other : Nat) :
    bytesFrom data 0 (len + other) =
      bytesFrom data 0 len ++ bytesFrom (fun i => data (len + i)) 0 other := by
  apply List.ext_getElem
  · simp [length_bytesFrom]
  · intro i hi hsum
    by_cases hfirst : i < len
    · rw [List.getElem_append_left (by rwa [length_bytesFrom])]
      simp [bytesFrom]
    · rw [List.getElem_append_right (by rw [length_bytesFrom]; omega)]
      have hplace : len + (i - len) = i := by omega
      simp [bytesFrom, hplace]

theorem bytesFrom_eq_iff (first second : Nat → UInt8) (len : Nat) :
    bytesFrom first 0 len = bytesFrom second 0 len ↔ ∀ i < len, first i = second i := by
  simp [bytesFrom]

/-- The loops compute the reflected check of order 32. It can be computed in parts, and two
messages of one length that differ, but only within 32 consecutive bits, have different ones. -/
theorem wechatCrc32Loop_reflected (data : Nat → UInt8) (len : Nat) :
    (wechatCrc32Loop data 0 len).toBitVec = crc32Reflected (bytesFrom data 0 len) ∧
      (∀ crc other, wechatCrc32Loop data crc (len + other) =
        wechatCrc32Loop (fun i => data (len + i)) (wechatCrc32Loop data crc len) other) ∧
      ∀ (other : Nat → UInt8) (start : Nat),
        (∀ i, i < start ∨ start + 32 ≤ i →
          (byteBits (bytesFrom data 0 len))[i]? = (byteBits (bytesFrom other 0 len))[i]?) →
        (wechatCrc32Loop data 0 len = wechatCrc32Loop other 0 len ↔
          ∀ i < len, data i = other i) := by
  have hloop : ∀ data : Nat → UInt8,
      (wechatCrc32Loop data 0 len).toBitVec = crc32Reflected (bytesFrom data 0 len) := by
    intro data
    rw [wechatCrc32Loop_eq, toBitVec_wechatCrc32]
  refine ⟨hloop data, fun crc other => ?_, fun other start hsame => ?_⟩
  · rw [wechatCrc32Loop_eq, wechatCrc32Loop_eq, wechatCrc32Loop_eq, bytesFrom_add,
      wechatCrc32_append]
  · rw [← UInt32.toBitVec_inj, hloop data, hloop other, ← bytesFrom_eq_iff]
    constructor
    · intro heq
      by_contra hdiffer
      apply crc32Reflected_ne_of_burst _ hsame _ heq
      · rw [length_byteBits, length_byteBits, length_bytesFrom, length_bytesFrom]
      · exact fun hbits => hdiffer (byteBits_injective hbits)
    · exact congrArg crc32Reflected

/-- Two challenges that differ in the first byte. -/
theorem wechatCrc32Loop_reflected_of_first :
    wechatCrc32Loop (fun _ => 0) 0 4 ≠ wechatCrc32Loop (fun i => if i = 0 then 1 else 0) 0 4 := by
  have hsame : ∀ i, i < 0 ∨ 0 + 32 ≤ i → (byteBits (bytesFrom (fun _ => 0) 0 4))[i]? =
      (byteBits (bytesFrom (fun i => if i = 0 then 1 else 0) 0 4))[i]? := by
    intro i hi
    rw [List.getElem?_eq_none, List.getElem?_eq_none]
    · rw [length_byteBits, length_bytesFrom]
      omega
    · rw [length_byteBits, length_bytesFrom]
      omega
  have hiff := (wechatCrc32Loop_reflected (fun _ => 0) 4).2.2
    (fun i => if i = 0 then 1 else 0) 0 hsame
  rw [ne_eq, hiff]
  intro hequal
  have hfirst := hequal 0 (by decide)
  revert hfirst
  decide

end CubieBle.AirSync
