import Mathlib.Data.List.Range
import Mathlib.Data.Nat.Bitwise
import Mathlib.Data.UInt

/-! # The checksum of the glucose monitoring service

`crc16_ccitt` of `cgms.c`: the bits of each byte are reversed on their way in and the bits
of the remainder on its way out. Every step of it is injective, so a message of given length
shows every change of one byte.
-/

namespace CubieBle.Gatt

/-! ## The algorithm -/

/-- The body of `invert_u8` and `invert_u16`: a bit that is set sets its mirror image. -/
def invertBits (width value : Nat) : Nat :=
  (List.range width).foldl
    (fun tmp i => if value &&& (1 <<< i) ≠ 0 then tmp ||| (1 <<< (width - 1 - i)) else tmp) 0

def invertU8 (value : UInt8) : UInt8 :=
  UInt8.ofNat (invertBits 8 value.toNat)

def invertU16 (value : UInt16) : UInt16 :=
  UInt16.ofNat (invertBits 16 value.toNat)

/-- One bit of the division. -/
def crcRound (crcin : UInt16) : UInt16 :=
  if crcin &&& 0x8000 ≠ 0 then (crcin <<< 1) ^^^ 0x1021 else crcin <<< 1

/-- The body of the loop over the message. -/
def crcByte (crcin : UInt16) (c : UInt8) : UInt16 :=
  crcRound^[8] (crcin ^^^ ((invertU8 c).toUInt16 <<< 8))

def crc16Ccitt (message : List UInt8) : UInt16 :=
  invertU16 (message.foldl crcByte 0xffff)

/-! ## Injectivity -/

theorem and_one_shiftLeft_ne_zero {value i : Nat} :
    value &&& (1 <<< i) ≠ 0 ↔ value.testBit i = true := by
  rw [Nat.one_shiftLeft, Nat.and_two_pow]
  cases value.testBit i with
  | false => simp
  | true => simp

/-- The loop after its first `n` rounds: the upper `n` bits are in place. -/
theorem testBit_foldl_invert {width n : Nat} (value j : Nat) (hn : n ≤ width) :
    ((List.range n).foldl
      (fun tmp i => if value &&& (1 <<< i) ≠ 0 then tmp ||| (1 <<< (width - 1 - i)) else tmp)
      0).testBit j = (decide (width - n ≤ j ∧ j < width) && value.testBit (width - 1 - j)) := by
  induction n with
  | zero =>
      have hempty : ¬(width ≤ j ∧ j < width) := by omega
      simp [hempty]
  | succ n ih =>
      rw [List.range_succ, List.foldl_append, List.foldl_cons, List.foldl_nil]
      simp only [and_one_shiftLeft_ne_zero] at ih ⊢
      have hmirror : width - 1 - (width - 1 - n) = n := by omega
      by_cases hj : j = width - 1 - n
      · subst hj
        have hnew : width - (n + 1) ≤ width - 1 - n ∧ width - 1 - n < width := by omega
        have hold : ¬(width - n ≤ width - 1 - n ∧ width - 1 - n < width) := by omega
        by_cases hbit : value.testBit n = true
        · rw [if_pos hbit, Nat.testBit_or, ih (by omega), Nat.one_shiftLeft, Nat.testBit_two_pow]
          simp [hnew, hmirror, hbit]
        · rw [if_neg hbit, ih (by omega), hmirror]
          simp [hbit]
      · have hrange : decide (width - (n + 1) ≤ j ∧ j < width) =
            decide (width - n ≤ j ∧ j < width) := decide_eq_decide.mpr (by omega)
        rw [hrange]
        by_cases hbit : value.testBit n = true
        · rw [if_pos hbit, Nat.testBit_or, ih (by omega), Nat.one_shiftLeft, Nat.testBit_two_pow]
          simp [Ne.symm hj]
        · rw [if_neg hbit, ih (by omega)]

theorem testBit_invertBits (width value j : Nat) :
    (invertBits width value).testBit j =
      (decide (j < width) && value.testBit (width - 1 - j)) := by
  rw [invertBits, testBit_foldl_invert value j (Nat.le_refl width)]
  simp

theorem ofNat_invertBits {w : Nat} (word : BitVec w) :
    BitVec.ofNat w (invertBits w word.toNat) = word.reverse := by
  apply BitVec.eq_of_getLsbD_eq
  intro i hi
  rw [BitVec.getLsbD_ofNat, decide_eq_true hi, Bool.true_and, testBit_invertBits,
    BitVec.testBit_toNat, BitVec.getLsbD_reverse, BitVec.getMsbD_eq_getLsbD]

theorem toBitVec_invertU8 (value : UInt8) : (invertU8 value).toBitVec = value.toBitVec.reverse :=
  ofNat_invertBits value.toBitVec

theorem toBitVec_invertU16 (value : UInt16) :
    (invertU16 value).toBitVec = value.toBitVec.reverse :=
  ofNat_invertBits value.toBitVec

theorem invertU8_injective : Function.Injective invertU8 := by
  intro first second heq
  have hreverse := congrArg (fun value => value.toBitVec.reverse) heq
  simp only [toBitVec_invertU8, BitVec.reverse_reverse_eq] at hreverse
  exact UInt8.toBitVec_inj.mp hreverse

theorem invertU16_injective : Function.Injective invertU16 := by
  intro first second heq
  have hreverse := congrArg (fun value => value.toBitVec.reverse) heq
  simp only [toBitVec_invertU16, BitVec.reverse_reverse_eq] at hreverse
  exact UInt16.toBitVec_inj.mp hreverse

/-- The lowest bit of a round is the highest bit before it, as the polynomial is odd. -/
theorem crcRound_mod_two (crcin : UInt16) :
    (crcRound crcin).toNat % 2 = if crcin &&& 0x8000 ≠ 0 then 1 else 0 := by
  have hshift : (crcin <<< 1).toNat % 2 = 0 := by
    rw [UInt16.toNat_shiftLeft]
    simp only [UInt16.toNat_one, Nat.reducePow, Nat.shiftLeft_eq, Nat.one_mod]
    omega
  rw [crcRound]
  split
  next => rw [UInt16.toNat_xor, Nat.xor_mod_two_eq, Nat.add_mod, hshift]; rfl
  next => exact hshift

theorem and_msb_ne_zero_iff (crcin : UInt16) : crcin &&& 0x8000 ≠ 0 ↔ 2 ^ 15 ≤ crcin.toNat := by
  have hlt := crcin.toNat_lt
  have hmask : (crcin &&& 0x8000).toNat = (crcin.toNat.testBit 15).toNat * 2 ^ 15 := by
    rw [UInt16.toNat_and]
    exact Nat.and_two_pow crcin.toNat 15
  rw [ne_eq, ← UInt16.toNat_inj, hmask, Nat.testBit_eq_decide_div_mod_eq]
  simp only [UInt16.toNat_zero, Nat.mul_eq_zero, Bool.toNat_eq_zero, decide_eq_false_iff_not]
  omega

theorem crcRound_injective : Function.Injective crcRound := by
  intro first second heq
  have hbit := congrArg (fun crc => crc.toNat % 2) heq
  simp only [crcRound_mod_two, and_msb_ne_zero_iff] at hbit
  have hmsb : 2 ^ 15 ≤ first.toNat ↔ 2 ^ 15 ≤ second.toNat := by
    split_ifs at hbit with hfirst hsecond hsecond
    · exact iff_of_true hfirst hsecond
    · exact iff_of_false hfirst hsecond
  have hshift : first <<< 1 = second <<< 1 := by
    simp only [crcRound, and_msb_ne_zero_iff] at heq
    split_ifs at heq with hfirst hsecond hsecond
    · exact (UInt16.xor_left_inj _).mp heq
    · exact absurd (hmsb.mp hfirst) hsecond
    · exact absurd (hmsb.mpr hsecond) hfirst
    · exact heq
  have hdouble := congrArg UInt16.toNat hshift
  simp only [UInt16.toNat_shiftLeft, UInt16.toNat_one, Nat.one_mod, Nat.shiftLeft_eq,
    Nat.reducePow] at hdouble hmsb
  have hfirst := first.toNat_lt
  have hsecond := second.toNat_lt
  apply UInt16.toNat_inj.mp
  omega

theorem crcByte_injective_left (c : UInt8) : Function.Injective fun crcin => crcByte crcin c := by
  intro first second heq
  exact (UInt16.xor_left_inj _).mp (crcRound_injective.iterate 8 heq)

theorem crcByte_injective_right (crcin : UInt16) : Function.Injective (crcByte crcin) := by
  intro first second heq
  have hxor := (UInt16.xor_right_inj _).mp (crcRound_injective.iterate 8 heq)
  have hnat := congrArg UInt16.toNat hxor
  have hfirst := (invertU8 first).toNat_lt
  have hsecond := (invertU8 second).toNat_lt
  simp only [UInt16.toNat_shiftLeft, UInt8.toNat_toUInt16, UInt16.toNat_ofNat, Nat.shiftLeft_eq,
    Nat.reduceMod, Nat.reducePow] at hnat
  apply invertU8_injective
  apply UInt8.toNat_inj.mp
  omega

theorem foldl_crcByte_injective (message : List UInt8) :
    Function.Injective fun crcin => message.foldl crcByte crcin := by
  induction message with
  | nil => exact Function.injective_id
  | cons c rest ih => exact ih.comp (crcByte_injective_left c)

/-- Messages with the same tail and the same checksum have left the same remainder
before the tail. -/
theorem foldl_eq_of_crc_append_eq (first second : List UInt8) {tail : List UInt8}
    (heq : crc16Ccitt (first ++ tail) = crc16Ccitt (second ++ tail)) :
    first.foldl crcByte 0xffff = second.foldl crcByte 0xffff := by
  have hstate := invertU16_injective heq
  rw [List.foldl_append, List.foldl_append] at hstate
  exact foldl_crcByte_injective tail hstate

/-- The checksum shows a change of the first byte. -/
theorem crc16Ccitt_cons_inj {first second : UInt8} {tail : List UInt8} :
    crc16Ccitt (first :: tail) = crc16Ccitt (second :: tail) ↔ first = second := by
  constructor
  · intro heq
    exact crcByte_injective_right 0xffff
      (foldl_eq_of_crc_append_eq [first] [second] heq)
  · rintro rfl
    rfl

/-- The first byte of a message, read off the low byte of the remainder after it. -/
def firstByteOf (low : UInt8) : UInt8 :=
  let t := low ^^^ (low <<< 5)
  invertU8 (t ^^^ (t >>> 4) ^^^ 0xff)

theorem firstByteOf_crcByte (c : UInt8) : firstByteOf (crcByte 0xffff c).toUInt8 = c := by
  have hall : ∀ n < 256,
      firstByteOf (crcByte 0xffff (UInt8.ofNat n)).toUInt8 = UInt8.ofNat n := by
    decide +kernel
  have hc := hall c.toNat c.toNat_lt
  rwa [UInt8.ofNat_toNat] at hc

/-- The checksum shows a change within the first two bytes. -/
theorem crc16Ccitt_two_bytes_inj {low high low' high' : UInt8} {tail : List UInt8}
    (heq : crc16Ccitt (low :: high :: tail) = crc16Ccitt (low' :: high' :: tail)) :
    low = low' ∧ high = high' := by
  have hstate := foldl_eq_of_crc_append_eq [low, high] [low', high'] heq
  simp only [List.foldl_cons, List.foldl_nil] at hstate
  have hxor := crcRound_injective.iterate 8 hstate
  -- the second byte enters above the low byte of the remainder
  have hlow : (crcByte 0xffff low).toUInt8 = (crcByte 0xffff low').toUInt8 := by
    have hbyte := congrArg UInt16.toUInt8 hxor
    have hshift (c : UInt8) : ((invertU8 c).toUInt16 <<< 8).toUInt8 = 0 := by
      apply UInt8.toNat_inj.mp
      simp only [UInt16.toNat_toUInt8, UInt16.toNat_shiftLeft, UInt16.toNat_ofNat,
        Nat.shiftLeft_eq, Nat.reduceMod, Nat.reducePow, UInt8.toNat_zero]
      omega
    simpa only [UInt16.toUInt8_xor, hshift, UInt8.xor_zero] using hbyte
  have hfirst : low = low' := by
    rw [← firstByteOf_crcByte low, hlow, firstByteOf_crcByte]
  subst hfirst
  exact ⟨rfl, crcByte_injective_right _ hstate⟩

end CubieBle.Gatt
