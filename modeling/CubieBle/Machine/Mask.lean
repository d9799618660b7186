import Mathlib.Data.UInt

/-! # Bit masks in a byte or a word

Setting and clearing bits of a mask, as seen through the same bits or through
bits disjoint from them.
-/

namespace Machine

theorem or_and_self (mask bit : UInt8) : (mask ||| bit) &&& bit = bit := by
  rw [← UInt8.toBitVec_inj]
  ext i hi
  simp only [UInt8.toBitVec_and, UInt8.toBitVec_or, BitVec.getElem_and, BitVec.getElem_or]
  cases mask.toBitVec[i] <;> cases bit.toBitVec[i] <;> rfl

theorem and_not_and_self (mask bit : UInt8) : (mask &&& ~~~bit) &&& bit = 0 := by
  rw [← UInt8.toBitVec_inj]
  ext i hi
  simp only [UInt8.toBitVec_and, UInt8.toBitVec_not, BitVec.getElem_and, BitVec.getElem_not]
  cases mask.toBitVec[i] <;> cases bit.toBitVec[i] <;> simp

section Disjoint

variable {bit other : UInt8} (hdisjoint : bit &&& other = 0) (mask : UInt8)
include hdisjoint

theorem or_and_of_disjoint : (mask ||| bit) &&& other = mask &&& other := by
  rw [← UInt8.toBitVec_inj] at hdisjoint ⊢
  ext i hi
  have hbit := congrArg (fun v : BitVec 8 => v[i]) hdisjoint
  simp only [UInt8.toBitVec_and, UInt8.toBitVec_or, BitVec.getElem_and,
    BitVec.getElem_or] at hbit ⊢
  cases hb : bit.toBitVec[i] <;> cases ho : other.toBitVec[i] <;> simp_all

theorem and_not_and_of_disjoint : (mask &&& ~~~bit) &&& other = mask &&& other := by
  rw [← UInt8.toBitVec_inj] at hdisjoint ⊢
  ext i hi
  have hbit := congrArg (fun v : BitVec 8 => v[i]) hdisjoint
  simp only [UInt8.toBitVec_and, UInt8.toBitVec_not, BitVec.getElem_and,
    BitVec.getElem_not] at hbit ⊢
  cases hb : bit.toBitVec[i] <;> cases ho : other.toBitVec[i] <;> simp_all

end Disjoint

section Word

variable (mask : UInt32) {i : Nat} (hi : i < 32) (j : Nat)
include hi

theorem toBitVec_bit : ((1 : UInt32) <<< UInt32.ofNat i).toBitVec = BitVec.twoPow 32 i := by
  rw [UInt32.toBitVec_shiftLeft, BitVec.twoPow_eq]
  simp [Nat.mod_eq_of_lt hi]

omit hi in
theorem getLsbD_ne_zero_iff : mask ≠ 0 ↔ ∃ j, mask.toBitVec.getLsbD j = true := by
  constructor
  · intro hne
    by_contra hnone
    simp only [not_exists, Bool.not_eq_true] at hnone
    apply hne
    apply UInt32.toBitVec_inj.mp
    apply BitVec.eq_of_getLsbD_eq
    intro j _
    simp [hnone j]
  · rintro ⟨j, hj⟩ rfl
    simp at hj

theorem and_bit_ne_zero_iff :
    mask &&& (1 <<< UInt32.ofNat i) ≠ 0 ↔ mask.toBitVec.getLsbD i = true := by
  rw [ne_eq, ← UInt32.toBitVec_inj, UInt32.toBitVec_and, toBitVec_bit hi, BitVec.and_twoPow]
  cases mask.toBitVec.getLsbD i with
  | false => simp
  | true =>
      have hpow : BitVec.twoPow 32 i ≠ 0#32 := by
        intro hzero
        have hbit := congrArg (fun word => word.getLsbD i) hzero
        simp [hi] at hbit
      simp [hpow]

theorem getLsbD_or_bit :
    (mask ||| (1 <<< UInt32.ofNat i)).toBitVec.getLsbD j =
      (mask.toBitVec.getLsbD j || decide (j = i)) := by
  rw [UInt32.toBitVec_or, BitVec.getLsbD_or, toBitVec_bit hi, BitVec.getLsbD_twoPow]
  simp [hi, eq_comm]

theorem getLsbD_and_not_bit :
    (mask &&& ~~~(1 <<< UInt32.ofNat i)).toBitVec.getLsbD j =
      (mask.toBitVec.getLsbD j && !decide (j = i)) := by
  rw [UInt32.toBitVec_and, UInt32.toBitVec_not, BitVec.getLsbD_and, BitVec.getLsbD_not,
    toBitVec_bit hi, BitVec.getLsbD_twoPow]
  by_cases hj : j < 32
  · simp [hi, hj, eq_comm]
  · simp [BitVec.getLsbD_of_ge, Nat.not_lt.mp hj]

end Word

end Machine
