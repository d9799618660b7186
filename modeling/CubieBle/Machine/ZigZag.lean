import Mathlib.Data.Nat.Bitwise

/-! # Signed numbers as unsigned ones

The numbers 0, -1, 1, -2, … in turn are 0, 1, 2, 3, …, so that those of a small magnitude have few
digits. On words this is a shift and a mask of signs.
-/

namespace Machine

def zigzag (v : Int) : Nat := if 0 ≤ v then (2 * v).toNat else (-2 * v - 1).toNat

def unzigzag (n : Nat) : Int := if n % 2 = 0 then (n / 2 : Nat) else -(n / 2 : Nat) - 1

theorem unzigzag_zigzag (v : Int) : unzigzag (zigzag v) = v := by
  rw [zigzag, unzigzag]
  by_cases hv : 0 ≤ v
  · rw [if_pos hv, if_pos (by omega)]
    omega
  · rw [if_neg hv, if_neg (by omega)]
    omega

section Words

theorem toNat_shiftLeft_one (word : BitVec 32) : (word <<< 1).toNat = 2 * word.toNat % 2 ^ 32 := by
  rw [BitVec.toNat_shiftLeft, Nat.shiftLeft_eq]
  omega

theorem toNat_ushiftRight_31 (word : BitVec 32) : (word >>> 31).toNat = word.toNat / 2 ^ 31 := by
  rw [BitVec.toNat_ushiftRight, Nat.shiftRight_eq_div_pow]

/-- The signs of a number with 32 bits. -/
theorem sshiftRight_31 (word : BitVec 32) :
    word.sshiftRight 31 = if word.toNat < 2 ^ 31 then 0#32 else BitVec.allOnes 32 := by
  have hmsb := BitVec.msb_eq_decide word
  by_cases hsmall : word.toNat < 2 ^ 31
  · rw [decide_eq_false (by omega)] at hmsb
    rw [if_pos hsmall, BitVec.sshiftRight_eq_of_msb_false hmsb]
    apply BitVec.eq_of_toNat_eq
    rw [toNat_ushiftRight_31, BitVec.toNat_ofNat]
    omega
  · rw [decide_eq_true (by omega)] at hmsb
    rw [if_neg hsmall, BitVec.sshiftRight_eq_of_msb_true hmsb]
    have hzero : ~~~word >>> 31 = 0#32 := by
      apply BitVec.eq_of_toNat_eq
      rw [toNat_ushiftRight_31, BitVec.toNat_not, BitVec.toNat_ofNat]
      omega
    rw [hzero]
    rfl

/-- The shift and the mask of signs. -/
theorem toNat_zigzag (v : Int32) : ((v <<< 1) ^^^ (v >>> 31)).toUInt32.toNat = zigzag v.toInt := by
  have hword : ((v <<< 1) ^^^ (v >>> 31)).toUInt32.toNat =
      (v.toBitVec <<< 1 ^^^ v.toBitVec.sshiftRight 31).toNat := rfl
  have hv : v.toInt = v.toBitVec.toInt := rfl
  have hlt := v.toBitVec.isLt
  rw [hword, hv, BitVec.toInt_eq_toNat_cond, sshiftRight_31, zigzag]
  by_cases hsmall : v.toBitVec.toNat < 2 ^ 31
  · rw [if_pos hsmall, if_pos (by omega), BitVec.xor_zero, toNat_shiftLeft_one, if_pos (by omega)]
    omega
  · rw [if_neg hsmall, if_neg (by omega), BitVec.xor_allOnes, BitVec.toNat_not,
      toNat_shiftLeft_one, if_neg (by omega)]
    omega

/-- The same with the sign bit alone. -/
theorem toNat_zigzag_unsigned (word : UInt32) :
    ((word <<< 1) ^^^ (word >>> 31)).toNat =
      if word.toNat < 2 ^ 31 then 2 * word.toNat else 2 * word.toNat - 2 ^ 32 + 1 := by
  have hword : ((word <<< 1) ^^^ (word >>> 31)).toNat =
      (word.toBitVec <<< 1).toNat ^^^ (word.toBitVec >>> 31).toNat := rfl
  have hlt := word.toNat_lt
  rw [hword, toNat_shiftLeft_one, toNat_ushiftRight_31, UInt32.toNat_toBitVec]
  by_cases hsmall : word.toNat < 2 ^ 31
  · rw [if_pos hsmall, Nat.div_eq_of_lt hsmall, Nat.xor_zero]
    omega
  · have hsign : word.toNat / 2 ^ 31 = 1 := by omega
    rw [if_neg hsmall, hsign, Nat.xor_one_of_even ⟨word.toNat % 2 ^ 31, by omega⟩]
    omega

/-- Half of a word, as a number of the sign that its last bit says. -/
theorem toInt_unzigzag (word : UInt32) :
    (if word &&& 1 ≠ 0 then (-(word >>> 1) - 1).toInt32.toInt else (word >>> 1).toInt32.toInt) =
      unzigzag word.toNat := by
  have hlt := word.toNat_lt
  have hodd : word &&& 1 ≠ 0 ↔ word.toNat % 2 ≠ 0 := by
    rw [ne_eq, ← UInt32.toNat_inj, UInt32.toNat_and]
    show ¬word.toNat &&& 1 = 0 ↔ _
    rw [Nat.and_one_is_mod]
  have hhalf : (word >>> 1).toBitVec.toNat = word.toNat / 2 := by
    have hshift : (word >>> 1).toBitVec.toNat = word.toNat >>> 1 := rfl
    rw [hshift, Nat.shiftRight_eq_div_pow, Nat.pow_one]
  rw [unzigzag]
  by_cases hbit : word.toNat % 2 = 0
  · rw [if_pos hbit, if_neg (fun h => hodd.mp h hbit)]
    have hvalue : (word >>> 1).toInt32.toInt = (word >>> 1).toBitVec.toInt := rfl
    rw [hvalue, BitVec.toInt_eq_toNat_cond, hhalf, if_pos (by omega)]
  · rw [if_neg hbit, if_pos (hodd.mpr hbit)]
    have hvalue : (-(word >>> 1) - 1).toInt32.toInt = (-(word >>> 1).toBitVec - 1#32).toInt := rfl
    rw [hvalue, BitVec.toInt_eq_toNat_cond, BitVec.toNat_sub, BitVec.toNat_neg, hhalf,
      BitVec.toNat_ofNat]
    split
    · omega
    · omega

end Words

end Machine
