import Mathlib.Data.UInt
import Mathlib.Data.List.Basic
import Mathlib.Data.Nat.Bitwise
import CubieBle.Machine.Bytes

/-! # Base 128

Numbers as groups of seven bits, the low group first, where every byte but the last one has its
high bit set. A reader that takes a few groups only gets the number modulo a power of 128.
-/

namespace Machine

def varint (n : Nat) : List UInt8 :=
  if n < 128 then [UInt8.ofNat n] else UInt8.ofNat (n % 128 + 128) :: varint (n / 128)
termination_by n
decreasing_by omega

theorem varint_of_lt {n : Nat} (hn : n < 128) : varint n = [UInt8.ofNat n] := by
  rw [varint, if_pos hn]

theorem varint_of_le {n : Nat} (hn : 128 ≤ n) :
    varint n = UInt8.ofNat (n % 128 + 128) :: varint (n / 128) := by
  rw [varint, if_neg (by omega)]

theorem length_varint_pos (n : Nat) : 0 < (varint n).length := by
  rw [varint]
  split <;> simp

theorem length_varint_le {count n : Nat} (hcount : 0 < count) (hn : n < 128 ^ count) :
    (varint n).length ≤ count := by
  induction count generalizing n with
  | zero => omega
  | succ count ih =>
      by_cases hlt : n < 128
      · rw [varint_of_lt hlt]
        simp
      · have hcount' : 0 < count := by
          apply Nat.pos_of_ne_zero
          rintro rfl
          omega
        have hrest : n / 128 < 128 ^ count := by
          apply Nat.div_lt_of_lt_mul
          rw [Nat.pow_succ] at hn
          omega
        rw [varint_of_le (by omega), List.length_cons]
        exact Nat.succ_le_succ (ih hcount' hrest)

/-! ## Bytes and their groups -/

/-- The low seven bits of a byte. -/
theorem toNat_and_127 (byte : UInt8) : (byte &&& 0x7f).toNat = byte.toNat % 128 := by
  rw [UInt8.toNat_and]
  exact Nat.and_two_pow_sub_one_eq_mod byte.toNat 7

/-- The high bit says that more groups follow. -/
theorem and_128_ne_zero_iff (byte : UInt8) : byte &&& 0x80 ≠ 0 ↔ 128 ≤ byte.toNat := by
  have hlt := byte.toNat_lt
  have hmask : (byte &&& 0x80).toNat = (byte.toNat.testBit 7).toNat * 2 ^ 7 := by
    rw [UInt8.toNat_and]
    exact Nat.and_two_pow byte.toNat 7
  rw [ne_eq, ← UInt8.toNat_inj, hmask, Nat.testBit_eq_decide_div_mod_eq]
  simp only [UInt8.toNat_zero, Nat.mul_eq_zero, Bool.toNat_eq_zero, decide_eq_false_iff_not]
  omega

theorem toNat_ofNat_more (n : Nat) : (UInt8.ofNat (n % 128 + 128)).toNat = n % 128 + 128 := by
  rw [UInt8.toNat_ofNat']
  omega

theorem toNat_ofNat_last {n : Nat} (hn : n < 128) : (UInt8.ofNat n).toNat = n := by
  rw [UInt8.toNat_ofNat']
  omega

/-- A group is followed by another one if the rest of the number does not fit in it. -/
theorem succ_lt_length_varint (n i : Nat) : i + 1 < (varint n).length ↔ 128 ≤ n / 128 ^ i := by
  induction i generalizing n with
  | zero =>
      by_cases hn : n < 128
      · rw [varint_of_lt hn]
        simp [hn]
      · have hrest := length_varint_pos (n / 128)
        rw [varint_of_le (by omega), List.length_cons, Nat.pow_zero, Nat.div_one]
        omega
  | succ i ih =>
      have hdiv : n / 128 ^ (i + 1) = n / 128 / 128 ^ i := by
        rw [Nat.pow_succ, Nat.mul_comm, Nat.div_div_eq_div_mul]
      rw [hdiv]
      by_cases hn : n < 128
      · rw [varint_of_lt hn, Nat.div_eq_of_lt hn]
        simp
      · rw [varint_of_le (by omega), List.length_cons, ← ih]
        omega

theorem getElem_varint (n i : Nat) (hi : i < (varint n).length) :
    ((varint n)[i]).toNat =
      n / 128 ^ i % 128 + if i + 1 < (varint n).length then 128 else 0 := by
  induction i generalizing n with
  | zero =>
      by_cases hn : n < 128
      · simp only [varint_of_lt hn]
        simp [toNat_ofNat_last hn, Nat.mod_eq_of_lt hn]
      · have hmore : 0 + 1 < (varint n).length := by
          rw [succ_lt_length_varint, Nat.pow_zero, Nat.div_one]
          omega
        rw [if_pos hmore]
        simp only [varint_of_le (Nat.not_lt.mp hn), List.getElem_cons_zero, toNat_ofNat_more,
          Nat.pow_zero, Nat.div_one]
  | succ i ih =>
      by_cases hn : n < 128
      · simp [varint_of_lt hn] at hi
      · have hdiv : n / 128 ^ (i + 1) = n / 128 / 128 ^ i := by
          rw [Nat.pow_succ, Nat.mul_comm, Nat.div_div_eq_div_mul]
        simp only [varint_of_le (Nat.not_lt.mp hn), List.getElem_cons_succ, List.length_cons,
          Nat.add_lt_add_iff_right] at hi ⊢
        rw [ih (n / 128) hi, hdiv]

theorem lt_pow_length_varint (n : Nat) : n < 128 ^ (varint n).length := by
  have hpos := length_varint_pos n
  obtain ⟨last, hlast⟩ := Nat.exists_eq_succ_of_ne_zero (Nat.ne_of_gt hpos)
  have hend : ¬ last + 1 < (varint n).length := by omega
  rw [succ_lt_length_varint, Nat.not_le, Nat.div_lt_iff_lt_mul (Nat.pow_pos (by decide))] at hend
  rw [hlast, Nat.succ_eq_add_one, Nat.pow_succ, Nat.mul_comm]
  exact hend

/-- No number is the beginning of another one. -/
theorem varint_append_inj {first second : Nat} {rest others : List UInt8}
    (heq : varint first ++ rest = varint second ++ others) : first = second ∧ rest = others := by
  induction first using Nat.strongRecOn generalizing second with
  | ind first ih =>
      by_cases hfirst : first < 128 <;> by_cases hsecond : second < 128
      · rw [varint_of_lt hfirst, varint_of_lt hsecond] at heq
        obtain ⟨hbyte, hrest⟩ := List.cons.inj heq
        have hnat := congrArg UInt8.toNat hbyte
        rw [toNat_ofNat_last hfirst, toNat_ofNat_last hsecond] at hnat
        exact ⟨hnat, hrest⟩
      · rw [varint_of_lt hfirst, varint_of_le (by omega)] at heq
        have hnat := congrArg UInt8.toNat (List.cons.inj heq).1
        rw [toNat_ofNat_last hfirst, toNat_ofNat_more] at hnat
        omega
      · rw [varint_of_le (by omega), varint_of_lt hsecond] at heq
        have hnat := congrArg UInt8.toNat (List.cons.inj heq).1
        rw [toNat_ofNat_last hsecond, toNat_ofNat_more] at hnat
        omega
      · rw [varint_of_le (by omega), varint_of_le (n := second) (by omega)] at heq
        obtain ⟨hbyte, hrest⟩ := List.cons.inj heq
        have hnat := congrArg UInt8.toNat hbyte
        rw [toNat_ofNat_more, toNat_ofNat_more] at hnat
        obtain ⟨hdiv, hothers⟩ := ih (first / 128) (by omega) hrest
        exact ⟨by omega, hothers⟩

/-- A byte that is marked with its high bit. -/
theorem toNat_or_128 {byte : UInt8} (hbyte : byte.toNat < 128) :
    (byte ||| 0x80).toNat = byte.toNat + 128 := by
  have hlow : byte.toNat < 2 ^ 7 := hbyte
  rw [UInt8.toNat_or]
  exact or_shiftLeft_eq_add hlow 1

/-- The group that a reader has after some groups extends what it has by seven bits. -/
theorem or_group {word : UInt32} {n shift : Nat} (hshift : shift ≤ 28) {group : UInt32}
    (hword : word.toNat = n % 2 ^ shift) (hgroup : group.toNat = n / 2 ^ shift % 128) :
    (word ||| group <<< UInt32.ofNat shift).toNat = n % 2 ^ (shift + 7) % 2 ^ 32 := by
  have hpos : 0 < 2 ^ shift := Nat.two_pow_pos shift
  have hlow : n % 2 ^ shift < 2 ^ shift := Nat.mod_lt _ hpos
  have hcount : (UInt32.ofNat shift).toNat % 32 = shift := by
    rw [UInt32.toNat_ofNat']
    omega
  have hparts : n % 2 ^ (shift + 7) = n % 2 ^ shift + 2 ^ shift * (n / 2 ^ shift % 128) := by
    rw [Nat.pow_add, Nat.mod_mul]
  have hsmall : n % 2 ^ shift < 2 ^ 32 :=
    Nat.lt_of_lt_of_le hlow (Nat.pow_le_pow_right (by decide) (by omega))
  rw [UInt32.toNat_or, UInt32.toNat_shiftLeft, hword, hgroup, hcount, hparts,
    ← or_shiftLeft_eq_add hlow, Nat.or_mod_two_pow, Nat.mod_eq_of_lt hsmall]

end Machine
