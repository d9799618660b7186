import Mathlib.Algebra.BigOperators.Group.List.Basic
import Mathlib.Data.UInt

/-! # Machine words

Little-endian bytes, counters that do not wrap, sums of words, and buffers that are filled from
the front.
-/

namespace Machine

/-- Splitting a 16-bit word into its low and high byte loses nothing. -/
theorem uint16_of_bytes (value : UInt16) :
    value.toUInt8.toUInt16 + ((value >>> 8).toUInt8.toUInt16 <<< 8) = value := by
  apply UInt16.toNat_inj.mp
  have hlt := value.toNat_lt
  simp only [UInt16.toNat_add, UInt8.toNat_toUInt16, UInt16.toNat_toUInt8, UInt16.toNat_shiftLeft,
    UInt16.toNat_shiftRight, UInt16.toNat_ofNat, Nat.shiftLeft_eq, Nat.shiftRight_eq_div_pow,
    Nat.reduceMod, Nat.reducePow]
  omega

/-- The bytes from which a word is built are its bytes. -/
theorem bytes_of_uint16 (low high : UInt8) :
    (low.toUInt16 + (high.toUInt16 <<< 8)).toUInt8 = low ∧
      ((low.toUInt16 + (high.toUInt16 <<< 8)) >>> 8).toUInt8 = high := by
  have hlow := low.toNat_lt
  have hhigh := high.toNat_lt
  constructor
  · apply UInt8.toNat_inj.mp
    simp only [UInt16.toNat_add, UInt8.toNat_toUInt16, UInt16.toNat_toUInt8,
      UInt16.toNat_shiftLeft, UInt16.toNat_ofNat, Nat.shiftLeft_eq, Nat.reduceMod, Nat.reducePow]
    omega
  · apply UInt8.toNat_inj.mp
    simp only [UInt16.toNat_add, UInt8.toNat_toUInt16, UInt16.toNat_toUInt8,
      UInt16.toNat_shiftLeft, UInt16.toNat_shiftRight, UInt16.toNat_ofNat, Nat.shiftLeft_eq,
      Nat.shiftRight_eq_div_pow, Nat.reduceMod, Nat.reducePow]
    omega

theorem uint16_or_of_bytes (value : UInt16) :
    value.toUInt8.toUInt16 ||| ((value >>> 8).toUInt8.toUInt16 <<< 8) = value := by
  apply UInt16.toNat_inj.mp
  have hlt := value.toNat_lt
  have hlow : value.toNat % 2 ^ 8 < 2 ^ 8 := Nat.mod_lt _ (by decide)
  -- The two bytes do not overlap, so `or` is the sum.
  have hsum := Nat.shiftLeft_add_eq_or_of_lt hlow (value.toNat / 2 ^ 8 % 2 ^ 8)
  simp only [UInt16.toNat_or, UInt8.toNat_toUInt16, UInt16.toNat_toUInt8, UInt16.toNat_shiftLeft,
    UInt16.toNat_shiftRight, UInt16.toNat_ofNat, Nat.shiftRight_eq_div_pow, Nat.reducePow,
    Nat.reduceMod] at hsum ⊢
  have hhigh : (value.toNat / 256 % 256) <<< 8 < 65536 := by
    rw [Nat.shiftLeft_eq]
    omega
  rw [Nat.mod_eq_of_lt hhigh, Nat.or_comm, ← hsum, Nat.shiftLeft_eq]
  omega

theorem uint32_or_of_bytes (value : UInt32) :
    value.toUInt8.toUInt32 ||| ((value >>> 8).toUInt8.toUInt32 <<< 8) |||
      ((value >>> 16).toUInt8.toUInt32 <<< 16) ||| ((value >>> 24).toUInt8.toUInt32 <<< 24) =
        value := by
  apply UInt32.toBitVec_inj.mp
  apply BitVec.eq_of_getLsbD_eq
  intro i hi
  have hbyte : ∀ word : UInt32, (word.toUInt8.toUInt32).toBitVec =
      (word.toBitVec.setWidth 8).setWidth 32 := fun _ => rfl
  -- each bit of the value is in exactly one of the four bytes
  simp only [UInt32.toBitVec_or, hbyte]
  simp [-UInt32.toUInt32_toUInt8]
  grind

theorem uint8_toNat_succ {count : UInt8} (hcount : count.toNat < 255) :
    (count + 1).toNat = count.toNat + 1 := by
  rw [UInt8.toNat_add, UInt8.toNat_one]
  omega

theorem uint16_toNat_succ {count : UInt16} (hcount : count.toNat < 65535) :
    (count + 1).toNat = count.toNat + 1 := by
  rw [UInt16.toNat_add, UInt16.toNat_one]
  omega

theorem uint16_toNat_pred {count : UInt16} (hcount : 0 < count.toNat) :
    (count - 1).toNat = count.toNat - 1 := by
  have hone : (1 : UInt16) ≤ count := by
    rw [UInt16.le_iff_toNat_le, UInt16.toNat_one]
    exact hcount
  rw [UInt16.toNat_sub_of_le _ _ hone, UInt16.toNat_one]

/-- A part that does not overlap the lower one is added to it. -/
theorem or_shiftLeft_eq_add {low width : Nat} (hlow : low < 2 ^ width) (high : Nat) :
    low ||| high <<< width = low + 2 ^ width * high := by
  rw [Nat.or_comm, ← Nat.shiftLeft_add_eq_or_of_lt hlow, Nat.shiftLeft_eq, Nat.add_comm,
    Nat.mul_comm]

/-- A number in so many bytes, low byte first. -/
def littleEndian : Nat → Nat → List UInt8
  | 0, _ => []
  | width + 1, value => UInt8.ofNat value :: littleEndian width (value / 256)

def ofLittleEndian : List UInt8 → Nat
  | [] => 0
  | byte :: rest => byte.toNat + 256 * ofLittleEndian rest

@[simp] theorem length_littleEndian (width value : Nat) :
    (littleEndian width value).length = width := by
  induction width generalizing value with
  | zero => rfl
  | succ width ih => rw [littleEndian, List.length_cons, ih]

theorem ofLittleEndian_littleEndian {width value : Nat} (hvalue : value < 256 ^ width) :
    ofLittleEndian (littleEndian width value) = value := by
  induction width generalizing value with
  | zero =>
      rw [Nat.pow_zero] at hvalue
      exact (Nat.lt_one_iff.mp hvalue).symm
  | succ width ih =>
      have hrest : value / 256 < 256 ^ width := by
        rw [Nat.pow_succ] at hvalue
        exact Nat.div_lt_of_lt_mul (by rwa [Nat.mul_comm])
      rw [littleEndian, ofLittleEndian, ih hrest, UInt8.toNat_ofNat']
      exact Nat.mod_add_div value 256

/-- The two bytes of a word, as code that masks and shifts it writes them. -/
theorem littleEndian_uint16 (value : UInt16) :
    [(value &&& 0xff).toUInt8, (value >>> 8).toUInt8] = littleEndian 2 value.toNat := by
  have hmask : value.toNat &&& 255 = value.toNat % 2 ^ 8 :=
    Nat.and_two_pow_sub_one_eq_mod value.toNat 8
  have hlow : (value &&& 0xff).toUInt8 = UInt8.ofNat value.toNat := by
    rw [← UInt8.toNat_inj, UInt16.toNat_toUInt8, UInt16.toNat_and, UInt8.toNat_ofNat']
    exact (congrArg (· % 2 ^ 8) hmask).trans (Nat.mod_mod _ _)
  have hhigh : (value >>> 8).toUInt8 = UInt8.ofNat (value.toNat / 256) := by
    rw [← UInt8.toNat_inj, UInt16.toNat_toUInt8, UInt16.toNat_shiftRight, UInt8.toNat_ofNat',
      Nat.shiftRight_eq_div_pow]
    rfl
  rw [hlow, hhigh]
  rfl

/-- A change of one summand shows in the sum. -/
theorem sum_map_ne_of_single {ι M : Type} [DecidableEq ι] [AddCommGroup M] {f g : ι → M}
    {indices : List ι} {k : ι} (hnodup : indices.Nodup) (hk : k ∈ indices)
    (hsame : ∀ i ∈ indices, i ≠ k → f i = g i) (hne : f k ≠ g k) :
    (indices.map f).sum ≠ (indices.map g).sum := by
  rw [← List.sum_map_erase f hk, ← List.sum_map_erase g hk]
  have hrest : (indices.erase k).map f = (indices.erase k).map g := by
    apply List.map_congr_left
    intro i hi
    rw [hnodup.mem_erase_iff] at hi
    exact hsame i hi.2 hi.1
  rw [hrest]
  exact fun heq => hne (add_right_cancel heq)

theorem take_set_succ {Value : Type} {buffer : List Value} {count : Nat}
    (hlt : count < buffer.length) (value : Value) :
    (buffer.set count value).take (count + 1) = buffer.take count ++ [value] := by
  rw [List.take_succ_eq_append_getElem (by rwa [List.length_set]),
    List.take_set_of_le (Nat.le_refl _), List.getElem_set_self]

end Machine
