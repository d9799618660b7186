import CubieBle.Build.CrcSegments
import CubieBle.Machine.CrcReflected

/-! # The table-driven checksum, bit by bit

`_crc16` takes a byte at a time from its table. Between two bytes its register is the remainder
of the bytes so far, in the reflected form, and it fits the 16 digits that `reflect` turns round.
-/

namespace CubieBle.Build.AddCrc

open Machine

/-- The body of the loop of `_crc16`. -/
def registerStep (crc : Nat) (byte : UInt8) : Option Nat := do
  let entry ← crc16Table[(crc &&& 0xff) ^^^ byte.toNat]?
  return ((crc >>> 8) &&& 0xff) ^^^ entry

/-- The register of `_crc16` after some bytes. -/
def registerAfter (bytes : List UInt8) : Option Nat := bytes.foldlM registerStep (reflect 0xffff)

/-- The two bytes of a word in the other order. -/
def swapBytes (word : BitVec 16) : BitVec 16 := word.extractLsb' 0 8 ++ word.extractLsb' 8 8

/-! ## Reversed digits -/

/-- The digits are written from the lowest upwards, each above the ones that follow. -/
theorem testBit_foldl_digits (crc n j : Nat) :
    ((List.range n).foldl (fun value i => 2 * value + (crc >>> i) % 2) 0).testBit j =
      (decide (j < n) && crc.testBit (n - 1 - j)) := by
  induction n generalizing j with
  | zero => simp
  | succ n ih =>
      rw [List.range_succ, List.foldl_append, List.foldl_cons, List.foldl_nil]
      cases j with
      | zero =>
          have hdigit : (2 * (List.range n).foldl (fun value i => 2 * value + (crc >>> i) % 2) 0 +
              (crc >>> n) % 2) % 2 = (crc >>> n) % 2 := by omega
          rw [Nat.testBit_zero, hdigit, ← Nat.testBit_zero, Nat.testBit_shiftRight]
          simp
      | succ j =>
          have hrest : (2 * (List.range n).foldl (fun value i => 2 * value + (crc >>> i) % 2) 0 +
              (crc >>> n) % 2) / 2 =
                (List.range n).foldl (fun value i => 2 * value + (crc >>> i) % 2) 0 := by omega
          have hplace : n + 1 - 1 - (j + 1) = n - 1 - j := by omega
          rw [Nat.testBit_succ, hrest, ih, hplace]
          simp

/-- `reflect` turns round the bits of a number that has no more than 16. -/
theorem reflect_toNat (word : BitVec 16) : reflect word.toNat = word.reverse.toNat := by
  rw [reflect_eq word.isLt, Build.reflect]
  apply Nat.eq_of_testBit_eq
  intro j
  rw [testBit_foldl_digits, BitVec.testBit_toNat, BitVec.testBit_toNat, BitVec.getLsbD_reverse,
    BitVec.getMsbD_eq_getLsbD]

theorem reflect_reflect_toNat (word : BitVec 16) : reflect (reflect word.toNat) = word.toNat := by
  rw [reflect_toNat, reflect_toNat, BitVec.reverse_reverse_eq]

/-! ## The table -/

theorem toNat_crcBitRight (c : BitVec 16) :
    (crcBitRight 0x8408#16 c false).toNat =
      if c.toNat % 2 = 1 then (c.toNat >>> 1) ^^^ 0x8408 else c.toNat >>> 1 := by
  have hbit : c.getLsbD 0 = decide (c.toNat % 2 = 1) := by
    rw [← BitVec.testBit_toNat, Nat.testBit_zero]
  rw [crcBitRight, Bool.xor_false, hbit]
  by_cases hodd : c.toNat % 2 = 1
  · rw [if_pos (decide_eq_true hodd), if_pos hodd, BitVec.toNat_xor, BitVec.toNat_ushiftRight]
    rfl
  · rw [if_neg (by simpa using hodd), if_neg hodd, BitVec.toNat_ushiftRight]

/-- An entry is what eight zeros make of its index. -/
theorem toNat_crc16Table (index : BitVec 16) :
    Build.crc16Table index.toNat =
      (crcBitsRight 0x8408#16 index (List.replicate 8 false)).toNat := by
  have hround : Function.Semiconj BitVec.toNat (fun c : BitVec 16 => crcBitRight 0x8408#16 c false)
      fun crc : Nat => if crc % 2 = 1 then (crc >>> 1) ^^^ 0x8408 else crc >>> 1 :=
    toNat_crcBitRight
  rw [crcBitsRight_replicate, Build.crc16Table]
  exact (hround.iterate_right 8 index).symm

/-! ## The register -/

theorem and_0xff (value : Nat) : value &&& 0xff = value % 2 ^ 8 :=
  Nat.and_two_pow_sub_one_eq_mod value 8

/-- A byte from the table is eight bits of the division. -/
theorem registerStep_toNat (register : BitVec 16) (byte : UInt8) :
    registerStep register.toNat byte =
      some (crcBitsRight 0x8408#16 register (lsbBits byte.toBitVec)).toNat := by
  have hindex : ((register.setWidth 8 ^^^ byte.toBitVec).setWidth 16).toNat =
      (register.toNat &&& 0xff) ^^^ byte.toNat := by
    rw [BitVec.toNat_setWidth_of_le (by decide), BitVec.toNat_xor, BitVec.toNat_setWidth,
      UInt8.toNat_toBitVec, and_0xff]
  have hlt : (register.toNat &&& 0xff) ^^^ byte.toNat < 256 := by
    apply Nat.xor_lt_two_pow (n := 8)
    · exact Nat.and_lt_two_pow _ (by decide)
    · exact byte.toNat_lt
  have hhigh : (register.toNat >>> 8) &&& 0xff = (register >>> 8).toNat := by
    have hregister := register.isLt
    rw [and_0xff, BitVec.toNat_ushiftRight, Nat.shiftRight_eq_div_pow]
    omega
  rw [registerStep, (crc16Table_eq hlt).1, ← hindex, toNat_crc16Table, hhigh,
    crcBitsRight_table (by decide) (by decide) register byte.toBitVec, BitVec.toNat_xor]
  rfl

theorem foldlM_registerStep (bytes : List UInt8) (register : BitVec 16) :
    bytes.foldlM registerStep register.toNat =
      some (crcBitsRight 0x8408#16 register (byteBits bytes)).toNat := by
  induction bytes generalizing register with
  | nil => rfl
  | cons byte bytes ih =>
      rw [List.foldlM_cons, registerStep_toNat, byteBits_cons, crcBitsRight_append]
      exact ih _

theorem registerAfter_eq (bytes : List UInt8) :
    registerAfter bytes = some (crc16Reflected bytes).toNat := by
  have hinit : reflect 0xffff = (0xffff#16).toNat := by decide
  rw [registerAfter, hinit, foldlM_registerStep, crc16Reflected]

theorem crc16_eq_registerAfter (data : List UInt8) :
    crc16 data 0xffff = (registerAfter data).map fun register =>
      ((reflect register >>> 8) &&& 0xff) ||| ((reflect register &&& 0xff) <<< 8) := by
  rw [crc16, crc16With, registerAfter, Option.map_eq_bind]
  rfl

theorem toNat_swapBytes (word : BitVec 16) :
    ((word.toNat >>> 8) &&& 0xff) ||| ((word.toNat &&& 0xff) <<< 8) = (swapBytes word).toNat := by
  rw [swapBytes, BitVec.toNat_append, BitVec.extractLsb'_toNat, BitVec.extractLsb'_toNat,
    and_0xff, and_0xff, Nat.or_comm, Nat.shiftRight_zero]

/-- The checksum is the reflected check turned round, with its bytes in the other order. After
every part of the data the register has 16 bits, and `reflect` loses none of them. -/
theorem crc16_bitwise (data : List UInt8) :
    crc16 data 0xffff = some (swapBytes (crc16Reflected data).reverse).toNat ∧
      ∀ before after, data = before ++ after →
        ∃ register, registerAfter before = some register ∧ register < 2 ^ 16 ∧
          reflect register = (BitVec.ofNat 16 register).reverse.toNat ∧
          reflect (reflect register) = register := by
  constructor
  · rw [crc16_eq_registerAfter, registerAfter_eq, Option.map_some, reflect_toNat, toNat_swapBytes]
  · intro before after _
    refine ⟨(crc16Reflected before).toNat, registerAfter_eq before, BitVec.isLt _, ?_, ?_⟩
    · rw [reflect_toNat, BitVec.ofNat_toNat, BitVec.setWidth_eq]
    · exact reflect_reflect_toNat _

end CubieBle.Build.AddCrc
