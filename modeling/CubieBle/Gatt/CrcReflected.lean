import CubieBle.Gatt.Crc16
import CubieBle.Machine.CrcReflected

/-! # The reflected form of the checksum

`crc16_ccitt` moves its remainder up and turns every byte round on its way in. The remainder is
at all times the mirror image of the one that moves down, and it is turned round in the end.
-/

namespace CubieBle.Gatt

open Machine

/-! ## The remainder -/

theorem toBitVec_crcRound (crcin : UInt16) :
    (crcRound crcin).toBitVec = crcBit 0x1021#16 crcin.toBitVec false := by
  have hmsb : crcin &&& 0x8000 ≠ 0 ↔ crcin.toBitVec.msb = true := by
    rw [and_msb_ne_zero_iff, BitVec.msb_eq_decide, decide_eq_true_iff]
    rfl
  rw [crcRound, crcBit, Bool.xor_false]
  by_cases hbit : crcin &&& 0x8000 ≠ 0
  · rw [if_pos hbit, if_pos (hmsb.mp hbit)]
    rfl
  · rw [if_neg hbit, if_neg fun hleaves => hbit (hmsb.mpr hleaves)]
    rfl

theorem toBitVec_iterate_crcRound (n : Nat) (crcin : UInt16) :
    (crcRound^[n] crcin).toBitVec =
      crcBits 0x1021#16 crcin.toBitVec (List.replicate n false) := by
  have hround : Function.Semiconj UInt16.toBitVec crcRound
      fun c => crcBit 0x1021#16 c false := toBitVec_crcRound
  rw [crcBits_replicate]
  exact hround.iterate_right n crcin

/-- The byte that is turned round enters with its least significant bit first. -/
theorem toBitVec_crcByte (crcin : UInt16) (c : UInt8) :
    (crcByte crcin c).toBitVec = crcBits 0x1021#16 crcin.toBitVec (lsbBits c.toBitVec) := by
  have hregister : ∀ i, ((invertU8 c).toUInt16 <<< 8).toBitVec.getMsbD i =
      (lsbBits c.toBitVec).getD i false := by
    intro i
    have hshift : ((invertU8 c).toUInt16 <<< 8).toBitVec =
        (c.toBitVec.reverse.setWidth 16) <<< 8 := by
      rw [← toBitVec_invertU8]
      rfl
    rw [hshift, BitVec.getMsbD_shiftLeft, BitVec.getMsbD_setWidth, getD_lsbBits,
      BitVec.getMsbD_reverse]
    simp
  have hlength : (lsbBits c.toBitVec).length ≤ 16 := by simp
  rw [crcByte, toBitVec_iterate_crcRound,
    crcBits_of_register (by decide) crcin.toBitVec hlength hregister, length_lsbBits,
    UInt16.toBitVec_xor]

theorem toBitVec_foldl_crcByte (message : List UInt8) (crcin : UInt16) :
    (message.foldl crcByte crcin).toBitVec =
      crcBits 0x1021#16 crcin.toBitVec (byteBits message) := by
  induction message generalizing crcin with
  | nil => rfl
  | cons c message ih =>
      rw [List.foldl_cons, ih, toBitVec_crcByte, byteBits_cons, crcBits_append]

/-! ## The checksum -/

theorem toBitVec_crc16Ccitt (message : List UInt8) :
    (crc16Ccitt message).toBitVec = crc16Reflected message := by
  have hpoly : (0x1021#16).reverse = 0x8408#16 := by decide
  have hinit : (0xffff#16).reverse = 0xffff#16 := by decide
  rw [crc16Ccitt, toBitVec_invertU16, toBitVec_foldl_crcByte, crc16Reflected, ← hpoly, ← hinit]
  exact reverse_crcBits 0x1021#16 0xffff#16 (byteBits message)

theorem byteBits_low_high (crc : UInt16) :
    byteBits [crc.toUInt8, (crc >>> 8).toUInt8] = lsbBits crc.toBitVec := by
  have hlow : crc.toUInt8.toBitVec = crc.toBitVec.setWidth 8 := rfl
  have hhigh : (crc >>> 8).toUInt8.toBitVec = (crc.toBitVec >>> 8).setWidth 8 := rfl
  have hword : crc.toBitVec = (crc >>> 8).toUInt8.toBitVec ++ crc.toUInt8.toBitVec := by
    apply BitVec.eq_of_getLsbD_eq
    intro i hi
    rw [hlow, hhigh, BitVec.getLsbD_append]
    by_cases hlt : i < 8
    · simp [hlt]
    · have hplace : 8 + (i - 8) = i := by omega
      have hupper : i - 8 < 8 := by omega
      simp [hlt, hplace, hupper]
  rw [byteBits_cons, byteBits_cons, byteBits_nil, List.append_nil, ← lsbBits_append, ← hword]

/-- `crc16_ccitt` is the reflected check, and a message with its own checksum behind it, the low
byte first, has the checksum 0. -/
theorem crc16Ccitt_reflected (message : List UInt8) :
    (crc16Ccitt message).toBitVec = crc16Reflected message ∧
      crc16Ccitt (message ++
        [(crc16Ccitt message).toUInt8, (crc16Ccitt message >>> 8).toUInt8]) = 0 := by
  refine ⟨toBitVec_crc16Ccitt message, ?_⟩
  apply UInt16.toBitVec_inj.mp
  rw [toBitVec_crc16Ccitt, crc16Reflected, byteBits_append, byteBits_low_high,
    crcBitsRight_append, toBitVec_crc16Ccitt, crc16Reflected]
  exact crcBitsRight_lsbBits_self (by decide) _

end CubieBle.Gatt
