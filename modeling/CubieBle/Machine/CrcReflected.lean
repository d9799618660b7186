import CubieBle.Machine.Crc
import Mathlib.Logic.Function.Iterate

/-! # Reflected cyclic redundancy checks

The division with the words held the other way round: the remainder moves down, the least
significant bit of a word comes in first, and the polynomial is the mirror image. A message
leaves the mirror image of the remainder, so what holds of one form holds of the other.
-/

namespace Machine

variable {w : Nat}

/-- One bit of the message, with a remainder that moves down. -/
def crcBitRight (poly c : BitVec w) (bit : Bool) : BitVec w :=
  if (c.getLsbD 0 ^^ bit) = true then (c >>> 1) ^^^ poly else c >>> 1

def crcBitsRight (poly c : BitVec w) (bits : List Bool) : BitVec w :=
  bits.foldl (crcBitRight poly) c

/-- The bits of a word, the least significant first. -/
def lsbBits (word : BitVec w) : List Bool := (List.range w).map word.getLsbD

/-- The bits of a message, the least significant of each byte first. -/
def byteBits (message : List UInt8) : List Bool :=
  message.flatMap fun byte => lsbBits byte.toBitVec

/-- The check of order 16 with the polynomial 0x8408 and a register of ones at the start. -/
def crc16Reflected (message : List UInt8) : BitVec 16 :=
  crcBitsRight 0x8408#16 0xffff#16 (byteBits message)

@[simp] theorem crcBitsRight_nil (poly c : BitVec w) : crcBitsRight poly c [] = c := rfl

@[simp] theorem crcBitsRight_cons (poly c : BitVec w) (bit : Bool) (bits : List Bool) :
    crcBitsRight poly c (bit :: bits) = crcBitsRight poly (crcBitRight poly c bit) bits := rfl

theorem crcBitsRight_append (poly c : BitVec w) (first second : List Bool) :
    crcBitsRight poly c (first ++ second) =
      crcBitsRight poly (crcBitsRight poly c first) second :=
  List.foldl_append

@[simp] theorem length_lsbBits (word : BitVec w) : (lsbBits word).length = w := by
  simp [lsbBits]

theorem getD_lsbBits (word : BitVec w) (i : Nat) :
    (lsbBits word).getD i false = word.getLsbD i := by
  by_cases hi : i < w
  · simp [lsbBits, List.getD_eq_getElem?_getD, hi]
  · simp [lsbBits, List.getD_eq_getElem?_getD, hi, BitVec.getLsbD_of_ge word i (by omega)]

@[simp] theorem byteBits_nil : byteBits [] = [] := rfl

@[simp] theorem byteBits_cons (byte : UInt8) (message : List UInt8) :
    byteBits (byte :: message) = lsbBits byte.toBitVec ++ byteBits message := rfl

theorem byteBits_append (first second : List UInt8) :
    byteBits (first ++ second) = byteBits first ++ byteBits second :=
  List.flatMap_append

/-- The low part of a word comes in before the high part. -/
theorem lsbBits_append {m n : Nat} (high : BitVec m) (low : BitVec n) :
    lsbBits (high ++ low) = lsbBits low ++ lsbBits high := by
  apply List.ext_getElem
  · simp [Nat.add_comm]
  · intro i hi _
    rw [length_lsbBits] at hi
    by_cases hlow : i < n
    · rw [List.getElem_append_left (by simpa using hlow)]
      simp [lsbBits, BitVec.getLsbD_append, hlow]
    · rw [List.getElem_append_right (by simpa using Nat.not_lt.mp hlow)]
      simp [lsbBits, BitVec.getLsbD_append, hlow]

/-! ## The mirror image -/

theorem reverse_xor (first second : BitVec w) :
    (first ^^^ second).reverse = first.reverse ^^^ second.reverse := by
  apply BitVec.eq_of_getLsbD_eq
  intro i hi
  simp [BitVec.getLsbD_reverse, BitVec.getMsbD_xor]

theorem reverse_shiftLeft (word : BitVec w) (n : Nat) :
    (word <<< n).reverse = word.reverse >>> n := by
  apply BitVec.eq_of_getLsbD_eq
  intro i hi
  simp [BitVec.getLsbD_reverse, Nat.add_comm]

theorem reverse_crcBit (poly c : BitVec w) (bit : Bool) :
    (crcBit poly c bit).reverse = crcBitRight poly.reverse c.reverse bit := by
  have hleaves : c.reverse.getLsbD 0 = c.msb := by rw [BitVec.getLsbD_reverse, BitVec.msb]
  rw [crcBit, crcBitRight, hleaves]
  split_ifs with hbit
  · rw [reverse_xor, reverse_shiftLeft]
  · rw [reverse_shiftLeft]

/-- One register is the mirror image of the other, whatever comes in. -/
theorem reverse_crcBits (poly c : BitVec w) (bits : List Bool) :
    (crcBits poly c bits).reverse = crcBitsRight poly.reverse c.reverse bits := by
  induction bits generalizing c with
  | nil => rfl
  | cons bit bits ih => rw [crcBits_cons, crcBitsRight_cons, ih, reverse_crcBit]

theorem crcBitsRight_eq (poly c : BitVec w) (bits : List Bool) :
    crcBitsRight poly c bits = (crcBits poly.reverse c.reverse bits).reverse := by
  rw [reverse_crcBits, BitVec.reverse_reverse_eq, BitVec.reverse_reverse_eq]

theorem msbBits_reverse (word : BitVec w) : msbBits word.reverse = lsbBits word := by
  rw [msbBits, lsbBits]
  congr 1
  funext i
  exact BitVec.getMsbD_reverse

/-- A word that is already in the register, and is then fed to it, leaves nothing. -/
theorem crcBitsRight_lsbBits_self {poly : BitVec w} (hodd : poly.msb = true) (word : BitVec w) :
    crcBitsRight poly word (lsbBits word) = 0 := by
  have hmirror : poly.reverse.getLsbD 0 = true := by
    rw [BitVec.getLsbD_reverse]
    exact hodd
  rw [crcBitsRight_eq, ← msbBits_reverse, crcBits_msbBits_self hmirror]
  exact BitVec.reverse_eq_zero_iff.mpr rfl

theorem crcBitsRight_xor (poly : BitVec w) {xs ys : List Bool} (hlength : xs.length = ys.length)
    (c d : BitVec w) :
    crcBitsRight poly (c ^^^ d) (List.zipWith Bool.xor xs ys) =
      crcBitsRight poly c xs ^^^ crcBitsRight poly d ys := by
  rw [crcBitsRight_eq, crcBitsRight_eq, crcBitsRight_eq, reverse_xor, crcBits_xor _ hlength,
    reverse_xor]

/-! ## Words that enter at once -/

/-- A word that the register can hold may be added to its lower end first, and zeros follow. -/
theorem crcBitsRight_lsbBits {poly : BitVec w} (hodd : poly.msb = true) {n : Nat} (hn : n ≤ w)
    (c : BitVec w) (word : BitVec n) :
    crcBitsRight poly c (lsbBits word) =
      crcBitsRight poly (c ^^^ word.setWidth w) (List.replicate n false) := by
  have hmirror : poly.reverse.getLsbD 0 = true := by
    rw [BitVec.getLsbD_reverse]
    exact hodd
  have hregister : ∀ i, (word.setWidth w).reverse.getMsbD i = (lsbBits word).getD i false := by
    intro i
    rw [BitVec.getMsbD_reverse, getD_lsbBits, BitVec.getLsbD_setWidth]
    by_cases hi : i < w
    · rw [decide_eq_true hi, Bool.true_and]
    · rw [BitVec.getLsbD_of_ge word i (by omega), Bool.and_false]
  rw [crcBitsRight_eq, crcBitsRight_eq, reverse_xor,
    crcBits_of_register hmirror c.reverse (by simpa using hn) hregister, length_lsbBits]

/-- Zeros only move a register whose lower end is empty. -/
theorem crcBitsRight_of_low_zero (poly : BitVec w) {n : Nat} {c : BitVec w}
    (hlow : ∀ i < n, c.getLsbD i = false) :
    crcBitsRight poly c (List.replicate n false) = c >>> n := by
  induction n generalizing c with
  | zero => simp
  | succ n ih =>
      have hbit : crcBitRight poly c false = c >>> 1 := by
        simp [crcBitRight, hlow 0 (Nat.succ_pos n)]
      have hrest : ∀ i < n, (c >>> 1).getLsbD i = false := by
        intro i hi
        rw [BitVec.getLsbD_ushiftRight]
        exact hlow (1 + i) (by omega)
      rw [List.replicate_succ, crcBitsRight_cons, hbit, ih hrest, ← BitVec.shiftRight_add,
        Nat.add_comm]

/-- The law of a table with an entry for every word of `n` bits. -/
theorem crcBitsRight_table {poly : BitVec w} (hodd : poly.msb = true) {n : Nat} (hn : n ≤ w)
    (c : BitVec w) (word : BitVec n) :
    crcBitsRight poly c (lsbBits word) =
      (c >>> n) ^^^
        crcBitsRight poly ((c.setWidth n ^^^ word).setWidth w) (List.replicate n false) := by
  have hsplit : c ^^^ word.setWidth w =
      ((c >>> n) <<< n) ^^^ (c.setWidth n ^^^ word).setWidth w := by
    apply BitVec.eq_of_getLsbD_eq
    intro i hi
    by_cases hin : i < n
    · simp [hi, hin]
    · have hplace : n + (i - n) = i := by omega
      simp [hi, hin, hplace, BitVec.getLsbD_of_ge word i (by omega)]
  have hhigh : ∀ i < n, ((c >>> n) <<< n).getLsbD i = false := by
    intro i hi
    simp [hi]
  have hback : (c >>> n) <<< n >>> n = c >>> n := by
    apply BitVec.eq_of_getLsbD_eq
    intro i _
    by_cases hi : n + i < w
    · simp [hi]
    · simp [hi, BitVec.getLsbD_of_ge c (n + i) (by omega)]
  have hzeros : List.replicate n false =
      List.zipWith Bool.xor (List.replicate n false) (List.replicate n false) := by
    simp
  rw [crcBitsRight_lsbBits hodd hn, hsplit, hzeros, crcBitsRight_xor poly rfl,
    crcBitsRight_of_low_zero poly hhigh, hback, ← hzeros]

/-! ## Rounds -/

theorem crcBits_replicate (poly c : BitVec w) (n : Nat) :
    crcBits poly c (List.replicate n false) = (fun c => crcBit poly c false)^[n] c := by
  induction n generalizing c with
  | zero => rfl
  | succ n ih => rw [List.replicate_succ, crcBits_cons, ih, Function.iterate_succ_apply]

theorem crcBitsRight_replicate (poly c : BitVec w) (n : Nat) :
    crcBitsRight poly c (List.replicate n false) = (fun c => crcBitRight poly c false)^[n] c := by
  induction n generalizing c with
  | zero => rfl
  | succ n ih => rw [List.replicate_succ, crcBitsRight_cons, ih, Function.iterate_succ_apply]

end Machine
