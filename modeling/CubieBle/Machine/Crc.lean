import Mathlib.Data.List.Basic

/-! # Cyclic redundancy checks

The remainder of a message in the division by a polynomial over the field of two elements. The
bits come in one by one, the most significant of a word first. The polynomial is given without
its leading term, and it is odd if its constant term is one.
-/

namespace Machine

variable {w : Nat}

/-- One bit of the message: the remainder moves up, and the polynomial is taken away if the bit
that leaves differs from the one of the message. -/
def crcBit (poly c : BitVec w) (bit : Bool) : BitVec w :=
  if (c.msb ^^ bit) = true then (c <<< 1) ^^^ poly else c <<< 1

def crcBits (poly c : BitVec w) (bits : List Bool) : BitVec w := bits.foldl (crcBit poly) c

/-- The bits of a word, the most significant first. -/
def msbBits (word : BitVec w) : List Bool := (List.range w).map word.getMsbD

@[simp] theorem crcBits_nil (poly c : BitVec w) : crcBits poly c [] = c := rfl

@[simp] theorem crcBits_cons (poly c : BitVec w) (bit : Bool) (bits : List Bool) :
    crcBits poly c (bit :: bits) = crcBits poly (crcBit poly c bit) bits := rfl

theorem crcBits_append (poly c : BitVec w) (first second : List Bool) :
    crcBits poly c (first ++ second) = crcBits poly (crcBits poly c first) second :=
  List.foldl_append

@[simp] theorem length_msbBits (word : BitVec w) : (msbBits word).length = w := by
  simp [msbBits]

theorem getD_msbBits (word : BitVec w) (i : Nat) :
    (msbBits word).getD i false = word.getMsbD i := by
  by_cases hi : i < w
  · simp [msbBits, List.getD_eq_getElem?_getD, hi]
  · simp [msbBits, List.getD_eq_getElem?_getD, hi, BitVec.getMsbD_of_ge word i (by omega)]

theorem msbBits_injective {first second : BitVec w} (hbits : msbBits first = msbBits second) :
    first = second := by
  apply BitVec.eq_of_getMsbD_eq
  intro i _
  rw [← getD_msbBits, ← getD_msbBits, hbits]

/-! ## Linearity -/

theorem crcBit_xor (poly c d : BitVec w) (x y : Bool) :
    crcBit poly (c ^^^ d) (x ^^ y) = crcBit poly c x ^^^ crcBit poly d y := by
  have hmsb : (((c ^^^ d).msb) ^^ (x ^^ y)) = ((c.msb ^^ x) ^^ (d.msb ^^ y)) := by
    rw [BitVec.msb_xor]
    cases c.msb <;> cases d.msb <;> cases x <;> cases y <;> rfl
  rw [crcBit, crcBit, crcBit, hmsb, BitVec.shiftLeft_xor_distrib]
  generalize (c.msb ^^ x) = first
  generalize (d.msb ^^ y) = second
  cases first with
  | false => cases second with
    | false => simp
    | true => simp [BitVec.xor_assoc]
  | true => cases second with
    | false =>
        simp only [Bool.xor_false, if_true, Bool.false_eq_true, if_false]
        ac_rfl
    | true =>
        have hcancel : c <<< 1 ^^^ poly ^^^ (d <<< 1 ^^^ poly) =
            c <<< 1 ^^^ d <<< 1 ^^^ (poly ^^^ poly) := by ac_rfl
        simp [hcancel]

/-- The remainder of a sum is the sum of the remainders. -/
theorem crcBits_xor (poly : BitVec w) {xs ys : List Bool} (hlength : xs.length = ys.length)
    (c d : BitVec w) :
    crcBits poly (c ^^^ d) (List.zipWith Bool.xor xs ys) =
      crcBits poly c xs ^^^ crcBits poly d ys := by
  induction xs generalizing ys c d with
  | nil =>
      have hnil : ys = [] := List.length_eq_zero_iff.mp hlength.symm
      simp [hnil]
  | cons x xs ih =>
      cases ys with
      | nil => simp at hlength
      | cons y ys =>
          rw [List.zipWith_cons_cons, crcBits_cons, crcBit_xor, ih (by simpa using hlength)]
          rfl

/-! ## A register that is emptied -/

theorem crcBit_of_msb {c : BitVec w} {bit : Bool} (poly : BitVec w) (hmsb : c.msb = bit) :
    crcBit poly c bit = c <<< 1 := by
  simp [crcBit, hmsb]

theorem getLsbD_crcBit {poly : BitVec w} (hodd : poly.getLsbD 0 = true) (c : BitVec w)
    (bit : Bool) : (crcBit poly c bit).getLsbD 0 = (c.msb ^^ bit) := by
  rw [crcBit]
  split_ifs with hleaves
  · simp [hodd, hleaves]
  · simpa using hleaves

/-- At most `w` bits leave no remainder exactly if the register holds them at its upper end, and
nothing else. -/
theorem crcBits_eq_zero_iff {poly : BitVec w} (hodd : poly.getLsbD 0 = true) {bits : List Bool}
    (hlength : bits.length ≤ w) {c : BitVec w} :
    crcBits poly c bits = 0 ↔ ∀ i, c.getMsbD i = bits.getD i false := by
  induction bits generalizing c with
  | nil =>
      simp only [crcBits_nil, List.getD_nil]
      constructor
      · intro hzero i
        simp [hzero]
      · intro hbits
        apply BitVec.eq_of_getMsbD_eq
        intro i _
        simp [hbits]
  | cons bit bits ih =>
      rw [List.length_cons] at hlength
      rw [crcBits_cons, ih (by omega)]
      constructor
      · intro hregister
        -- the rest is too short to reach the lowest bit, so nothing was taken away
        have hlow := hregister (w - 1)
        have hshort : bits.getD (w - 1) false = false := by
          rw [List.getD_eq_getElem?_getD, List.getElem?_eq_none (by omega), Option.getD_none]
        have hlsb : (crcBit poly c bit).getMsbD (w - 1) = (crcBit poly c bit).getLsbD 0 := by
          have hzero : w - 1 - (w - 1) = 0 := by omega
          have hlt : w - 1 < w := by omega
          rw [BitVec.getMsbD_eq_getLsbD, hzero, decide_eq_true hlt, Bool.true_and]
        rw [hlsb, hshort, getLsbD_crcBit hodd] at hlow
        have hmsb : c.msb = bit := by simpa using hlow
        rw [crcBit_of_msb poly hmsb] at hregister
        intro i
        cases i with
        | zero => simpa [BitVec.msb] using hmsb
        | succ i => simpa using hregister i
      · intro hregister
        have hmsb : c.msb = bit := by simpa [BitVec.msb] using hregister 0
        intro i
        rw [crcBit_of_msb poly hmsb]
        simpa using hregister (i + 1)

/-- A word that is already in the register, and is then fed to it, leaves nothing. -/
theorem crcBits_msbBits_self {poly : BitVec w} (hodd : poly.getLsbD 0 = true) (word : BitVec w) :
    crcBits poly word (msbBits word) = 0 := by
  rw [crcBits_eq_zero_iff hodd (by simp)]
  intro i
  rw [getD_msbBits]

/-- Bits that the register can hold may be added to its upper end first, and zeros follow. -/
theorem crcBits_of_register {poly : BitVec w} (hodd : poly.getLsbD 0 = true) (c : BitVec w)
    {bits : List Bool} (hlength : bits.length ≤ w) {register : BitVec w}
    (hregister : ∀ i, register.getMsbD i = bits.getD i false) :
    crcBits poly c bits =
      crcBits poly (c ^^^ register) (List.replicate bits.length false) := by
  have hsplit : c = (c ^^^ register) ^^^ register := by
    rw [BitVec.xor_assoc, BitVec.xor_self, BitVec.xor_zero]
  have hbits : bits = List.zipWith Bool.xor (List.replicate bits.length false) bits := by
    apply List.ext_getElem
    · simp
    · intro i _ _
      simp
  have hempty : crcBits poly register bits = 0 :=
    (crcBits_eq_zero_iff hodd hlength).mpr hregister
  have hsum := crcBits_xor poly (List.length_replicate (n := bits.length) (a := false))
    (c ^^^ register) register
  rw [← hbits, ← hsplit, hempty] at hsum
  rw [hsum]
  exact BitVec.xor_zero

/-- A word may be added to the register first, and zeros follow: what a table lists. -/
theorem crcBits_msbBits {poly : BitVec w} (hodd : poly.getLsbD 0 = true) (c word : BitVec w) :
    crcBits poly c (msbBits word) = crcBits poly (word ^^^ c) (List.replicate w false) := by
  rw [crcBits_of_register hodd c (by simp) fun i => (getD_msbBits word i).symm,
    BitVec.xor_comm c word, length_msbBits]

/-! ## Bursts -/

theorem crcBits_replicate_false_ne_zero {poly : BitVec w} (hodd : poly.getLsbD 0 = true) (n : Nat)
    {c : BitVec w} (hc : c ≠ 0) : crcBits poly c (List.replicate n false) ≠ 0 := by
  have hpos : 0 < w := by
    apply Nat.pos_of_ne_zero
    intro hw
    subst hw
    simp at hodd
  induction n generalizing c with
  | zero => exact hc
  | succ n ih =>
      rw [List.replicate_succ, crcBits_cons]
      apply ih
      intro hzero
      have hlength : [false].length ≤ w := hpos
      have hregister := (crcBits_eq_zero_iff hodd hlength).mp hzero
      apply hc
      apply BitVec.eq_of_getMsbD_eq
      intro i _
      rw [hregister i]
      cases i with
      | zero => simp
      | succ i => simp

theorem eq_replicate_false {bits : List Bool} (hbits : true ∉ bits) :
    bits = List.replicate bits.length false := by
  apply List.eq_replicate_of_mem
  intro bit hbit
  cases bit with
  | false => rfl
  | true => exact absurd hbit hbits

/-- An error whose bits lie within `w` consecutive places leaves a remainder. -/
theorem crcBits_ne_zero_of_burst {poly : BitVec w} (hodd : poly.getLsbD 0 = true)
    {error : List Bool} {start : Nat}
    (hwindow : ∀ i, error[i]? = some true → start ≤ i ∧ i < start + w) (herror : true ∈ error) :
    crcBits poly 0 error ≠ 0 := by
  induction start generalizing error with
  | zero =>
      -- nothing stands behind the window, and the window is not empty
      have htail : error.drop w = List.replicate (error.drop w).length false := by
        apply eq_replicate_false
        intro hmem
        obtain ⟨i, hi⟩ := List.mem_iff_getElem?.mp hmem
        rw [List.getElem?_drop] at hi
        have hlt := (hwindow _ hi).2
        omega
      have hhead : true ∈ error.take w := by
        rw [← List.take_append_drop w error, List.mem_append] at herror
        apply herror.resolve_right
        rw [htail]
        simp
      rw [← List.take_append_drop w error, crcBits_append, htail]
      apply crcBits_replicate_false_ne_zero hodd
      intro hzero
      have hregister := (crcBits_eq_zero_iff hodd (List.length_take_le w error)).mp hzero
      obtain ⟨i, hi⟩ := List.mem_iff_getElem?.mp hhead
      have hbit := hregister i
      rw [List.getD_eq_getElem?_getD, hi] at hbit
      simp at hbit
  | succ start ih =>
      cases error with
      | nil => simp at herror
      | cons bit error =>
          cases bit with
          | true =>
              have hfirst := (hwindow 0 rfl).1
              omega
          | false =>
              have hzero : crcBit poly 0 false = 0 := by simp [crcBit]
              rw [crcBits_cons, hzero]
              apply ih
              · intro i hi
                have hplace := hwindow (i + 1) (by simpa using hi)
                omega
              · simpa using herror

/-- Two messages of one length that differ, but only within `w` consecutive bits, have different
remainders. -/
theorem crcBits_ne_of_burst {poly : BitVec w} (hodd : poly.getLsbD 0 = true)
    {xs ys : List Bool} (hlength : xs.length = ys.length) {start : Nat}
    (hsame : ∀ i, i < start ∨ start + w ≤ i → xs[i]? = ys[i]?) (hne : xs ≠ ys) :
    crcBits poly 0 xs ≠ crcBits poly 0 ys := by
  have hburst : crcBits poly 0 (List.zipWith Bool.xor xs ys) ≠ 0 := by
    have hwindow : ∀ i, (List.zipWith Bool.xor xs ys)[i]? = some true →
        start ≤ i ∧ i < start + w := by
      intro i hi
      by_contra houtside
      have heq := hsame i (by omega)
      rw [List.getElem?_zipWith, heq] at hi
      cases hy : ys[i]? with
      | none => simp [hy] at hi
      | some y => simp [hy] at hi
    apply crcBits_ne_zero_of_burst hodd hwindow
    · by_contra hclean
      apply hne
      apply List.ext_getElem hlength
      intro i hx hy
      by_contra hdiffer
      apply hclean
      rw [List.mem_iff_getElem]
      refine ⟨i, by rw [List.length_zipWith]; exact Nat.lt_min.mpr ⟨hx, hy⟩, ?_⟩
      rw [List.getElem_zipWith]
      cases hbit : xs[i] with
      | false => simpa [hbit] using hdiffer
      | true => simpa [hbit] using hdiffer
  have hsum := crcBits_xor poly hlength 0 0
  have hzero : (0 : BitVec w) ^^^ 0 = 0 := BitVec.xor_self
  rw [hzero] at hsum
  intro heq
  apply hburst
  rw [hsum, heq]
  exact BitVec.xor_self

end Machine
