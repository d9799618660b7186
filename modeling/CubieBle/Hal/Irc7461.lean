import CubieBle.Hal.IrcRecognition

/-! # The 7461 protocol

Code words of 7461 have 42 bits, and the generator goes through them with a mask of 32 bits. It
writes as many marks and spaces as the mask is wide, and leaves the rest of the captured table as
it was.
-/

namespace CubieBle.Hal

namespace PulseDistance

variable {protocol : PulseDistance}

/-- What the generator writes, whatever the mask. -/
theorem generateWave_mask (data : Nat) (mask : UInt32) (tab : PulseTab) :
    protocol.generateWave data mask tab = fun i =>
      if h : i < protocol.leader.length then UInt16.ofNat (protocol.leader.get ⟨i, h⟩)
      else if i < protocol.leader.length + 2 * mask.toNat.size then
        protocol.maskedCode data mask.toNat (i - protocol.leader.length)
      else if i = protocol.leader.length + 2 * mask.toNat.size then UInt16.ofNat protocol.com
      else tab i := by
  have hsize : mask.toNat.size < 33 := Nat.lt_succ_of_le (Nat.size_le.mpr mask.toNat_lt)
  rw [generateWave, writeCode_mask data hsize]
  funext i
  dsimp only
  by_cases hstop : i = protocol.leader.length + 2 * mask.toNat.size
  · rw [hstop, Function.update_self, dif_neg (by omega), if_neg (by omega), if_pos rfl]
  · rw [Function.update_of_ne hstop, if_neg hstop]
    by_cases hleader : i < protocol.leader.length
    · rw [if_neg (by omega), dif_pos hleader, dif_pos hleader]
    · rw [dif_neg hleader, dif_neg hleader]
      by_cases hcode : i < protocol.leader.length + 2 * mask.toNat.size
      · rw [if_pos ⟨by omega, hcode⟩, if_pos hcode]
      · rw [if_neg (by omega), if_neg hcode]

end PulseDistance

/-- The mask writes the bits of the word, and what it does not write is nominal already. -/
structure NominalBehind (mask41 : UInt32) (word : Nat) (tab : PulseTab) : Prop where
  written : ∀ k < mask41.toNat.size,
    (word &&& mask41.toNat >>> k ≠ 0 ↔ word.testBit (41 - k) = true)
  left : ∀ i, 2 + 2 * mask41.toNat.size < i → i < 87 → tab i = p7461.nominalWave word tab i

section Normalise

variable {mask41 : UInt32} {tab : PulseTab} {word : Nat}

theorem is7461Protocol_of_within (mask41 : UInt32) (hword : word < 2 ^ 42)
    (hwithin : p7461.Within tab word) :
    is7461Protocol mask41 tab 87 = (true, p7461.generateWave word mask41 tab) := by
  have hseparated : p7461.Separated := by decide
  have hlen : (87 : UInt16).toNat = p7461.tabLen := by decide
  have hread := (PulseDistance.readCode_eq_some_iff hseparated p7461.codeNum).mpr
    ⟨hword, hwithin.2⟩
  rw [is7461Protocol, PulseDistance.recognise, if_neg (not_not.mpr hlen),
    if_neg (not_not.mpr hwithin.1), PulseDistance.positions, hread]

theorem p7461_space_inj {bit bit' : Bool}
    (heq : UInt16.ofNat (p7461.space bit) = UInt16.ofNat (p7461.space bit')) : bit = bit' := by
  revert bit bit'
  decide

theorem nominalWave_code (word : Nat) (tab : PulseTab) {j : Nat} (hj : j < 85) :
    p7461.nominalWave word tab (2 + j) = p7461.nominalCode 42 word j := by
  have hleader : ¬2 + j < p7461.leader.length := by
    have hlength : p7461.leader.length = 2 := rfl
    omega
  have hlen : 2 + j < p7461.tabLen := by
    have htab : p7461.tabLen = 87 := rfl
    omega
  have hindex : 2 + j - p7461.leader.length = j := Nat.add_sub_cancel_left 2 j
  rw [PulseDistance.nominalWave, dif_neg hleader, if_pos hlen, hindex]
  rfl

/-- The entries that the generator writes behind the leader. -/
theorem generateWave_code {j : Nat} (hj : j < 2 * mask41.toNat.size) :
    p7461.generateWave word mask41 tab (2 + j) = p7461.maskedCode word mask41.toNat j := by
  have hlength : p7461.leader.length = 2 := rfl
  have hindex : 2 + j - p7461.leader.length = j := Nat.add_sub_cancel_left 2 j
  rw [PulseDistance.generateWave_mask]
  dsimp only
  rw [dif_neg (by omega), if_pos (by omega), hindex]

theorem generateWave_behind {i : Nat} (hi : 2 + 2 * mask41.toNat.size < i) :
    p7461.generateWave word mask41 tab i = tab i := by
  have hlength : p7461.leader.length = 2 := rfl
  rw [PulseDistance.generateWave_mask]
  dsimp only
  rw [dif_neg (by omega), if_neg (by omega), if_neg (by omega)]

/-- The leader and the stop burst are nominal in any case. -/
theorem generateWave_fixed {i : Nat} (hi : i < 2 ∨ i = 2 + 2 * mask41.toNat.size) :
    p7461.generateWave word mask41 tab i = p7461.nominalWave word tab i := by
  have hlength : p7461.leader.length = 2 := rfl
  have hsize : mask41.toNat.size ≤ 32 := Nat.size_le.mpr mask41.toNat_lt
  rw [PulseDistance.generateWave_mask]
  dsimp only
  rcases hi with hleader | rfl
  · rw [PulseDistance.nominalWave, dif_pos (by omega), dif_pos (by omega)]
  · rw [dif_neg (by omega), if_neg (by omega), if_pos (by omega),
      nominalWave_code word tab (by omega), PulseDistance.nominalCode,
      if_pos (Nat.mul_mod_right 2 _)]

/-- A space of the generator is nominal exactly if the mask finds the bit of the word. -/
theorem maskedCode_eq_iff {mask k : Nat} :
    p7461.maskedCode word mask (2 * k + 1) = p7461.nominalCode 42 word (2 * k + 1) ↔
      (word &&& mask >>> k ≠ 0 ↔ word.testBit (41 - k) = true) := by
  have hindex : (2 * k + 1) / 2 = k := by omega
  have hbits : decide (word &&& mask >>> k ≠ 0) = word.testBit (42 - 1 - k) ↔
      (word &&& mask >>> k ≠ 0 ↔ word.testBit (41 - k) = true) := by
    rw [Bool.eq_iff_iff, decide_eq_true_iff]
  rw [PulseDistance.maskedCode, PulseDistance.nominalCode, if_neg (by omega), if_neg (by omega),
    hindex]
  exact ⟨fun heq => hbits.mp (p7461_space_inj heq),
    fun hsame => congrArg (fun bit => UInt16.ofNat (p7461.space bit)) (hbits.mpr hsame)⟩

/-- The generator leaves the nominal waveform exactly if the mask happens to find the bits of the
word, and the entries behind them were nominal. -/
theorem generateWave_eq_nominal_iff :
    p7461.generateWave word mask41 tab = p7461.nominalWave word tab ↔
      NominalBehind mask41 word tab := by
  have hsize : mask41.toNat.size ≤ 32 := Nat.size_le.mpr mask41.toNat_lt
  constructor
  · intro heq
    refine ⟨fun k hk => ?_, fun i hi _ => ?_⟩
    · have hspace := congrFun heq (2 + (2 * k + 1))
      rw [generateWave_code (by omega), nominalWave_code word tab (by omega)] at hspace
      exact maskedCode_eq_iff.mp hspace
    · rw [← heq, generateWave_behind hi]
  · rintro ⟨hwritten, hleft⟩
    funext i
    by_cases hfixed : i < 2 ∨ i = 2 + 2 * mask41.toNat.size
    · exact generateWave_fixed hfixed
    by_cases hbehind : 2 + 2 * mask41.toNat.size < i
    · rw [generateWave_behind hbehind]
      by_cases hinside : i < 87
      · exact hleft i hbehind hinside
      · rw [PulseDistance.nominalWave, dif_neg, if_neg]
        · exact hinside
        · exact fun hleader => hinside (Nat.lt_trans hleader (by decide))
    · obtain ⟨j, rfl⟩ : ∃ j, i = 2 + j := ⟨i - 2, by omega⟩
      rw [generateWave_code (by omega), nominalWave_code word tab (by omega)]
      rcases Nat.even_or_odd' j with ⟨k, rfl | rfl⟩
      · rw [PulseDistance.maskedCode, PulseDistance.nominalCode, if_pos (by omega),
          if_pos (by omega)]
      · exact maskedCode_eq_iff.mpr (hwritten k (by omega))

end Normalise

/-- A distorted waveform of 7461 is always accepted, and becomes the nominal one exactly if the
mask happens to find the bits of the word, and the entries behind them were nominal. -/
theorem is7461Protocol_normalises_iff (mask41 : UInt32) (tab : PulseTab) (word : Nat)
    (hword : word < 2 ^ 42) (hwithin : p7461.Within tab word) :
    (is7461Protocol mask41 tab 87).1 = true ∧
      ((is7461Protocol mask41 tab 87).2 = p7461.nominalWave word tab ↔
        NominalBehind mask41 word tab) := by
  rw [is7461Protocol_of_within mask41 hword hwithin]
  exact ⟨rfl, generateWave_eq_nominal_iff⟩

/-- The waveform of the word of zeros, all marks of which are a little too long. -/
def slow7461Tab : PulseTab := fun i =>
  p7461.nominalWave 0 (fun _ => 0) i + if i % 2 = 0 then 10 else 0

theorem is7461Protocol_normalises_iff_zeros :
    (is7461Protocol 0 (p7461.nominalWave 0 fun _ => 0) 87).1 = true ∧
      ((is7461Protocol 0 (p7461.nominalWave 0 fun _ => 0) 87).2 =
          p7461.nominalWave 0 (p7461.nominalWave 0 fun _ => 0) ↔
        NominalBehind 0 0 (p7461.nominalWave 0 fun _ => 0)) :=
  is7461Protocol_normalises_iff 0 (p7461.nominalWave 0 fun _ => 0) 0 (by decide) (by decide)

/-- Whatever the mask, the last marks stay as they were captured. -/
theorem slow7461_not_normalised :
    p7461.Within slow7461Tab 0 ∧ InWindow p7461.com (slow7461Tab 86) ∧ ∀ mask41,
      (is7461Protocol mask41 slow7461Tab 87).2 ≠ p7461.nominalWave 0 slow7461Tab := by
  have hwithin : p7461.Within slow7461Tab 0 := by decide
  refine ⟨hwithin, by decide, fun mask41 heq => ?_⟩
  have hsize : mask41.toNat.size ≤ 32 := Nat.size_le.mpr mask41.toNat_lt
  have hkept : p7461.generateWave 0 mask41 slow7461Tab 86 = slow7461Tab 86 :=
    generateWave_behind (by omega)
  rw [is7461Protocol_of_within mask41 (by decide) hwithin] at heq
  have hlast : slow7461Tab 86 = p7461.nominalWave 0 slow7461Tab 86 :=
    hkept.symm.trans (congrFun heq 86)
  exact absurd hlast (by decide)

end CubieBle.Hal
