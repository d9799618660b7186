import CubieBle.Hal.IrcProtocol
import Mathlib.Data.Nat.Size

/-! # Recognition of pulse-distance waveforms

A table whose widths are within the windows of a code word is accepted by the recogniser of
its protocol and by no recogniser before it, and it becomes the nominal waveform of that
word. The windows of the two logic levels do not meet, so the word is the only one.
-/

namespace CubieBle.Hal

namespace PulseDistance

variable (protocol : PulseDistance)

/-- The space of a code bit. -/
def space (bit : Bool) : Nat := if bit then protocol.logic1 else protocol.logic0

/-- The first `n` bits of a code, highest first, are within their windows. -/
def CodeWithin (tab : PulseTab) (n word : Nat) : Prop :=
  ∀ k < n, InWindow protocol.com (tab (protocol.leader.length + 2 * k)) ∧
    InWindow (protocol.space (word.testBit (n - 1 - k)))
      (tab (protocol.leader.length + 2 * k + 1))

/-- Each width of a table that the recogniser reads is within its window for a code word. -/
def Within (tab : PulseTab) (word : Nat) : Prop :=
  protocol.LeaderOk tab ∧ protocol.CodeWithin tab protocol.codeNum word

instance (tab : PulseTab) (n word : Nat) : Decidable (protocol.CodeWithin tab n word) :=
  Nat.decidableBallLT n _

instance (tab : PulseTab) (word : Nat) : Decidable (protocol.Within tab word) :=
  inferInstanceAs (Decidable (_ ∧ _))

/-- The nominal width of an entry after the leader, the stop burst included. -/
def nominalCode (n word j : Nat) : UInt16 :=
  if j % 2 = 0 then UInt16.ofNat protocol.com
  else UInt16.ofNat (protocol.space (word.testBit (n - 1 - j / 2)))

/-- What the loop of a generator writes `j` entries behind the leader. -/
def maskedCode (data mask j : Nat) : UInt16 :=
  if j % 2 = 0 then UInt16.ofNat protocol.com
  else UInt16.ofNat (protocol.space (decide (data &&& mask >>> (j / 2) ≠ 0)))

/-- A table that starts with the nominal waveform of a code word. -/
def nominalWave (word : Nat) (tab : PulseTab) : PulseTab := fun i =>
  if h : i < protocol.leader.length then UInt16.ofNat (protocol.leader.get ⟨i, h⟩)
  else if i < protocol.tabLen then
    protocol.nominalCode protocol.codeNum word (i - protocol.leader.length)
  else tab i

/-- The windows of the two logic levels do not meet. -/
def Separated : Prop := valEspR protocol.logic0 ≤ valEspL protocol.logic1

instance : Decidable protocol.Separated := Nat.decLe _ _

variable {protocol} {tab : PulseTab}

/-! ## Reading -/

theorem inWindow_space_inj (hseparated : protocol.Separated) {width : UInt16} {bit bit' : Bool}
    (hbit : InWindow (protocol.space bit) width) (hbit' : InWindow (protocol.space bit') width) :
    bit = bit' := by
  have hclash : ¬(InWindow protocol.logic0 width ∧ InWindow protocol.logic1 width) := by
    rintro ⟨⟨-, hlow⟩, ⟨hhigh, -⟩⟩
    rw [Separated] at hseparated
    omega
  cases bit with
  | false =>
      cases bit' with
      | false => rfl
      | true => exact absurd ⟨hbit, hbit'⟩ hclash
  | true =>
      cases bit' with
      | false => exact absurd ⟨hbit', hbit⟩ hclash
      | true => rfl

/-- A bit is read exactly as the windows say. -/
theorem readBit_eq_some_iff (hseparated : protocol.Separated) {data i next : Nat} :
    protocol.readBit tab data i = some next ↔ InWindow protocol.com (tab i) ∧
      ∃ bit : Bool, InWindow (protocol.space bit) (tab (i + 1)) ∧ next = Nat.bit bit data := by
  rw [readBit]
  split_ifs with hcom hlow hhigh
  · constructor
    · intro heq
      refine ⟨hcom, false, hlow, ?_⟩
      rw [Nat.bit_val, Bool.toNat_false, Nat.add_zero]
      exact (Option.some.inj heq).symm
    · rintro ⟨-, bit, hbit, rfl⟩
      have hfalse : false = bit := inWindow_space_inj hseparated hlow hbit
      rw [← hfalse, Nat.bit_val, Bool.toNat_false, Nat.add_zero]
  · constructor
    · intro heq
      refine ⟨hcom, true, hhigh, ?_⟩
      rw [Nat.bit_val, Bool.toNat_true]
      exact (Option.some.inj heq).symm
    · rintro ⟨-, bit, hbit, rfl⟩
      have htrue : true = bit := inWindow_space_inj hseparated hhigh hbit
      rw [← htrue, Nat.bit_val, Bool.toNat_true]
  · constructor
    · intro heq
      exact heq.elim
    · rintro ⟨-, bit, hbit, -⟩
      cases bit with
      | false => exact absurd hbit hlow
      | true => exact absurd hbit hhigh
  · constructor
    · intro heq
      exact heq.elim
    · rintro ⟨hmark, -⟩
      exact absurd hmark hcom

theorem codeWithin_bit {n data : Nat} {bit : Bool} :
    protocol.CodeWithin tab (n + 1) (Nat.bit bit data) ↔ protocol.CodeWithin tab n data ∧
      InWindow protocol.com (tab (protocol.leader.length + 2 * n)) ∧
      InWindow (protocol.space bit) (tab (protocol.leader.length + 2 * n + 1)) := by
  have hbits : ∀ k < n, (Nat.bit bit data).testBit (n + 1 - 1 - k) = data.testBit (n - 1 - k) := by
    intro k hk
    have hsucc : n + 1 - 1 - k = (n - 1 - k) + 1 := by omega
    rw [hsucc, Nat.testBit_bit_succ]
  have hlast : (Nat.bit bit data).testBit (n + 1 - 1 - n) = bit := by
    rw [Nat.add_sub_cancel, Nat.sub_self, Nat.testBit_bit_zero]
  constructor
  · intro hcode
    refine ⟨?_, ?_⟩
    · intro k hk
      rw [← hbits k hk]
      exact hcode k (Nat.lt_succ_of_lt hk)
    · have hn := hcode n (Nat.lt_succ_self n)
      rwa [hlast] at hn
  · rintro ⟨hcode, hn⟩ k hk
    rcases Nat.lt_succ_iff_lt_or_eq.mp hk with hk | rfl
    · rw [hbits k hk]
      exact hcode k hk
    · rw [hlast]
      exact hn

/-- The loop reads a word exactly if the table is within the windows of the word. -/
theorem readCode_eq_some_iff (hseparated : protocol.Separated) (n : Nat) {word : Nat} :
    protocol.readCode tab ((List.range n).map fun k => protocol.leader.length + 2 * k) =
        some word ↔
      word < 2 ^ n ∧ protocol.CodeWithin tab n word := by
  induction n generalizing word with
  | zero =>
      have hcode : protocol.CodeWithin tab 0 word := fun k hk => absurd hk (Nat.not_lt_zero k)
      rw [List.range_zero, List.map_nil, Nat.pow_zero, Nat.lt_one_iff, and_iff_left hcode]
      exact (Option.some.injEq 0 word).to_iff.trans eq_comm
  | succ n ih =>
      have hsplit : protocol.readCode tab
          ((List.range (n + 1)).map fun k => protocol.leader.length + 2 * k) =
          (protocol.readCode tab
            ((List.range n).map fun k => protocol.leader.length + 2 * k)).bind
          fun data => protocol.readBit tab data (protocol.leader.length + 2 * n) := by
        rw [List.range_succ, List.map_append, readCode, List.foldlM_append]
        simp [readCode]
      rw [hsplit, Option.bind_eq_some_iff]
      simp only [ih, readBit_eq_some_iff hseparated]
      constructor
      · rintro ⟨data, ⟨hlt, hcode⟩, hmark, bit, hspace, rfl⟩
        refine ⟨?_, codeWithin_bit.mpr ⟨hcode, hmark, hspace⟩⟩
        rw [Nat.bit_val, Nat.pow_succ]
        have hbit := Bool.toNat_le bit
        omega
      · rintro ⟨hlt, hcode⟩
        have hword : Nat.bit (word.testBit 0) (word >>> 1) = word :=
          Nat.bit_testBit_zero_shiftRight_one word
        rw [← hword] at hcode
        obtain ⟨hrest, hmark, hspace⟩ := codeWithin_bit.mp hcode
        refine ⟨word >>> 1, ⟨?_, hrest⟩, hmark, word.testBit 0, hspace, hword.symm⟩
        rw [Nat.shiftRight_one]
        rw [Nat.pow_succ] at hlt
        omega

/-! ## Writing -/

/-- The mask of the highest of `n` code bits, and no mask for none. -/
theorem toNat_mask {n : Nat} (hn : n ≤ 32) : (UInt32.ofNat (2 ^ n / 2)).toNat = 2 ^ n / 2 := by
  apply UInt32.toNat_ofNat_of_lt'
  have hle : 2 ^ n ≤ 2 ^ 32 := Nat.pow_le_pow_right (by decide) hn
  rw [UInt32.size]
  omega

theorem size_mask (n : Nat) : (2 ^ n / 2).size = n := by
  cases n with
  | zero => rfl
  | succ n => rw [Nat.pow_succ, Nat.mul_div_cancel _ (by decide), Nat.size_pow]

theorem size_shiftRight_one {mask : Nat} (hmask : mask ≠ 0) :
    mask.size = (mask >>> 1).size + 1 := by
  have hbit := Nat.bit_testBit_zero_shiftRight_one mask
  rw [← hbit] at hmask
  calc mask.size = (Nat.bit (mask.testBit 0) (mask >>> 1)).size := by rw [hbit]
    _ = (mask >>> 1).size + 1 := Nat.size_bit hmask

/-- The loop writes a mark and a space for each shift of the mask that is not zero. -/
theorem writeCode_mask (data : Nat) {fuel : Nat} {mask : UInt32} (hfuel : mask.toNat.size < fuel)
    (i : Nat) (tab : PulseTab) :
    protocol.writeCode data fuel mask i tab =
      (fun j => if i ≤ j ∧ j < i + 2 * mask.toNat.size then
          protocol.maskedCode data mask.toNat (j - i) else tab j,
        i + 2 * mask.toNat.size) := by
  induction fuel generalizing mask i tab with
  | zero => exact absurd hfuel (Nat.not_lt_zero _)
  | succ fuel ih =>
      rw [writeCode]
      by_cases hmask : mask = 0
      · rw [if_pos hmask, hmask, UInt32.toNat_zero, Nat.size_zero]
        refine Prod.ext ?_ rfl
        funext j
        have hempty : ¬(i ≤ j ∧ j < i + 2 * 0) := by omega
        exact (if_neg hempty).symm
      · have hzero : mask.toNat ≠ 0 := fun hzero => hmask (UInt32.toNat_inj.mp hzero)
        have hshift : (mask >>> 1).toNat = mask.toNat >>> 1 := UInt32.toNat_shiftRight mask 1
        have hsize := size_shiftRight_one hzero
        have hspace : (if data &&& mask.toNat ≠ 0 then protocol.logic1 else protocol.logic0) =
            protocol.space (decide (data &&& mask.toNat ≠ 0)) := by
          rw [space]
          by_cases hbit : data &&& mask.toNat ≠ 0
          · rw [if_pos hbit, decide_eq_true hbit]
            rfl
          · rw [if_neg hbit, decide_eq_false hbit]
            rfl
        rw [if_neg hmask]
        dsimp only
        rw [hspace, ih (by rw [hshift]; omega), hshift]
        refine Prod.ext ?_ (by dsimp only; omega)
        funext j
        dsimp only
        by_cases hfirst : j = i
        · subst hfirst
          rw [if_neg (by omega), Function.update_of_ne (by omega), Function.update_self,
            if_pos (by omega), maskedCode, if_pos (by omega)]
        · by_cases hsecond : j = i + 1
          · subst hsecond
            have hindex : (i + 1 - i) / 2 = 0 := by omega
            rw [if_neg (by omega), Function.update_self, if_pos (by omega), maskedCode,
              if_neg (by omega), hindex]
            rfl
          · rw [Function.update_of_ne hsecond, Function.update_of_ne hfirst]
            by_cases hrange : i + 2 ≤ j ∧ j < i + 2 + 2 * (mask.toNat >>> 1).size
            · have hmod : (j - (i + 2)) % 2 = (j - i) % 2 := by omega
              have hindex : 1 + (j - (i + 2)) / 2 = (j - i) / 2 := by omega
              rw [if_pos hrange, if_pos (by omega), maskedCode, maskedCode, hmod,
                ← Nat.shiftRight_add, hindex]
            · rw [if_neg hrange, if_neg (by omega)]

/-- The mask of the highest bit goes through the lowest `n` bits. -/
theorem maskedCode_eq (data : Nat) {n j : Nat} (hj : j < 2 * n) :
    protocol.maskedCode data (2 ^ n / 2) j = protocol.nominalCode n data j := by
  obtain ⟨n, rfl⟩ : ∃ m, n = m + 1 := ⟨n - 1, by omega⟩
  have hbit : (2 ^ (n + 1) / 2) >>> (j / 2) = 2 ^ (n + 1 - 1 - j / 2) := by
    rw [Nat.pow_succ, Nat.mul_div_cancel _ (by decide), Nat.shiftRight_eq_div_pow,
      Nat.pow_div (by omega) (by decide), Nat.add_sub_cancel]
  have htest : decide (data &&& 2 ^ (n + 1 - 1 - j / 2) ≠ 0) =
      data.testBit (n + 1 - 1 - j / 2) := by
    rw [Nat.and_two_pow]
    cases data.testBit (n + 1 - 1 - j / 2) with
    | false => simp
    | true => simp
  rw [maskedCode, nominalCode, hbit, htest]

/-- The loop writes a mark and a space for each of the lowest `n` bits. -/
theorem writeCode_eq (data : Nat) {n : Nat} (hn : n ≤ 32) {fuel : Nat} (hfuel : n < fuel)
    (i : Nat) (tab : PulseTab) :
    protocol.writeCode data fuel (UInt32.ofNat (2 ^ n / 2)) i tab =
      (fun j => if i ≤ j ∧ j < i + 2 * n then protocol.nominalCode n data (j - i) else tab j,
        i + 2 * n) := by
  have hmask := toNat_mask hn
  have hsize := size_mask n
  rw [writeCode_mask data (by rw [hmask, hsize]; exact hfuel), hmask, hsize]
  refine Prod.ext ?_ rfl
  funext j
  dsimp only
  by_cases hrange : i ≤ j ∧ j < i + 2 * n
  · rw [if_pos hrange, if_pos hrange, maskedCode_eq data (by omega)]
  · rw [if_neg hrange, if_neg hrange]

/-- The generator writes the nominal waveform. -/
theorem generateWave_eq (hcodeNum : protocol.codeNum ≤ 32) (word : Nat) (tab : PulseTab) :
    protocol.generateWave word (UInt32.ofNat (2 ^ protocol.codeNum / 2)) tab =
      protocol.nominalWave word tab := by
  rw [generateWave, writeCode_eq word hcodeNum (by omega)]
  funext i
  dsimp only
  rw [nominalWave]
  by_cases hstop : i = protocol.leader.length + 2 * protocol.codeNum
  · have heven : (i - protocol.leader.length) % 2 = 0 := by omega
    have hlast : i < protocol.tabLen := by rw [tabLen]; omega
    have hleader : ¬i < protocol.leader.length := by omega
    rw [dif_neg hleader, if_pos hlast, nominalCode, if_pos heven, hstop, Function.update_self]
  · rw [Function.update_of_ne hstop]
    by_cases hleader : i < protocol.leader.length
    · rw [if_neg (by omega), dif_pos hleader, dif_pos hleader]
    · rw [dif_neg hleader, dif_neg hleader]
      by_cases hlen : i < protocol.tabLen
      · rw [if_pos hlen, if_pos (by rw [tabLen] at hlen; omega)]
      · rw [if_neg hlen, if_neg (by rw [tabLen] at hlen; omega)]

/-! ## Recognising -/

/-- What a protocol needs for its recogniser to be exact. -/
structure Exact (protocol : PulseDistance) (mask : UInt32) : Prop where
  separated : protocol.Separated
  codeNum : protocol.codeNum ≤ 32
  mask : mask = UInt32.ofNat (2 ^ protocol.codeNum / 2)

section Recognise

variable {mask : UInt32} {tabLen : UInt16}

theorem recognise_of_within (hexact : protocol.Exact mask) (hlen : tabLen.toNat = protocol.tabLen)
    {word : Nat} (hword : word < 2 ^ protocol.codeNum) (hwithin : protocol.Within tab word) :
    protocol.recognise mask tab tabLen = (true, protocol.nominalWave word tab) := by
  have hread := (readCode_eq_some_iff hexact.separated protocol.codeNum).mpr ⟨hword, hwithin.2⟩
  rw [recognise, if_neg (not_not.mpr hlen), if_neg (not_not.mpr hwithin.1), positions, hread]
  dsimp only
  rw [hexact.mask, generateWave_eq hexact.codeNum]

/-- An accepted table was within the windows of exactly one word. -/
theorem existsUnique_of_recognise (hexact : protocol.Exact mask)
    (haccepted : (protocol.recognise mask tab tabLen).1 = true) :
    ∃! word, word < 2 ^ protocol.codeNum ∧ protocol.Within tab word := by
  rw [recognise] at haccepted
  split_ifs at haccepted with hlen hleader
  cases hread : protocol.readCode tab protocol.positions with
  | none => simp [hread] at haccepted
  | some word =>
      have hcode := (readCode_eq_some_iff hexact.separated protocol.codeNum).mp hread
      refine ⟨word, ⟨hcode.1, hleader, hcode.2⟩, ?_⟩
      rintro other ⟨hlt, -, hother⟩
      have hsame :=
        (readCode_eq_some_iff hexact.separated protocol.codeNum).mpr ⟨hlt, hother⟩
      rw [positions, hsame] at hread
      exact Option.some.inj hread

theorem recognise_of_length_ne (hlen : tabLen.toNat ≠ protocol.tabLen) :
    protocol.recognise mask tab tabLen = (false, tab) := by
  rw [recognise, if_pos hlen]

theorem recognise_of_leader (hleader : ¬protocol.LeaderOk tab) :
    protocol.recognise mask tab tabLen = (false, tab) := by
  rw [recognise]
  split
  next => rfl
  next => rfl

end Recognise

end PulseDistance

theorem nec_exact : nec.Exact ((1 : UInt32) <<< 31) := ⟨by decide, by decide, by decide⟩

theorem p9012_exact : p9012.Exact ((1 : UInt32) <<< 31) := ⟨by decide, by decide, by decide⟩

theorem p50462_exact : p50462.Exact ((1 : UInt32) <<< 15) := ⟨by decide, by decide, by decide⟩

variable {tab : PulseTab} {word : Nat}

/-- The leaders of NEC and 9012 differ in their first mark. -/
theorem not_nec_leader (hwithin : p9012.Within tab word) : ¬nec.LeaderOk tab := by
  intro hleader
  have hnec := (hleader 0 (by decide)).1
  have h9012 := (hwithin.1 0 (by decide)).2
  have hgap : valEspR 4500 ≤ valEspL 9000 := by decide
  exact absurd (Nat.lt_of_lt_of_le h9012 hgap) (Nat.not_lt.mpr (Nat.le_of_lt hnec))

theorem p50462_first_lt (hwithin : p50462.Within tab word) : (tab 0).toNat < 312 :=
  (hwithin.2 0 (by decide)).1.2

/-- The first mark of a 50462 table is shorter than any half bit of RC5. -/
theorem p50462_not_rc5 (hwithin : p50462.Within tab word) (tabLen : UInt16) :
    isRc5Protocol tab tabLen = some false := by
  have hfirst := p50462_first_lt hwithin
  have hwindow : ∀ units, 675 ≤ valEspL units → ¬InWindow units (tab 0) := by
    intro units hunits hin
    have hlow := hin.1
    omega
  have hunits : pulseUnits (tab 0) rc5Com = none := by
    rw [pulseUnits, if_neg (hwindow _ (by decide)), if_neg (hwindow _ (by decide)),
      if_neg (hwindow _ (by decide))]
  have hlevel : getPulseLevel tab rc5Com {} = (none, {}) := by
    rw [getPulseLevel]
    have hzero : tab (PulseCursor.offset {}).toNat = tab 0 := rfl
    rw [hzero, hunits]
  rw [isRc5Protocol, hlevel]
  split
  next => rfl
  next => rfl

/-- It is also shorter than the leader of RC6. -/
theorem p50462_not_rc6 (hwithin : p50462.Within tab word) (tabLen : UInt16) :
    isRc6Protocol tab tabLen = some false := by
  have hfirst := p50462_first_lt hwithin
  have hwindow : ¬InWindow rc6Ldc0 (tab 0) := by
    rintro ⟨hlow, -⟩
    have hnominal : valEspL rc6Ldc0 = 2132 := by decide
    omega
  rw [isRc6Protocol]
  split
  next => rfl
  next => rfl

/-- Recognition of the pulse-distance protocols is exact. A table within the windows of a
code word is accepted as this protocol, by no recogniser before, and becomes the nominal
waveform of the word; and an accepted table was within the windows of exactly one word. -/
theorem pulse_distance_recognition (mask41 : UInt32) (tab : PulseTab) :
    (∀ word < 2 ^ 32, nec.Within tab word →
      isNecWave tab 67 = (true, nec.nominalWave word tab) ∧
        checkIrcWave mask41 tab 67 = some (.success, nec.nominalWave word tab)) ∧
    (∀ word < 2 ^ 32, p9012.Within tab word →
      isNecWave tab 67 = (false, tab) ∧
        is9012Protocol tab 67 = (true, p9012.nominalWave word tab) ∧
        checkIrcWave mask41 tab 67 = some (.success, p9012.nominalWave word tab)) ∧
    (∀ word < 2 ^ 16, p50462.Within tab word →
      isNecWave tab 33 = (false, tab) ∧ is9012Protocol tab 33 = (false, tab) ∧
        isRc5Protocol tab 33 = some false ∧ isRc6Protocol tab 33 = some false ∧
        is7461Protocol mask41 tab 33 = (false, tab) ∧ is50560Protocol tab 33 = false ∧
        is50462Protocol tab 33 = (true, p50462.nominalWave word tab) ∧
        checkIrcWave mask41 tab 33 = some (.success, p50462.nominalWave word tab)) ∧
    ∀ tabLen,
      ((isNecWave tab tabLen).1 = true → ∃! word, word < 2 ^ 32 ∧ nec.Within tab word) ∧
      ((is9012Protocol tab tabLen).1 = true → ∃! word, word < 2 ^ 32 ∧ p9012.Within tab word) ∧
      ((is50462Protocol tab tabLen).1 = true →
        ∃! word, word < 2 ^ 16 ∧ p50462.Within tab word) := by
  refine ⟨?_, ?_, ?_, ?_⟩
  · intro word hword hwithin
    have hnec : isNecWave tab 67 = (true, nec.nominalWave word tab) :=
      PulseDistance.recognise_of_within nec_exact (by decide) hword hwithin
    refine ⟨hnec, ?_⟩
    rw [checkIrcWave, hnec]
    rfl
  · intro word hword hwithin
    have hnec : isNecWave tab 67 = (false, tab) :=
      PulseDistance.recognise_of_leader (not_nec_leader hwithin)
    have h9012 : is9012Protocol tab 67 = (true, p9012.nominalWave word tab) :=
      PulseDistance.recognise_of_within p9012_exact (by decide) hword hwithin
    refine ⟨hnec, h9012, ?_⟩
    rw [checkIrcWave, hnec]
    simp only [h9012]
    rfl
  · intro word hword hwithin
    have hnec : isNecWave tab 33 = (false, tab) :=
      PulseDistance.recognise_of_length_ne (by decide)
    have h9012 : is9012Protocol tab 33 = (false, tab) :=
      PulseDistance.recognise_of_length_ne (by decide)
    have h7461 : is7461Protocol mask41 tab 33 = (false, tab) :=
      PulseDistance.recognise_of_length_ne (by decide)
    have h50560 : is50560Protocol tab 33 = false := by
      rw [is50560Protocol, if_pos (by decide)]
    have h50462 : is50462Protocol tab 33 = (true, p50462.nominalWave word tab) :=
      PulseDistance.recognise_of_within p50462_exact (by decide) hword hwithin
    have hrc5 := p50462_not_rc5 hwithin 33
    have hrc6 := p50462_not_rc6 hwithin 33
    refine ⟨hnec, h9012, hrc5, hrc6, h7461, h50560, h50462, ?_⟩
    rw [checkIrcWave, hnec]
    simp only [h9012, hrc5, hrc6, h7461, h50560, h50462]
    rfl
  · intro tabLen
    exact ⟨PulseDistance.existsUnique_of_recognise nec_exact,
      PulseDistance.existsUnique_of_recognise p9012_exact,
      PulseDistance.existsUnique_of_recognise p50462_exact⟩

/-- A table whose marks are all 41 too long and whose stop burst is missing. -/
def slowNecTab : PulseTab := fun i =>
  if i = 66 then 0 else if i % 2 = 0 then nec.nominalWave 0x00FF02FD (fun _ => 0) i + 41
  else nec.nominalWave 0x00FF02FD (fun _ => 0) i

theorem pulse_distance_recognition_slow_nec :
    nec.Within slowNecTab 0x00FF02FD ∧
      checkIrcWave 0 slowNecTab 67 = some (.success, nec.nominalWave 0x00FF02FD slowNecTab) := by
  have hwithin : nec.Within slowNecTab 0x00FF02FD := by decide
  have hword : 0x00FF02FD < 2 ^ 32 := by decide
  exact ⟨hwithin, ((pulse_distance_recognition 0 slowNecTab).1 _ hword hwithin).2⟩

end CubieBle.Hal
