import CubieBle.Hal.BiPhase
import Mathlib.Data.List.DropRight

/-! # RC6 frames

An RC6 frame begins with a leader and a start bit, and its fourth bit has halves of double
width. The recogniser looks at the end of the table only before the first half of a bit, so a
table that ends inside a bit is decided by the entry behind it.
-/

namespace CubieBle.Hal

open Machine

/-! ## Frames -/

/-- A one is a carrier and a space. -/
def bitHalves (bit : Bool) : List PulseLevel :=
  if bit then [.carrier, .space] else [.space, .carrier]

def doubleBitHalves (bit : Bool) : List PulseLevel :=
  if bit then [.carrier, .carrier, .space, .space] else [.space, .space, .carrier, .carrier]

/-- The halves of a frame behind its leader: the start bit and the bits, the fourth of which is
of double width. -/
def rc6Halves (bits : List Bool) : List PulseLevel :=
  bitHalves true ++ (bits.take 3).flatMap bitHalves ++
    ((bits.drop 3).take 1).flatMap doubleBitHalves ++ (bits.drop 4).flatMap bitHalves

/-- The widths of the captured entries behind the leader are in windows. -/
def Rc6Windows (tab : PulseTab) (tabLen : Nat) : Prop :=
  ∀ offset, 2 ≤ offset → offset < tabLen → InWindow rc6Com (tab offset) ∨
    InWindow (rc6Com * 2) (tab offset) ∨ InWindow (rc6Com * 3) (tab offset)

/-- The halves of the captured entries behind the leader. -/
def rc6HalfBits (tab : PulseTab) (tabLen : Nat) : List PulseLevel :=
  halfBits tab rc6Com 2 (tabLen - 2)

/-- The captured pulses are a frame, the last half of which may be missing. -/
structure Rc6Captured (tab : PulseTab) (tabLen : Nat) : Prop where
  len : rc6CodeNum ≤ tabLen
  leader : InWindow rc6Ldc0 (tab 0) ∧ InWindow rc6Ldc1 (tab 1)
  windows : Rc6Windows tab tabLen
  halves : ∃ bits pad, padPairs pad (rc6HalfBits tab tabLen) = rc6Halves bits

/-- The captured pulses are a frame without its last half. -/
def EndsInBit (tab : PulseTab) (tabLen : Nat) : Prop :=
  Rc6Captured tab tabLen ∧ (rc6HalfBits tab tabLen).length % 2 = 1

/-- A width that stands for one, two or three halves. -/
def Readable (width : UInt16) : Prop := (pulseUnits width rc6Com).isSome

/-! ## The recogniser -/

/-- A bit, and then what is accepted. -/
def PairThen (accepts : List (Option PulseLevel) → Prop) (read : List (Option PulseLevel)) : Prop :=
  ∃ first second rest, read = some first :: some second :: rest ∧ first ≠ second ∧ accepts rest

/-- A bit of double width, and then what is accepted. -/
def DoublePairThen (accepts : List (Option PulseLevel) → Prop) (read : List (Option PulseLevel)) :
    Prop :=
  ∃ first second rest, read = some first :: some first :: some second :: some second :: rest ∧
    first ≠ second ∧ accepts rest

/-- Bits to the end of the table; a half that is left over needs the entry behind it. -/
def BitsThen (readable : Prop) (read : List (Option PulseLevel)) : Prop :=
  (∃ pad, ReadsPairs pad read) ∧ (read.length % 2 = 1 → readable)

section Loop

variable {tab : PulseTab} {tabLen : UInt16} {cursor : PulseCursor} {i : UInt8} {fuel : Nat}

theorem rc6Half_single (hi : i ≠ 3) :
    rc6Half tab i cursor = some (getPulseLevel tab rc6Com cursor) := by
  rw [rc6Half]
  dsimp only
  rw [if_neg hi]

/-- A round that reads both of its halves inside the table. -/
theorem rc6Loop_pair (htab : tabLen.toNat ≤ 100) (hi : i ≠ 3)
    (hfits : cursor.Fits tab rc6Com tabLen.toNat) (hinside : cursor.offset.toNat < tabLen.toNat)
    (hinsideA : (getPulseLevel tab rc6Com cursor).2.offset.toNat < tabLen.toNat)
    {accepts : List (Option PulseLevel) → Prop}
    (hrest : ∀ next : PulseCursor, next.Fits tab rc6Com tabLen.toNat →
      next.offset.toNat ≤ cursor.offset.toNat + 2 →
      (next.remaining tab rc6Com tabLen.toNat).length + 2 =
        (cursor.remaining tab rc6Com tabLen.toNat).length →
        (rc6Loop tab tabLen fuel (i + 1) next = some true ↔
          accepts (next.remaining tab rc6Com tabLen.toNat))) :
    rc6Loop tab tabLen (fuel + 1) i cursor = some true ↔
      PairThen accepts (cursor.remaining tab rc6Com tabLen.toNat) := by
  obtain ⟨rest, hremaining, hnext⟩ := getPulseLevel_remaining hfits htab hinside
  rw [rc6Loop, if_pos (toUInt16_lt_iff.mpr hinside), rc6Half_single hi, hremaining]
  dsimp only
  rw [rc6Half_single hi]
  dsimp only
  rcases hlevelA : getPulseLevel tab rc6Com cursor with ⟨_ | levelA, cursorA⟩
  · refine iff_of_false (fun htrue => Bool.noConfusion (Option.some.inj htrue)) ?_
    rintro ⟨_, _, _, ⟨⟩, -⟩
  rw [hlevelA] at hnext hinsideA hremaining
  obtain ⟨hrestA, hfitsA, hoffsetA⟩ := hnext (Option.some_ne_none levelA)
  dsimp only at hrestA hfitsA hoffsetA hinsideA hremaining ⊢
  obtain ⟨restB, hremainingB, hnextB⟩ := getPulseLevel_remaining hfitsA htab hinsideA
  rw [hrestA] at hremainingB
  rw [hremainingB]
  rcases hlevelB : getPulseLevel tab rc6Com cursorA with ⟨_ | levelB, cursorB⟩
  · rw [isBiphase_none_right]
    refine iff_of_false (fun htrue => Bool.noConfusion (Option.some.inj htrue)) ?_
    rintro ⟨_, _, _, ⟨⟩, -⟩
  rw [hlevelB] at hnextB hremainingB
  obtain ⟨hrestB, hfitsB, hoffsetB⟩ := hnextB (Option.some_ne_none levelB)
  dsimp only at hrestB hfitsB hoffsetB hremainingB ⊢
  split
  next hbiphase =>
    rw [hrest cursorB hfitsB (by omega) (by rw [hremaining, hremainingB, hrestB]; rfl), hrestB]
    constructor
    · exact fun haccepts => ⟨levelA, levelB, restB, rfl, isBiphase_some_iff.mp hbiphase, haccepts⟩
    · rintro ⟨_, _, _, ⟨⟩, -, haccepts⟩
      exact haccepts
  next hequal =>
    refine iff_of_false (by decide) ?_
    rintro ⟨_, _, _, ⟨⟩, hne, -⟩
    exact hequal (isBiphase_some_iff.mpr hne)

theorem bitsThen_singleton (readable : Prop) (level : PulseLevel) :
    BitsThen readable [some level] ↔ readable := by
  have hpad : ∃ pad, ReadsPairs pad [some level] := by
    cases level with
    | space => exact ⟨.carrier, readsPairs_singleton.mpr (by decide)⟩
    | carrier => exact ⟨.space, readsPairs_singleton.mpr (by decide)⟩
  constructor
  · exact fun hbits => hbits.2 rfl
  · exact fun hreadable => ⟨hpad, fun _ => hreadable⟩

theorem not_bitsThen_of_none {readable : Prop} {read : List (Option PulseLevel)}
    (hnone : none ∈ read) : ¬BitsThen readable read := by
  rintro ⟨⟨pad, hpairs⟩, -⟩
  exact not_readsPairs_of_none hnone hpairs

theorem pairThen_bitsThen_iff {readable : Prop} {first second : Option PulseLevel}
    {rest : List (Option PulseLevel)} :
    PairThen (BitsThen readable) (first :: second :: rest) ↔
      BitsThen readable (first :: second :: rest) := by
  have hlength : (first :: second :: rest).length % 2 = rest.length % 2 :=
    Nat.add_mod_right rest.length 2
  constructor
  · rintro ⟨firstLevel, secondLevel, _, ⟨⟩, hne, ⟨pad, hpairs⟩, hodd⟩
    exact ⟨⟨pad, readsPairs_cons_cons.mpr ⟨hne, hpairs⟩⟩,
      fun hlen => hodd (hlength.symm.trans hlen)⟩
  · intro hbits
    rcases first with _ | first
    · exact absurd hbits (not_bitsThen_of_none List.mem_cons_self)
    rcases second with _ | second
    · exact absurd hbits (not_bitsThen_of_none (List.mem_cons_of_mem _ List.mem_cons_self))
    obtain ⟨⟨pad, hpairs⟩, hodd⟩ := hbits
    obtain ⟨hne, hpairs⟩ := readsPairs_cons_cons.mp hpairs
    exact ⟨first, second, rest, rfl, hne, ⟨pad, hpairs⟩, fun hlen => hodd (hlength.trans hlen)⟩

/-- A read that reaches the end of the table uses the last entry up. -/
theorem getPulseLevel_to_end {limit : Nat} (hlimit : limit ≤ 100)
    (hinside : cursor.offset.toNat < limit)
    (hend : ¬(getPulseLevel tab rc6Com cursor).2.offset.toNat < limit) :
    cursor.offset.toNat + 1 = limit ∧
      getPulseLevel tab rc6Com cursor =
        (some (levelAt cursor.offset.toNat), ⟨cursor.offset + 1, 0⟩) := by
  have hmove : (cursor.offset + 1).toNat = cursor.offset.toNat + 1 := uint8_toNat_succ (by omega)
  rw [getPulseLevel] at hend ⊢
  cases hunits : pulseUnits (tab cursor.offset.toNat) rc6Com with
  | none =>
      rw [hunits] at hend
      exact absurd hinside hend
  | some len =>
      rw [hunits] at hend
      dsimp only at hend ⊢
      split at hend
      next hlast =>
        rw [if_pos hlast, levelAt_of_offset]
        rw [hmove] at hend
        exact ⟨by omega, rfl⟩
      next => exact absurd hinside hend

theorem levelAt_succ_ne (offset : Nat) : levelAt offset ≠ levelAt (offset + 1) := by
  rw [levelAt, levelAt]
  rcases Nat.mod_two_eq_zero_or_one offset with heven | hodd
  · rw [if_pos heven, if_neg (by omega)]
    decide
  · rw [if_neg (by omega), if_pos (by omega)]
    decide

/-- The half behind the end of the table is a level if the entry there is readable. -/
theorem isBiphase_behind (htab : tabLen.toNat ≤ 100)
    (hend : cursor.offset.toNat + 1 = tabLen.toNat) :
    isBiphase (some (levelAt cursor.offset.toNat))
        (getPulseLevel tab rc6Com ⟨cursor.offset + 1, 0⟩).1 = true ↔
      Readable (tab tabLen.toNat) := by
  have hmove : (cursor.offset + 1).toNat = cursor.offset.toNat + 1 := uint8_toNat_succ (by omega)
  rw [getPulseLevel, Readable, hmove, hend]
  cases pulseUnits (tab tabLen.toNat) rc6Com with
  | none =>
      dsimp only
      rw [isBiphase_none_right]
      exact iff_of_false Bool.false_ne_true Bool.false_ne_true
  | some len =>
      dsimp only
      rw [levelAt_of_offset, hmove]
      exact iff_of_true (isBiphase_some_iff.mpr (levelAt_succ_ne _)) rfl

theorem offset_getPulseLevel_ge (tab : PulseTab) (com : Nat) (cursor : PulseCursor)
    (hoffset : cursor.offset.toNat < 255) :
    cursor.offset.toNat ≤ (getPulseLevel tab com cursor).2.offset.toNat := by
  rw [getPulseLevel]
  cases pulseUnits (tab cursor.offset.toNat) com with
  | none => exact Nat.le_refl _
  | some len =>
      dsimp only
      split
      · exact (Nat.le_succ _).trans (Nat.le_of_eq (uint8_toNat_succ hoffset).symm)
      · exact Nat.le_refl _

/-- Behind the bit of double width, the loop takes bits until the table ends. -/
theorem rc6Loop_bits (htab : tabLen.toNat ≤ 100) (hi : 4 ≤ i.toNat)
    (hfits : cursor.Fits tab rc6Com tabLen.toNat)
    (hwrap : 2 * i.toNat + (cursor.remaining tab rc6Com tabLen.toNat).length < 510)
    (hfuel : (cursor.remaining tab rc6Com tabLen.toNat).length < fuel) :
    rc6Loop tab tabLen fuel i cursor = some true ↔
      BitsThen (Readable (tab tabLen.toNat)) (cursor.remaining tab rc6Com tabLen.toNat) := by
  induction fuel generalizing i cursor with
  | zero => exact absurd hfuel (Nat.not_lt_zero _)
  | succ fuel ih =>
      have hthird : i ≠ 3 := by
        rintro rfl
        exact absurd hi (by decide)
      by_cases hinside : cursor.offset.toNat < tabLen.toNat
      case neg =>
        have hend : cursor.offset.toNat = tabLen.toNat :=
          Nat.le_antisymm hfits.offset (Nat.le_of_not_lt hinside)
        rw [rc6Loop, if_neg (mt toUInt16_lt_iff.mp hinside), remaining_of_end hend]
        exact iff_of_true rfl
          ⟨⟨.space, readsPairs_nil _⟩, fun hodd => absurd hodd (by decide)⟩
      by_cases hinsideA : (getPulseLevel tab rc6Com cursor).2.offset.toNat < tabLen.toNat
      · have hsucc : (i + 1).toNat = i.toNat + 1 := uint8_toNat_succ (by omega)
        rw [rc6Loop_pair htab hthird hfits hinside hinsideA fun next hnext _ hlength =>
          ih (by omega) hnext (by omega) (by omega)]
        obtain ⟨rest, hremaining, hnext⟩ := getPulseLevel_remaining hfits htab hinside
        rw [hremaining]
        by_cases hlevel : (getPulseLevel tab rc6Com cursor).1 = none
        · rw [hlevel]
          refine iff_of_false ?_ (not_bitsThen_of_none List.mem_cons_self)
          rintro ⟨_, _, _, ⟨⟩, -⟩
        · obtain ⟨hrest, hfitsA, -⟩ := hnext hlevel
          obtain ⟨restB, hremainingB, -⟩ := getPulseLevel_remaining hfitsA htab hinsideA
          rw [← hrest, hremainingB]
          exact pairThen_bitsThen_iff
      · obtain ⟨hend, hlevelA⟩ := getPulseLevel_to_end htab hinside hinsideA
        obtain ⟨rest, hremaining, hnext⟩ := getPulseLevel_remaining hfits htab hinside
        have hmove : (cursor.offset + 1).toNat = tabLen.toNat :=
          (uint8_toNat_succ (by omega)).trans hend
        rw [hlevelA] at hremaining hnext
        have hlast : rest = [] :=
          (hnext (Option.some_ne_none _)).1.symm.trans (remaining_of_end hmove)
        have hdone : rc6Loop tab tabLen fuel (i + 1)
            (getPulseLevel tab rc6Com ⟨cursor.offset + 1, 0⟩).2 = some true := by
          obtain ⟨left, rfl⟩ : ∃ left, fuel = left + 1 := by
            rw [hremaining, List.length_cons] at hfuel
            exact ⟨fuel - 1, by omega⟩
          have hbehind := offset_getPulseLevel_ge tab rc6Com ⟨cursor.offset + 1, 0⟩
            (Nat.lt_of_le_of_lt (hmove.trans_le htab) (by decide))
          rw [rc6Loop, if_neg]
          intro hlt
          have hlt := toUInt16_lt_iff.mp hlt
          exact absurd (hmove ▸ hbehind) (Nat.not_le.mpr hlt)
        rw [hremaining, hlast, bitsThen_singleton, ← isBiphase_behind htab hend, rc6Loop,
          if_pos (toUInt16_lt_iff.mpr hinside), rc6Half_single hthird, hlevelA]
        dsimp only
        rw [rc6Half_single hthird]
        dsimp only
        split
        next hbiphase => exact iff_of_true hdone hbiphase
        next hequal => exact iff_of_false (by decide) hequal

/-- A width outside the windows leaves the cursor where it is. -/
theorem cursor_of_none {com : Nat} {next : PulseCursor}
    (hnone : getPulseLevel tab com cursor = (none, next)) : next = cursor := by
  rw [getPulseLevel] at hnone
  cases hunits : pulseUnits (tab cursor.offset.toNat) com with
  | none =>
      rw [hunits] at hnone
      exact (Prod.mk.inj hnone).2.symm
  | some len =>
      rw [hunits] at hnone
      exact absurd (Prod.mk.inj hnone).1 (Option.some_ne_none _)

/-- A half of double width inside the table: two halves of one level, or none. -/
theorem rc6Half_double {limit : Nat} (hlimit : limit ≤ 100)
    (hfits : cursor.Fits tab rc6Com limit) (hinside : cursor.offset.toNat + 1 < limit) :
    (∃ level next, rc6Half tab 3 cursor = some (some level, next) ∧
        cursor.remaining tab rc6Com limit =
          some level :: some level :: next.remaining tab rc6Com limit ∧
        next.Fits tab rc6Com limit ∧ next.offset.toNat ≤ cursor.offset.toNat + 2) ∨
      ((rc6Half tab 3 cursor = none ∨ ∃ next, rc6Half tab 3 cursor = some (none, next)) ∧
        ∀ level rest, cursor.remaining tab rc6Com limit ≠ some level :: some level :: rest) := by
  obtain ⟨rest, hremaining, hnext⟩ := getPulseLevel_remaining hfits hlimit (by omega)
  rw [rc6Half, hremaining]
  dsimp only
  rw [if_pos rfl]
  rcases hlevelA : getPulseLevel tab rc6Com cursor with ⟨_ | levelA, cursorA⟩
  · right
    obtain rfl : cursorA = cursor := cursor_of_none hlevelA
    dsimp only
    rw [hlevelA, if_neg (not_not.mpr rfl)]
    refine ⟨.inr ⟨_, rfl⟩, ?_⟩
    rintro level rest hcons
    exact Option.some_ne_none level (List.cons.inj hcons).1.symm
  · rw [hlevelA] at hnext
    obtain ⟨hrestA, hfitsA, hoffsetA⟩ := hnext (Option.some_ne_none levelA)
    dsimp only at hrestA hfitsA hoffsetA ⊢
    obtain ⟨restB, hremainingB, hnextB⟩ :=
      getPulseLevel_remaining hfitsA hlimit (Nat.lt_of_le_of_lt hoffsetA hinside)
    rw [← hrestA, hremainingB]
    by_cases hsame : some levelA = (getPulseLevel tab rc6Com cursorA).1
    · left
      obtain ⟨hrestB, hfitsB, hoffsetB⟩ := hnextB (hsame ▸ Option.some_ne_none levelA)
      rw [if_neg (not_not.mpr hsame), ← hsame, ← hrestB]
      exact ⟨levelA, _, rfl, rfl, hfitsB, by omega⟩
    · right
      rw [if_pos hsame]
      refine ⟨.inl rfl, ?_⟩
      rintro level rest hcons
      obtain ⟨hfirst, hcons⟩ := List.cons.inj hcons
      exact hsame (hfirst.trans (List.cons.inj hcons).1.symm)

/-- The round of the bit of double width, inside the table. -/
theorem rc6Loop_double (htab : tabLen.toNat ≤ 100)
    (hfits : cursor.Fits tab rc6Com tabLen.toNat)
    (hinside : cursor.offset.toNat + 3 < tabLen.toNat)
    {accepts : List (Option PulseLevel) → Prop}
    (hrest : ∀ next : PulseCursor, next.Fits tab rc6Com tabLen.toNat →
      (next.remaining tab rc6Com tabLen.toNat).length + 4 =
        (cursor.remaining tab rc6Com tabLen.toNat).length →
        (rc6Loop tab tabLen fuel 4 next = some true ↔
          accepts (next.remaining tab rc6Com tabLen.toNat))) :
    rc6Loop tab tabLen (fuel + 1) 3 cursor = some true ↔
      DoublePairThen accepts (cursor.remaining tab rc6Com tabLen.toNat) := by
  have hstart : cursor.offset.toUInt16 < tabLen := toUInt16_lt_iff.mpr (by omega)
  rw [rc6Loop, if_pos hstart]
  obtain ⟨levelA, cursorA, hhalfA, hremainingA, hfitsA, hoffsetA⟩ | ⟨hhalfA, hotherA⟩ :=
    rc6Half_double htab hfits (by omega)
  case inr =>
    refine iff_of_false ?_ ?_
    · obtain hhalfA | ⟨next, hhalfA⟩ := hhalfA
      · rw [hhalfA]
        exact fun htrue => Bool.noConfusion (Option.some.inj htrue)
      · rw [hhalfA]
        dsimp only
        cases rc6Half tab 3 next with
        | none => exact fun htrue => Bool.noConfusion (Option.some.inj htrue)
        | some halfB => exact fun htrue => Bool.noConfusion (Option.some.inj htrue)
    · rintro ⟨first, second, rest, heq, -⟩
      exact hotherA first _ heq
  rw [hhalfA, hremainingA]
  dsimp only
  obtain ⟨levelB, cursorB, hhalfB, hremainingB, hfitsB, -⟩ | ⟨hhalfB, hotherB⟩ :=
    rc6Half_double htab hfitsA (by omega)
  case inr =>
    refine iff_of_false ?_ ?_
    · obtain hhalfB | ⟨next, hhalfB⟩ := hhalfB
      · rw [hhalfB]
        exact fun htrue => Bool.noConfusion (Option.some.inj htrue)
      · rw [hhalfB]
        dsimp only
        rw [isBiphase_none_right]
        exact fun htrue => Bool.noConfusion (Option.some.inj htrue)
    · rintro ⟨first, second, rest, heq, -⟩
      exact hotherB second rest (List.cons.inj (List.cons.inj heq).2).2
  rw [hhalfB, hremainingB]
  dsimp only
  split
  next hbiphase =>
    have haccepts := hrest cursorB hfitsB (by rw [hremainingA, hremainingB]; rfl)
    refine haccepts.trans ⟨fun htail => ?_, ?_⟩
    · exact ⟨levelA, levelB, _, rfl, isBiphase_some_iff.mp hbiphase, htail⟩
    · rintro ⟨_, _, _, ⟨⟩, -, htail⟩
      exact htail
  next hequal =>
    refine iff_of_false (by decide) ?_
    rintro ⟨_, _, _, ⟨⟩, hne, -⟩
    exact hequal (isBiphase_some_iff.mpr hne)

/-- A round before the bit of double width. -/
theorem rc6Loop_first (htab : tabLen.toNat ≤ 100) (hi : i ≠ 3)
    (hfits : cursor.Fits tab rc6Com tabLen.toNat)
    (hinside : cursor.offset.toNat + 1 < tabLen.toNat)
    {accepts : List (Option PulseLevel) → Prop}
    (hrest : ∀ next : PulseCursor, next.Fits tab rc6Com tabLen.toNat →
      next.offset.toNat ≤ cursor.offset.toNat + 2 →
      (next.remaining tab rc6Com tabLen.toNat).length + 2 =
        (cursor.remaining tab rc6Com tabLen.toNat).length →
        (rc6Loop tab tabLen fuel (i + 1) next = some true ↔
          accepts (next.remaining tab rc6Com tabLen.toNat))) :
    rc6Loop tab tabLen (fuel + 1) i cursor = some true ↔
      PairThen accepts (cursor.remaining tab rc6Com tabLen.toNat) :=
  rc6Loop_pair htab hi hfits (by omega)
    (Nat.lt_of_le_of_lt (offset_getPulseLevel_le tab rc6Com cursor (by omega)) hinside) hrest

end Loop

theorem isRc6Protocol_eq (tab : PulseTab) (tabLen : UInt16) :
    isRc6Protocol tab tabLen =
      if tabLen.toNat < rc6CodeNum then some false
      else if ¬InWindow rc6Ldc0 (tab 0) then some false
      else if ¬InWindow rc6Ldc1 (tab 1) then some false
      else expectLevel tab rc6Com .carrier
        (expectLevel tab rc6Com .space (rc6Loop tab tabLen (pulseRounds tabLen) 0))
        { offset := 2 } := rfl

theorem isRc6Protocol_iff_halves {tab : PulseTab} {tabLen : UInt16}
    (htab : tabLen.toNat ≤ 100) :
    isRc6Protocol tab tabLen = some true ↔
      rc6CodeNum ≤ tabLen.toNat ∧ (InWindow rc6Ldc0 (tab 0) ∧ InWindow rc6Ldc1 (tab 1)) ∧
        StartsWith .carrier
          (StartsWith .space
            (PairThen (PairThen (PairThen
              (DoublePairThen (BitsThen (Readable (tab tabLen.toNat))))))))
          (halves tab rc6Com 2 (tabLen.toNat - 2)) := by
  rw [isRc6Protocol_eq]
  by_cases hshort : tabLen.toNat < rc6CodeNum
  case pos =>
    rw [if_pos hshort]
    exact iff_of_false (by decide) fun hlen => absurd hlen.1 (Nat.not_le.mpr hshort)
  rw [if_neg hshort, and_iff_right (Nat.le_of_not_lt hshort)]
  by_cases hldc0 : InWindow rc6Ldc0 (tab 0)
  case neg =>
    rw [if_pos hldc0]
    exact iff_of_false (by decide) fun hleader => hldc0 hleader.1.1
  rw [if_neg (not_not.mpr hldc0)]
  by_cases hldc1 : InWindow rc6Ldc1 (tab 1)
  case neg =>
    rw [if_pos hldc1]
    exact iff_of_false (by decide) fun hleader => hldc1 hleader.1.2
  rw [if_neg (not_not.mpr hldc1), and_iff_right ⟨hldc0, hldc1⟩]
  have hlong : 15 ≤ tabLen.toNat := Nat.le_of_not_lt hshort
  have hrounds : pulseRounds tabLen = 3 * tabLen.toNat - 3 + 1 + 1 + 1 + 1 := by
    rw [pulseRounds]
    omega
  have hlength := length_halves_le tab rc6Com 2 (tabLen.toNat - 2)
  have hoffset : (PulseCursor.offset { offset := 2 }).toNat = 2 := rfl
  have hfourth : (4 : UInt8).toNat = 4 := rfl
  have hstart : PulseCursor.Fits { offset := 2 } tab rc6Com tabLen.toNat :=
    ⟨by omega, .inl rfl⟩
  have hall : PulseCursor.remaining { offset := 2 } tab rc6Com tabLen.toNat =
      halves tab rc6Com 2 (tabLen.toNat - 2) := rfl
  rw [← hall] at hlength ⊢
  rw [hrounds]
  exact expectLevel_iff hstart htab (by omega) .carrier fun cursorA hfitsA hoffsetA hlengthA =>
    expectLevel_iff hfitsA htab (by omega) .space fun cursorB hfitsB hoffsetB hlengthB =>
      rc6Loop_first htab (by decide) hfitsB (by omega) fun cursor0 hfits0 hoffset0 hlength0 =>
        rc6Loop_first htab (by decide) hfits0 (by omega) fun cursor1 hfits1 hoffset1 hlength1 =>
          rc6Loop_first htab (by decide) hfits1 (by omega) fun cursor2 hfits2 hoffset2 hlength2 =>
            rc6Loop_double htab hfits2 (by omega) fun cursor3 hfits3 hlength3 =>
              rc6Loop_bits htab (by decide) hfits3 (by omega) (by omega)

/-! ## Halves and bits -/

theorem bitHalves_eq (bit : Bool) :
    ∃ first second, bitHalves bit = [first, second] ∧
      doubleBitHalves bit = [first, first, second, second] ∧ first ≠ second := by
  cases bit with
  | false => exact ⟨.space, .carrier, rfl, rfl, by decide⟩
  | true => exact ⟨.carrier, .space, rfl, rfl, by decide⟩

/-- Two different levels are the halves of a bit. -/
theorem exists_bitHalves {first second : PulseLevel} (hne : first ≠ second) :
    ∃ bit, bitHalves bit = [first, second] ∧
      doubleBitHalves bit = [first, first, second, second] := by
  cases first with
  | space =>
      cases second with
      | space => exact absurd rfl hne
      | carrier => exact ⟨false, rfl, rfl⟩
  | carrier =>
      cases second with
      | space => exact ⟨true, rfl, rfl⟩
      | carrier => exact absurd rfl hne

@[simp] theorem length_bitHalves (bit : Bool) : (bitHalves bit).length = 2 := by
  cases bit with
  | false => rfl
  | true => rfl

@[simp] theorem length_doubleBitHalves (bit : Bool) : (doubleBitHalves bit).length = 4 := by
  cases bit with
  | false => rfl
  | true => rfl

/-- Pairs of unequal halves are bits. -/
theorem unequalPairs_iff {levels : List PulseLevel} :
    UnequalPairs levels ↔ ∃ bits : List Bool, levels = bits.flatMap bitHalves := by
  constructor
  · intro hpairs
    induction levels using UnequalPairs.induct with
    | case1 => exact ⟨[], rfl⟩
    | case2 level => exact absurd hpairs not_false
    | case3 first second rest ih =>
        obtain ⟨hne, hpairs⟩ := hpairs
        obtain ⟨bit, hbit, -⟩ := exists_bitHalves hne
        obtain ⟨bits, rfl⟩ := ih hpairs
        exact ⟨bit :: bits, by rw [List.flatMap_cons, hbit]; rfl⟩
  · rintro ⟨bits, rfl⟩
    induction bits with
    | nil => trivial
    | cons bit bits ih =>
        obtain ⟨first, second, hbit, -, hne⟩ := bitHalves_eq bit
        rw [List.flatMap_cons, hbit]
        exact ⟨hne, ih⟩

theorem pairThen_iff {accepts : List (Option PulseLevel) → Prop}
    {read : List (Option PulseLevel)} :
    PairThen accepts read ↔
      ∃ bit rest, read = (bitHalves bit).map some ++ rest ∧ accepts rest := by
  constructor
  · rintro ⟨first, second, rest, rfl, hne, haccepts⟩
    obtain ⟨bit, hbit, -⟩ := exists_bitHalves hne
    exact ⟨bit, rest, by rw [hbit]; rfl, haccepts⟩
  · rintro ⟨bit, rest, rfl, haccepts⟩
    obtain ⟨first, second, hbit, -, hne⟩ := bitHalves_eq bit
    exact ⟨first, second, rest, by rw [hbit]; rfl, hne, haccepts⟩

theorem doublePairThen_iff {accepts : List (Option PulseLevel) → Prop}
    {read : List (Option PulseLevel)} :
    DoublePairThen accepts read ↔
      ∃ bit rest, read = (doubleBitHalves bit).map some ++ rest ∧ accepts rest := by
  constructor
  · rintro ⟨first, second, rest, rfl, hne, haccepts⟩
    obtain ⟨bit, -, hbit⟩ := exists_bitHalves hne
    exact ⟨bit, rest, by rw [hbit]; rfl, haccepts⟩
  · rintro ⟨bit, rest, rfl, haccepts⟩
    obtain ⟨first, second, -, hbit, hne⟩ := bitHalves_eq bit
    exact ⟨first, second, rest, by rw [hbit]; rfl, hne, haccepts⟩

/-- The halves of the start bit and the first four bits. -/
def rc6Front (bit0 bit1 bit2 bit3 : Bool) : List PulseLevel :=
  bitHalves true ++ (bitHalves bit0 ++ (bitHalves bit1 ++ (bitHalves bit2 ++ doubleBitHalves bit3)))

theorem rc6Halves_cons (bit0 bit1 bit2 bit3 : Bool) (bits : List Bool) :
    rc6Halves (bit0 :: bit1 :: bit2 :: bit3 :: bits) =
      rc6Front bit0 bit1 bit2 bit3 ++ bits.flatMap bitHalves := by
  simp [rc6Halves, rc6Front]

theorem length_rc6Front (bit0 bit1 bit2 bit3 : Bool) :
    (rc6Front bit0 bit1 bit2 bit3).length = 12 := by
  simp [rc6Front]

theorem reads_rc6Front_iff {accepts : List (Option PulseLevel) → Prop}
    {read : List (Option PulseLevel)} :
    StartsWith .carrier
        (StartsWith .space (PairThen (PairThen (PairThen (DoublePairThen accepts))))) read ↔
      ∃ bit0 bit1 bit2 bit3 rest, read = (rc6Front bit0 bit1 bit2 bit3).map some ++ rest ∧
        accepts rest := by
  constructor
  · rintro ⟨_, rfl, _, rfl, hstart⟩
    obtain ⟨bit0, _, rfl, hread0⟩ := pairThen_iff.mp hstart
    obtain ⟨bit1, _, rfl, hread1⟩ := pairThen_iff.mp hread0
    obtain ⟨bit2, _, rfl, hread2⟩ := pairThen_iff.mp hread1
    obtain ⟨bit3, rest, rfl, haccepts⟩ := doublePairThen_iff.mp hread2
    refine ⟨bit0, bit1, bit2, bit3, rest, ?_, haccepts⟩
    simp only [rc6Front, List.map_append, List.append_assoc]
    rfl
  · rintro ⟨bit0, bit1, bit2, bit3, rest, rfl, haccepts⟩
    simp only [rc6Front, List.map_append, List.append_assoc]
    exact ⟨_, rfl, _, rfl, pairThen_iff.mpr ⟨bit0, _, rfl, pairThen_iff.mpr ⟨bit1, _, rfl,
      pairThen_iff.mpr ⟨bit2, _, rfl, doublePairThen_iff.mpr ⟨bit3, rest, rfl, haccepts⟩⟩⟩⟩⟩

/-- A frame of thirteen halves has at least four bits. -/
theorem exists_four_bits {bits : List Bool} (hlen : 13 ≤ (rc6Halves bits).length) :
    ∃ bit0 bit1 bit2 bit3 rest, bits = bit0 :: bit1 :: bit2 :: bit3 :: rest := by
  rcases bits with _ | ⟨bit0, _ | ⟨bit1, _ | ⟨bit2, _ | ⟨bit3, rest⟩⟩⟩⟩
  · exact absurd hlen (by decide)
  · exact absurd hlen (by simp [rc6Halves])
  · exact absurd hlen (by simp [rc6Halves])
  · exact absurd hlen (by simp [rc6Halves])
  · exact ⟨bit0, bit1, bit2, bit3, rest, rfl⟩

section Captured

variable {tab : PulseTab} {tabLen : UInt16}

theorem rc6Windows_iff {len : Nat} (hlen : rc6CodeNum ≤ len) :
    Rc6Windows tab len ↔
      ∀ entry ∈ List.range' 2 (len - 2), (pulseUnits (tab entry) rc6Com).isSome := by
  have hlen : 15 ≤ len := hlen
  constructor
  · intro hwindows entry hentry
    rw [List.mem_range'_1] at hentry
    exact pulseUnits_isSome_iff.mpr (hwindows entry hentry.1 (by omega))
  · intro hwindows entry hfirst hlast
    exact pulseUnits_isSome_iff.mp (hwindows entry (List.mem_range'_1.mpr ⟨hfirst, by omega⟩))

/-- A frame, the last half of which may be missing, is what the recogniser has to read. -/
theorem reads_of_captured {readable : Prop} (hcaptured : Rc6Captured tab tabLen.toNat)
    (hodd : (rc6HalfBits tab tabLen.toNat).length % 2 = 1 → readable) :
    StartsWith .carrier
      (StartsWith .space
        (PairThen (PairThen (PairThen (DoublePairThen (BitsThen readable))))))
      (halves tab rc6Com 2 (tabLen.toNat - 2)) := by
  have hwindows := (rc6Windows_iff hcaptured.len).mp hcaptured.windows
  have hlong : 15 ≤ tabLen.toNat := hcaptured.len
  have hthirteen : 13 ≤ (rc6HalfBits tab tabLen.toNat).length :=
    (by omega : 13 ≤ tabLen.toNat - 2).trans (le_length_halfBits hwindows)
  obtain ⟨bits, pad, hpad⟩ := hcaptured.halves
  obtain ⟨bit0, bit1, bit2, bit3, rest, rfl⟩ := exists_four_bits
    (hpad ▸ hthirteen.trans (length_le_padPairs pad (rc6HalfBits tab tabLen.toNat)))
  rw [halves_eq_map_some_iff.mpr ⟨hwindows, rfl⟩, ← rc6HalfBits]
  generalize rc6HalfBits tab tabLen.toNat = levels at *
  -- The front is even, so the pad is at the end of what follows it.
  have hfront : (levels.take 12).length = 12 := by
    rw [List.length_take]
    omega
  rw [← List.take_append_drop 12 levels, padPairs_append pad (by rw [hfront]), rc6Halves_cons]
    at hpad
  obtain ⟨htake, hdrop⟩ := List.append_inj hpad (by rw [hfront, length_rc6Front])
  refine reads_rc6Front_iff.mpr
    ⟨bit0, bit1, bit2, bit3, (levels.drop 12).map some, ?_, ⟨pad, _, rfl, ?_⟩, ?_⟩
  · rw [← htake, ← List.map_append, List.take_append_drop]
  · exact unequalPairs_iff.mpr ⟨rest, hdrop⟩
  · rw [List.length_map, List.length_drop]
    exact fun hlen => hodd (by omega)

theorem captured_of_reads {readable : Prop} (hlen : rc6CodeNum ≤ tabLen.toNat)
    (hleader : InWindow rc6Ldc0 (tab 0) ∧ InWindow rc6Ldc1 (tab 1))
    (hreads : StartsWith .carrier
      (StartsWith .space
        (PairThen (PairThen (PairThen (DoublePairThen (BitsThen readable))))))
      (halves tab rc6Com 2 (tabLen.toNat - 2))) :
    Rc6Captured tab tabLen.toNat ∧
      ((rc6HalfBits tab tabLen.toNat).length % 2 = 1 → readable) := by
  obtain ⟨bit0, bit1, bit2, bit3, _, hread, ⟨pad, levels, rfl, hpairs⟩, hodd⟩ :=
    reads_rc6Front_iff.mp hreads
  obtain ⟨bits, hbits⟩ := unequalPairs_iff.mp hpairs
  rw [← List.map_append] at hread
  obtain ⟨hwindows, hlevels⟩ := halves_eq_map_some_iff.mp hread
  have hlevels : rc6HalfBits tab tabLen.toNat = rc6Front bit0 bit1 bit2 bit3 ++ levels := hlevels
  have hfront := length_rc6Front bit0 bit1 bit2 bit3
  refine ⟨⟨hlen, hleader, (rc6Windows_iff hlen).mpr hwindows,
    bit0 :: bit1 :: bit2 :: bit3 :: bits, pad, ?_⟩, ?_⟩
  · rw [hlevels, padPairs_append pad (by rw [hfront]), hbits, rc6Halves_cons]
  · rw [hlevels, List.length_append, hfront]
    rw [List.length_map] at hodd
    exact fun hparity => hodd (by omega)

/-- The recogniser accepts the captured frames, and those without their last half if it can read
the entry behind them. -/
theorem isRc6Protocol_iff_captured (htab : tabLen.toNat ≤ 100) :
    isRc6Protocol tab tabLen = some true ↔
      Rc6Captured tab tabLen.toNat ∧
        ((rc6HalfBits tab tabLen.toNat).length % 2 = 1 → Readable (tab tabLen.toNat)) := by
  rw [isRc6Protocol_iff_halves htab]
  constructor
  · rintro ⟨hlen, hleader, hreads⟩
    exact captured_of_reads hlen hleader hreads
  · rintro ⟨hcaptured, hodd⟩
    exact ⟨hcaptured.len, hcaptured.leader, reads_of_captured hcaptured hodd⟩

end Captured

/-! ## Two tables, and waveforms -/

/-- The captured pulses are the waveform of a frame, in which a space at the end is not seen. -/
structure Rc6Waveform (tab : PulseTab) (tabLen : Nat) (bits : List Bool) : Prop where
  leader : InWindow rc6Ldc0 (tab 0) ∧ InWindow rc6Ldc1 (tab 1)
  windows : Rc6Windows tab tabLen
  halves : rc6HalfBits tab tabLen = (rc6Halves bits).rdropWhile (· = .space)

section Waveform

variable {tab tab' : PulseTab} {tabLen : UInt16} {bits : List Bool}

theorem rc6HalfBits_congr {len : Nat} (hagree : ∀ i < len, tab i = tab' i) (hlen : 2 ≤ len) :
    rc6HalfBits tab len = rc6HalfBits tab' len := by
  rw [rc6HalfBits, rc6HalfBits, halfBits, halfBits]
  apply List.flatMap_congr
  intro entry hentry
  rw [List.mem_range'_1] at hentry
  rw [hagree entry (by omega)]

theorem Rc6Captured.congr {len : Nat} (hagree : ∀ i < len, tab i = tab' i)
    (hcaptured : Rc6Captured tab len) : Rc6Captured tab' len := by
  have hlong : 15 ≤ len := hcaptured.len
  refine ⟨hcaptured.len, ?_, ?_, ?_⟩
  · rw [← hagree 0 (by omega), ← hagree 1 (by omega)]
    exact hcaptured.leader
  · intro offset hfirst hlast
    rw [← hagree offset hlast]
    exact hcaptured.windows offset hfirst hlast
  · rw [← rc6HalfBits_congr hagree (by omega)]
    exact hcaptured.halves

/-- The verdicts on two tables with the same pulses differ only in what is read behind them. -/
theorem isRc6Protocol_congr_iff (htab : tabLen.toNat ≤ 100)
    (hagree : ∀ i < tabLen.toNat, tab i = tab' i) :
    isRc6Protocol tab tabLen = isRc6Protocol tab' tabLen ↔
      ¬EndsInBit tab tabLen.toNat ∨
        (Readable (tab tabLen.toNat) ↔ Readable (tab' tabLen.toNat)) := by
  have hverdicts : isRc6Protocol tab tabLen = isRc6Protocol tab' tabLen ↔
      (isRc6Protocol tab tabLen = some true ↔ isRc6Protocol tab' tabLen = some true) := by
    obtain ⟨verdict, hverdict⟩ := Option.isSome_iff_exists.mp (isSome_isRc6Protocol tab htab)
    obtain ⟨verdict', hverdict'⟩ := Option.isSome_iff_exists.mp (isSome_isRc6Protocol tab' htab)
    rw [hverdict, hverdict', Option.some_inj, Option.some_inj, Option.some_inj]
    exact Bool.eq_iff_iff
  have hcaptured : Rc6Captured tab tabLen.toNat ↔ Rc6Captured tab' tabLen.toNat :=
    ⟨Rc6Captured.congr hagree, Rc6Captured.congr fun i hi => (hagree i hi).symm⟩
  rw [hverdicts, isRc6Protocol_iff_captured htab, isRc6Protocol_iff_captured htab, ← hcaptured,
    EndsInBit]
  by_cases hall : Rc6Captured tab tabLen.toNat
  · have hlong : 15 ≤ tabLen.toNat := hall.len
    rw [← rc6HalfBits_congr hagree (by omega), and_iff_right hall, and_iff_right hall,
      and_iff_right hall]
    by_cases hends : (rc6HalfBits tab tabLen.toNat).length % 2 = 1
    · rw [imp_iff_right hends, imp_iff_right hends]
      exact ⟨.inr, fun hsame => hsame.resolve_left (not_not.mpr hends)⟩
    · exact iff_of_true (iff_of_true (fun hend => (hends hend).elim)
        fun hend => (hends hend).elim) (.inl hends)
  · have hneither : ∀ readable : Prop, ¬(Rc6Captured tab tabLen.toNat ∧ readable) :=
      fun readable hboth => hall hboth.1
    exact iff_of_true (iff_of_false (hneither _) (hneither _)) (.inl (hneither _))

theorem length_flatMap_bitHalves (bits : List Bool) :
    (bits.flatMap bitHalves).length = 2 * bits.length := by
  induction bits with
  | nil => rfl
  | cons bit bits ih =>
      rw [List.flatMap_cons, List.length_append, length_bitHalves, ih, List.length_cons]
      omega

/-- Only the space of a one is dropped. -/
theorem rdropWhile_bitHalves (front : List PulseLevel) (bit : Bool) :
    (front ++ bitHalves bit).rdropWhile (· = .space) =
      if bit then front ++ [.carrier] else front ++ bitHalves bit := by
  cases bit with
  | false =>
      have hlast : front ++ bitHalves false = front ++ [.space] ++ [.carrier] := by
        rw [List.append_assoc]
        rfl
      rw [hlast, List.rdropWhile_concat_neg _ _ _ (by decide)]
      rfl
  | true =>
      have hlast : front ++ bitHalves true = front ++ [.carrier] ++ [.space] := by
        rw [List.append_assoc]
        rfl
      rw [hlast, List.rdropWhile_concat_pos _ _ _ (by decide),
        List.rdropWhile_concat_neg _ _ _ (by decide)]
      rfl

/-- A captured waveform ends with its last bit or, if that is a one, with the carrier of it. -/
theorem Rc6Waveform.ends (hwaveform : Rc6Waveform tab tabLen.toNat bits)
    (hlen : rc6CodeNum ≤ tabLen.toNat) :
    ∃ front last, bits.getLast? = some last ∧ rc6Halves bits = front ++ bitHalves last ∧
      front.length % 2 = 0 ∧
      rc6HalfBits tab tabLen.toNat =
        if last then front ++ [.carrier] else front ++ bitHalves last := by
  have hlong : 15 ≤ tabLen.toNat := hlen
  have hthirteen : 13 ≤ (rc6Halves bits).length := by
    have hcount := le_length_halfBits ((rc6Windows_iff hlen).mp hwaveform.windows)
    have hprefix := (List.rdropWhile_prefix (· = .space) (rc6Halves bits)).length_le
    rw [← hwaveform.halves, rc6HalfBits] at hprefix
    omega
  obtain ⟨bit0, bit1, bit2, bit3, rest, rfl⟩ := exists_four_bits hthirteen
  rw [rc6Halves_cons, List.length_append, length_rc6Front, length_flatMap_bitHalves] at hthirteen
  obtain rfl | ⟨init, last, rfl⟩ := rest.eq_nil_or_concat'
  · exact absurd hthirteen (by decide)
  have hhalves : rc6Halves (bit0 :: bit1 :: bit2 :: bit3 :: (init ++ [last])) =
      rc6Front bit0 bit1 bit2 bit3 ++ init.flatMap bitHalves ++ bitHalves last := by
    rw [rc6Halves_cons, List.flatMap_append, List.flatMap_singleton, List.append_assoc]
  have hlast : (bit0 :: bit1 :: bit2 :: bit3 :: init ++ [last]).getLast? = some last :=
    List.getLast?_concat
  refine ⟨rc6Front bit0 bit1 bit2 bit3 ++ init.flatMap bitHalves, last, hlast, hhalves, ?_, ?_⟩
  · rw [List.length_append, length_rc6Front, length_flatMap_bitHalves]
    omega
  · rw [hwaveform.halves, hhalves, rdropWhile_bitHalves]

/-- A waveform of the least length is accepted if its last bit is a zero, or the entry behind it
can be read. -/
theorem Rc6Waveform.accepted_iff (hwaveform : Rc6Waveform tab tabLen.toNat bits)
    (htab : tabLen.toNat ≤ 100) (hlen : rc6CodeNum ≤ tabLen.toNat) :
    isRc6Protocol tab tabLen = some true ↔
      bits.getLast? = some false ∨ Readable (tab tabLen.toNat) := by
  obtain ⟨front, last, hlast, hhalves, heven, hcaptured⟩ := hwaveform.ends hlen
  have hframe : ∀ pad, padPairs pad (rc6HalfBits tab tabLen.toNat) = rc6Halves bits →
      Rc6Captured tab tabLen.toNat := fun pad hpad =>
    ⟨hlen, hwaveform.leader, hwaveform.windows, bits, pad, hpad⟩
  rw [isRc6Protocol_iff_captured htab, hlast, Option.some_inj]
  cases last with
  | false =>
      have hcaptured : rc6HalfBits tab tabLen.toNat = front ++ bitHalves false := hcaptured
      have hparity : (rc6HalfBits tab tabLen.toNat).length % 2 = 0 := by
        rw [hcaptured, List.length_append, length_bitHalves]
        omega
      refine iff_of_true ⟨hframe .space ?_, fun hodd => ?_⟩ (.inl rfl)
      · rw [hcaptured, padPairs_append _ heven, hhalves]
        rfl
      · exact absurd (hparity.symm.trans hodd) (by decide)
  | true =>
      have hcaptured : rc6HalfBits tab tabLen.toNat = front ++ [.carrier] := hcaptured
      have hparity : (rc6HalfBits tab tabLen.toNat).length % 2 = 1 := by
        rw [hcaptured, List.length_append, List.length_singleton]
        omega
      have hpad : padPairs .space (rc6HalfBits tab tabLen.toNat) = rc6Halves bits := by
        rw [hcaptured, padPairs_append _ heven, hhalves]
        rfl
      constructor
      · exact fun haccepted => .inr (haccepted.2 hparity)
      · rintro (hfalse | hreadable)
        · exact absurd hfalse (by decide)
        · exact ⟨hframe .space hpad, fun _ => hreadable⟩

end Waveform

/-- The captured pulses decide about RC6 unless they end inside a bit, and a waveform is accepted
unless its last bit is a one behind which nothing can be read. -/
theorem isRc6Protocol_decided_iff (tab tab' : PulseTab) (tabLen : UInt16) (bits : List Bool)
    (htab : tabLen.toNat ≤ maxPulseLen) :
    ((∀ i < tabLen.toNat, tab i = tab' i) →
      (isRc6Protocol tab tabLen = isRc6Protocol tab' tabLen ↔
        ¬EndsInBit tab tabLen.toNat ∨
          (Readable (tab tabLen.toNat) ↔ Readable (tab' tabLen.toNat)))) ∧
    (Rc6Waveform tab tabLen.toNat bits → rc6CodeNum ≤ tabLen.toNat →
      (isRc6Protocol tab tabLen = some true ↔
        bits.getLast? = some false ∨ Readable (tab tabLen.toNat))) :=
  ⟨isRc6Protocol_congr_iff htab, fun hwaveform => hwaveform.accepted_iff htab⟩

/-- A frame of six ones: its last space is not captured, and what stands behind the fifteen
pulses is left from another capture. -/
def onesTab (leftover : UInt16) : PulseTab := fun i =>
  [2666, 889, 444, 444, 444, 444, 444, 444, 444, 444, 888, 888, 444, 444, 444].getD i leftover

theorem isRc6Protocol_decided_iff_ones :
    (isRc6Protocol (onesTab 444) 15 = isRc6Protocol (onesTab 0) 15 ↔
      ¬EndsInBit (onesTab 444) 15 ∨
        (Readable (onesTab 444 15) ↔ Readable (onesTab 0 15))) ∧
    (isRc6Protocol (onesTab 444) 15 = some true ↔
      (List.replicate 6 true).getLast? = some false ∨ Readable (onesTab 444 15)) := by
  obtain ⟨hcongr, haccepted⟩ := isRc6Protocol_decided_iff (onesTab 444) (onesTab 0) 15
    (List.replicate 6 true) (by decide)
  refine ⟨hcongr (by decide), haccepted ⟨by decide, ?_, by decide⟩ (by decide)⟩
  intro offset hfirst hlast
  revert offset
  decide

/-- The same fifteen pulses of a frame are accepted or not by what stands behind them. -/
theorem leftover_decides :
    (∀ i < 15, onesTab 444 i = onesTab 0 i) ∧
      Rc6Waveform (onesTab 0) 15 (List.replicate 6 true) ∧
      isRc6Protocol (onesTab 444) 15 = some true ∧ isRc6Protocol (onesTab 0) 15 = some false := by
  refine ⟨by decide, ⟨by decide, ?_, by decide⟩, by decide, by decide⟩
  intro offset hfirst hlast
  revert offset
  decide

end CubieBle.Hal
