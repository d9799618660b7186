import CubieBle.Hal.IrcLearning
import CubieBle.Machine.BiPhase
import CubieBle.Machine.Bytes

/-! # Bi-phase frames

Each width of a bi-phase frame stands for one, two or three halves of bits, carriers at the even
entries and spaces at the odd ones. The cursor of the recognisers reads them half by half, and
the recogniser of RC5 takes the table for a frame exactly if what it reads is one.
-/

namespace CubieBle.Hal

open Machine

/-- Carriers and spaces take turns. -/
def levelAt (offset : Nat) : PulseLevel := if offset % 2 = 0 then .carrier else .space

/-- The run of halves that an entry stands for. -/
def runAt (tab : PulseTab) (com offset : Nat) : Option (Nat × PulseLevel) :=
  (pulseUnits (tab offset) com).map fun len => (len.toNat, levelAt offset)

/-- The halves of `count` entries from `offset` on. -/
def halves (tab : PulseTab) (com offset count : Nat) : List (Option PulseLevel) :=
  units ((List.range' offset count).map (runAt tab com))

/-- The level of each of these entries, repeated so many times. -/
def halfBits (tab : PulseTab) (com offset count : Nat) : List PulseLevel :=
  (List.range' offset count).flatMap fun entry =>
    List.replicate ((pulseUnits (tab entry) com).elim 0 UInt8.toNat) (levelAt entry)

namespace PulseCursor

/-- The halves that a cursor has before it in a table of `tabLen` entries. -/
def remaining (cursor : PulseCursor) (tab : PulseTab) (com tabLen : Nat) :
    List (Option PulseLevel) :=
  (halves tab com cursor.offset.toNat (tabLen - cursor.offset.toNat)).drop cursor.usedLen.toNat

/-- A cursor within a table, which has not used up its entry. -/
structure Fits (cursor : PulseCursor) (tab : PulseTab) (com tabLen : Nat) : Prop where
  offset : cursor.offset.toNat ≤ tabLen
  usedLen : cursor.usedLen = 0 ∨
    ∃ len, pulseUnits (tab cursor.offset.toNat) com = some len ∧ cursor.usedLen < len

end PulseCursor

/-- A check of the recognisers: the next level is a certain one, and then the rest is read. -/
def expectLevel (tab : PulseTab) (com : Nat) (level : PulseLevel)
    (readRest : PulseCursor → Option Bool) (cursor : PulseCursor) : Option Bool :=
  if (getPulseLevel tab com cursor).1 ≠ some level then some false
  else readRest (getPulseLevel tab com cursor).2

/-- The first of the halves is this level, and the others are accepted. -/
def StartsWith (level : PulseLevel) (accepts : List (Option PulseLevel) → Prop)
    (read : List (Option PulseLevel)) : Prop :=
  ∃ rest, read = some level :: rest ∧ accepts rest

section Reading

variable {tab : PulseTab} {com tabLen : Nat} {cursor : PulseCursor}

theorem pulseUnits_pos {width : UInt16} {len : UInt8} (hlen : pulseUnits width com = some len) :
    0 < len.toNat := by
  rw [pulseUnits] at hlen
  split_ifs at hlen
  all_goals
    cases hlen
    decide

theorem halves_succ (tab : PulseTab) (com offset count : Nat) :
    halves tab com offset (count + 1) =
      runUnits (runAt tab com offset) ++ halves tab com (offset + 1) count := by
  rw [halves, List.range'_succ, List.map_cons, units_cons, halves]

/-- The halves are all levels exactly if every width is in a window. -/
theorem halves_eq_map_some_iff {offset count : Nat} {levels : List PulseLevel} :
    halves tab com offset count = levels.map some ↔
      (∀ entry ∈ List.range' offset count, (pulseUnits (tab entry) com).isSome) ∧
        halfBits tab com offset count = levels := by
  have hread : (∀ entry ∈ List.range' offset count, (pulseUnits (tab entry) com).isSome) →
      halves tab com offset count = (halfBits tab com offset count).map some := by
    intro hwindows
    have hruns : (List.range' offset count).map (runAt tab com) =
        ((List.range' offset count).map fun entry =>
          ((pulseUnits (tab entry) com).elim 0 UInt8.toNat, levelAt entry)).map some := by
      rw [List.map_map]
      apply List.map_congr_left
      intro entry hentry
      obtain ⟨len, hlen⟩ := Option.isSome_iff_exists.mp (hwindows entry hentry)
      rw [runAt, Function.comp_apply, hlen]
      rfl
    rw [halves, hruns, units_map_some, List.flatMap_map]
    rfl
  constructor
  · intro hlevels
    have hnone : none ∉ halves tab com offset count := by
      rw [hlevels]
      exact none_not_mem_map_some levels
    have hwindows : ∀ entry ∈ List.range' offset count, (pulseUnits (tab entry) com).isSome := by
      intro entry hentry
      have hrun := none_not_mem_units.mp hnone _ (List.mem_map_of_mem hentry)
      rw [runAt, ne_eq, Option.map_eq_none_iff] at hrun
      exact Option.isSome_iff_ne_none.mpr hrun
    rw [hread hwindows] at hlevels
    exact ⟨hwindows, List.map_injective_iff.mpr (Option.some_injective _) hlevels⟩
  · rintro ⟨hwindows, rfl⟩
    exact hread hwindows

theorem length_halves_le (tab : PulseTab) (com offset count : Nat) :
    (halves tab com offset count).length ≤ 3 * count := by
  have hrun : ∀ entry, (runUnits (runAt tab com entry)).length ≤ 3 := by
    intro entry
    rw [runAt]
    cases hlen : pulseUnits (tab entry) com with
    | none => exact Nat.succ_le_succ (Nat.zero_le 2)
    | some len =>
        rw [Option.map_some, runUnits, List.length_replicate]
        exact pulseUnits_le hlen
  induction count generalizing offset with
  | zero => exact Nat.le_refl _
  | succ count ih =>
      rw [halves_succ, List.length_append]
      have hfirst := hrun offset
      have hrest := ih (offset + 1)
      omega

/-- Every width in a window stands for a half at least. -/
theorem le_length_halfBits {offset count : Nat}
    (hwindows : ∀ entry ∈ List.range' offset count, (pulseUnits (tab entry) com).isSome) :
    count ≤ (halfBits tab com offset count).length := by
  induction count generalizing offset with
  | zero => exact Nat.zero_le _
  | succ count ih =>
      rw [List.range'_succ] at hwindows
      obtain ⟨len, hlen⟩ := Option.isSome_iff_exists.mp (hwindows offset List.mem_cons_self)
      have hpos := pulseUnits_pos hlen
      have hrest := ih fun entry hentry => hwindows entry (List.mem_cons_of_mem _ hentry)
      rw [halfBits, List.range'_succ, List.flatMap_cons, List.length_append, List.length_replicate,
        hlen]
      exact Nat.add_comm count 1 ▸ Nat.add_le_add hpos hrest

/-- At the end of the table nothing is left. -/
theorem remaining_of_end (hend : cursor.offset.toNat = tabLen) :
    cursor.remaining tab com tabLen = [] := by
  rw [PulseCursor.remaining, hend, Nat.sub_self, halves, List.range'_zero, List.map_nil, units_nil,
    List.drop_nil]

theorem levelAt_of_offset (offset : UInt8) :
    (if offset % 2 ≠ 0 then PulseLevel.space else .carrier) = levelAt offset.toNat := by
  have hmod : (offset % 2 = 0) ↔ offset.toNat % 2 = 0 := by
    rw [← UInt8.toNat_inj, UInt8.toNat_mod]
    rfl
  rw [levelAt]
  by_cases hzero : offset % 2 = 0
  · rw [if_neg (not_not.mpr hzero), if_pos (hmod.mp hzero)]
  · rw [if_pos hzero, if_neg (mt hmod.mpr hzero)]

/-- Reading a level inside the table takes the first of the halves that are left. -/
theorem getPulseLevel_remaining (hfits : cursor.Fits tab com tabLen) (htab : tabLen ≤ 100)
    (hinside : cursor.offset.toNat < tabLen) :
    ∃ rest, cursor.remaining tab com tabLen = (getPulseLevel tab com cursor).1 :: rest ∧
      ((getPulseLevel tab com cursor).1 ≠ none →
        (getPulseLevel tab com cursor).2.remaining tab com tabLen = rest ∧
          (getPulseLevel tab com cursor).2.Fits tab com tabLen ∧
          (getPulseLevel tab com cursor).2.offset.toNat ≤ cursor.offset.toNat + 1) := by
  obtain ⟨count, hcount⟩ : ∃ count, tabLen - cursor.offset.toNat = count + 1 :=
    ⟨tabLen - cursor.offset.toNat - 1, by omega⟩
  have hnext : tabLen - (cursor.offset.toNat + 1) = count := by omega
  have hstart : cursor.remaining tab com tabLen =
      (runUnits (runAt tab com cursor.offset.toNat) ++
        halves tab com (cursor.offset.toNat + 1) count).drop cursor.usedLen.toNat := by
    rw [PulseCursor.remaining, hcount, halves_succ]
  rw [getPulseLevel]
  cases hunits : pulseUnits (tab cursor.offset.toNat) com with
  | none =>
      have hused : cursor.usedLen = 0 := by
        rcases hfits.usedLen with hused | ⟨len, hlen, -⟩
        · exact hused
        · exact absurd (hunits.symm.trans hlen) (Option.some_ne_none len).symm
      refine ⟨halves tab com (cursor.offset.toNat + 1) count, ?_, fun hlevel => absurd rfl hlevel⟩
      rw [hstart, runAt, hunits, hused]
      rfl
  | some len =>
      have hpos := pulseUnits_pos hunits
      have hle := pulseUnits_le hunits
      have hused : cursor.usedLen.toNat < len.toNat := by
        rcases hfits.usedLen with hused | ⟨_, hlen, hused⟩
        · rw [hused]
          exact hpos
        · cases hunits.symm.trans hlen
          exact UInt8.lt_iff_toNat_lt.mp hused
      have hsucc : (cursor.usedLen + 1).toNat = cursor.usedLen.toNat + 1 :=
        uint8_toNat_succ (by omega)
      have hmove : (cursor.offset + 1).toNat = cursor.offset.toNat + 1 :=
        uint8_toNat_succ (by omega)
      have hread := drop_units_cons (levelAt cursor.offset.toNat)
        ((List.range' (cursor.offset.toNat + 1) count).map (runAt tab com)) hused
      have hremaining : cursor.remaining tab com tabLen =
          (units (some (len.toNat, levelAt cursor.offset.toNat) ::
            (List.range' (cursor.offset.toNat + 1) count).map (runAt tab com))).drop
              cursor.usedLen.toNat := by
        rw [hstart, units_cons, runAt, hunits, Option.map_some, halves]
      dsimp only
      rw [levelAt_of_offset, hremaining, hread]
      refine ⟨_, rfl, fun _ => ?_⟩
      by_cases hlast : len ≤ cursor.usedLen + 1
      · have hlastNat := UInt8.le_iff_toNat_le.mp hlast
        rw [hsucc] at hlastNat
        rw [if_pos hlast, if_pos hlastNat]
        refine ⟨?_, ⟨hmove.trans_le hinside, .inl rfl⟩, Nat.le_of_eq hmove⟩
        rw [PulseCursor.remaining, hmove, hnext]
        rfl
      · have hlastNat := mt UInt8.le_iff_toNat_le.mpr hlast
        rw [hsucc] at hlastNat
        rw [if_neg hlast, if_neg hlastNat]
        refine ⟨?_, ⟨hfits.offset, .inr ⟨len, hunits, UInt8.not_le.mp hlast⟩⟩, Nat.le_succ _⟩
        rw [PulseCursor.remaining, hcount, halves_succ, runAt, hunits, hsucc, units_cons]
        rfl

/-- A width is in a window exactly if it stands for so many halves. -/
theorem pulseUnits_isSome_iff {width : UInt16} :
    (pulseUnits width com).isSome ↔
      InWindow com width ∨ InWindow (com * 2) width ∨ InWindow (com * 3) width := by
  rw [pulseUnits]
  split_ifs with hone htwo hthree
  · exact iff_of_true rfl (.inl hone)
  · exact iff_of_true rfl (.inr (.inl htwo))
  · exact iff_of_true rfl (.inr (.inr hthree))
  · refine iff_of_false Bool.false_ne_true ?_
    rintro (hwindow | hwindow | hwindow)
    · exact hone hwindow
    · exact htwo hwindow
    · exact hthree hwindow

theorem isBiphase_some_iff {levelA levelB : PulseLevel} :
    isBiphase (some levelA) (some levelB) = true ↔ levelA ≠ levelB := by
  cases levelA with
  | space => cases levelB <;> decide
  | carrier => cases levelB <;> decide

theorem isBiphase_none_right (levelA : Option PulseLevel) : isBiphase levelA none = false := by
  rcases levelA with _ | _ | _
  · rfl
  · rfl
  · rfl

/-- What follows a check of the next level accepts the rest. -/
theorem expectLevel_iff (hfits : cursor.Fits tab com tabLen) (htab : tabLen ≤ 100)
    (hinside : cursor.offset.toNat < tabLen) (level : PulseLevel)
    {readRest : PulseCursor → Option Bool} {accepts : List (Option PulseLevel) → Prop}
    (hrest : ∀ next : PulseCursor, next.Fits tab com tabLen →
      next.offset.toNat ≤ cursor.offset.toNat + 1 →
      (next.remaining tab com tabLen).length + 1 = (cursor.remaining tab com tabLen).length →
        (readRest next = some true ↔ accepts (next.remaining tab com tabLen))) :
    expectLevel tab com level readRest cursor = some true ↔
      StartsWith level accepts (cursor.remaining tab com tabLen) := by
  obtain ⟨rest, hremaining, hnext⟩ := getPulseLevel_remaining hfits htab hinside
  rw [hremaining, expectLevel]
  by_cases hlevel : (getPulseLevel tab com cursor).1 = some level
  · obtain ⟨heq, hfitsNext, hoffset⟩ := hnext (hlevel ▸ Option.some_ne_none level)
    have haccepts := hrest _ hfitsNext hoffset (by rw [heq, hremaining]; rfl)
    rw [if_neg (not_not.mpr hlevel), haccepts, heq, hlevel]
    constructor
    · exact fun haccepts => ⟨rest, rfl, haccepts⟩
    · rintro ⟨_, ⟨⟩, haccepts⟩
      exact haccepts
  · rw [if_pos hlevel]
    refine iff_of_false (by decide) ?_
    rintro ⟨_, hcons, -⟩
    exact hlevel (List.cons.inj hcons).1

theorem toUInt16_lt_iff {offset : UInt8} {len : UInt16} :
    offset.toUInt16 < len ↔ offset.toNat < len.toNat := by
  rw [UInt16.lt_iff_toNat_lt, UInt8.toNat_toUInt16]

theorem toUInt16_eq_iff {offset : UInt8} {len : UInt16} :
    offset.toUInt16 = len ↔ offset.toNat = len.toNat := by
  rw [← UInt16.toNat_inj, UInt8.toNat_toUInt16]

end Reading

/-! ## RC5 -/

section Rc5

variable {tab : PulseTab} {tabLen : UInt16} {cursor : PulseCursor}

/-- The loop takes what is left of a table exactly if it is pairs of unequal halves, the last
space of which may be missing. -/
theorem rc5Loop_iff (htab : tabLen.toNat ≤ 100) {fuel : Nat}
    (hfits : cursor.Fits tab rc5Com tabLen.toNat)
    (hfuel : (cursor.remaining tab rc5Com tabLen.toNat).length < fuel) :
    rc5Loop tab tabLen fuel cursor = some true ↔
      ReadsPairs .space (cursor.remaining tab rc5Com tabLen.toNat) := by
  induction fuel generalizing cursor with
  | zero => exact absurd hfuel (Nat.not_lt_zero _)
  | succ fuel ih =>
      rw [rc5Loop]
      by_cases hinside : cursor.offset.toNat < tabLen.toNat
      case neg =>
        have hend : cursor.offset.toNat = tabLen.toNat :=
          Nat.le_antisymm hfits.offset (Nat.le_of_not_lt hinside)
        rw [if_neg (mt toUInt16_lt_iff.mp hinside), remaining_of_end hend]
        exact iff_of_true rfl (readsPairs_nil _)
      rw [if_pos (toUInt16_lt_iff.mpr hinside)]
      obtain ⟨rest, hremaining, hnext⟩ := getPulseLevel_remaining hfits htab hinside
      rcases hlevelA : getPulseLevel tab rc5Com cursor with ⟨_ | levelA, cursorA⟩
      · rw [hlevelA] at hremaining
        rw [hremaining]
        refine iff_of_false ?_ (not_readsPairs_of_none List.mem_cons_self)
        exact fun htrue => Bool.noConfusion (Option.some.inj htrue)
      rw [hlevelA] at hremaining hnext
      obtain ⟨hrest, hfitsA, -⟩ := hnext (Option.some_ne_none levelA)
      dsimp only at hremaining hrest hfitsA ⊢
      rw [hremaining] at hfuel ⊢
      rw [List.length_cons] at hfuel
      by_cases hend : cursorA.offset.toNat = tabLen.toNat
      · have hlast : rest = [] := hrest.symm.trans (remaining_of_end hend)
        rw [if_pos (toUInt16_eq_iff.mpr hend), hlast, readsPairs_singleton]
        have hdone : rc5Loop tab tabLen fuel cursorA = some true := by
          rw [ih hfitsA (by rw [hrest]; omega), hrest, hlast]
          exact readsPairs_nil _
        dsimp only
        split
        next hbiphase => exact iff_of_true hdone (isBiphase_some_iff.mp hbiphase)
        next hequal => exact iff_of_false (by decide) (mt isBiphase_some_iff.mpr hequal)
      · rw [if_neg (mt toUInt16_eq_iff.mp hend)]
        have hinsideA : cursorA.offset.toNat < tabLen.toNat :=
          Nat.lt_of_le_of_ne hfitsA.offset hend
        obtain ⟨restB, hremainingB, hnextB⟩ := getPulseLevel_remaining hfitsA htab hinsideA
        rcases hlevelB : getPulseLevel tab rc5Com cursorA with ⟨_ | levelB, cursorB⟩
        · rw [hlevelB, hrest] at hremainingB
          rw [isBiphase_none_right, hremainingB]
          refine iff_of_false (fun htrue => Bool.noConfusion (Option.some.inj htrue)) ?_
          exact not_readsPairs_of_none (List.mem_cons_of_mem _ List.mem_cons_self)
        · rw [hlevelB, hrest] at hremainingB
          rw [hlevelB] at hnextB
          obtain ⟨hrestB, hfitsB, -⟩ := hnextB (Option.some_ne_none levelB)
          dsimp only at hremainingB hrestB hfitsB ⊢
          rw [hremainingB, List.length_cons] at hfuel
          rw [hremainingB, readsPairs_cons_cons]
          split
          next hbiphase =>
            rw [ih hfitsB (by rw [hrestB]; omega), hrestB]
            exact (and_iff_right (isBiphase_some_iff.mp hbiphase)).symm
          next hequal =>
            exact iff_of_false (by decide) fun hpairs => hequal (isBiphase_some_iff.mpr hpairs.1)

theorem length_remaining_lt (cursor : PulseCursor) (tab : PulseTab) (com : Nat)
    (tabLen : UInt16) : (cursor.remaining tab com tabLen.toNat).length < pulseRounds tabLen := by
  have hall :=
    length_halves_le tab com cursor.offset.toNat (tabLen.toNat - cursor.offset.toNat)
  rw [PulseCursor.remaining, List.length_drop, pulseRounds]
  omega

theorem isRc5Protocol_eq (tab : PulseTab) (tabLen : UInt16) :
    isRc5Protocol tab tabLen =
      if tabLen.toNat < rc5CodeNum + 2 then some false
      else expectLevel tab rc5Com .carrier
        (expectLevel tab rc5Com .space
          (expectLevel tab rc5Com .carrier (rc5Loop tab tabLen (pulseRounds tabLen)))) {} := rfl

theorem isRc5Protocol_iff_halves (htab : tabLen.toNat ≤ 100) :
    isRc5Protocol tab tabLen = some true ↔
      rc5CodeNum + 2 ≤ tabLen.toNat ∧
        StartsWith .carrier (StartsWith .space (StartsWith .carrier (ReadsPairs .space)))
          (halves tab rc5Com 0 tabLen.toNat) := by
  rw [isRc5Protocol_eq]
  by_cases hshort : tabLen.toNat < rc5CodeNum + 2
  case pos =>
    rw [if_pos hshort]
    exact iff_of_false (by decide) fun hlen => absurd hlen.1 (Nat.not_le.mpr hshort)
  have hlong : 13 ≤ tabLen.toNat := Nat.le_of_not_lt hshort
  have hstart : PulseCursor.Fits {} tab rc5Com tabLen.toNat := ⟨Nat.zero_le _, .inl rfl⟩
  have hzero : (PulseCursor.offset {}).toNat = 0 := rfl
  rw [if_neg hshort, and_iff_right (Nat.le_of_not_lt hshort)]
  exact expectLevel_iff hstart htab (by omega) .carrier fun cursorA hfitsA hoffsetA _ =>
    expectLevel_iff hfitsA htab (by omega) .space fun cursorB hfitsB hoffsetB _ =>
      expectLevel_iff hfitsB htab (by omega) .carrier fun cursorC hfitsC _ _ =>
        rc5Loop_iff htab hfitsC (length_remaining_lt cursorC tab rc5Com tabLen)

/-- One space more, if the number of halves behind the start bit and a half is odd. -/
def padFrame (levels : List PulseLevel) : List PulseLevel :=
  if (levels.length - 3) % 2 = 0 then levels else levels ++ [.space]

/-- A bi-phase frame of RC5: each width is in a window, and the halves are those of a carrier, a
space, a carrier, and pairs of unequal halves. -/
structure Rc5Frame (tab : PulseTab) (tabLen : Nat) : Prop where
  len : rc5CodeNum + 2 ≤ tabLen
  windows : ∀ offset < tabLen, InWindow rc5Com (tab offset) ∨
    InWindow (rc5Com * 2) (tab offset) ∨ InWindow (rc5Com * 3) (tab offset)
  halves : ∃ bits, padFrame (halfBits tab rc5Com 0 tabLen) =
    .carrier :: .space :: .carrier :: bits ∧ UnequalPairs bits

theorem padFrame_cons (first second third : PulseLevel) (levels : List PulseLevel) :
    padFrame (first :: second :: third :: levels) =
      first :: second :: third :: padPairs .space levels := by
  have hlength : (first :: second :: third :: levels).length - 3 = levels.length := rfl
  rw [padFrame, padPairs, hlength]
  split
  · rfl
  · rfl

theorem padFrame_eq_cons {first second third : PulseLevel} {levels bits : List PulseLevel}
    (hframe : padFrame levels = first :: second :: third :: bits) :
    ∃ rest, levels = first :: second :: third :: rest ∧ padPairs .space rest = bits := by
  rcases levels with _ | ⟨a, _ | ⟨b, _ | ⟨c, rest⟩⟩⟩
  · cases hframe
  · cases hframe
  · cases hframe
  · rw [padFrame_cons] at hframe
    cases hframe
    exact ⟨rest, rfl, rfl⟩

theorem isRc5Protocol_iff_frame (htab : tabLen.toNat ≤ 100) :
    isRc5Protocol tab tabLen = some true ↔ Rc5Frame tab tabLen.toNat := by
  rw [isRc5Protocol_iff_halves htab]
  constructor
  · rintro ⟨hlen, _, hhalves, _, rfl, _, rfl, levels, rfl, hpairs⟩
    obtain ⟨hwindows, hbits⟩ := halves_eq_map_some_iff.mp
      (hhalves.trans (List.map_cons.symm : _ = (.carrier :: .space :: .carrier :: levels).map some))
    refine ⟨hlen, fun offset hoffset => ?_, padPairs .space levels, ?_, hpairs⟩
    · exact pulseUnits_isSome_iff.mp (hwindows offset (List.mem_range'_1.mpr (by omega)))
    · rw [hbits, padFrame_cons]
  · rintro ⟨hlen, hwindows, bits, hbits, hpairs⟩
    obtain ⟨levels, hlevels, hpad⟩ := padFrame_eq_cons hbits
    rw [← hpad] at hpairs
    have hhalves : CubieBle.Hal.halves tab rc5Com 0 tabLen.toNat =
        (.carrier :: .space :: .carrier :: levels).map some := by
      refine halves_eq_map_some_iff.mpr ⟨fun offset hoffset => ?_, hlevels⟩
      rw [List.mem_range'_1, Nat.zero_add] at hoffset
      exact pulseUnits_isSome_iff.mpr (hwindows offset hoffset.2)
    exact ⟨hlen, _, hhalves, _, rfl, _, rfl, levels, rfl, hpairs⟩

end Rc5

/-! ## The entries that are read -/

section Reads

variable {tab : PulseTab} {tabLen : UInt16} {cursor : PulseCursor}

/-- `get_pulse_level`, which notes the entry that it is given. -/
def getPulseLevelNoted (tab : PulseTab) (com : Nat) (cursor : PulseCursor) (reads : List Nat) :
    (Option PulseLevel × PulseCursor) × List Nat :=
  (getPulseLevel tab com cursor, reads ++ [cursor.offset.toNat])

/-- The loop of `is_rc5_protocol` with the entries that it reads. -/
def rc5LoopNoted (tab : PulseTab) (tabLen : UInt16) :
    Nat → PulseCursor → List Nat → Option (Bool × List Nat)
  | 0, _, _ => none
  | fuel + 1, cursor, reads =>
      if cursor.offset.toUInt16 < tabLen then
        let ((levelA, cursor), reads) := getPulseLevelNoted tab rc5Com cursor reads
        let ((levelB, cursor), reads) :=
          if cursor.offset.toUInt16 = tabLen then ((some .space, cursor), reads)
          else getPulseLevelNoted tab rc5Com cursor reads
        if isBiphase levelA levelB then rc5LoopNoted tab tabLen fuel cursor reads
        else some (false, reads)
      else some (true, reads)

/-- `is_rc5_protocol` with the entries that it reads. -/
def isRc5ProtocolNoted (tab : PulseTab) (tabLen : UInt16) : Option (Bool × List Nat) :=
  if tabLen.toNat < rc5CodeNum + 2 then some (false, [])
  else
    let ((first, cursor), reads) := getPulseLevelNoted tab rc5Com {} []
    if first ≠ some .carrier then some (false, reads)
    else
      let ((second, cursor), reads) := getPulseLevelNoted tab rc5Com cursor reads
      if second ≠ some .space then some (false, reads)
      else
        let ((third, cursor), reads) := getPulseLevelNoted tab rc5Com cursor reads
        if third ≠ some .carrier then some (false, reads)
        else rc5LoopNoted tab tabLen (pulseRounds tabLen) cursor reads

/-- Noting the entries does not change the verdict. -/
theorem rc5LoopNoted_verdict (tab : PulseTab) (tabLen : UInt16) (fuel : Nat)
    (cursor : PulseCursor) (reads : List Nat) :
    (rc5LoopNoted tab tabLen fuel cursor reads).map (·.1) = rc5Loop tab tabLen fuel cursor := by
  induction fuel generalizing cursor reads with
  | zero => rfl
  | succ fuel ih =>
      rw [rc5LoopNoted, rc5Loop]
      split
      next =>
        dsimp only [getPulseLevelNoted]
        split
        next => 
          dsimp only
          split
          · exact ih _ _
          · rfl
        next =>
          split
          · exact ih _ _
          · rfl
      next => rfl

theorem isRc5ProtocolNoted_verdict (tab : PulseTab) (tabLen : UInt16) :
    (isRc5ProtocolNoted tab tabLen).map (·.1) = isRc5Protocol tab tabLen := by
  rw [isRc5ProtocolNoted, isRc5Protocol]
  dsimp only [getPulseLevelNoted]
  split_ifs
  · rfl
  · rfl
  · rfl
  · rfl
  · exact rc5LoopNoted_verdict tab tabLen _ _ _

theorem offset_getPulseLevel_le (tab : PulseTab) (com : Nat) (cursor : PulseCursor)
    (hoffset : cursor.offset.toNat < 255) :
    (getPulseLevel tab com cursor).2.offset.toNat ≤ cursor.offset.toNat + 1 := by
  rw [getPulseLevel]
  cases pulseUnits (tab cursor.offset.toNat) com with
  | none => exact Nat.le_succ _
  | some len =>
      dsimp only
      split
      · exact Nat.le_of_eq (uint8_toNat_succ hoffset)
      · exact Nat.le_succ _

theorem forall_mem_append_singleton {reads : List Nat} {limit entry : Nat}
    (hreads : ∀ read ∈ reads, read < limit) (hentry : entry < limit) :
    ∀ read ∈ reads ++ [entry], read < limit := by
  intro read hread
  rcases List.mem_append.mp hread with hold | hnew
  · exact hreads read hold
  · rw [List.mem_singleton.mp hnew]
    exact hentry

/-- The loop reads a second level only if the first has not reached the end of the table. -/
theorem rc5LoopNoted_reads (htab : tabLen.toNat ≤ 100) {fuel : Nat} {reads : List Nat}
    (hoffset : cursor.offset.toNat ≤ tabLen.toNat) (hreads : ∀ read ∈ reads, read < tabLen.toNat) :
    ∀ outcome, rc5LoopNoted tab tabLen fuel cursor reads = some outcome →
      ∀ read ∈ outcome.2, read < tabLen.toNat := by
  induction fuel generalizing cursor reads with
  | zero => rintro outcome ⟨⟩
  | succ fuel ih =>
      intro outcome
      rw [rc5LoopNoted]
      split
      next hinside =>
        have hinside := toUInt16_lt_iff.mp hinside
        have hreadsA := forall_mem_append_singleton hreads hinside
        have hoffsetA := offset_getPulseLevel_le tab rc5Com cursor (by omega)
        dsimp only [getPulseLevelNoted]
        split
        next hend =>
          dsimp only
          split
          · exact ih (by omega) hreadsA outcome
          · rintro ⟨⟩
            exact hreadsA
        next hend =>
          have hend := mt toUInt16_eq_iff.mpr hend
          have hinsideA : (getPulseLevel tab rc5Com cursor).2.offset.toNat < tabLen.toNat := by
            omega
          have hreadsB := forall_mem_append_singleton hreadsA hinsideA
          have hoffsetB :=
            offset_getPulseLevel_le tab rc5Com (getPulseLevel tab rc5Com cursor).2 (by omega)
          split
          · exact ih (by omega) hreadsB outcome
          · rintro ⟨⟩
            exact hreadsB
      next =>
        rintro ⟨⟩
        exact hreads

theorem isRc5ProtocolNoted_reads (htab : tabLen.toNat ≤ 100) :
    ∀ outcome, isRc5ProtocolNoted tab tabLen = some outcome →
      ∀ read ∈ outcome.2, read < tabLen.toNat := by
  intro outcome
  rw [isRc5ProtocolNoted]
  split
  next =>
    rintro ⟨⟩
    exact fun read hread => absurd hread List.not_mem_nil
  next hlen =>
    have hlong : 13 ≤ tabLen.toNat := Nat.le_of_not_lt hlen
    have hzero : (PulseCursor.offset {}).toNat = 0 := rfl
    have hoffsetA := offset_getPulseLevel_le tab rc5Com {} (by decide)
    have hoffsetB := offset_getPulseLevel_le tab rc5Com (getPulseLevel tab rc5Com {}).2 (by omega)
    have hoffsetC := offset_getPulseLevel_le tab rc5Com
      (getPulseLevel tab rc5Com (getPulseLevel tab rc5Com {}).2).2 (by omega)
    have hreadsA : ∀ read ∈ [(PulseCursor.offset {}).toNat], read < tabLen.toNat :=
      forall_mem_append_singleton (fun read hread => absurd hread List.not_mem_nil) (by omega)
    have hreadsB := forall_mem_append_singleton hreadsA (Nat.lt_of_le_of_lt hoffsetA (by omega))
    have hreadsC := forall_mem_append_singleton hreadsB (Nat.lt_of_le_of_lt hoffsetB (by omega))
    dsimp only [getPulseLevelNoted]
    split_ifs
    · rintro ⟨⟩
      exact hreadsA
    · rintro ⟨⟩
      exact hreadsB
    · rintro ⟨⟩
      exact hreadsC
    · exact rc5LoopNoted_reads htab (by omega) hreadsC outcome

end Reads

/-- For every table that fits the driver's buffer, `is_rc5_protocol` ends, reads only entries of
the table, and accepts exactly the bi-phase frames. -/
theorem isRc5Protocol_accepts_frames (tab : PulseTab) (tabLen : UInt16)
    (htab : tabLen.toNat ≤ maxPulseLen) :
    ∃ verdict reads, isRc5ProtocolNoted tab tabLen = some (verdict, reads) ∧
      isRc5Protocol tab tabLen = some verdict ∧ (∀ read ∈ reads, read < tabLen.toNat) ∧
      (verdict = true ↔ Rc5Frame tab tabLen.toNat) := by
  obtain ⟨verdict, hverdict⟩ := Option.isSome_iff_exists.mp (isSome_isRc5Protocol tab htab)
  have hnoted := isRc5ProtocolNoted_verdict tab tabLen
  rw [hverdict, Option.map_eq_some_iff] at hnoted
  obtain ⟨⟨_, reads⟩, houtcome, rfl⟩ := hnoted
  refine ⟨_, reads, houtcome, hverdict, isRc5ProtocolNoted_reads htab _ houtcome, ?_⟩
  rw [← isRc5Protocol_iff_frame htab, hverdict, Option.some_inj]

/-- Thirteen single widths are a frame. -/
theorem isRc5Protocol_accepts_frames_single :
    ∃ verdict reads, isRc5ProtocolNoted (fun _ => 844) 13 = some (verdict, reads) ∧
      isRc5Protocol (fun _ => 844) 13 = some verdict ∧ (∀ read ∈ reads, read < 13) ∧
      (verdict = true ↔ Rc5Frame (fun _ => 844) 13) :=
  isRc5Protocol_accepts_frames (fun _ => 844) 13 (by decide)

end CubieBle.Hal
