import Mathlib.Data.Nat.Bitwise
import Mathlib.Data.UInt

/-! # Infrared protocols

A captured waveform is a table of pulse widths, marks and spaces in turn. Seven recognisers
are tried on it one after the other. Those of the pulse-distance protocols read a code word
off the lengths of the spaces and write the nominal waveform of the word over the table.
-/

namespace CubieBle.Hal

/-- The memory from the first entry of a captured table on. -/
abbrev PulseTab := Nat → UInt16

/-! ## Windows -/

def esp : Nat := 20
def espL : Nat := 100 - esp
def espR : Nat := 100 + esp
def valEspL (a : Nat) : Nat := a * espL / 100
def valEspR (a : Nat) : Nat := a * espR / 100

/-- A width strictly between the tolerances of a nominal width. -/
def InWindow (nominal : Nat) (width : UInt16) : Prop :=
  valEspL nominal < width.toNat ∧ width.toNat < valEspR nominal

instance (nominal : Nat) (width : UInt16) : Decidable (InWindow nominal width) :=
  inferInstanceAs (Decidable (_ ∧ _))

/-! ## Pulse-distance protocols -/

/-- The constants of a protocol: the widths of the leader, of the space of each logic
level and of the mark, and the number of code bits. -/
structure PulseDistance where
  leader : List Nat
  logic0 : Nat
  logic1 : Nat
  com : Nat
  codeNum : Nat

def nec : PulseDistance where
  leader := [9000, 4500]
  logic0 := 560
  logic1 := 1690
  com := 560
  codeNum := 32

def p9012 : PulseDistance where
  leader := [4500, 4500]
  logic0 := 560
  logic1 := 1690
  com := 560
  codeNum := 32

def p50462 : PulseDistance where
  leader := []
  logic0 := 780
  logic1 := 1799
  com := 260
  codeNum := 16

def p7461 : PulseDistance where
  leader := [9000, 4500]
  logic0 := 560
  logic1 := 1680
  com := 560
  codeNum := 42

def p50560 : PulseDistance where
  leader := [8000, 4000]
  logic0 := 520
  logic1 := 1560
  com := 520
  codeNum := 16

namespace PulseDistance

variable (protocol : PulseDistance)

/-- The leader of a table is within its windows. -/
def LeaderOk (tab : PulseTab) : Prop :=
  ∀ i (hi : i < protocol.leader.length), InWindow (protocol.leader.get ⟨i, hi⟩) (tab i)

instance (tab : PulseTab) : Decidable (protocol.LeaderOk tab) :=
  Nat.decidableBallLT _ _

/-- The loop that checks the code: a mark, and a space that is one of the two. -/
def readBit (tab : PulseTab) (data i : Nat) : Option Nat :=
  if InWindow protocol.com (tab i) then
    if InWindow protocol.logic0 (tab (i + 1)) then some (2 * data)
    else if InWindow protocol.logic1 (tab (i + 1)) then some (2 * data + 1)
    else none
  else none

def readCode (tab : PulseTab) (positions : List Nat) : Option Nat :=
  positions.foldlM (protocol.readBit tab) 0

/-- Where the marks of the code stand. -/
def positions : List Nat :=
  (List.range protocol.codeNum).map fun k => protocol.leader.length + 2 * k

/-- The length of a table of this protocol. -/
def tabLen : Nat := protocol.codeNum * 2 + protocol.leader.length + 1

/-- The loop of the generators over the bits of `mask`, from the entry `i` on. -/
def writeCode (data : Nat) : Nat → UInt32 → Nat → PulseTab → PulseTab × Nat
  | 0, _, i, tab => (tab, i)
  | fuel + 1, mask, i, tab =>
      if mask = 0 then (tab, i)
      else
        let space := if data &&& mask.toNat ≠ 0 then protocol.logic1 else protocol.logic0
        let tab := Function.update tab i (UInt16.ofNat protocol.com)
        let tab := Function.update tab (i + 1) (UInt16.ofNat space)
        writeCode data fuel (mask >>> 1) (i + 2) tab

/-- The leader, the code and the stop burst; a mask of 32 bits is zero after 32 rounds. -/
def generateWave (data : Nat) (mask : UInt32) (tab : PulseTab) : PulseTab :=
  let header : PulseTab := fun i =>
    if h : i < protocol.leader.length then UInt16.ofNat (protocol.leader.get ⟨i, h⟩) else tab i
  let (tab, i) := protocol.writeCode data 33 mask protocol.leader.length header
  Function.update tab i (UInt16.ofNat protocol.com)

/-- A recogniser: whether it accepts, and the table after it. -/
def recognise (mask : UInt32) (tab : PulseTab) (tabLen : UInt16) : Bool × PulseTab :=
  if tabLen.toNat ≠ protocol.tabLen then (false, tab)
  else if ¬protocol.LeaderOk tab then (false, tab)
  else
    match protocol.readCode tab protocol.positions with
    | none => (false, tab)
    | some data => (true, protocol.generateWave data mask tab)

end PulseDistance

def isNecWave (tab : PulseTab) (tabLen : UInt16) : Bool × PulseTab :=
  nec.recognise ((1 : UInt32) <<< 31) tab tabLen

def is9012Protocol (tab : PulseTab) (tabLen : UInt16) : Bool × PulseTab :=
  p9012.recognise ((1 : UInt32) <<< 31) tab tabLen

def is50462Protocol (tab : PulseTab) (tabLen : UInt16) : Bool × PulseTab :=
  p50462.recognise ((1 : UInt32) <<< 15) tab tabLen

/-- The first mask is `1UL << 41`, to which C gives no value on a machine of 32 bits:
`mask41` is what the shift yields. -/
def is7461Protocol (mask41 : UInt32) (tab : PulseTab) (tabLen : UInt16) : Bool × PulseTab :=
  p7461.recognise mask41 tab tabLen

/-- The loop skips the pair at the entry 18, and the table is left as it is. -/
def is50560Protocol (tab : PulseTab) (tabLen : UInt16) : Bool :=
  if tabLen.toNat ≠ p50560.codeNum * 2 + 2 + 2 + 1 then false
  else if ¬p50560.LeaderOk tab then false
  else
    (p50560.readCode tab [2, 4, 6, 8, 10, 12, 14, 16, 20, 22, 24, 26, 28, 30, 32, 34]).isSome

/-! ## Bi-phase protocols -/

def rc5Com : Nat := 844
def rc5CodeNum : Nat := 11
def rc6Ldc0 : Nat := 2666
def rc6Ldc1 : Nat := 889
def rc6Com : Nat := 444
def rc6CodeNum : Nat := 15

inductive PulseLevel where
  | space
  | carrier
deriving DecidableEq

/-- The place in a table: the entry, and the half bits of it that were used. -/
structure PulseCursor where
  offset : UInt8 := 0
  usedLen : UInt8 := 0
deriving DecidableEq

/-- How many half bits a width stands for. -/
def pulseUnits (width : UInt16) (com : Nat) : Option UInt8 :=
  if InWindow com width then some 1
  else if InWindow (com * 2) width then some 2
  else if InWindow (com * 3) width then some 3
  else none

/-- `get_pulse_level`; `none` is the level -1, and the cursor stays. -/
def getPulseLevel (tab : PulseTab) (com : Nat) (cursor : PulseCursor) :
    Option PulseLevel × PulseCursor :=
  match pulseUnits (tab cursor.offset.toNat) com with
  | none => (none, cursor)
  | some len =>
      (some (if cursor.offset % 2 ≠ 0 then .space else .carrier),
        if len ≤ cursor.usedLen + 1 then ⟨cursor.offset + 1, 0⟩
        else ⟨cursor.offset, cursor.usedLen + 1⟩)

/-- The levels of the two halves of a bit differ. -/
def isBiphase : Option PulseLevel → Option PulseLevel → Bool
  | some .space, some .carrier => true
  | some .carrier, some .space => true
  | _, _ => false

/-- The loop of `is_rc5_protocol`; `none` is a loop that has not ended. -/
def rc5Loop (tab : PulseTab) (tabLen : UInt16) : Nat → PulseCursor → Option Bool
  | 0, _ => none
  | fuel + 1, cursor =>
      if cursor.offset.toUInt16 < tabLen then
        let (levelA, cursor) := getPulseLevel tab rc5Com cursor
        let (levelB, cursor) :=
          if cursor.offset.toUInt16 = tabLen then (some .space, cursor)
          else getPulseLevel tab rc5Com cursor
        if isBiphase levelA levelB then rc5Loop tab tabLen fuel cursor else some false
      else some true

/-- Rounds after which the loop over a table has ended: a width has at most three half
bits. -/
def pulseRounds (tabLen : UInt16) : Nat := 3 * tabLen.toNat + 1

def isRc5Protocol (tab : PulseTab) (tabLen : UInt16) : Option Bool :=
  if tabLen.toNat < rc5CodeNum + 2 then some false
  else
    let (first, cursor) := getPulseLevel tab rc5Com {}
    if first ≠ some .carrier then some false
    else
      let (second, cursor) := getPulseLevel tab rc5Com cursor
      if second ≠ some .space then some false
      else
        let (third, cursor) := getPulseLevel tab rc5Com cursor
        if third ≠ some .carrier then some false
        else rc5Loop tab tabLen (pulseRounds tabLen) cursor

/-- A half bit of the loop of `is_rc6_protocol`; in round 3 it is twice as long. -/
def rc6Half (tab : PulseTab) (i : UInt8) (cursor : PulseCursor) :
    Option (Option PulseLevel × PulseCursor) :=
  let (level, cursor) := getPulseLevel tab rc6Com cursor
  if i = 3 then
    let (again, cursor) := getPulseLevel tab rc6Com cursor
    if level ≠ again then none else some (level, cursor)
  else some (level, cursor)

def rc6Loop (tab : PulseTab) (tabLen : UInt16) : Nat → UInt8 → PulseCursor → Option Bool
  | 0, _, _ => none
  | fuel + 1, i, cursor =>
      if cursor.offset.toUInt16 < tabLen then
        match rc6Half tab i cursor with
        | none => some false
        | some (levelA, cursor) =>
            match rc6Half tab i cursor with
            | none => some false
            | some (levelB, cursor) =>
                if isBiphase levelA levelB then rc6Loop tab tabLen fuel (i + 1) cursor
                else some false
      else some true

def isRc6Protocol (tab : PulseTab) (tabLen : UInt16) : Option Bool :=
  if tabLen.toNat < rc6CodeNum then some false
  else if ¬InWindow rc6Ldc0 (tab 0) then some false
  else if ¬InWindow rc6Ldc1 (tab 1) then some false
  else
    let (first, cursor) := getPulseLevel tab rc6Com { offset := 2 }
    if first ≠ some .carrier then some false
    else
      let (second, cursor) := getPulseLevel tab rc6Com cursor
      if second ≠ some .space then some false
      else rc6Loop tab tabLen (pulseRounds tabLen) 0 cursor

/-! ## All recognisers -/

inductive IrLearn where
  | success
  | failed
  | timeout
  | ready
deriving DecidableEq

/-- `check_irc_wave`: the verdict and the table. -/
def checkIrcWave (mask41 : UInt32) (tab : PulseTab) (tabLen : UInt16) :
    Option (IrLearn × PulseTab) := do
  let (accepted, tab) := isNecWave tab tabLen
  if accepted then return (.success, tab)
  let (accepted, tab) := is9012Protocol tab tabLen
  if accepted then return (.success, tab)
  if ← isRc5Protocol tab tabLen then return (.success, tab)
  if ← isRc6Protocol tab tabLen then return (.success, tab)
  let (accepted, tab) := is7461Protocol mask41 tab tabLen
  if accepted then return (.success, tab)
  if is50560Protocol tab tabLen then return (.success, tab)
  let (accepted, tab) := is50462Protocol tab tabLen
  if accepted then return (.success, tab)
  return (.failed, tab)

/-! ## The loops end

A level read off the table moves the cursor on, so the half bits that are left grow fewer.
-/

/-- Half bits left before the end of a table, if each width has three. -/
def PulseCursor.left (cursor : PulseCursor) (tabLen : UInt16) : Nat :=
  3 * (tabLen.toNat - cursor.offset.toNat) - cursor.usedLen.toNat

/-- A cursor the loops reach: less than three half bits are used, and the offset has room
for the reads of one more round. -/
structure PulseCursor.Valid (cursor : PulseCursor) (limit : Nat) : Prop where
  usedLen : cursor.usedLen.toNat ≤ 2
  offset : cursor.offset.toNat ≤ limit

section Loops

variable {tab : PulseTab} {tabLen : UInt16} {com limit : Nat} {cursor : PulseCursor}

theorem pulseUnits_le {width : UInt16} {len : UInt8} (hlen : pulseUnits width com = some len) :
    len.toNat ≤ 3 := by
  rw [pulseUnits] at hlen
  split_ifs at hlen
  all_goals
    cases hlen
    decide

/-- What reading a level does to the cursor: it stays, goes to the next entry, or uses one
more half bit of the same entry. -/
theorem getPulseLevel_cases (tab : PulseTab) (com : Nat) (hvalid : cursor.Valid limit)
    (hlimit : limit < 255) :
    ((getPulseLevel tab com cursor).1 = none ∧ (getPulseLevel tab com cursor).2 = cursor) ∨
      ((getPulseLevel tab com cursor).2.offset.toNat = cursor.offset.toNat + 1 ∧
        (getPulseLevel tab com cursor).2.usedLen.toNat = 0) ∨
      ((getPulseLevel tab com cursor).2.offset = cursor.offset ∧
        (getPulseLevel tab com cursor).2.usedLen.toNat = cursor.usedLen.toNat + 1 ∧
        cursor.usedLen.toNat + 1 ≤ 2) := by
  have hused := hvalid.usedLen
  have hoffset := hvalid.offset
  rw [getPulseLevel]
  cases hunits : pulseUnits (tab cursor.offset.toNat) com with
  | none => exact .inl ⟨rfl, rfl⟩
  | some len =>
      dsimp only
      have hlen := pulseUnits_le hunits
      have hsucc : (cursor.usedLen + 1).toNat = cursor.usedLen.toNat + 1 := by
        rw [UInt8.toNat_add, UInt8.toNat_one]
        omega
      have hnext : (cursor.offset + 1).toNat = cursor.offset.toNat + 1 := by
        rw [UInt8.toNat_add, UInt8.toNat_one]
        omega
      by_cases hdone : len ≤ cursor.usedLen + 1
      · rw [if_pos hdone]
        exact .inr (.inl ⟨hnext, rfl⟩)
      · rw [if_neg hdone]
        rw [UInt8.le_iff_toNat_le, hsucc] at hdone
        exact .inr (.inr ⟨rfl, hsucc, by omega⟩)

theorem PulseCursor.Valid.next (hvalid : cursor.Valid limit) (hlimit : limit < 255) :
    (getPulseLevel tab com cursor).2.Valid (limit + 1) := by
  have hused := hvalid.usedLen
  have hoffset := hvalid.offset
  obtain ⟨-, hstay⟩ | ⟨hnext, hzero⟩ | ⟨hsame, hsucc, hle⟩ :=
    getPulseLevel_cases tab com hvalid hlimit
  · rw [hstay]
    exact ⟨hused, Nat.le_succ_of_le hoffset⟩
  · exact ⟨by omega, by omega⟩
  · exact ⟨by omega, by rw [hsame]; omega⟩

/-- No read gives half bits back. -/
theorem left_getPulseLevel_le (tab : PulseTab) (com : Nat) (hvalid : cursor.Valid limit)
    (hlimit : limit < 255) :
    (getPulseLevel tab com cursor).2.left tabLen ≤ cursor.left tabLen := by
  have hused := hvalid.usedLen
  rw [PulseCursor.left, PulseCursor.left]
  obtain ⟨-, hstay⟩ | ⟨hnext, hzero⟩ | ⟨hsame, hsucc, -⟩ :=
    getPulseLevel_cases tab com hvalid hlimit
  · rw [hstay]
  · rw [hnext, hzero]
    omega
  · rw [hsame, hsucc]
    omega

/-- Inside the table a level costs a half bit. -/
theorem left_getPulseLevel_lt (tab : PulseTab) (com : Nat) (hvalid : cursor.Valid limit)
    (hlimit : limit < 255) (hinside : cursor.offset.toNat < tabLen.toNat)
    (hlevel : (getPulseLevel tab com cursor).1 ≠ none) :
    (getPulseLevel tab com cursor).2.left tabLen < cursor.left tabLen := by
  have hused := hvalid.usedLen
  rw [PulseCursor.left, PulseCursor.left]
  obtain ⟨hnone, -⟩ | ⟨hnext, hzero⟩ | ⟨hsame, hsucc, -⟩ :=
    getPulseLevel_cases tab com hvalid hlimit
  · exact absurd hnone hlevel
  · rw [hnext, hzero]
    omega
  · rw [hsame, hsucc]
    omega

theorem ne_none_of_isBiphase {levelA levelB : Option PulseLevel}
    (hbiphase : isBiphase levelA levelB = true) : levelA ≠ none := by
  rintro rfl
  cases hbiphase

/-- The loop over a table of at most 100 entries ends. -/
theorem isSome_rc5Loop (htab : tabLen.toNat ≤ 100) {fuel : Nat} (hused : cursor.usedLen.toNat ≤ 2)
    (hfuel : cursor.left tabLen < fuel) : (rc5Loop tab tabLen fuel cursor).isSome := by
  induction fuel generalizing cursor with
  | zero => exact absurd hfuel (Nat.not_lt_zero _)
  | succ fuel ih =>
      rw [rc5Loop]
      split
      next hinside =>
        rw [UInt16.lt_iff_toNat_lt, UInt8.toNat_toUInt16] at hinside
        have hvalid : cursor.Valid 100 := ⟨hused, by omega⟩
        have hvalidA : (getPulseLevel tab rc5Com cursor).2.Valid 101 := hvalid.next (by decide)
        have hcost := left_getPulseLevel_lt tab rc5Com hvalid (by decide) hinside
        dsimp only
        split
        next =>
          dsimp only
          split
          next hbiphase =>
            have hlt := hcost (ne_none_of_isBiphase hbiphase)
            exact ih hvalidA.usedLen (by omega)
          next => rfl
        next =>
          split
          next hbiphase =>
            have hlt := hcost (ne_none_of_isBiphase hbiphase)
            have hle : (getPulseLevel tab rc5Com (getPulseLevel tab rc5Com cursor).2).2.left
                tabLen ≤ (getPulseLevel tab rc5Com cursor).2.left tabLen :=
              left_getPulseLevel_le tab rc5Com hvalidA (by decide)
            exact ih (hvalidA.next (by decide)).usedLen (by omega)
          next => rfl
      next => rfl

/-- What a half bit of RC6 does to the cursor. -/
theorem rc6Half_spec (tabLen : UInt16) (hvalid : cursor.Valid limit) (hlimit : limit < 254)
    {i : UInt8} {level : Option PulseLevel} {next : PulseCursor}
    (hhalf : rc6Half tab i cursor = some (level, next)) :
    next.Valid (limit + 2) ∧ next.left tabLen ≤ cursor.left tabLen ∧
      (cursor.offset.toNat < tabLen.toNat → level ≠ none →
        next.left tabLen < cursor.left tabLen) := by
  have hfirst : (getPulseLevel tab rc6Com cursor).2.Valid (limit + 1) := hvalid.next (by omega)
  have hle : (getPulseLevel tab rc6Com cursor).2.left tabLen ≤ cursor.left tabLen :=
    left_getPulseLevel_le tab rc6Com hvalid (by omega)
  have hlt : cursor.offset.toNat < tabLen.toNat → (getPulseLevel tab rc6Com cursor).1 ≠ none →
      (getPulseLevel tab rc6Com cursor).2.left tabLen < cursor.left tabLen :=
    left_getPulseLevel_lt tab rc6Com hvalid (by omega)
  rw [rc6Half] at hhalf
  dsimp only at hhalf
  split_ifs at hhalf with hthird hdiffer
  · obtain ⟨rfl, rfl⟩ := Prod.mk.inj (Option.some.inj hhalf)
    have hagain : (getPulseLevel tab rc6Com (getPulseLevel tab rc6Com cursor).2).2.left tabLen ≤
        (getPulseLevel tab rc6Com cursor).2.left tabLen :=
      left_getPulseLevel_le tab rc6Com hfirst (by omega)
    exact ⟨hfirst.next (by omega), hagain.trans hle, fun hinside hlevel =>
      Nat.lt_of_le_of_lt hagain (hlt hinside hlevel)⟩
  · obtain ⟨rfl, rfl⟩ := Prod.mk.inj (Option.some.inj hhalf)
    exact ⟨⟨hfirst.usedLen, Nat.le_succ_of_le hfirst.offset⟩, hle, hlt⟩

theorem isSome_rc6Loop (htab : tabLen.toNat ≤ 100) {fuel : Nat} {i : UInt8}
    (hused : cursor.usedLen.toNat ≤ 2) (hfuel : cursor.left tabLen < fuel) :
    (rc6Loop tab tabLen fuel i cursor).isSome := by
  induction fuel generalizing i cursor with
  | zero => exact absurd hfuel (Nat.not_lt_zero _)
  | succ fuel ih =>
      rw [rc6Loop]
      split
      next hinside =>
        rw [UInt16.lt_iff_toNat_lt, UInt8.toNat_toUInt16] at hinside
        have hvalid : cursor.Valid 100 := ⟨hused, by omega⟩
        cases hhalfA : rc6Half tab i cursor with
        | none => rfl
        | some halfA =>
            obtain ⟨levelA, cursorA⟩ := halfA
            obtain ⟨hvalidA, -, hlt⟩ := rc6Half_spec tabLen hvalid (by decide) hhalfA
            dsimp only
            cases hhalfB : rc6Half tab i cursorA with
            | none => rfl
            | some halfB =>
                obtain ⟨levelB, cursorB⟩ := halfB
                obtain ⟨hvalidB, hle, -⟩ :=
                  rc6Half_spec tabLen hvalidA (by decide) hhalfB
                dsimp only
                split
                next hbiphase =>
                  have hcost := hlt hinside (ne_none_of_isBiphase hbiphase)
                  exact ih hvalidB.usedLen (by omega)
                next => rfl
      next => rfl

theorem left_lt_pulseRounds : cursor.left tabLen < pulseRounds tabLen := by
  rw [PulseCursor.left, pulseRounds]
  omega

theorem isSome_isRc5Protocol (tab : PulseTab) (htab : tabLen.toNat ≤ 100) :
    (isRc5Protocol tab tabLen).isSome := by
  have hstart : PulseCursor.Valid {} 0 := ⟨by decide, by decide⟩
  rw [isRc5Protocol]
  dsimp only
  split_ifs
  · rfl
  · rfl
  · rfl
  · rfl
  · exact isSome_rc5Loop htab
      (((hstart.next (by decide)).next (by decide)).next (by decide)).usedLen left_lt_pulseRounds

theorem isSome_isRc6Protocol (tab : PulseTab) (htab : tabLen.toNat ≤ 100) :
    (isRc6Protocol tab tabLen).isSome := by
  have hstart : PulseCursor.Valid { offset := 2 } 2 := ⟨by decide, by decide⟩
  rw [isRc6Protocol]
  dsimp only
  split_ifs
  · rfl
  · rfl
  · rfl
  · exact isSome_rc6Loop htab ((hstart.next (by decide)).next (by decide)).usedLen
      left_lt_pulseRounds
  · rfl
  · rfl

/-- Every table that fits the driver's buffer gets a verdict. -/
theorem isSome_checkIrcWave (mask41 : UInt32) (htab : tabLen.toNat ≤ 100) (tab : PulseTab) :
    (checkIrcWave mask41 tab tabLen).isSome := by
  rw [checkIrcWave]
  dsimp only
  split
  next => rfl
  next =>
    split
    next => rfl
    next =>
      obtain ⟨rc5, hrc5⟩ := Option.isSome_iff_exists.mp
        (isSome_isRc5Protocol (is9012Protocol (isNecWave tab tabLen).2 tabLen).2 htab)
      obtain ⟨rc6, hrc6⟩ := Option.isSome_iff_exists.mp
        (isSome_isRc6Protocol (is9012Protocol (isNecWave tab tabLen).2 tabLen).2 htab)
      simp only [hrc5, hrc6, Option.bind_eq_bind, Option.bind_some]
      split_ifs
      all_goals rfl

end Loops

end CubieBle.Hal
