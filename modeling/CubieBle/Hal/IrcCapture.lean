import CubieBle.Hal.IrcLearning

/-! # Capturing a waveform

The driver samples a level and reads a timer, and writes the width of each burst and of each gap
between two of them into a table. It looks at the number of widths once a round, after both of
them were written.
-/

namespace CubieBle.Hal

open Machine

def counter1Us : UInt32 := 32
def timerValueSet : UInt32 := 0xffffff00

/-- The parameters of `cap_irc`. -/
structure CapArgs where
  seqToMs : UInt32
  checkPeriodUs : UInt32
  checkToUs : UInt32

def CapArgs.seqToCounter (args : CapArgs) : UInt32 := args.seqToMs * 1000 * counter1Us

/-- `check_to_us` after the division. -/
def CapArgs.checkTo (args : CapArgs) : UInt32 := args.checkToUs / args.checkPeriodUs

/-- What the interrupt handler calls it with. -/
def isrArgs : CapArgs := ⟨20, 5, 150⟩

def getTimeCount (counterStart counterEnd : UInt32) : UInt32 :=
  if counterEnd ≤ counterStart then counterStart - counterEnd
  else timerValueSet - counterEnd + counterStart

/-! ## Delays -/

/-- The progress of `us_delay`: before its first read of the timer, or in its loop. -/
inductive UsDelay where
  | start
  | running (counterStart cntCheck : UInt32)
deriving DecidableEq

/-- One read of the timer; `none` ends the delay. -/
def UsDelay.step (num : UInt32) : UsDelay → UInt32 → Option UsDelay
  | .start, read => some (.running read read)
  | .running counterStart cntCheck, read =>
      let counter := counter1Us * num
      if counter ≤ counterStart then
        let counterEnd := counterStart - counter
        if read ≤ counterEnd ∨ counterStart < read ∨ cntCheck = read then none
        else some (.running counterStart read)
      else
        let counterEnd := timerValueSet - (counter - counterStart)
        if counterStart < read ∧ read ≤ counterEnd ∨ cntCheck = read then none
        else some (.running counterStart read)

/-! ## The capture -/

/-- The next read of `cap_irc`, of the level or of the timer. -/
inductive CapPc where
  | carrierStart
  | firstLevel
  | burstStart
  | burstLevel
  | spaceStart
  | burstDelay (delay : UsDelay)
  | burstEnd
  | gapStart
  | gapFirst
  | gapLevel
  | gapDelay (delay : UsDelay)
  | gapEnd
  | done (result : Bool)
deriving DecidableEq

/-- The variables of `cap_irc`. The pointer into the table stands behind the widths that were
written. -/
structure CapState where
  pc : CapPc := .carrierStart
  widths : List UInt16 := []
  bitWth : UInt32 := 0
  pulseWidthTabLen : UInt16 := 0
  cntTo : UInt32 := 0
  cntWth : UInt32 := 0
  cnt0 : UInt32 := 0
  cnt1 : UInt32 := 0
  carrierTimerStart : UInt32 := 0
  spaceTimerStart : UInt32
  seqToTimerStart : UInt32 := 0
  checkCounter : UInt32 := 0

namespace CapState

/-- `*p_pluse_wth++ = tmp_pluse_cnt / COUNTER_1_US` and the count of it. -/
def writeWidth (state : CapState) (pluseCnt : UInt32) : CapState :=
  { state with
    widths := state.widths ++ [(pluseCnt / counter1Us).toUInt16]
    bitWth := state.bitWth + 1 }

/-- The width of the carrier, after the loop over its levels. -/
def endBurst (state : CapState) : CapState :=
  { state.writeWidth (getTimeCount state.carrierTimerStart state.spaceTimerStart) with
    cnt0 := state.cnt1
    pc := .gapStart }

/-- The end of a round. -/
def endRound (state : CapState) : CapState :=
  if maxPulseLen < state.bitWth.toNat then { state with pc := .done false }
  else { state with pc := .carrierStart }

/-- The count of equal levels when another level is read. -/
def countLevel (state : CapState) (level : UInt32) : UInt32 :=
  if level = state.cnt0 then state.cntTo + 1 else 0

/-- Enough equal levels end the burst; otherwise the next one is read after a delay. -/
def checkLevels (args : CapArgs) (state : CapState) : CapState :=
  if args.checkTo ≤ state.cntTo then state.endBurst
  else { state with pc := .burstDelay .start }

/-- The code from one read to the next. -/
def step (args : CapArgs) (state : CapState) (read : UInt32) : CapState :=
  match state.pc with
  | .carrierStart =>
      let state : CapState := { state with carrierTimerStart := read }
      let state : CapState :=
        if state.bitWth ≠ 0 then state.writeWidth (getTimeCount state.spaceTimerStart read)
        else state
      { state with cntTo := 0, cntWth := 0, pc := .firstLevel }
  | .firstLevel => { state with cnt0 := read, pc := .burstStart }
  | .burstStart => { state with seqToTimerStart := read, checkCounter := read, pc := .burstLevel }
  | .burstLevel =>
      let cntTo := state.countLevel read
      let cntWth := if read = state.cnt0 then state.cntWth else state.cntWth + 1
      let state : CapState := { state with cnt1 := read, cntTo, cntWth }
      if cntTo = 1 then { state with pc := .spaceStart }
      else checkLevels args { state with cnt0 := read }
  | .spaceStart =>
      checkLevels args { state with spaceTimerStart := read, cnt0 := state.cnt1 }
  | .burstDelay delay =>
      match delay.step args.checkPeriodUs read with
      | some delay => { state with pc := .burstDelay delay }
      | none => { state with pc := .burstEnd }
  | .burstEnd =>
      if state.checkCounter = read then state.endBurst
      else
        let state : CapState := { state with checkCounter := read }
        if args.seqToCounter ≤ getTimeCount state.seqToTimerStart read then
          { state with pc := .done false }
        else { state with pc := .burstLevel }
  | .gapStart => { state with seqToTimerStart := read, checkCounter := read, pc := .gapFirst }
  | .gapFirst => { state with cnt0 := read, pc := .gapLevel }
  | .gapLevel =>
      if read = state.cnt0 then { state with pc := .gapDelay .start } else state.endRound
  | .gapDelay delay =>
      match delay.step args.checkPeriodUs read with
      | some delay => { state with pc := .gapDelay delay }
      | none => { state with pc := .gapEnd }
  | .gapEnd =>
      if state.checkCounter = read then state.endRound
      else
        let state : CapState := { state with checkCounter := read }
        if args.seqToCounter ≤ getTimeCount state.seqToTimerStart read then
          if state.bitWth ≠ 0 then
            { state with
              pulseWidthTabLen := state.bitWth.toUInt16
              widths := state.widths.modifyHead (· + 50)
              pc := .done true }
          else { state with pc := .done false }
        else { state with pc := .gapLevel }
  | .done _ => state

end CapState

/-- A call of `cap_irc`; `space_timer_start` is left uninitialised. -/
def capIrc (spaceTimerStart : UInt32) : CapState := { spaceTimerStart }

/-! ## The table -/

/-- No width was written behind the table, and a captured waveform has an odd number of widths,
all of which were written. -/
structure InTable (state : CapState) : Prop where
  widths : state.widths.length ≤ maxPulseLen
  captured : state.pc = .done true →
    1 ≤ state.pulseWidthTabLen.toNat ∧ state.pulseWidthTabLen.toNat ≤ maxPulseLen ∧
      state.pulseWidthTabLen.toNat % 2 = 1 ∧
      state.pulseWidthTabLen.toNat = state.widths.length

/-- A read after which the width of a burst is written: enough equal levels, or the timer has
stopped. -/
def EndsBurst (args : CapArgs) (state : CapState) (read : UInt32) : Prop :=
  match state.pc with
  | .burstLevel => state.countLevel read ≠ 1 ∧ args.checkTo ≤ state.countLevel read
  | .spaceStart => args.checkTo ≤ state.cntTo
  | .burstEnd => state.checkCounter = read
  | _ => False

/-- No burst ends when the table is full. -/
def RoomForBurst (args : CapArgs) (state : CapState) (read : UInt32) : Prop :=
  EndsBurst args state read → state.widths.length < maxPulseLen

/-! ## Rounds -/

inductive CapPhase where
  | carrier
  | burst
  | gap
  | done (result : Bool)
deriving DecidableEq

def CapPc.phase : CapPc → CapPhase
  | .carrierStart => .carrier
  | .firstLevel | .burstStart | .burstLevel | .spaceStart | .burstDelay _ | .burstEnd => .burst
  | .gapStart | .gapFirst | .gapLevel | .gapDelay _ | .gapEnd => .gap
  | .done result => .done result

/-- What a read does to the table and the round. -/
inductive CapStep (args : CapArgs) (state : CapState) (read : UInt32) (next : CapState) : Prop where
  | kept (hphase : next.pc.phase = state.pc.phase) (hwidths : next.widths = state.widths)
      (hbitWth : next.bitWth = state.bitWth)
      (hlen : next.pulseWidthTabLen = state.pulseWidthTabLen)
      (hends : ¬EndsBurst args state read)
  | opened (hphase : state.pc.phase = .carrier) (hnext : next.pc.phase = .burst)
      (hempty : state.bitWth = 0) (hwidths : next.widths = state.widths)
      (hbitWth : next.bitWth = state.bitWth)
  | gapWritten (hphase : state.pc.phase = .carrier) (hnext : next.pc.phase = .burst)
      (hbegun : state.bitWth ≠ 0) (width : UInt16) (hwidths : next.widths = state.widths ++ [width])
      (hbitWth : next.bitWth = state.bitWth + 1)
  | burstWritten (hphase : state.pc.phase = .burst) (hnext : next.pc.phase = .gap)
      (hends : EndsBurst args state read) (width : UInt16)
      (hwidths : next.widths = state.widths ++ [width])
      (hbitWth : next.bitWth = state.bitWth + 1)
  | gaveUp (hphase : state.pc.phase = .burst ∨ state.pc.phase = .gap)
      (hnext : next.pc.phase = .done false) (hwidths : next.widths = state.widths)
      (hbitWth : next.bitWth = state.bitWth) (hends : ¬EndsBurst args state read)
  | again (hphase : state.pc.phase = .gap) (hnext : next.pc.phase = .carrier)
      (hroom : state.bitWth.toNat ≤ maxPulseLen) (hwidths : next.widths = state.widths)
      (hbitWth : next.bitWth = state.bitWth)
  | captured (hphase : state.pc.phase = .gap) (hnext : next.pc = .done true)
      (hbegun : state.bitWth ≠ 0) (hlen : next.pulseWidthTabLen = state.bitWth.toUInt16)
      (hwidths : next.widths.length = state.widths.length)
      (hbitWth : next.bitWth = state.bitWth)

section Rounds

variable {args : CapArgs} {state next : CapState} {read : UInt32}

theorem capStep_endRound (hphase : state.pc.phase = .gap) {before : CapState}
    (hwidths : before.widths = state.widths) (hbitWth : before.bitWth = state.bitWth)
    (hends : ¬EndsBurst args state read) : CapStep args state read before.endRound := by
  rw [CapState.endRound]
  split
  next => exact .gaveUp (.inr hphase) rfl hwidths hbitWth hends
  next hroom =>
    rw [hbitWth] at hroom
    exact .again hphase rfl (Nat.le_of_not_lt hroom) hwidths hbitWth

theorem capStep_endBurst (hphase : state.pc.phase = .burst) {before : CapState}
    (hwidths : before.widths = state.widths) (hbitWth : before.bitWth = state.bitWth)
    (hends : EndsBurst args state read) : CapStep args state read before.endBurst := by
  refine .burstWritten hphase rfl hends
    (getTimeCount before.carrierTimerStart before.spaceTimerStart / counter1Us).toUInt16 ?_ ?_
  · exact congrArg (· ++ _) hwidths
  · exact congrArg (· + 1) hbitWth

/-- The levels that were read end the burst, or the loop goes on. -/
theorem capStep_checkLevels (hphase : state.pc.phase = .burst) {before : CapState}
    (hwidths : before.widths = state.widths) (hbitWth : before.bitWth = state.bitWth)
    (hlen : before.pulseWidthTabLen = state.pulseWidthTabLen)
    (hends : EndsBurst args state read ↔ args.checkTo ≤ before.cntTo) :
    CapStep args state read (before.checkLevels args) := by
  rw [CapState.checkLevels]
  split
  next henough => exact capStep_endBurst hphase hwidths hbitWth (hends.mpr henough)
  next hfew => exact .kept hphase.symm hwidths hbitWth hlen (mt hends.mp hfew)

theorem capStep (args : CapArgs) (state : CapState) (read : UInt32) :
    CapStep args state read (state.step args read) := by
  obtain ⟨pc, widths, bitWth, tabLen, cntTo, cntWth, cnt0, cnt1, carrierTimerStart,
    spaceTimerStart, seqToTimerStart, checkCounter⟩ := state
  cases pc with
  | carrierStart =>
      rw [CapState.step]
      dsimp only
      by_cases hempty : bitWth = 0
      · rw [if_neg (not_not.mpr hempty)]
        exact .opened rfl rfl hempty rfl rfl
      · rw [if_pos hempty]
        exact .gapWritten rfl rfl hempty _ rfl rfl
  | firstLevel => exact .kept rfl rfl rfl rfl id
  | burstStart => exact .kept rfl rfl rfl rfl id
  | burstLevel =>
      rw [CapState.step]
      dsimp only
      split
      next hfirst => exact .kept rfl rfl rfl rfl fun hends => hends.1 hfirst
      next hother => exact capStep_checkLevels rfl rfl rfl rfl (and_iff_right hother)
  | spaceStart => exact capStep_checkLevels rfl rfl rfl rfl Iff.rfl
  | burstDelay delay =>
      rw [CapState.step]
      dsimp only
      cases delay.step args.checkPeriodUs read with
      | some delay => exact .kept rfl rfl rfl rfl id
      | none => exact .kept rfl rfl rfl rfl id
  | burstEnd =>
      rw [CapState.step]
      dsimp only
      split
      next hstopped => exact capStep_endBurst rfl rfl rfl hstopped
      next hruns =>
        split
        next => exact .gaveUp (.inl rfl) rfl rfl rfl hruns
        next => exact .kept rfl rfl rfl rfl hruns
  | gapStart => exact .kept rfl rfl rfl rfl id
  | gapFirst => exact .kept rfl rfl rfl rfl id
  | gapLevel =>
      rw [CapState.step]
      dsimp only
      split
      next => exact .kept rfl rfl rfl rfl id
      next => exact capStep_endRound rfl rfl rfl id
  | gapDelay delay =>
      rw [CapState.step]
      dsimp only
      cases delay.step args.checkPeriodUs read with
      | some delay => exact .kept rfl rfl rfl rfl id
      | none => exact .kept rfl rfl rfl rfl id
  | gapEnd =>
      rw [CapState.step]
      dsimp only
      split
      next => exact capStep_endRound rfl rfl rfl id
      next =>
        split
        next =>
          split
          next hbegun => exact .captured rfl rfl hbegun rfl (List.length_modifyHead ..) rfl
          next => exact .gaveUp (.inr rfl) rfl rfl rfl id
        next => exact .kept rfl rfl rfl rfl id
  | done result => exact .kept rfl rfl rfl rfl id

/-- How many widths there can be in the parts of a round. -/
def LengthFits : CapPhase → Nat → Prop
  | .carrier, length => length = 0 ∨ (length % 2 = 1 ∧ length ≤ maxPulseLen)
  | .burst, length => length % 2 = 0 ∧ length ≤ maxPulseLen
  | .gap, length => length % 2 = 1 ∧ length ≤ maxPulseLen + 1
  | .done true, length => length % 2 = 1 ∧ length ≤ maxPulseLen + 1
  | .done false, length => length ≤ maxPulseLen + 1

/-- What holds in every state of a capture. -/
structure CapState.Sound (state : CapState) : Prop where
  bitWth : state.bitWth.toNat = state.widths.length
  fits : LengthFits state.pc.phase state.widths.length
  captured : state.pc = .done true → state.pulseWidthTabLen.toNat = state.widths.length

theorem CapState.Sound.length_le (hsound : state.Sound) :
    state.widths.length ≤ maxPulseLen + 1 := by
  have hfits := hsound.fits
  cases hphase : state.pc.phase with
  | carrier =>
      rw [hphase] at hfits
      rcases hfits with hzero | ⟨-, hle⟩
      · rw [hzero]
        exact Nat.zero_le _
      · exact Nat.le_succ_of_le hle
  | burst =>
      rw [hphase] at hfits
      exact Nat.le_succ_of_le hfits.2
  | gap =>
      rw [hphase] at hfits
      exact hfits.2
  | done result =>
      rw [hphase] at hfits
      cases result with
      | false => exact hfits
      | true => exact hfits.2

theorem bitWth_succ (hsound : state.Sound) :
    (state.bitWth + 1).toNat = state.widths.length + 1 := by
  have hle : state.widths.length ≤ 101 := hsound.length_le
  rw [UInt32.toNat_add, hsound.bitWth, UInt32.toNat_one]
  omega

/-- A state that has not captured anything is sound if its length fits. -/
theorem CapState.sound_of_phase {phase : CapPhase} (hnext : next.pc.phase = phase)
    (hbitWth : next.bitWth.toNat = next.widths.length)
    (hfits : LengthFits phase next.widths.length) (hother : phase ≠ .done true) :
    next.Sound := by
  refine ⟨hbitWth, hnext ▸ hfits, fun hdone => ?_⟩
  rw [hdone] at hnext
  exact absurd hnext.symm hother

theorem CapState.Sound.step (hsound : state.Sound) (hstep : CapStep args state read next) :
    next.Sound := by
  have hfits := hsound.fits
  have hbit := hsound.bitWth
  have hsucc := bitWth_succ hsound
  cases hstep with
  | kept hphase hwidths hbitWth hlen =>
      refine ⟨by rw [hbitWth, hwidths, hbit], by rw [hphase, hwidths]; exact hfits, ?_⟩
      intro hdone
      have hresult : state.pc = .done true := by
        rw [hdone] at hphase
        cases hpc : state.pc with
        | done result =>
            rw [hpc] at hphase
            exact congrArg CapPc.done (CapPhase.done.inj hphase).symm
        | _ =>
            rw [hpc] at hphase
            cases hphase
      rw [hlen, hwidths, hsound.captured hresult]
  | opened hphase hnext hempty hwidths hbitWth =>
      have hzero : state.widths.length = 0 := by
        rw [← hbit, hempty]
        rfl
      refine CapState.sound_of_phase hnext (by rw [hbitWth, hwidths, hbit]) ?_ (by decide)
      rw [hwidths, hzero]
      exact ⟨rfl, Nat.zero_le _⟩
  | gapWritten hphase hnext hbegun width hwidths hbitWth =>
      have hlength : next.widths.length = state.widths.length + 1 := by
        rw [hwidths, List.length_append, List.length_singleton]
      refine CapState.sound_of_phase hnext (by rw [hbitWth, hlength, hsucc]) ?_ (by decide)
      rw [hphase] at hfits
      rcases hfits with hzero | ⟨hodd, hle⟩
      · have hempty : state.bitWth.toNat = (0 : UInt32).toNat := hbit.trans hzero
        exact absurd (UInt32.toNat_inj.mp hempty) hbegun
      · have hle : state.widths.length ≤ 100 := hle
        rw [hlength]
        exact ⟨by omega, (by omega : state.widths.length + 1 ≤ 100)⟩
  | burstWritten hphase hnext hends width hwidths hbitWth =>
      have hlength : next.widths.length = state.widths.length + 1 := by
        rw [hwidths, List.length_append, List.length_singleton]
      refine CapState.sound_of_phase hnext (by rw [hbitWth, hlength, hsucc]) ?_ (by decide)
      rw [hphase] at hfits
      obtain ⟨heven, hle⟩ := hfits
      rw [hlength]
      exact ⟨by omega, Nat.succ_le_succ hle⟩
  | gaveUp hphase hnext hwidths hbitWth =>
      refine CapState.sound_of_phase hnext (by rw [hbitWth, hwidths, hbit]) ?_ (by decide)
      rw [hwidths]
      exact hsound.length_le
  | again hphase hnext hroom hwidths hbitWth =>
      refine CapState.sound_of_phase hnext (by rw [hbitWth, hwidths, hbit]) ?_ (by decide)
      rw [hphase] at hfits
      rw [hwidths]
      exact .inr ⟨hfits.1, hbit ▸ hroom⟩
  | captured hphase hnext hbegun hlen hwidths hbitWth =>
      rw [hphase] at hfits
      have hlength : next.pulseWidthTabLen.toNat = next.widths.length := by
        have hle : state.widths.length ≤ 101 := hsound.length_le
        rw [hlen, UInt32.toNat_toUInt16, hbit, hwidths]
        omega
      refine ⟨by rw [hbitWth, hwidths, hbit], ?_, fun _ => hlength⟩
      rw [hnext, hwidths]
      exact hfits

theorem capIrc_sound (spaceTimerStart : UInt32) : (capIrc spaceTimerStart).Sound :=
  ⟨rfl, .inl rfl, fun hdone => CapPc.noConfusion hdone⟩

/-- In a state of a capture, the table is kept exactly if it is not full beyond its end. -/
theorem CapState.Sound.inTable_iff (hsound : state.Sound) :
    InTable state ↔ state.widths.length ≤ maxPulseLen := by
  constructor
  · exact fun hin => hin.widths
  · intro hle
    refine ⟨hle, fun hdone => ?_⟩
    have hlength := hsound.captured hdone
    have hfits := hsound.fits
    rw [hdone] at hfits
    obtain ⟨hodd, -⟩ := hfits
    rw [hlength]
    exact ⟨by omega, hle, hodd, rfl⟩

theorem EndsBurst.phase (hends : EndsBurst args state read) : state.pc.phase = .burst := by
  cases hpc : state.pc with
  | burstLevel => rfl
  | spaceStart => rfl
  | burstEnd => rfl
  | _ =>
      rw [EndsBurst, hpc] at hends
      exact hends.elim

/-- A step keeps the table exactly if it was kept before, and a burst that it ends has room. -/
theorem CapState.Sound.inTable_step_iff (hsound : state.Sound) (read : UInt32) :
    InTable (state.step args read) ↔ InTable state ∧ RoomForBurst args state read := by
  have hstep := capStep args state read
  rw [(hsound.step hstep).inTable_iff, hsound.inTable_iff]
  have hroom : ¬EndsBurst args state read → RoomForBurst args state read :=
    fun hno hends => absurd hends hno
  have hother : state.pc.phase ≠ .burst → RoomForBurst args state read :=
    fun hphase => hroom fun hends => hphase hends.phase
  have hfits := hsound.fits
  cases hstep with
  | kept hphase hwidths hbitWth hlen hends =>
      rw [hwidths]
      exact (and_iff_left (hroom hends)).symm
  | opened hphase hnext hempty hwidths hbitWth =>
      rw [hwidths]
      exact (and_iff_left (hother (by rw [hphase]; decide))).symm
  | gapWritten hphase hnext hbegun width hwidths hbitWth =>
      -- An odd number of widths leaves room for the gap.
      have hnextFits := (hsound.step (capStep args state read)).fits
      rw [hnext] at hnextFits
      rw [hphase] at hfits
      refine iff_of_true hnextFits.2 ⟨?_, hother (by rw [hphase]; decide)⟩
      rcases hfits with hzero | ⟨-, hle⟩
      · rw [hzero]
        exact Nat.zero_le _
      · exact hle
  | burstWritten hphase hnext hends width hwidths hbitWth =>
      rw [hwidths, List.length_append, List.length_singleton, Nat.succ_le_iff]
      exact ⟨fun hlt => ⟨Nat.le_of_lt hlt, fun _ => hlt⟩, fun hboth => hboth.2 hends⟩
  | gaveUp hphase hnext hwidths hbitWth hends =>
      rw [hwidths]
      exact (and_iff_left (hroom hends)).symm
  | again hphase hnext hlimit hwidths hbitWth =>
      rw [hwidths]
      exact (and_iff_left (hother (by rw [hphase]; decide))).symm
  | captured hphase hnext hbegun hlen hwidths hbitWth =>
      rw [hwidths]
      exact (and_iff_left (hother (by rw [hphase]; decide))).symm

end Rounds

/-- For every trace of levels and timer values, a capture stays inside its table exactly if no
burst ends when the table is full. -/
theorem capIrc_inTable_iff (args : CapArgs) (spaceTimerStart : UInt32) (reads : List UInt32) :
    Throughout (CapState.step args) InTable (capIrc spaceTimerStart) reads ↔
      Along (CapState.step args) (RoomForBurst args) (capIrc spaceTimerStart) reads := by
  have hsound := capIrc_sound spaceTimerStart
  have hstart : InTable (capIrc spaceTimerStart) := hsound.inTable_iff.mpr (Nat.zero_le _)
  rw [throughout_iff_along, and_iff_right hstart]
  apply along_congr_of_invariant fun state => state.Sound ∧ InTable state
  · rintro state read ⟨hsound, hin⟩
    rw [hsound.inTable_step_iff read, and_iff_right hin]
  · rintro state read ⟨hsound, hin⟩ hroom
    exact ⟨hsound.step (capStep args state read), (hsound.inTable_step_iff read).mpr ⟨hin, hroom⟩⟩
  · exact ⟨hsound, hstart⟩

/-- The reads of one round in which the timer stands still: a burst of one level, and a change of
the level after the gap began. -/
def stoppedRound : List UInt32 := [0, 0, 0, 0, 0, 0, 0, 0, 0, 0, 1]

/-- The fifty-first burst is written behind the table. -/
theorem fiftyone_bursts_not_inTable :
    ¬Throughout (CapState.step isrArgs) InTable (capIrc 0)
      ((List.replicate 51 stoppedRound).flatten) := by
  intro hthroughout
  have hlast := hthroughout.last.widths
  revert hlast
  decide +kernel

end CubieBle.Hal
