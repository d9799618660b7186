import CubieBle.Gatt.HeartRateDecoding
import CubieBle.Machine.Overflow
import CubieBle.Machine.Run

/-! # RR intervals are streamed

The measured RR intervals pass through the buffer into the notifications. Those that a full
buffer loses are the only ones that are missing, and the others keep their order.
-/

namespace CubieBle.Gatt

open Machine

/-! ## Measuring -/

section Buffer

variable {hrm : BtGattHrm}

/-- Only a full buffer loses a value, its first one. -/
theorem makeRoom_spec (hcount : hrm.rrIntervalCount.toNat ≤ maxBufferedRrIntervals) :
    (makeRoom hrm).flags = hrm.flags ∧
      (makeRoom hrm).rrIntervalCount.toNat < maxBufferedRrIntervals ∧
      (makeRoom hrm).buffered =
        if hrm.rrIntervalCount.toNat = maxBufferedRrIntervals then hrm.buffered.tail
        else hrm.buffered := by
  rw [makeRoom]
  by_cases hfull : hrm.rrIntervalCount.toNat = maxBufferedRrIntervals
  · rw [if_pos hfull, if_pos hfull]
    have hpred : (hrm.rrIntervalCount - 1).toNat = 19 := by
      rw [uint16_toNat_pred (by rw [hfull]; decide), hfull]
      rfl
    refine ⟨rfl, ?_, ?_⟩
    · dsimp only
      rw [hpred]
      decide
    · rw [BtGattHrm.buffered, BtGattHrm.buffered, hpred, hfull]
      change (moveToFront hrm.rrInterval 1 19).toList.take 19 = _
      rw [take_moveToFront (show 1 + 19 ≤ 20 by decide), ← List.drop_one, List.drop_take]
      rfl
  · rw [if_neg hfull, if_neg hfull]
    exact ⟨rfl, Nat.lt_of_le_of_ne hcount hfull, rfl⟩

theorem addRr_spec (hcount : hrm.rrIntervalCount.toNat < maxBufferedRrIntervals)
    (rrInterval : UInt16) :
    ∃ next, addRr hrm rrInterval = some next ∧ next.flags = hrm.flags ∧
      next.rrIntervalCount.toNat = hrm.rrIntervalCount.toNat + 1 ∧
      next.buffered = hrm.buffered ++ [rrInterval] := by
  have hin : hrm.rrIntervalCount.toNat < 20 := hcount
  have hsucc : (hrm.rrIntervalCount + 1).toNat = hrm.rrIntervalCount.toNat + 1 :=
    uint16_toNat_succ (by omega)
  refine ⟨_, dif_pos hin, rfl, hsucc, ?_⟩
  rw [BtGattHrm.buffered, BtGattHrm.buffered]
  dsimp only
  rw [hsucc, Vector.toList_set, take_set_succ (by rwa [Vector.length_toList])]

/-- What a tick does: the value it measures is the last one in the buffer. -/
theorem rrTick_spec {hrs : Hrs} (hpresent : hrs.gattHrs.isRrIntervalPresent = true)
    (hcount : hrs.gattHrs.hrm.rrIntervalCount.toNat ≤ maxBufferedRrIntervals) :
    ∃ hrm sim,
      btHrsRrIntervalTimerHandler hrs =
          some { hrs with gattHrs := { hrs.gattHrs with hrm }, rrIntervalSim := sim } ∧
        hrm.flags = hrs.gattHrs.hrm.flags ∧
        hrm.rrIntervalCount.toNat ≤ maxBufferedRrIntervals ∧
        hrm.buffered =
          (if hrs.gattHrs.hrm.rrIntervalCount.toNat = maxBufferedRrIntervals then
            hrs.gattHrs.hrm.buffered.tail
          else hrs.gattHrs.hrm.buffered) ++ [hrs.measuredRr] := by
  obtain ⟨hflags, hroom, hkept⟩ := makeRoom_spec hcount
  obtain ⟨next, hadd, hnextFlags, hnextCount, hnext⟩ := addRr_spec hroom hrs.measuredRr
  refine ⟨next, sensorsimMeasure hrs.rrIntervalSim rrIntervalSimCfg, ?_, hnextFlags.trans hflags,
    ?_, ?_⟩
  · rw [btHrsRrIntervalTimerHandler, if_pos hpresent, hadd, Option.map_some]
  · rw [hnextCount]
    exact hroom
  · rw [hnext, hkept]

end Buffer

/-- A measurement takes its RR intervals from the front of the buffer. -/
theorem hrmEncode_present (hrs : BtGattHrs) (encodedBuffer : Nat → UInt8)
    (hpresent : hrs.isEnergyExpendedPresent = true)
    (hflag : hrs.hrm.flags &&& hrmFlagMaskExpendedEnergyRepresent ≠ 0)
    (hcount : hrs.hrm.rrIntervalCount.toNat ≤ maxBufferedRrIntervals) :
    ∃ bytes hrm reading,
      hrmEncode hrs encodedBuffer hrs.isEnergyExpendedPresent = some (bytes, hrm) ∧
        hrm.flags &&& hrmFlagMaskExpendedEnergyRepresent ≠ 0 ∧
        hrm.rrIntervalCount.toNat ≤ maxBufferedRrIntervals ∧
        bytes.length ≤ maxHrmLen ∧ hrmDecode bytes = some reading ∧
        reading.rrIntervals ++ hrm.buffered = hrs.hrm.buffered := by
  obtain ⟨bytes, hrm, removed, hencode, hencodes⟩ :=
    hrmEncode_spec encodedBuffer hrs.isEnergyExpendedPresent hcount
  refine ⟨bytes, hrm, ⟨hrs.hrm.hrmValue, some hrs.hrm.energyExpended, removed⟩, hencode, ?_, ?_,
    hencodes.length, ?_, hencodes.buffered⟩
  · rwa [hencodes.flags, encodedFlags_energy]
  · exact (Nat.le_add_right _ _).trans (hencodes.count.le.trans hcount)
  · rw [hpresent] at hencodes
    exact hrmDecode_of_present hencodes hpresent hflag

/-! ## Runs -/

/-- The measured values, and those that were the oldest of a full buffer when a tick came. -/
def observeRr (state : Option Hrs) (action : HrsAction) (log : OverflowLog UInt16) :
    OverflowLog UInt16 :=
  match state, action with
  | some hrs, .rrTick =>
      if hrs.gattHrs.isRrIntervalPresent then
        (if hrs.gattHrs.hrm.rrIntervalCount.toNat = maxBufferedRrIntervals then
          log.loseOldest maxBufferedRrIntervals
        else log).arrive hrs.measuredRr
      else log
  | _, _ => log

def RrTracked : Type :=
  Tracked (Option Hrs) (OverflowLog UInt16)

def rrStep : RrTracked → HrsAction → RrTracked :=
  trackedStep hrsStep observeRr

/-- The service after `hrs_init`, with nothing notified yet. -/
def rrInit (memory : Hrs) (blsc : UInt8) : RrTracked where
  state := some { hrsInit memory blsc with notifications := [] }
  history := ⟨[], []⟩

/-- The notifications and the buffer hold the measured values without the lost ones. -/
def RrIntervalsStreamed (current : RrTracked) : Prop :=
  ∃ (hrs : Hrs) (readings : List HrmReading), current.state = some hrs ∧
    hrs.gattHrs.hrm.rrIntervalCount.toNat ≤ maxBufferedRrIntervals ∧
    (∀ bytes ∈ hrs.notifications, bytes.length ≤ maxHrmLen) ∧
    hrs.notifications.map hrmDecode = readings.map some ∧
    hrs.gattHrs.hrm.buffered =
      current.history.arrived.drop
        (current.history.arrived.length - hrs.gattHrs.hrm.rrIntervalCount.toNat) ∧
    readings.flatMap HrmReading.rrIntervals ++ hrs.gattHrs.hrm.buffered = current.history.kept

/-- What holds in every state of a run. -/
structure RrStream (hrs : Hrs) (log : OverflowLog UInt16) : Prop where
  energyPresent : hrs.gattHrs.isEnergyExpendedPresent = true
  rrPresent : hrs.gattHrs.isRrIntervalPresent = true
  energyFlag : hrs.gattHrs.hrm.flags &&& hrmFlagMaskExpendedEnergyRepresent ≠ 0
  count : hrs.gattHrs.hrm.rrIntervalCount.toNat ≤ maxBufferedRrIntervals
  lengths : ∀ bytes ∈ hrs.notifications, bytes.length ≤ maxHrmLen
  streamed : ∃ readings : List HrmReading, hrs.notifications.map hrmDecode = readings.map some ∧
    Streamed log (readings.flatMap HrmReading.rrIntervals) hrs.gattHrs.hrm.buffered

def RrInv (current : RrTracked) : Prop :=
  ∃ hrs, current.state = some hrs ∧ RrStream hrs current.history

theorem RrInv.streamed {current : RrTracked} (hinv : RrInv current) :
    RrIntervalsStreamed current := by
  obtain ⟨hrs, hstate, hstream⟩ := hinv
  obtain ⟨readings, hreadings, hstreamed⟩ := hstream.streamed
  refine ⟨hrs, readings, hstate, hstream.count, hstream.lengths, hreadings, ?_, hstreamed.kept⟩
  have hlength := length_buffered hstream.count
  rw [← hlength]
  exact hstreamed.queued_eq

theorem rrInv_init (memory : Hrs) (blsc : UInt8) : RrInv (rrInit memory blsc) := by
  refine ⟨_, rfl, ?_⟩
  constructor
  case energyPresent => rfl
  case rrPresent => rfl
  case energyFlag =>
    change hrsInitFlags _ &&& _ ≠ 0
    exact (hrsInitFlags_energy _).mpr rfl
  case count => exact Nat.zero_le _
  case lengths => nofun
  case streamed => exact ⟨[], rfl, streamed_nil⟩

/-! ### Steps -/

section Step

variable {hrs : Hrs} {log : OverflowLog UInt16} (hstream : RrStream hrs log)
include hstream

/-- The energy, the control point and the subscription do not matter. -/
theorem RrStream.frame (energyExpended : UInt16) (energyExpendedSim : SensorsimState)
    (heartRateControlPoint : UInt8) (simulateHrm : Bool) :
    RrStream
      { hrs with
        simulateHrm
        energyExpendedSim
        gattHrs.heartRateControlPoint := heartRateControlPoint
        gattHrs.hrm.energyExpended := energyExpended } log :=
  ⟨hstream.energyPresent, hstream.rrPresent, hstream.energyFlag, hstream.count, hstream.lengths,
    hstream.streamed⟩

theorem RrStream.energyTick : RrStream (btHrsEnergyExpendedTimerHandler hrs) log := by
  rw [btHrsEnergyExpendedTimerHandler, if_pos hstream.energyPresent]
  exact hstream.frame _ _ _ _

theorem RrStream.writeCtrlPoint (buf : Nat → UInt8) (len offset : UInt16) :
    RrStream (writeCtrlPoint hrs buf len offset).2 log := by
  rw [Gatt.writeCtrlPoint]
  split
  next => exact hstream
  next =>
    split
    next => exact hstream
    next => exact hstream.frame _ _ _ _

theorem RrStream.rrTick :
    ∃ next, btHrsRrIntervalTimerHandler hrs = some next ∧
      RrStream next (observeRr (some hrs) .rrTick log) := by
  obtain ⟨hrm, sim, htick, hflags, hcount, hbuffered⟩ :=
    rrTick_spec hstream.rrPresent hstream.count
  refine ⟨_, htick, ?_⟩
  obtain ⟨readings, hreadings, hstreamed⟩ := hstream.streamed
  constructor
  case energyPresent => exact hstream.energyPresent
  case rrPresent => exact hstream.rrPresent
  case energyFlag =>
    change hrm.flags &&& _ ≠ 0
    rw [hflags]
    exact hstream.energyFlag
  case count => exact hcount
  case lengths => exact hstream.lengths
  case streamed =>
    refine ⟨readings, hreadings, ?_⟩
    change Streamed _ _ hrm.buffered
    rw [hbuffered, observeRr, if_pos hstream.rrPresent]
    apply Streamed.arrive
    split
    next hfull =>
      have hlength : hrs.gattHrs.hrm.buffered.length = maxBufferedRrIntervals := by
        rw [length_buffered hstream.count, hfull]
      have hne : hrs.gattHrs.hrm.buffered ≠ [] := by
        apply List.ne_nil_of_length_pos
        rw [hlength]
        decide
      rw [← hlength]
      exact hstreamed.loseOldest hne
    next => exact hstreamed

theorem RrStream.notify : ∃ next, hrsNotify hrs = some next ∧ RrStream next log := by
  rw [hrsNotify]
  split
  next => exact ⟨hrs, rfl, hstream⟩
  next =>
    obtain ⟨bytes, hrm, reading, hencode, hflag, hcount, hlength, hread, hbuffered⟩ :=
      hrmEncode_present
        { hrs.gattHrs with
          hrm.hrmValue :=
            if hrs.heartrate + 1 = hrmMaxValue then hrmInitialValue else hrs.heartrate + 1 }
        (fun _ => 0) hstream.energyPresent hstream.energyFlag hstream.count
    dsimp only
    rw [hencode, Option.map_some]
    refine ⟨_, rfl, ?_⟩
    obtain ⟨readings, hreadings, hstreamed⟩ := hstream.streamed
    constructor
    case energyPresent => exact hstream.energyPresent
    case rrPresent => exact hstream.rrPresent
    case energyFlag => exact hflag
    case count => exact hcount
    case lengths =>
      intro other hother
      rcases List.mem_append.mp hother with hold | hnew
      · exact hstream.lengths other hold
      · rw [List.mem_singleton.mp hnew]
        exact hlength
    case streamed =>
      refine ⟨readings ++ [reading], ?_, ?_⟩
      · dsimp only
        rw [List.map_append, List.map_append, hreadings, List.map_singleton, hread]
        rfl
      · rw [List.flatMap_append, List.flatMap_singleton]
        apply Streamed.leave
        rw [hbuffered]
        exact hstreamed

end Step

theorem rrInv_step {current : RrTracked} (action : HrsAction) (hinv : RrInv current) :
    RrInv (rrStep current action) := by
  obtain ⟨hrs, hstate, hstream⟩ := hinv
  obtain ⟨state, log⟩ := current
  obtain rfl : state = some hrs := hstate
  cases action with
  | rrTick => exact hstream.rrTick
  | energyTick => exact ⟨_, rfl, hstream.energyTick⟩
  | writeCtrlPoint buf len offset => exact ⟨_, rfl, hstream.writeCtrlPoint buf len offset⟩
  | notify => exact hstream.notify
  | cccCfgChanged notify => exact ⟨_, rfl, hstream.frame _ _ _ notify⟩

/-- From `hrs_init` on, no measured RR interval is lost but by a full buffer, and none is sent
twice or out of order. -/
theorem rr_intervals_streamed (memory : Hrs) (blsc : UInt8) (actions : List HrsAction) :
    Throughout rrStep RrIntervalsStreamed (rrInit memory blsc) actions := by
  have hall : Throughout rrStep RrInv (rrInit memory blsc) actions :=
    throughout_of_step RrInv (fun _ action => rrInv_step action) (rrInv_init memory blsc) actions
  exact hall.imp fun _ => RrInv.streamed

end CubieBle.Gatt
