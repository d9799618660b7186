import CubieBle.Gatt.GlucoseFormat

/-! # The heart rate service

RR intervals are measured by a timer into a buffer, of which a notification takes as many as
fit behind the heart rate and the energy. An operation is `none` when it accesses memory outside
the buffer.
-/

namespace CubieBle.Gatt

open Machine

def hrmInitialValue : UInt16 := 100
def hrmMaxValue : UInt16 := 280

def hrmFlagMaskHrValue16bit : UInt8 := 0x01
def hrmFlagMaskSensorContactDetected : UInt8 := 0x02
def hrmFlagMaskSensorContactSupported : UInt8 := 0x04
def hrmFlagMaskExpendedEnergyRepresent : UInt8 := 0x08
def hrmFlagMaskRrIntervalRepresent : UInt8 := 0x10

def btHrsBodySensorLocationFinger : UInt8 := 3
def btHrsBodySensorLocationFoot : UInt8 := 6

def btHrsControlPointReserved : UInt8 := 0
def btHrsControlPointResetEnergyExpended : UInt8 := 1
def hrsErrControlPointNotSupport : Int := 0x80

/-- `BT_HRS_MAX_BUFFERED_RR_INTERVALS` -/
def maxBufferedRrIntervals : Nat := 20

/-- `MAX_HRM_LEN` -/
def maxHrmLen : Nat := 20

/-! ## Simulated sensors -/

structure SensorsimCfg where
  min : UInt32
  max : UInt32
  incr : UInt32
  startAtMax : Bool

structure SensorsimState where
  currentVal : UInt32
  isIncreasing : Bool
deriving DecidableEq

def sensorsimInit (cfg : SensorsimCfg) : SensorsimState :=
  if cfg.startAtMax then ⟨cfg.max, false⟩ else ⟨cfg.min, true⟩

def sensorsimIncrement (state : SensorsimState) (cfg : SensorsimCfg) : SensorsimState :=
  if cfg.incr < cfg.max - state.currentVal then
    { state with currentVal := state.currentVal + cfg.incr }
  else ⟨cfg.max, false⟩

def sensorsimDecrement (state : SensorsimState) (cfg : SensorsimCfg) : SensorsimState :=
  if cfg.incr < state.currentVal - cfg.min then
    { state with currentVal := state.currentVal - cfg.incr }
  else ⟨cfg.min, true⟩

/-- The measured value is the current value afterwards. -/
def sensorsimMeasure (state : SensorsimState) (cfg : SensorsimCfg) : SensorsimState :=
  if state.isIncreasing then sensorsimIncrement state cfg else sensorsimDecrement state cfg

def energyExpendedSimCfg : SensorsimCfg := ⟨0, 65535, 10, false⟩
def rrIntervalSimCfg : SensorsimCfg := ⟨100, 500, 1, false⟩

/-! ## The service -/

structure BtGattHrm where
  flags : UInt8
  hrmValue : UInt16
  energyExpended : UInt16
  rrInterval : Vector UInt16 20
  rrIntervalCount : UInt16
deriving DecidableEq

structure BtGattHrs where
  hrm : BtGattHrm
  bodySensorLocation : UInt8
  heartRateControlPoint : UInt8
  isHeartRateValueFormatUint16 : Bool
  isSensorContactDetected : Bool
  isSensorContactSupported : Bool
  isEnergyExpendedPresent : Bool
  isRrIntervalPresent : Bool
deriving DecidableEq

/-- The static variables of the service, and the values it has notified. -/
structure Hrs where
  gattHrs : BtGattHrs
  simulateHrm : Bool
  heartrate : UInt16
  energyExpendedSim : SensorsimState
  rrIntervalSim : SensorsimState
  notifications : List (List UInt8)
deriving DecidableEq

/-- `memmove` of some values to the front of the buffer. -/
def moveToFront (rrInterval : Vector UInt16 20) (start count : Nat) : Vector UInt16 20 :=
  Vector.ofFn fun i => if i.val < count then rrInterval[start + i.val]?.getD 0 else rrInterval[i]

/-- The value `bt_hrs_rr_interval_timer_handler` measures. -/
def Hrs.measuredRr (hrs : Hrs) : UInt16 :=
  (sensorsimMeasure hrs.rrIntervalSim rrIntervalSimCfg).currentVal.toUInt16

/-- A full buffer loses its oldest value. -/
def makeRoom (hrm : BtGattHrm) : BtGattHrm :=
  if hrm.rrIntervalCount.toNat = maxBufferedRrIntervals then
    { hrm with
      rrInterval := moveToFront hrm.rrInterval 1 (maxBufferedRrIntervals - 1)
      rrIntervalCount := hrm.rrIntervalCount - 1 }
  else hrm

/-- Add a value behind the others. -/
def addRr (hrm : BtGattHrm) (rrInterval : UInt16) : Option BtGattHrm :=
  if h : hrm.rrIntervalCount.toNat < 20 then
    some
      { hrm with
        rrInterval := hrm.rrInterval.set hrm.rrIntervalCount.toNat rrInterval
        rrIntervalCount := hrm.rrIntervalCount + 1 }
  else none

def btHrsRrIntervalTimerHandler (hrs : Hrs) : Option Hrs :=
  if hrs.gattHrs.isRrIntervalPresent then
    (addRr (makeRoom hrs.gattHrs.hrm) hrs.measuredRr).map fun hrm =>
      { hrs with
        gattHrs := { hrs.gattHrs with hrm }
        rrIntervalSim := sensorsimMeasure hrs.rrIntervalSim rrIntervalSimCfg }
  else some hrs

def btHrsEnergyExpendedTimerHandler (hrs : Hrs) : Hrs :=
  if hrs.gattHrs.isEnergyExpendedPresent then
    let sim := sensorsimMeasure hrs.energyExpendedSim energyExpendedSimCfg
    { hrs with
      energyExpendedSim := sim
      gattHrs.hrm.energyExpended := hrs.gattHrs.hrm.energyExpended + sim.currentVal.toUInt16 }
  else hrs

/-- `write_ctrl_point`; the first byte is looked at before the length. -/
def writeCtrlPoint (hrs : Hrs) (buf : Nat → UInt8) (len offset : UInt16) : Int × Hrs :=
  if buf 0 ≠ btHrsControlPointResetEnergyExpended then
    (btGattErr hrsErrControlPointNotSupport, hrs)
  else if 1 < offset.toNat + len.toNat then (btGattErr btAttErrInvalidOffset, hrs)
  else
    (len.toNat,
      { hrs with
        gattHrs.heartRateControlPoint :=
          if len = 1 then buf 0 else hrs.gattHrs.heartRateControlPoint
        gattHrs.hrm.energyExpended := 0 })

/-- The loop of `hrm_encode` over the remaining values: the bytes, the index where it stops, and
whether values are left. -/
def encodeRrIntervals (rrInterval : Vector UInt16 20) :
    Nat → Nat → Nat → List UInt8 × Nat × Bool
  | 0, i, _ => ([], i, false)
  | remaining + 1, i, len =>
      if maxHrmLen < len + 2 then ([], i, true)
      else
        let rest := encodeRrIntervals rrInterval remaining (i + 1) (len + 2)
        (u16Encode (rrInterval[i]?.getD 0) ++ rest.1, rest.2)

/-- The flags with the bit for the form of the heart rate and, with values buffered, the bit for
the RR intervals. -/
def encodedFlags (hrm : BtGattHrm) : UInt8 :=
  let flags :=
    if 0xff < hrm.hrmValue then hrm.flags ||| hrmFlagMaskHrValue16bit
    else hrm.flags &&& ~~~hrmFlagMaskHrValue16bit
  if 0 < hrm.rrIntervalCount then flags ||| hrmFlagMaskRrIntervalRepresent else flags

def encodedHeartRate (hrm : BtGattHrm) : List UInt8 :=
  if 0xff < hrm.hrmValue then u16Encode hrm.hrmValue else [hrm.hrmValue.toUInt8]

/-- The energy, or the bytes of the buffer that its place is left with. -/
def encodedEnergy (hrs : BtGattHrs) (encodedBuffer : Nat → UInt8) (included : Bool) :
    List UInt8 :=
  if included then
    if hrs.isEnergyExpendedPresent then u16Encode hrs.hrm.energyExpended else []
  else
    let len := 1 + (encodedHeartRate hrs.hrm).length
    [encodedBuffer len, encodedBuffer (len + 1)]

/-- `hrm_encode`: the bytes, and the measurement afterwards. -/
def hrmEncode (hrs : BtGattHrs) (encodedBuffer : Nat → UInt8) (energyExpendedIncluded : Bool) :
    Option (List UInt8 × BtGattHrm) :=
  let hrm := hrs.hrm
  let count := hrm.rrIntervalCount.toNat
  let front := encodedHeartRate hrm ++ encodedEnergy hrs encodedBuffer energyExpendedIncluded
  let rr := encodeRrIntervals hrm.rrInterval count 0 (1 + front.length)
  if maxBufferedRrIntervals < count then none
  else
    some
      ([encodedFlags hrm] ++ front ++ rr.1,
        { hrm with
          flags := encodedFlags hrm
          rrInterval :=
            if rr.2.2 then moveToFront hrm.rrInterval rr.2.1 (count - rr.2.1) else hrm.rrInterval
          rrIntervalCount := hrm.rrIntervalCount - rr.2.1.toUInt16 })

/-- The flags `hrs_init` sets for a configuration. -/
def hrsInitFlags (hrs : BtGattHrs) : UInt8 :=
  (if hrs.isHeartRateValueFormatUint16 then hrmFlagMaskHrValue16bit else 0) |||
    (if hrs.isSensorContactDetected then hrmFlagMaskSensorContactDetected else 0) |||
    (if hrs.isSensorContactSupported then hrmFlagMaskSensorContactSupported else 0) |||
    (if hrs.isEnergyExpendedPresent then hrmFlagMaskExpendedEnergyRepresent else 0) |||
    (if hrs.isRrIntervalPresent then hrmFlagMaskRrIntervalRepresent else 0)

/-- `hrs_init`; the heart rate and the subscription keep what was in memory. -/
def hrsInit (hrs : Hrs) (blsc : UInt8) : Hrs :=
  let gattHrs : BtGattHrs :=
    { hrm := ⟨0, 0, 0, Vector.replicate 20 0, 0⟩
      bodySensorLocation :=
        if blsc ≤ btHrsBodySensorLocationFoot then blsc else btHrsBodySensorLocationFinger
      heartRateControlPoint := btHrsControlPointReserved
      isHeartRateValueFormatUint16 := false
      isSensorContactDetected := true
      isSensorContactSupported := true
      isEnergyExpendedPresent := true
      isRrIntervalPresent := true }
  { hrs with
    gattHrs :=
      { gattHrs with hrm.flags := hrsInitFlags gattHrs, hrm.hrmValue := hrmInitialValue }
    energyExpendedSim := sensorsimInit energyExpendedSimCfg
    rrIntervalSim := sensorsimInit rrIntervalSimCfg }

def hrsNotify (hrs : Hrs) : Option Hrs :=
  if !hrs.simulateHrm then some hrs
  else
    let heartrate :=
      if hrs.heartrate + 1 = hrmMaxValue then hrmInitialValue else hrs.heartrate + 1
    let gattHrs := { hrs.gattHrs with hrm.hrmValue := heartrate }
    (hrmEncode gattHrs (fun _ => 0) gattHrs.isEnergyExpendedPresent).map fun encoded =>
      { hrs with
        heartrate
        gattHrs := { gattHrs with hrm := encoded.2 }
        notifications := hrs.notifications ++ [encoded.1] }

/-! ## Steps -/

inductive HrsAction where
  | rrTick
  | energyTick
  | writeCtrlPoint (buf : Nat → UInt8) (len offset : UInt16)
  | notify
  | cccCfgChanged (notify : Bool)

def hrsStep (state : Option Hrs) (action : HrsAction) : Option Hrs :=
  state.bind fun hrs =>
    match action with
    | .rrTick => btHrsRrIntervalTimerHandler hrs
    | .energyTick => some (btHrsEnergyExpendedTimerHandler hrs)
    | .writeCtrlPoint buf len offset => some (writeCtrlPoint hrs buf len offset).2
    | .notify => hrsNotify hrs
    | .cccCfgChanged notify => some { hrs with simulateHrm := notify }

end CubieBle.Gatt
