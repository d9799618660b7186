import CubieBle.Gatt.RunningSpeed
import CubieBle.Gatt.Thermometer

/-! # The cycling speed and cadence service

The simulation advances the counters of the wheel and of the crank, and tells the encoder by
zeros which of them did not advance. A counter that wraps around to zero is taken for one of
these.
-/

namespace CubieBle.Gatt.CyclingSpeed

open Machine

def cscErrCccConfig : Int := 0x81

def cscWheelRevDataPresent : UInt8 := (1 : UInt8) <<< 0
def cscCrankRevDataPresent : UInt8 := (1 : UInt8) <<< 1

def cscLocOther : UInt8 := 0x00
def cscLocFrontWheel : UInt8 := 0x04
def cscLocLeftCrank : UInt8 := 0x05
def cscLocRightCrank : UInt8 := 0x06
def cscLocRearWheel : UInt8 := 0x0c

def supportedLocations : List UInt8 :=
  [cscLocOther, cscLocFrontWheel, cscLocRearWheel, cscLocLeftCrank, cscLocRightCrank]

/-- The static variables of the service and of the simulation. -/
structure Cscs where
  cwr : UInt32 := 0
  sensorLocation : UInt8 := 0
  cscSimulate : Bool := false
  ctrlPointConfigured : Bool := false
  lwet : UInt16 := 0
  ccr : UInt16 := 0
  lcet : UInt16 := 0
  i : UInt8 := 0
  randVal : UInt32 := 0
deriving DecidableEq

def cscMeasCccCfgChanged (cscs : Cscs) (value : UInt16) : Cscs :=
  { cscs with cscSimulate := value = btGattCccNotify }

def ctrlPointCccCfgChanged (cscs : Cscs) (value : UInt16) : Cscs :=
  { cscs with ctrlPointConfigured := value = btGattCccIndicate }

/-! ## The control point -/

/-- The value that `ctrl_point_ind` sends. -/
def ctrlPointInd (reqOp status : UInt8) (data : List UInt8) : List UInt8 :=
  [scCpOpResponse, reqOp, status] ++ data

/-- The result, the state after the write and what is sent. -/
def writeCtrlPoint (cscs : Cscs) (buf : Nat → UInt8) (len : UInt16) :
    Int × Cscs × Option (List UInt8) :=
  let op := buf 0
  let answer := fun (cscs : Cscs) (status : UInt8) (data : List UInt8) =>
    ((len.toNat : Int), cscs, some (ctrlPointInd op status data))
  if ¬cscs.ctrlPointConfigured then (btGattErr cscErrCccConfig, cscs, none)
  else if len = 0 then (btGattErr btAttErrInvalidAttributeLen, cscs, none)
  else if op = scCpOpSetCwr then
    if len ≠ 5 then answer cscs scCpRspInvalParam []
    else
      let cwr := u32Decode [buf 1, buf 2, buf 3, buf 4]
      answer { cscs with cwr := cwr } scCpRspSuccess []
  else if op = scCpOpUpdateLoc then
    if len ≠ 2 then answer cscs scCpRspInvalParam []
    else if buf 1 = cscs.sensorLocation then answer cscs scCpRspSuccess []
    else if buf 1 ∈ supportedLocations then
      answer { cscs with sensorLocation := buf 1 } scCpRspSuccess []
    else answer cscs scCpRspInvalParam []
  else if op = scCpOpReqSuppLoc then
    if len ≠ 1 then answer cscs scCpRspInvalParam []
    else answer cscs scCpRspSuccess supportedLocations
  else answer cscs scCpRspOpNotSupp []

/-! ## Measurements -/

def measurementNfy (cwr : UInt32) (lwet ccr lcet : UInt16) : List UInt8 :=
  let flags : UInt8 := 0
  let flags := if cwr ≠ 0 then flags ||| cscWheelRevDataPresent else flags
  let flags := if ccr ≠ 0 then flags ||| cscCrankRevDataPresent else flags
  [flags] ++ (if cwr ≠ 0 then u32Encode cwr ++ u16Encode lwet else []) ++
    (if ccr ≠ 0 then u16Encode ccr ++ u16Encode lcet else [])

/-- The first half of `csc_simulation`: the counters, every second and every third time. -/
def countEvents (cscs : Cscs) : Cscs :=
  let randVal := if 1000 < cscs.randVal then 1 else cscs.randVal + 1
  let rand := randVal
  let cscs := { cscs with randVal := randVal }
  let cscs :=
    if cscs.i % 2 = 0 then
      { cscs with lwet := cscs.lwet + (1050 + rand % 50).toUInt16, cwr := cscs.cwr + 2 }
    else cscs
  if cscs.i % 3 = 0 then
    { cscs with lcet := cscs.lcet + (1000 + rand % 50).toUInt16, ccr := cscs.ccr + 1 }
  else cscs

def cscSimulation (cscs : Cscs) : Cscs × List UInt8 :=
  let nfyWheel := cscs.i % 2 = 0
  let nfyCrank := cscs.i % 3 = 0
  let cscs := countEvents cscs
  let value := measurementNfy (if nfyWheel then cscs.cwr else 0) (if nfyWheel then cscs.lwet else 0)
    (if nfyCrank then cscs.ccr else 0) (if nfyCrank then cscs.lcet else 0)
  let cscs := if cscs.i % 64 = 0 then { cscs with lcet := 0, lwet := 0, i := 0 } else cscs
  ({ cscs with i := cscs.i + 1 }, value)

/-- `cscs_notify`, with the value that is notified. -/
def cscsNotify (cscs : Cscs) : Cscs × Option (List UInt8) :=
  if cscs.cscSimulate then
    let (next, value) := cscSimulation cscs
    (next, some value)
  else (cscs, none)

/-! ## Runs -/

inductive CscsAction where
  | notify
  | write (buf : Nat → UInt8) (len : UInt16)
  | cscMeasCcc (value : UInt16)
  | ctrlPointCcc (value : UInt16)

def cscsStep (cscs : Cscs) : CscsAction → Cscs
  | .notify => (cscsNotify cscs).1
  | .write buf len => (writeCtrlPoint cscs buf len).2.1
  | .cscMeasCcc value => cscMeasCccCfgChanged cscs value
  | .ctrlPointCcc value => ctrlPointCccCfgChanged cscs value

/-! ## What a client reads -/

/-- The counters of a measurement with their event times. -/
structure CscReading where
  wheel : Option (UInt32 × UInt16)
  crank : Option (UInt16 × UInt16)
deriving DecidableEq

/-- A client follows the flags. It counts the bytes that they announce. -/
def cscDecode (value : List UInt8) : CscReading × Nat :=
  let flags := value.getD 0 0
  let hasWheel := flags &&& cscWheelRevDataPresent ≠ 0
  let hasCrank := flags &&& cscCrankRevDataPresent ≠ 0
  let len := if hasWheel then 7 else 1
  ({ wheel := if hasWheel then some (u32Decode (value.drop 1), u16Decode (value.drop 5)) else none
     crank := if hasCrank then
        some (u16Decode (value.drop len), u16Decode (value.drop (len + 2))) else none },
    if hasCrank then len + 4 else len)

/-- A tick notifies each counter that it advances, with its current value and event time, and the
notification has the length that its flags announce. -/
def EventsNotified (cscs : Cscs) (action : CscsAction) : Prop :=
  action = .notify → cscs.cscSimulate = true →
    ∃ value, (cscsNotify cscs).2 = some value ∧ (cscDecode value).2 = value.length ∧
      ((cscsNotify cscs).1.cwr ≠ cscs.cwr →
        (cscDecode value).1.wheel = some ((countEvents cscs).cwr, (countEvents cscs).lwet)) ∧
      ((cscsNotify cscs).1.ccr ≠ cscs.ccr →
        (cscDecode value).1.crank = some ((countEvents cscs).ccr, (countEvents cscs).lcet))

/-- No counter that a tick advances wraps around to zero. -/
def NoCounterWraps (cscs : Cscs) (action : CscsAction) : Prop :=
  action = .notify → cscs.cscSimulate = true →
    (cscs.i % 2 = 0 → cscs.cwr ≠ 0xFFFFFFFE) ∧ (cscs.i % 3 = 0 → cscs.ccr ≠ 0xFFFF)

/-! ## The measurement -/

/-- A client reads the counters that are not zero, and the whole value. -/
theorem cscDecode_measurementNfy (cwr : UInt32) (lwet ccr lcet : UInt16) :
    cscDecode (measurementNfy cwr lwet ccr lcet) =
      ({ wheel := if cwr ≠ 0 then some (cwr, lwet) else none
         crank := if ccr ≠ 0 then some (ccr, lcet) else none },
        (measurementNfy cwr lwet ccr lcet).length) := by
  have hshort : ∀ value rest, (u16Encode value ++ rest).drop 2 = rest := fun _ _ => rfl
  have hlong : ∀ value rest, (u32Encode value ++ rest).drop 4 = rest := fun _ _ => rfl
  by_cases hcwr : cwr = 0
  · by_cases hccr : ccr = 0
    · simp [hcwr, hccr, measurementNfy, cscDecode]
    · have hvalue : measurementNfy cwr lwet ccr lcet =
          cscCrankRevDataPresent :: (u16Encode ccr ++ (u16Encode lcet ++ [])) := by
        simp [measurementNfy, hcwr, hccr]
      have hwheel : ¬cscCrankRevDataPresent &&& cscWheelRevDataPresent ≠ 0 := by decide
      have hcrank : cscCrankRevDataPresent &&& cscCrankRevDataPresent ≠ 0 := by decide
      rw [hvalue, cscDecode]
      simp only [List.getD_cons_zero, if_neg hwheel, if_pos hcrank, List.drop_succ_cons,
        List.drop_zero, u16Decode_encode, if_neg (not_not.mpr hcwr), if_pos hccr]
      rw [hshort, u16Decode_encode]
      rfl
  · by_cases hccr : ccr = 0
    · have hvalue : measurementNfy cwr lwet ccr lcet =
          cscWheelRevDataPresent :: (u32Encode cwr ++ (u16Encode lwet ++ [])) := by
        simp [measurementNfy, hcwr, hccr]
      have hwheel : cscWheelRevDataPresent &&& cscWheelRevDataPresent ≠ 0 := by decide
      have hcrank : ¬cscWheelRevDataPresent &&& cscCrankRevDataPresent ≠ 0 := by decide
      rw [hvalue, cscDecode]
      simp only [List.getD_cons_zero, if_pos hwheel, if_neg hcrank, List.drop_succ_cons,
        List.drop_zero, u32Decode_encode, if_pos hcwr, if_neg (not_not.mpr hccr)]
      rw [hlong, u16Decode_encode]
      rfl
    · have hvalue : measurementNfy cwr lwet ccr lcet =
          (cscWheelRevDataPresent ||| cscCrankRevDataPresent) :: (u32Encode cwr ++
            (u16Encode lwet ++ (u16Encode ccr ++ (u16Encode lcet ++ [])))) := by
        simp [measurementNfy, hcwr, hccr]
      have hwheel : (cscWheelRevDataPresent ||| cscCrankRevDataPresent) &&&
          cscWheelRevDataPresent ≠ 0 := by decide
      have hcrank : (cscWheelRevDataPresent ||| cscCrankRevDataPresent) &&&
          cscCrankRevDataPresent ≠ 0 := by decide
      rw [hvalue, cscDecode]
      simp only [List.getD_cons_zero, if_pos hwheel, if_pos hcrank, List.drop_succ_cons,
        List.drop_zero, u32Decode_encode, if_pos hcwr, if_pos hccr]
      have hvalueOf : ∀ rest, (u32Encode cwr ++ (u16Encode lwet ++ rest)).drop 6 = rest :=
        fun _ => rfl
      have htimeOf : ∀ rest, (u32Encode cwr ++ (u16Encode lwet ++ (u16Encode ccr ++ rest))).drop
          (6 + 2) = rest := fun _ => rfl
      rw [hlong, u16Decode_encode, hvalueOf, htimeOf, u16Decode_encode, u16Decode_encode]
      rfl

section Tick

variable {cscs : Cscs}

theorem countEvents_cwr (cscs : Cscs) :
    (countEvents cscs).cwr = if cscs.i % 2 = 0 then cscs.cwr + 2 else cscs.cwr := by
  rw [countEvents]
  split_ifs <;> rfl

theorem countEvents_ccr (cscs : Cscs) :
    (countEvents cscs).ccr = if cscs.i % 3 = 0 then cscs.ccr + 1 else cscs.ccr := by
  rw [countEvents]
  split_ifs <;> rfl

theorem cscSimulation_cwr (cscs : Cscs) :
    (cscSimulation cscs).1.cwr = (countEvents cscs).cwr := by
  rw [cscSimulation]
  split_ifs <;> rfl

theorem cscSimulation_ccr (cscs : Cscs) :
    (cscSimulation cscs).1.ccr = (countEvents cscs).ccr := by
  rw [cscSimulation]
  split_ifs <;> rfl

/-- A counter advances every second or third time, and always to another value. -/
theorem cwr_ne_iff (cscs : Cscs) : (cscSimulation cscs).1.cwr ≠ cscs.cwr ↔ cscs.i % 2 = 0 := by
  rw [cscSimulation_cwr, countEvents_cwr]
  split_ifs with htick
  · simp [htick]
  · simp [htick]

theorem ccr_ne_iff (cscs : Cscs) : (cscSimulation cscs).1.ccr ≠ cscs.ccr ↔ cscs.i % 3 = 0 := by
  rw [cscSimulation_ccr, countEvents_ccr]
  split_ifs with htick
  · simp [htick]
  · simp [htick]

theorem cscsNotify_of_simulate (hsimulate : cscs.cscSimulate = true) :
    cscsNotify cscs = ((cscSimulation cscs).1, some (cscSimulation cscs).2) := by
  rw [cscsNotify, if_pos hsimulate]

theorem cwr_add_two_ne_zero {cwr : UInt32} : cwr + 2 ≠ 0 ↔ cwr ≠ 0xFFFFFFFE := by
  rw [not_iff_not]
  constructor
  · intro hzero
    exact eq_neg_of_add_eq_zero_left hzero
  · intro hlast
    rw [hlast]
    rfl

theorem ccr_add_one_ne_zero {ccr : UInt16} : ccr + 1 ≠ 0 ↔ ccr ≠ 0xFFFF := by
  rw [not_iff_not]
  constructor
  · intro hzero
    exact eq_neg_of_add_eq_zero_left hzero
  · intro hlast
    rw [hlast]
    rfl

/-- A tick notifies its events exactly if no counter that it advances wraps around. -/
theorem eventsNotified_iff (cscs : Cscs) (action : CscsAction) :
    EventsNotified cscs action ↔ NoCounterWraps cscs action := by
  apply imp_congr_right
  intro _
  apply imp_congr_right
  intro hsimulate
  have hwheel := countEvents_cwr cscs
  have hcrank := countEvents_ccr cscs
  rw [cscsNotify_of_simulate hsimulate]
  simp only [Option.some.injEq, exists_eq_left', cwr_ne_iff, ccr_ne_iff]
  have hread := cscDecode_measurementNfy
    (if cscs.i % 2 = 0 then (countEvents cscs).cwr else 0)
    (if cscs.i % 2 = 0 then (countEvents cscs).lwet else 0)
    (if cscs.i % 3 = 0 then (countEvents cscs).ccr else 0)
    (if cscs.i % 3 = 0 then (countEvents cscs).lcet else 0)
  have hvalue : (cscSimulation cscs).2 = measurementNfy
    (if cscs.i % 2 = 0 then (countEvents cscs).cwr else 0)
    (if cscs.i % 2 = 0 then (countEvents cscs).lwet else 0)
    (if cscs.i % 3 = 0 then (countEvents cscs).ccr else 0)
    (if cscs.i % 3 = 0 then (countEvents cscs).lcet else 0) := rfl
  rw [hvalue, hread]
  simp only [true_and]
  apply and_congr
  · apply imp_congr_right
    intro htick
    rw [if_pos htick] at hwheel
    simp only [if_pos htick, hwheel]
    rw [← cwr_add_two_ne_zero]
    by_cases hzero : cscs.cwr + 2 = 0
    · simp [hzero]
    · simp [hzero]
  · apply imp_congr_right
    intro htick
    rw [if_pos htick] at hcrank
    simp only [if_pos htick, hcrank]
    rw [← ccr_add_one_ne_zero]
    by_cases hzero : cscs.ccr + 1 = 0
    · simp [hzero]
    · simp [hzero]

end Tick

/-- In every run, all ticks notify their events exactly if none of them advances a counter to
zero. -/
theorem events_notified_iff (cscs : Cscs) (actions : List CscsAction) :
    Along cscsStep EventsNotified cscs actions ↔ Along cscsStep NoCounterWraps cscs actions := by
  constructor
  · apply Along.imp
    intro state action hnotified
    exact (eventsNotified_iff state action).mp hnotified
  · apply Along.imp
    intro state action hnowrap
    exact (eventsNotified_iff state action).mpr hnowrap

/-- The client sets the revolutions to the last even value, and the next tick loses the wheel. -/
def wrappingActions : List CscsAction :=
  [.cscMeasCcc 1, .ctrlPointCcc 2,
    .write (fun k => [0x01, 0xFE, 0xFF, 0xFF, 0xFF].getD k 0) 5, .notify]

theorem wheel_event_lost : ¬Along cscsStep EventsNotified {} wrappingActions := by
  intro hall
  obtain ⟨-, -, -, hnotified, -⟩ := hall
  obtain ⟨value, hvalue, -, hwheel, -⟩ := hnotified rfl (by decide)
  have hsent : value = [0x02, 0x01, 0x00, 0xe9, 0x03] := by
    apply Option.some.inj
    rw [← hvalue]
    decide
  rw [hsent] at hwheel
  exact absurd (hwheel (by decide)) (by decide)

end CubieBle.Gatt.CyclingSpeed
