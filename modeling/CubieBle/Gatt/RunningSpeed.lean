import CubieBle.Gatt.Cgms
import CubieBle.Machine.Run

/-! # The running speed and cadence service

A request of the control point is answered by an indication, and until that is confirmed no
other request is taken. The list of the supported sensor locations is copied behind the header
of the response, where there is room for one byte.
-/

namespace CubieBle.Gatt

open Machine

def rscsErrInProgress : Int := 0x80
def rscsErrCccConfig : Int := 0x81
def btAttErrInvalidAttributeLen : Int := 0x0d

def btGattCccNotify : UInt16 := 0x0001
def btGattCccIndicate : UInt16 := 0x0002

def scCpOpSetCwr : UInt8 := 0x01
def scCpOpUpdateLoc : UInt8 := 0x03
def scCpOpReqSuppLoc : UInt8 := 0x04
def scCpOpResponse : UInt8 := 0x10

def scCpRspSuccess : UInt8 := 0x01
def scCpRspOpNotSupp : UInt8 := 0x02
def scCpRspInvalParam : UInt8 := 0x03

def rscMeasFlagInstantaneousStrideLengthPresent : UInt8 := (1 : UInt8) <<< 0
def rscMeasFlagTotalDistancePresent : UInt8 := (1 : UInt8) <<< 1
def rscMeasFlagWalkingStatusBits : UInt8 := 0
def rscMeasFlagRunningStatusBits : UInt8 := (1 : UInt8) <<< 2

def rscSensorLocalOther : UInt8 := 0x00
def rscSensorLocalTopOfShoe : UInt8 := 0x01
def rscSensorLocalInShoe : UInt8 := 0x02
def rscSensorLocalHip : UInt8 := 0x03
def rscSensorLocalChest : UInt8 := 0x0e

def supportedLocations : List UInt8 :=
  [rscSensorLocalOther, rscSensorLocalTopOfShoe, rscSensorLocalInShoe, rscSensorLocalHip,
    rscSensorLocalChest]

/-- The size of `data` in `struct sc_ctrl_point_ind`. -/
def maxScCtrlPointDataLen : Nat := 1

/-! ## The service -/

structure RscsRscMeasurement where
  flag : UInt8 := 0
  instantaneousSpeed : UInt16 := 0
  instantaneousCadence : UInt8 := 0
  instantaneousStrideLength : UInt16 := 0
  totalDistance : UInt32 := 0
deriving DecidableEq

structure BtGattRscs where
  rscMeas : RscsRscMeasurement := {}
  rscMeasCcc : Bool := false
  sensorLocation : UInt8 := 0
  scControlPointCcc : Bool := false
deriving DecidableEq

/-- The response that is indicated: the header, and the bytes behind it. -/
structure ScCtrlPointInd where
  op : UInt8 := 0
  reqOp : UInt8 := 0
  status : UInt8 := 0
  data : List UInt8 := []
deriving DecidableEq

/-- The static variables of the service. -/
structure Rscs where
  gattRscs : BtGattRscs := {}
  currTotalDistance : UInt32 := 0
  cnt : Int32 := 0
  walking : Bool := false
  ctrlPointResp : ScCtrlPointInd := {}
  ctrlPointIndicating : Bool := false
deriving DecidableEq

def rscsInit : Rscs where
  gattRscs := { sensorLocation := rscSensorLocalInShoe }

def rscsRscMeasCccCfgChanged (rscs : Rscs) (value : UInt16) : Rscs :=
  { rscs with gattRscs := { rscs.gattRscs with rscMeasCcc := value = btGattCccNotify } }

def rscsScCtrlPointCccCfgChanged (rscs : Rscs) (value : UInt16) : Rscs :=
  { rscs with gattRscs := { rscs.gattRscs with scControlPointCcc := value = btGattCccIndicate } }

/-! ## The control point -/

/-- A write of `len` bytes; an indication that it causes is sent if `indicateErr` is 0. -/
structure ScCtrlPointWrite where
  buf : Nat → UInt8
  len : UInt16
  indicateErr : Int

namespace ScCtrlPointWrite

variable (write : ScCtrlPointWrite)

/-! The fields of `struct write_sc_ctrl_point_req`, two of which share their memory. -/

def op : UInt8 := write.buf 0

def location : UInt8 := write.buf 1

def totalDistance : UInt32 :=
  (write.buf 1).toUInt32 ||| (write.buf 2).toUInt32 <<< 8 ||| (write.buf 3).toUInt32 <<< 16 |||
    (write.buf 4).toUInt32 <<< 24

end ScCtrlPointWrite

/-- What a call of `bt_gatt_indicate` was given, and whether it succeeded. -/
structure Indication where
  resp : ScCtrlPointInd
  sent : Bool
deriving DecidableEq

/-- A finished write: what it returned, and the indications it tried to send. -/
structure ScCtrlPointWritten where
  result : Int
  rscs : Rscs
  indications : List Indication := []
deriving DecidableEq

/-- `ctrl_point_ind`; `none` is a `memcpy` beyond the response. -/
def ctrlPointInd (rscs : Rscs) (reqOp status : UInt8) (data : List UInt8) (indicateErr : Int) :
    Option (Rscs × Indication) :=
  if maxScCtrlPointDataLen < data.length then none
  else
    let resp : ScCtrlPointInd := { op := scCpOpResponse, reqOp, status, data }
    some ({ rscs with
        ctrlPointResp := resp
        ctrlPointIndicating := if indicateErr = 0 then true else rscs.ctrlPointIndicating },
      { resp, sent := indicateErr = 0 })

/-- The cases that only find a status. -/
def scCtrlPointStatus (rscs : Rscs) (write : ScCtrlPointWrite) : UInt8 × Rscs :=
  if write.op = scCpOpSetCwr then
    if write.len ≠ 5 then (scCpRspInvalParam, rscs)
    else
      (scCpRspSuccess,
        { rscs with
          gattRscs.rscMeas.totalDistance := write.totalDistance })
  else if write.op = scCpOpUpdateLoc then
    if write.len ≠ 2 then (scCpRspInvalParam, rscs)
    else if write.location = rscs.gattRscs.sensorLocation then (scCpRspSuccess, rscs)
    else if write.location ∈ supportedLocations then
      (scCpRspSuccess, { rscs with gattRscs.sensorLocation := write.location })
    else (scCpRspInvalParam, rscs)
  else if write.op = scCpOpReqSuppLoc then (scCpRspInvalParam, rscs)
  else (scCpRspOpNotSupp, rscs)

/-- The end of a write that is answered. -/
def scCtrlPointAnswer (rscs : Rscs) (write : ScCtrlPointWrite) (status : UInt8)
    (data : List UInt8) : Option ScCtrlPointWritten :=
  (ctrlPointInd rscs write.op status data write.indicateErr).map fun (rscs, indication) =>
    { result := write.len.toNat, rscs, indications := [indication] }

def rscsScCtrlPointWrite (rscs : Rscs) (write : ScCtrlPointWrite) : Option ScCtrlPointWritten :=
  if ¬rscs.gattRscs.scControlPointCcc then
    some { result := btGattErr rscsErrCccConfig, rscs }
  else if write.len = 0 then some { result := btGattErr btAttErrInvalidAttributeLen, rscs }
  else if rscs.ctrlPointIndicating then some { result := btGattErr rscsErrInProgress, rscs }
  else if write.op = scCpOpReqSuppLoc ∧ write.len = 1 then
    scCtrlPointAnswer rscs write scCpRspSuccess supportedLocations
  else
    let (status, rscs) := scCtrlPointStatus rscs write
    scCtrlPointAnswer rscs write status []

/-- The indication was confirmed, or failed later. -/
def ctrlPointIndicateRsp (rscs : Rscs) : Rscs := { rscs with ctrlPointIndicating := false }

/-! ## Measurements -/

def rscMeasurementSimulation (rscs : Rscs) : Rscs :=
  let meas := rscs.gattRscs.rscMeas
  let flag := (rscMeasFlagInstantaneousStrideLengthPresent ||| rscMeasFlagTotalDistancePresent) |||
    (if rscs.walking then rscMeasFlagWalkingStatusBits else rscMeasFlagRunningStatusBits)
  { rscs with
    gattRscs.rscMeas :=
      if flag &&& rscMeasFlagRunningStatusBits ≠ 0 then
        { flag, instantaneousSpeed := 1152, instantaneousCadence := 250,
          instantaneousStrideLength := 100, totalDistance := meas.totalDistance + 50 }
      else
        { flag, instantaneousSpeed := 384, instantaneousCadence := 110,
          instantaneousStrideLength := 75, totalDistance := meas.totalDistance + 15 } }

/-- The value that is notified. -/
def rscMeasurementNotify (rscs : Rscs) : Option (List UInt8) :=
  let meas := rscs.gattRscs.rscMeas
  if rscs.gattRscs.rscMeasCcc then
    some ([meas.flag] ++ u16Encode meas.instantaneousSpeed ++ [meas.instantaneousCadence] ++
      (if meas.flag &&& rscMeasFlagInstantaneousStrideLengthPresent ≠ 0 then
        u16Encode meas.instantaneousStrideLength else []) ++
      (if meas.flag &&& rscMeasFlagTotalDistancePresent ≠ 0 then
        u32Encode rscs.currTotalDistance else []))
  else none

/-- A notification fits into a buffer of the size of a measurement. -/
theorem length_rscMeasurementNotify (rscs : Rscs) :
    ∀ value ∈ rscMeasurementNotify rscs, value.length ≤ 10 := by
  intro value hvalue
  rw [rscMeasurementNotify] at hvalue
  split at hvalue
  · cases hvalue
    split_ifs
    all_goals exact Nat.le_of_ble_eq_true rfl
  · cases hvalue

/-- `rscs_timer_handler` up to the notification. -/
def rscsTimerHandler (rscs : Rscs) : Rscs :=
  let refresh := rscs.cnt % 3 = 0
  let rscs := rscMeasurementSimulation { rscs with cnt := rscs.cnt + 1 }
  if refresh then { rscs with currTotalDistance := rscs.gattRscs.rscMeas.totalDistance } else rscs

/-! ## Runs -/

inductive RscsAction where
  | write (write : ScCtrlPointWrite)
  | rscMeasCcc (value : UInt16)
  | scCtrlPointCcc (value : UInt16)
  | timer
  | indicateRsp

namespace Rscs

/-- One action; after a write beyond the response nothing is known. -/
def step (state : Option Rscs) (action : RscsAction) : Option Rscs :=
  state.bind fun rscs =>
    match action with
    | .write write => (rscsScCtrlPointWrite rscs write).map (·.rscs)
    | .rscMeasCcc value => some (rscsRscMeasCccCfgChanged rscs value)
    | .scCtrlPointCcc value => some (rscsScCtrlPointCccCfgChanged rscs value)
    | .timer => some (rscsTimerHandler rscs)
    | .indicateRsp => some (ctrlPointIndicateRsp rscs)

/-- Whether an indication was sent and not confirmed since. -/
def observe (state : Option Rscs) (action : RscsAction) (outstanding : Bool) : Bool :=
  match state, action with
  | some rscs, .write write =>
      outstanding || ((rscsScCtrlPointWrite rscs write).elim false fun written =>
        written.indications.any (·.sent))
  | _, .indicateRsp => false
  | _, _ => outstanding

end Rscs

/-- The service, and whether an indication is outstanding. -/
abbrev RscsRun := Tracked (Option Rscs) Bool

def rscsStep : RscsRun → RscsAction → RscsRun := trackedStep Rscs.step Rscs.observe

def rscsStart : RscsRun := ⟨some rscsInit, false⟩

/-! ## What a write may do -/

/-- A write is refused and changes nothing, or is answered by one indication of at most the bytes
that there is room for. It changes the total distance only if it is a whole request to do so, and
is refused while an indication is outstanding. -/
structure ScCtrlPointAnswered (rscs : Rscs) (outstanding : Bool) (write : ScCtrlPointWrite)
    (written : ScCtrlPointWritten) : Prop where
  answered :
    (written.result < 0 ∧ written.rscs = rscs ∧ written.indications = []) ∨
      (written.result = write.len.toNat ∧ ∃ status data sent,
        data.length ≤ maxScCtrlPointDataLen ∧
          written.indications = [⟨⟨scCpOpResponse, write.op, status, data⟩, sent⟩])
  distance :
    (written.rscs.gattRscs.rscMeas.totalDistance = rscs.gattRscs.rscMeas.totalDistance ∧
        written.rscs.currTotalDistance = rscs.currTotalDistance) ∨
      (write.op = scCpOpSetCwr ∧ write.len = 5)
  exclusive : outstanding → written.result < 0

/-- The sensor location of a state is one of those supported. -/
def RscsRun.LocationSupported (current : RscsRun) : Prop :=
  ∀ rscs, current.state = some rscs → rscs.gattRscs.sensorLocation ∈ supportedLocations

/-- A step of a run does what it may. -/
def AnswersOnce (current : RscsRun) (action : RscsAction) : Prop :=
  current.LocationSupported ∧ (rscsStep current action).LocationSupported ∧
    ∀ rscs write, current.state = some rscs → action = .write write → ∃ written,
      rscsScCtrlPointWrite rscs write = some written ∧
        ScCtrlPointAnswered rscs current.history write written

/-- The write gets through to the list of the supported locations. -/
def ListsLocations (rscs : Rscs) (write : ScCtrlPointWrite) : Prop :=
  rscs.gattRscs.scControlPointCcc = true ∧ rscs.ctrlPointIndicating = false ∧
    write.op = scCpOpReqSuppLoc ∧ write.len = 1

/-- A step that does not list the locations. -/
def LeavesLocations (current : RscsRun) (action : RscsAction) : Prop :=
  ∀ rscs write, current.state = some rscs → action = .write write → ¬ListsLocations rscs write

section Laws

variable {rscs : Rscs} {write : ScCtrlPointWrite} {current : RscsRun} {action : RscsAction}

theorem scCtrlPointStatus_indicating (rscs : Rscs) (write : ScCtrlPointWrite) :
    (scCtrlPointStatus rscs write).2.ctrlPointIndicating = rscs.ctrlPointIndicating := by
  unfold scCtrlPointStatus
  split_ifs
  all_goals rfl

theorem scCtrlPointStatus_sensorLocation (write : ScCtrlPointWrite)
    (hlocation : rscs.gattRscs.sensorLocation ∈ supportedLocations) :
    (scCtrlPointStatus rscs write).2.gattRscs.sensorLocation ∈ supportedLocations := by
  unfold scCtrlPointStatus
  split_ifs
  all_goals first | exact hlocation | assumption

theorem scCtrlPointStatus_distance (rscs : Rscs) (write : ScCtrlPointWrite) :
    ((scCtrlPointStatus rscs write).2.gattRscs.rscMeas.totalDistance =
          rscs.gattRscs.rscMeas.totalDistance ∧
        (scCtrlPointStatus rscs write).2.currTotalDistance = rscs.currTotalDistance) ∨
      (write.op = scCpOpSetCwr ∧ write.len = 5) := by
  by_cases hcwr : write.op = scCpOpSetCwr ∧ write.len = 5
  · exact .inr hcwr
  · rw [not_and] at hcwr
    left
    unfold scCtrlPointStatus
    split_ifs with hop hlen
    case neg => exact absurd (not_not.mp hlen) (hcwr hop)
    all_goals exact ⟨rfl, rfl⟩

/-- What the handler does with a write. -/
inductive WriteVerdict (rscs : Rscs) (write : ScCtrlPointWrite) :
    Option ScCtrlPointWritten → Prop where
  | refused (hkeeps : ¬ListsLocations rscs write) (code : Int) (hcode : 0 < code) :
      WriteVerdict rscs write (some { result := btGattErr code, rscs })
  | overrun (hlists : ListsLocations rscs write) : WriteVerdict rscs write none
  | indicated (hidle : rscs.ctrlPointIndicating = false) (hkeeps : ¬ListsLocations rscs write)
      (status : UInt8) (next : Rscs) (sent : Bool)
      (hstatus : scCtrlPointStatus rscs write = (status, next)) :
      WriteVerdict rscs write
        (some {
          result := write.len.toNat
          rscs := { next with
            ctrlPointResp := ⟨scCpOpResponse, write.op, status, []⟩
            ctrlPointIndicating := sent }
          indications := [⟨⟨scCpOpResponse, write.op, status, []⟩, sent⟩] })

theorem writeVerdict (rscs : Rscs) (write : ScCtrlPointWrite) :
    WriteVerdict rscs write (rscsScCtrlPointWrite rscs write) := by
  unfold rscsScCtrlPointWrite
  by_cases hccc : rscs.gattRscs.scControlPointCcc = true
  case neg =>
    rw [if_pos hccc]
    exact .refused (fun hlists => hccc hlists.1) rscsErrCccConfig (by decide)
  rw [if_neg (not_not.mpr hccc)]
  by_cases hlen : write.len = 0
  case pos =>
    rw [if_pos hlen]
    refine .refused (fun hlists => ?_) btAttErrInvalidAttributeLen (by decide)
    exact absurd (hlen.symm.trans hlists.2.2.2) (by decide)
  rw [if_neg hlen]
  by_cases hindicating : rscs.ctrlPointIndicating = true
  case pos =>
    rw [if_pos hindicating]
    refine .refused (fun hlists => ?_) rscsErrInProgress (by decide)
    exact absurd (hindicating.symm.trans hlists.2.1) (by decide)
  have hidle : rscs.ctrlPointIndicating = false := Bool.eq_false_of_not_eq_true hindicating
  rw [if_neg hindicating]
  by_cases hlist : write.op = scCpOpReqSuppLoc ∧ write.len = 1
  · rw [if_pos hlist]
    exact .overrun ⟨hccc, hidle, hlist⟩
  · rw [if_neg hlist]
    have hflag := scCtrlPointStatus_indicating rscs write
    rcases hstatus : scCtrlPointStatus rscs write with ⟨status, next⟩
    have hsent : (if write.indicateErr = 0 then true else next.ctrlPointIndicating) =
        decide (write.indicateErr = 0) := by
      rw [hstatus, hidle] at hflag
      by_cases herr : write.indicateErr = 0
      · rw [if_pos herr, decide_eq_true herr]
      · rw [if_neg herr, decide_eq_false herr, hflag]
    have hfits : ¬maxScCtrlPointDataLen < ([] : List UInt8).length := by decide
    dsimp only
    rw [scCtrlPointAnswer, ctrlPointInd, if_neg hfits, Option.map_some, hsent]
    exact .indicated hidle (fun hlists => hlist hlists.2.2) status next _ hstatus

/-- What holds in every state of a run: a location that is supported, and the flag is up while an
indication is outstanding. -/
structure RscsRun.Sound (current : RscsRun) : Prop where
  location : current.LocationSupported
  indicating : ∀ rscs, current.state = some rscs → current.history →
    rscs.ctrlPointIndicating = true

theorem WriteVerdict.not_lists {written : ScCtrlPointWritten}
    (hverdict : WriteVerdict rscs write (some written)) : ¬ListsLocations rscs write := by
  cases hverdict with
  | refused hkeeps => exact hkeeps
  | indicated _ hkeeps => exact hkeeps

theorem WriteVerdict.sensorLocation {written : ScCtrlPointWritten}
    (hverdict : WriteVerdict rscs write (some written))
    (hlocation : rscs.gattRscs.sensorLocation ∈ supportedLocations) :
    written.rscs.gattRscs.sensorLocation ∈ supportedLocations := by
  cases hverdict with
  | refused => exact hlocation
  | indicated _ _ status next sent hstatus =>
      have hnext := scCtrlPointStatus_sensorLocation write hlocation
      rw [hstatus] at hnext
      exact hnext

theorem WriteVerdict.answered {written : ScCtrlPointWritten} {outstanding : Bool}
    (hverdict : WriteVerdict rscs write (some written))
    (hindicating : outstanding → rscs.ctrlPointIndicating = true) :
    ScCtrlPointAnswered rscs outstanding write written := by
  cases hverdict with
  | refused _ code hcode =>
      have hresult : btGattErr code < 0 := Int.neg_neg_of_pos hcode
      exact ⟨.inl ⟨hresult, rfl, rfl⟩, .inl ⟨rfl, rfl⟩, fun _ => hresult⟩
  | indicated hidle _ status next sent hstatus =>
      refine ⟨.inr ⟨rfl, status, [], sent, Nat.zero_le _, rfl⟩, ?_, ?_⟩
      · have hdistance := scCtrlPointStatus_distance rscs write
        rw [hstatus] at hdistance
        exact hdistance
      · intro houtstanding
        exact absurd (hidle.symm.trans (hindicating houtstanding)) (by decide)

theorem WriteVerdict.indicating {written : ScCtrlPointWritten} {outstanding : Bool}
    (hverdict : WriteVerdict rscs write (some written))
    (hindicating : outstanding → rscs.ctrlPointIndicating = true)
    (hnext : outstanding || written.indications.any (·.sent)) :
    written.rscs.ctrlPointIndicating = true := by
  rw [Bool.or_eq_true] at hnext
  cases hverdict with
  | refused =>
      rcases hnext with houtstanding | hsent
      · exact hindicating houtstanding
      · exact absurd hsent Bool.false_ne_true
  | indicated hidle _ status next sent =>
      rcases hnext with houtstanding | hsent
      · exact absurd (hidle.symm.trans (hindicating houtstanding)) (by decide)
      · rw [List.any_cons, List.any_nil, Bool.or_false] at hsent
        exact hsent

theorem RscsRun.sound_some {outstanding : Bool}
    (hlocation : rscs.gattRscs.sensorLocation ∈ supportedLocations)
    (hindicating : outstanding → rscs.ctrlPointIndicating = true) :
    RscsRun.Sound ⟨some rscs, outstanding⟩ := by
  refine ⟨?_, ?_⟩
  · rintro _ ⟨⟩
    exact hlocation
  · rintro _ ⟨⟩
    exact hindicating

theorem RscsRun.sound_none (outstanding : Bool) : RscsRun.Sound ⟨none, outstanding⟩ := by
  refine ⟨?_, ?_⟩
  · rintro _ ⟨⟩
  · rintro _ ⟨⟩

theorem rscsTimerHandler_kept (rscs : Rscs) :
    (rscsTimerHandler rscs).gattRscs.sensorLocation = rscs.gattRscs.sensorLocation ∧
      (rscsTimerHandler rscs).ctrlPointIndicating = rscs.ctrlPointIndicating := by
  unfold rscsTimerHandler
  dsimp only
  split_ifs
  all_goals exact ⟨rfl, rfl⟩

theorem RscsRun.Sound.step (hsound : current.Sound) (action : RscsAction) :
    (rscsStep current action).Sound := by
  obtain ⟨_ | rscs, outstanding⟩ := current
  · exact RscsRun.sound_none _
  have hlocation := hsound.location rscs rfl
  have hindicating := hsound.indicating rscs rfl
  cases action with
  | write write =>
      have hverdict := writeVerdict rscs write
      rw [rscsStep, trackedStep, Rscs.step, Rscs.observe, Option.bind_some]
      dsimp only
      cases hwritten : rscsScCtrlPointWrite rscs write with
      | none => exact RscsRun.sound_none _
      | some written =>
          rw [hwritten] at hverdict
          exact RscsRun.sound_some (hverdict.sensorLocation hlocation)
            (hverdict.indicating hindicating)
  | rscMeasCcc value => exact RscsRun.sound_some hlocation hindicating
  | scCtrlPointCcc value => exact RscsRun.sound_some hlocation hindicating
  | timer =>
      obtain ⟨hsame, hflag⟩ := rscsTimerHandler_kept rscs
      exact RscsRun.sound_some (hsame ▸ hlocation) (hflag ▸ hindicating)
  | indicateRsp => exact RscsRun.sound_some hlocation fun hfalse => absurd hfalse Bool.false_ne_true

/-- In a state of a run, a step does what it may exactly if it does not list the locations. -/
theorem RscsRun.Sound.answersOnce_iff (hsound : current.Sound) (action : RscsAction) :
    AnswersOnce current action ↔ LeavesLocations current action := by
  constructor
  · rintro ⟨-, -, hwrite⟩ rscs write hstate rfl hlists
    obtain ⟨written, hwritten, -⟩ := hwrite rscs write hstate rfl
    have hverdict := writeVerdict rscs write
    rw [hwritten] at hverdict
    exact hverdict.not_lists hlists
  · intro hleaves
    refine ⟨hsound.location, (hsound.step action).location, ?_⟩
    rintro rscs write hstate rfl
    have hverdict := writeVerdict rscs write
    cases hwritten : rscsScCtrlPointWrite rscs write with
    | none =>
        rw [hwritten] at hverdict
        cases hverdict with
        | overrun hlists => exact absurd hlists (hleaves rscs write hstate rfl)
    | some written =>
        rw [hwritten] at hverdict
        exact ⟨written, rfl, hverdict.answered (hsound.indicating rscs hstate)⟩

theorem rscsStart_sound : rscsStart.Sound :=
  RscsRun.sound_some (by decide) fun hfalse => absurd hfalse Bool.false_ne_true

end Laws

/-- A run answers its requests once and within the response exactly if none of its writes lists
the supported locations. -/
theorem answersOnce_iff_leavesLocations (actions : List RscsAction) :
    Along rscsStep AnswersOnce rscsStart actions ↔
      Along rscsStep LeavesLocations rscsStart actions :=
  along_congr_of_invariant RscsRun.Sound (fun _ action hsound => hsound.answersOnce_iff action)
    (fun _ action hsound _ => hsound.step action) rscsStart_sound

/-- Indications are turned on and the supported locations requested. -/
def locationsRequest : List RscsAction :=
  [.scCtrlPointCcc btGattCccIndicate,
    .write { buf := fun _ => scCpOpReqSuppLoc, len := 1, indicateErr := 0 }]

/-- The five locations do not fit behind the header of the response. -/
theorem locationsRequest_not_answered :
    ¬Along rscsStep AnswersOnce rscsStart locationsRequest := by
  rintro ⟨-, ⟨-, -, hwrite⟩, -⟩
  obtain ⟨written, hwritten, -⟩ := hwrite _ _ rfl rfl
  have hnone : rscsScCtrlPointWrite (rscsScCtrlPointCccCfgChanged rscsInit btGattCccIndicate)
      ⟨fun _ => scCpOpReqSuppLoc, 1, 0⟩ = none := by decide
  exact Option.some_ne_none written (hwritten.symm.trans hnone)

end CubieBle.Gatt
