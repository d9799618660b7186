import CubieBle.Gatt.CgmsReads
import CubieBle.Gatt.ControlPoints

/-! # The record access control point of the continuous glucose service

Requests are decoded and handled as in the glucose service, over records that the timer of the
session adds. The timer does not wait for the work queue: it also runs between the records of a
report.
-/

namespace CubieBle.Gatt.ContinuousGlucose

open Machine

abbrev CgmsState := GlsState

/-- The static variables of the service. `reports` are the values that reports have notified,
apart from the periodic ones. -/
structure CgmsPoint where
  cgms : Cgms
  racpCcc : Bool
  racpIndicating : Bool
  cgmsRacpRequest : CgmsRacp
  racpState : CgmsState
  racpProcOperator : UInt8
  racpProcTimeOffset : UInt16
  racpProcRecordIdx : UInt8
  racpProcRecordsReported : UInt8
  workPending : Bool
  workQueue : WorkQueue
  reports : List (List UInt8)
  indications : List (List UInt8)

def stateSet (point : CgmsPoint) (newState : CgmsState) : CgmsPoint :=
  { point with racpState := newState }

def cgmsIndicateRsp (point : CgmsPoint) : CgmsPoint :=
  stateSet { point with racpIndicating := false } .noComm

/-- `bt_gatt_indicate` succeeds. -/
def racpSend (point : CgmsPoint) (racp : CgmsRacp) : CgmsPoint :=
  if point.racpCcc && !point.racpIndicating then
    { point with
      indications := point.indications ++ [cgmsRacpEncode racp]
      racpIndicating := true }
  else point

/-- The two bytes of the operand of a response. -/
def operandOf (first second : UInt8) : Vector UInt8 6 :=
  Vector.ofFn fun i => [first, second].getD i 0

def racpResponseCodeSend (point : CgmsPoint) (opcode value : UInt8) : CgmsPoint :=
  racpSend point
    { opcode := racpOpcodeResponseCode
      operator := racpOperatorNull
      operandLen := 2
      operand := operandOf opcode value }

/-- `err` is the result of `bt_gatt_notify`. -/
def cgmMeasSend (point : CgmsPoint) (record : CgmsRecord) (err : Int) : Int × CgmsPoint :=
  let (buf, _) := cgmsMeasEncode point.cgms.cgmFeature point.cgms.cgmMeas record.meas
  if err ≠ 0 then (err, point)
  else
    (err,
      { point with
        reports := point.reports ++ [buf]
        racpProcRecordsReported := point.racpProcRecordsReported + 1 })

/-! ## Reports -/

/-- The work queue is asleep in the result if a record was sent. -/
def racpReportRecordsAll (point : CgmsPoint) (result : Int) : Option (Int × CgmsPoint) :=
  if cgmsDbNumRecordsGet point.cgms.db ≤ point.racpProcRecordIdx.toUInt16 then
    some (0, stateSet point .noComm)
  else
    match cgmsDbRecordGet point.cgms.db point.racpProcRecordIdx with
    | none => none
    | some (.error err) => some (err, point)
    | some (.ok record) =>
        match cgmMeasSend point record result with
        | (0, point) => some (0, { point with workQueue := .sleeping })
        | (err, point) => some (err, point)

/-- The operator is one of the two. -/
def racpReportRecordsFirstLast (point : CgmsPoint) (result : Int) : Option (Int × CgmsPoint) :=
  let totalRecords := cgmsDbNumRecordsGet point.cgms.db
  if point.racpProcRecordsReported ≠ 0 ∨ totalRecords = 0 then some (0, stateSet point .noComm)
  else
    match cgmsDbRecordGet point.cgms.db
      (if point.racpProcOperator = racpOperatorFirst then 0 else (totalRecords - 1).toUInt8) with
    | none => none
    | some (.error err) => some (err, point)
    | some (.ok record) => some (cgmMeasSend point record result)

/-- The `while` loop of `racp_report_records_greater_or_equal`: the index where it stops and the
record found there, if any. -/
def findGreaterOrEqual (db : CgmsDatabase) (timeOffset : UInt16) :
    Nat → UInt8 → Option (UInt8 × Except Int (Option CgmsRecord))
  | 0, _ => none
  | fuel + 1, idx =>
      if idx.toUInt16 < cgmsDbNumRecordsGet db then
        match cgmsDbRecordGet db idx with
        | none => none
        | some (.error err) => some (idx, .error err)
        | some (.ok record) =>
            if timeOffset ≤ record.meas.timeOffset then some (idx, .ok (some record))
            else findGreaterOrEqual db timeOffset fuel (idx + 1)
      else some (idx, .ok none)

def racpReportRecordsGreaterOrEqual (point : CgmsPoint) (result : Int) :
    Option (Int × CgmsPoint) :=
  match findGreaterOrEqual point.cgms.db point.racpProcTimeOffset (cgmsDbMaxRecords + 2)
    point.racpProcRecordIdx with
  | none => none
  | some (idx, .error err) => some (err, { point with racpProcRecordIdx := idx })
  | some (idx, .ok found) =>
      let point := { point with racpProcRecordIdx := idx }
      let (err, point) :=
        match found with
        | some record => cgmMeasSend point record result
        | none => (0, point)
      if err ≠ 0 then some (err, point)
      else if idx.toUInt16 = cgmsDbNumRecordsGet point.cgms.db then
        some (0, stateSet point .noComm)
      else some (0, point)

def racpReportRecordsCompleted (point : CgmsPoint) : CgmsPoint :=
  racpResponseCodeSend point racpOpcodeReportRecs
    (if 0 < point.racpProcRecordsReported then racpResponseSuccess
      else racpResponseNoRecordsFound)

/-- The function that the `switch` of the report loop calls; there is none for the operators that
are not supported. -/
def racpReportRecords (point : CgmsPoint) (result : Int) : Option (Option (Int × CgmsPoint)) :=
  if point.racpProcOperator = racpOperatorAll then some (racpReportRecordsAll point result)
  else if point.racpProcOperator = racpOperatorFirst ∨
      point.racpProcOperator = racpOperatorLast then
    some (racpReportRecordsFirstLast point result)
  else if point.racpProcOperator = racpOperatorGreaterOrEqual then
    some (racpReportRecordsGreaterOrEqual point result)
  else none

/-- The end of an iteration of the report loop. -/
def racpReportRecordsNext (point : CgmsPoint) (err : Int) : CgmsPoint :=
  if err = 0 then
    if point.racpState = .racpProcActive then
      { point with racpProcRecordIdx := point.racpProcRecordIdx + 1 }
    else racpReportRecordsCompleted point
  else stateSet point .noComm

/-- One iteration of the loop in `racp_report_records_procedure`, or its exit. -/
def racpReportRecordsProcedure (point : CgmsPoint) (result : Int) : Option CgmsPoint :=
  if point.racpState ≠ .racpProcActive then some { point with workQueue := .idle }
  else if point.cgmsRacpRequest.opcode ≠ racpOpcodeReportRecs then
    some { point with workQueue := .idle }
  else
    match racpReportRecords point result with
    | none => some { stateSet point .noComm with workQueue := .idle }
    | some none => none
    | some (some (err, point)) =>
        if point.workQueue = .sleeping then some point
        else some (racpReportRecordsNext point err)

/-- The rest of an iteration after `k_sleep`. -/
def racpReportRecordsWake (point : CgmsPoint) : CgmsPoint :=
  racpReportRecordsNext { point with workQueue := .looping } 0

/-! ## Requests -/

/-- The function of `cgms.c` is that of `gls.c`. -/
def isRequestToBeExecuted (racpState : CgmsState) (request : CgmsRacp) : Bool × UInt8 :=
  Gatt.isRequestToBeExecuted racpState request

def timeOffsetOf (request : CgmsRacp) : UInt16 :=
  (request.operand[2]!.toUInt16 <<< 8) ||| request.operand[1]!.toUInt16

/-- The report starts with the head of its loop. -/
def reportRecordsRequestExecute (point : CgmsPoint) (request : CgmsRacp) : CgmsPoint :=
  { stateSet point .racpProcActive with
    racpProcRecordIdx := 0
    racpProcOperator := request.operator
    racpProcRecordsReported := 0
    racpProcTimeOffset := timeOffsetOf request
    workQueue := .looping }

def CgmsPoint.withDb (point : CgmsPoint) (db : CgmsDatabase) : CgmsPoint :=
  { point with cgms := { point.cgms with db } }

def deleteRecordsRequestExecute (point : CgmsPoint) (request : CgmsRacp) : Option CgmsPoint :=
  let respond (db : CgmsDatabase) (delNumRecords : UInt16) : CgmsPoint :=
    racpResponseCodeSend (point.withDb db) racpOpcodeDeleteRecs
      (if 0 < delNumRecords then racpResponseSuccess else racpResponseNoRecordsFound)
  let db := point.cgms.db
  if request.operator = racpOperatorAll then
    some (respond (cgmsDbRecordDeleteAll db) (cgmsDbNumRecordsGet db))
  else if request.operator = racpOperatorFirst then
    let (err, db) := cgmsDbRecordDeleteFirst db
    some (respond db (if err = 0 then 1 else 0))
  else if request.operator = racpOperatorLast then
    match cgmsDbRecordDeleteLast db with
    | none => none
    | some (err, db) => some (respond db (if err = 0 then 1 else 0))
  else some (respond db 0)

/-- The loop of `report_num_records_request_execute` over the remaining records. -/
def countGreaterOrEqual (db : CgmsDatabase) (timeOffset : UInt16) :
    Nat → UInt16 → UInt16 → Option (Except Int UInt16)
  | 0, _, numRecords => some (.ok numRecords)
  | remaining + 1, i, numRecords =>
      match cgmsDbRecordGet db i.toUInt8 with
      | none => none
      | some (.error err) => some (.error err)
      | some (.ok record) =>
          countGreaterOrEqual db timeOffset remaining (i + 1)
            (if timeOffset ≤ record.meas.timeOffset then numRecords + 1 else numRecords)

def reportNumRecordsRequestExecute (point : CgmsPoint) (request : CgmsRacp) : Option CgmsPoint :=
  let totalRecords := cgmsDbNumRecordsGet point.cgms.db
  let respond (numRecords : UInt16) : CgmsPoint :=
    racpSend point
      { opcode := racpOpcodeNumRecsResponse
        operator := racpOperatorNull
        operandLen := 2
        operand := operandOf (numRecords &&& 0xff).toUInt8 (numRecords >>> 8).toUInt8 }
  if request.operator = racpOperatorAll then some (respond totalRecords)
  else if request.operator = racpOperatorGreaterOrEqual then
    match countGreaterOrEqual point.cgms.db (timeOffsetOf request) totalRecords.toNat 0 0 with
    | none => none
    -- an error of the database leaves the request without a response
    | some (.error _) => some point
    | some (.ok numRecords) => some (respond numRecords)
  else if request.operator = racpOperatorFirst ∨ request.operator = racpOperatorLast then
    some (respond (if 0 < totalRecords then 1 else 0))
  else some (respond 0)

/-- The work item; a report goes on with the steps of its loop. -/
def cgmsRacpHandle (point : CgmsPoint) : Option CgmsPoint :=
  let request := point.cgmsRacpRequest
  match isRequestToBeExecuted point.racpState request with
  | (true, _) =>
      if request.opcode = racpOpcodeReportRecs then
        some (reportRecordsRequestExecute point request)
      else if request.opcode = racpOpcodeReportNumRecs then
        reportNumRecordsRequestExecute point request
      else if request.opcode = racpOpcodeDeleteRecs then deleteRecordsRequestExecute point request
      else some point
  | (false, code) =>
      if code ≠ racpResponseReserved then
        some (racpResponseCodeSend (stateSet point .noComm) request.opcode code)
      else some point

def btAttErrCccImproperConf : Int := 0xfd
def btAttErrProcedureInProgress : Int := 0xfe

/-- The offset is not looked at. -/
def cgmsRacpWrite (point : CgmsPoint) (data : List UInt8) : Option (Int × CgmsPoint) :=
  if !point.racpCcc then some (btGattErr btAttErrCccImproperConf, point)
  else
    match cgmsRacpDecode data point.cgmsRacpRequest with
    | none => none
    | some request =>
        let point := { point with cgmsRacpRequest := request }
        if request.opcode ≠ racpOpcodeAbortOperation ∧ point.racpState ≠ .noComm then
          some (btGattErr btAttErrProcedureInProgress, point)
        else some (data.length, { point with workPending := true })

/-! ## Steps -/

/-- What can happen next: the other operations of the service, its timer among them, the next
step of the work queue, or one of the operations of the control point. -/
inductive CgmsAction where
  | session (action : Gatt.CgmsAction)
  | work (result : Int)
  | racpWrite (data : List UInt8)
  | indicateRsp
  | racpCcc (enabled : Bool)

/-- The work item runs only when the work queue is free. -/
def CgmsPoint.work (point : CgmsPoint) (result : Int) : Option CgmsPoint :=
  match point.workQueue with
  | .looping => racpReportRecordsProcedure point result
  | .sleeping => some (racpReportRecordsWake point)
  | .idle =>
      if point.workPending then cgmsRacpHandle { point with workPending := false }
      else some point

def CgmsPoint.session (point : CgmsPoint) (action : Gatt.CgmsAction) : CgmsPoint :=
  { point with cgms := Gatt.cgmsStep point.cgms action }

/-- An action that is not possible changes nothing. -/
def CgmsPoint.step (point : CgmsPoint) : CgmsAction → Option CgmsPoint
  | .session action => some (point.session action)
  | .work result => point.work result
  | .racpWrite data => (cgmsRacpWrite point data).map Prod.snd
  | .indicateRsp => if point.racpIndicating then some (cgmsIndicateRsp point) else some point
  | .racpCcc enabled => some { point with racpCcc := enabled }

/-- An access outside an array is the outcome `none`. -/
def cgmsStep (state : Option CgmsPoint) (action : CgmsAction) : Option CgmsPoint :=
  state.bind fun point => point.step action

end CubieBle.Gatt.ContinuousGlucose
