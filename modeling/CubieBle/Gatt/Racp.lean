import CubieBle.Gatt.RecordDb

/-! # The record access control point of the glucose service

A write is decoded into one global request and a delayed work item handles it. A
report runs as a loop on the work queue, which sleeps after each record of an
unfiltered report; further writes and confirmations arrive between its steps. An
operation is `none` when it accesses memory outside its array.
-/

namespace CubieBle.Gatt

def glsMeasFlagTimeOffset : UInt8 := 0x01
def glsMeasFlagConcTypeLoc : UInt8 := 0x02
def glsMeasFlagSensorStatus : UInt8 := 0x08
def glsMeasFlagContextInfo : UInt8 := 0x10

def glsContextFlagCarb : UInt8 := 0x01
def glsContextFlagMeal : UInt8 := 0x02
def glsContextFlagTester : UInt8 := 0x04
def glsContextFlagExercise : UInt8 := 0x08
def glsContextFlagMed : UInt8 := 0x10
def glsContextFlagHba1c : UInt8 := 0x40
def glsContextFlagExt : UInt8 := 0x80

def racpOpcodeReportRecs : UInt8 := 1
def racpOpcodeDeleteRecs : UInt8 := 2
def racpOpcodeAbortOperation : UInt8 := 3
def racpOpcodeReportNumRecs : UInt8 := 4
def racpOpcodeNumRecsResponse : UInt8 := 5
def racpOpcodeResponseCode : UInt8 := 6

def racpOperatorNull : UInt8 := 0
def racpOperatorAll : UInt8 := 1
def racpOperatorLessOrEqual : UInt8 := 2
def racpOperatorGreaterOrEqual : UInt8 := 3
def racpOperatorRange : UInt8 := 4
def racpOperatorFirst : UInt8 := 5
def racpOperatorLast : UInt8 := 6
def racpOperatorRfuStart : UInt8 := 7

def racpResponseReserved : UInt8 := 0
def racpResponseSuccess : UInt8 := 1
def racpResponseOpcodeUnsupported : UInt8 := 2
def racpResponseInvalidOperator : UInt8 := 3
def racpResponseOperatorUnsupported : UInt8 := 4
def racpResponseInvalidOperand : UInt8 := 5
def racpResponseNoRecordsFound : UInt8 := 6
def racpResponseAbortFailed : UInt8 := 7
def racpResponseOperandUnsupported : UInt8 := 9

def operandFilterTypeSeqNum : UInt8 := 0x01
def operandFilterTypeFacingTime : UInt8 := 0x02
def operandFilterTypeRfuStart : UInt8 := 0x07

def btGattErr (code : Int) : Int := -code
def btAttErrInvalidOffset : Int := 0x07
def glsErrProcedureInProgress : Int := 0x80
def glsErrCccImproperConf : Int := 0x81

/-! ## Encodings -/

def u16Encode (value : UInt16) : List UInt8 :=
  [(value &&& 0x00ff).toUInt8, ((value &&& 0xff00) >>> 8).toUInt8]

def dateTimeEncode (dateTime : DateTime) : List UInt8 :=
  u16Encode dateTime.year ++
    [dateTime.month, dateTime.day, dateTime.hours, dateTime.minutes, dateTime.seconds]

/-- The 16 bits of a short float, as both encoders compute them. -/
def IeeeSfloat.toUInt16 (value : IeeeSfloat) : UInt16 :=
  (value.exponent.toInt16.toUInt16 <<< 12) ||| (value.mantissa.toUInt16 &&& 0x0fff)

def glsMeasEncode (meas : GlsGlucoseMeas) : List UInt8 :=
  [meas.flags] ++ u16Encode meas.sequenceNumber ++ dateTimeEncode meas.baseTime ++
    (if meas.flags ||| glsMeasFlagTimeOffset ≠ 0 then u16Encode meas.timeOffset.toUInt16
      else []) ++
    (if meas.flags ||| glsMeasFlagConcTypeLoc ≠ 0 then
      u16Encode meas.glucoseConcentration.toUInt16 ++
        [(meas.type <<< 4) ||| meas.sampleLocation]
      else []) ++
    (if meas.flags ||| glsMeasFlagSensorStatus ≠ 0 then
      u16Encode meas.sensorStatusAnnunciation
      else [])

def glsMeasContextEncode (context : GlsMeasContext) : List UInt8 :=
  [context.flags] ++ u16Encode context.sequenceNumber ++
    (if context.flags ||| glsContextFlagExt ≠ 0 then [context.extendedFlags] else []) ++
    (if context.flags ||| glsContextFlagCarb ≠ 0 then
      [context.carbohydrateId] ++ u16Encode context.carbohydrate.toUInt16
      else []) ++
    (if context.flags ||| glsContextFlagMeal ≠ 0 then [context.meal] else []) ++
    (if context.flags ||| glsContextFlagTester ≠ 0 then [context.testerAndHealth] else []) ++
    (if context.flags ||| glsContextFlagExercise ≠ 0 then
      u16Encode context.exerciseDuration ++ [context.exerciseIntensity]
      else []) ++
    (if context.flags ||| glsContextFlagMed ≠ 0 then
      [context.medicationId] ++ u16Encode context.medication.toUInt16
      else []) ++
    (if context.flags ||| glsContextFlagHba1c ≠ 0 then u16Encode context.hba1c.toUInt16 else [])

structure GlsRacp where
  opcode : UInt8
  operator : UInt8
  operandLen : UInt8
  operand : Vector UInt8 6
deriving DecidableEq

/-- The size of the packed `struct gls_racp`. -/
def sizeofGlsRacp : Nat := 9

/-- Operand bytes that were not received keep their old values; an operand of more
than six bytes is copied past the end of the array. -/
def glsRacpDecode (data : List UInt8) (racp : GlsRacp) : Option GlsRacp :=
  if 8 < data.length then none
  else
    some
      { opcode := data[0]?.getD 0xff
        operator := data[1]?.getD 0xff
        operandLen := if 2 < data.length then (data.length - 2).toUInt8 else 0
        operand := Vector.ofFn fun i => data[i.val + 2]?.getD racp.operand[i] }

def glsRacpEncode (racp : GlsRacp) : List UInt8 :=
  [racp.opcode, racp.operator] ++ racp.operand.toList.take racp.operandLen.toNat

/-! ## The service -/

inductive GlsState where
  | noComm
  | racpProcActive
deriving DecidableEq

/-- Where the work queue stands: outside `gls_racp_handle`, at the head of the
report loop, or asleep inside `racp_report_records_all`. -/
inductive WorkQueue where
  | idle
  | looping
  | sleeping
deriving DecidableEq

inductive GlsNotification where
  | meas (value : List UInt8)
  | context (value : List UInt8)
deriving DecidableEq

/-- The static variables of the service. `workPending` says that the delayed work item
is submitted; `notifications` and `indications` are the values that were sent. -/
structure Gls where
  racpCcc : Bool
  racpIndicating : Bool
  glsRacpRequest : GlsRacp
  racpState : GlsState
  racpProcOperator : UInt8
  racpProcSeqNum : UInt16
  racpProcRecordIdx : UInt8
  racpProcRecordsReported : UInt8
  db : GlsDatabase
  workPending : Bool
  workQueue : WorkQueue
  notifications : List GlsNotification
  indications : List (List UInt8)
deriving DecidableEq

/-- What `bt_gatt_notify` returns for the measurement and the context of a record. -/
structure NotifyResults where
  meas : Int
  context : Int
deriving DecidableEq

def stateSet (gls : Gls) (newState : GlsState) : Gls :=
  { gls with racpState := newState }

def glsIndicateRsp (gls : Gls) : Gls :=
  stateSet { gls with racpIndicating := false } .noComm

/-- `bt_gatt_indicate` succeeds. -/
def racpSend (gls : Gls) (racp : GlsRacp) : Gls :=
  if gls.racpCcc && !gls.racpIndicating then
    { gls with
      indications := gls.indications ++ [glsRacpEncode racp]
      racpIndicating := true }
  else gls

def racpResponseCodeSend (gls : Gls) (opcode value : UInt8) : Gls :=
  racpSend gls
    { opcode := racpOpcodeResponseCode
      operator := racpOperatorNull
      operandLen := 2
      operand := #v[opcode, value, 0, 0, 0, 0] }

/-- The result of the last notification is returned, also where an earlier one failed. -/
def glucoseMeasSend (gls : Gls) (record : GlsRecord) (results : NotifyResults) : Int × Gls :=
  let gls :=
    if results.meas ≠ 0 then gls
    else
      { gls with
        notifications := gls.notifications ++ [.meas (glsMeasEncode record.meas)]
        racpProcRecordsReported := gls.racpProcRecordsReported + 1 }
  if record.meas.flags &&& glsMeasFlagContextInfo ≠ 0 then
    if results.context ≠ 0 then (results.context, gls)
    else
      (results.context,
        { gls with
          notifications := gls.notifications ++ [.context (glsMeasContextEncode record.context)] })
  else (results.meas, gls)

/-! ## Reports -/

/-- The work queue is asleep in the result if a record was sent. -/
def racpReportRecordsAll (gls : Gls) (results : NotifyResults) : Option (Int × Gls) :=
  if glsDbNumRecordsGet gls.db ≤ gls.racpProcRecordIdx.toUInt16 then
    some (0, stateSet gls .noComm)
  else
    match glsDbRecordGet gls.db gls.racpProcRecordIdx with
    | none => none
    | some (.error err) => some (err, gls)
    | some (.ok record) =>
        match glucoseMeasSend gls record results with
        | (0, gls) => some (0, { gls with workQueue := .sleeping })
        | (err, gls) => some (err, gls)

/-- The operator is one of the two. -/
def racpReportRecordsFirstLast (gls : Gls) (results : NotifyResults) : Option (Int × Gls) :=
  let totalRecords := glsDbNumRecordsGet gls.db
  if gls.racpProcRecordsReported ≠ 0 ∨ totalRecords = 0 then some (0, stateSet gls .noComm)
  else
    match glsDbRecordGet gls.db
      (if gls.racpProcOperator = racpOperatorFirst then 0 else (totalRecords - 1).toUInt8) with
    | none => none
    | some (.error err) => some (err, gls)
    | some (.ok record) => some (glucoseMeasSend gls record results)

/-- The `while` loop of `racp_report_records_greater_or_equal`: the index where it stops
and the record found there, if any. Reading the record after the last slot
is an access outside the array, so the fuel is more than the loop can use. -/
def findGreaterOrEqual (db : GlsDatabase) (seqNum : UInt16) :
    Nat → UInt8 → Option (UInt8 × Except Int (Option GlsRecord))
  | 0, _ => none
  | fuel + 1, idx =>
      if idx.toUInt16 < glsDbNumRecordsGet db then
        match glsDbRecordGet db idx with
        | none => none
        | some (.error err) => some (idx, .error err)
        | some (.ok record) =>
            if seqNum ≤ record.meas.sequenceNumber then some (idx, .ok (some record))
            else findGreaterOrEqual db seqNum fuel (idx + 1)
      else some (idx, .ok none)

def racpReportRecordsGreaterOrEqual (gls : Gls) (results : NotifyResults) :
    Option (Int × Gls) :=
  match findGreaterOrEqual gls.db gls.racpProcSeqNum (glsDbMaxRecords + 2)
    gls.racpProcRecordIdx with
  | none => none
  | some (idx, .error err) => some (err, { gls with racpProcRecordIdx := idx })
  | some (idx, .ok found) =>
      let gls := { gls with racpProcRecordIdx := idx }
      let (err, gls) :=
        match found with
        | some record => glucoseMeasSend gls record results
        | none => (0, gls)
      if err ≠ 0 then some (err, gls)
      else if idx.toUInt16 = glsDbNumRecordsGet gls.db then some (0, stateSet gls .noComm)
      else some (0, gls)

def racpReportRecordsCompleted (gls : Gls) : Gls :=
  racpResponseCodeSend gls racpOpcodeReportRecs
    (if 0 < gls.racpProcRecordsReported then racpResponseSuccess
      else racpResponseNoRecordsFound)

/-- The function that the `switch` of the report loop calls; there is none for the
operators that are not supported. -/
def racpReportRecords (gls : Gls) (results : NotifyResults) : Option (Option (Int × Gls)) :=
  if gls.racpProcOperator = racpOperatorAll then some (racpReportRecordsAll gls results)
  else if gls.racpProcOperator = racpOperatorFirst ∨ gls.racpProcOperator = racpOperatorLast then
    some (racpReportRecordsFirstLast gls results)
  else if gls.racpProcOperator = racpOperatorGreaterOrEqual then
    some (racpReportRecordsGreaterOrEqual gls results)
  else none

/-- The end of an iteration of the report loop. -/
def racpReportRecordsNext (gls : Gls) (err : Int) : Gls :=
  if err = 0 then
    if gls.racpState = .racpProcActive then
      { gls with racpProcRecordIdx := gls.racpProcRecordIdx + 1 }
    else racpReportRecordsCompleted gls
  else stateSet gls .noComm

/-- One iteration of the loop in `racp_report_records_procedure`, or its exit. -/
def racpReportRecordsProcedure (gls : Gls) (results : NotifyResults) : Option Gls :=
  if gls.racpState ≠ .racpProcActive then some { gls with workQueue := .idle }
  -- an abort takes the place of the request and so ends the loop
  else if gls.glsRacpRequest.opcode ≠ racpOpcodeReportRecs then
    some { gls with workQueue := .idle }
  else
    match racpReportRecords gls results with
    | none => some { stateSet gls .noComm with workQueue := .idle }
    | some none => none
    | some (some (err, gls)) =>
        if gls.workQueue = .sleeping then some gls
        else some (racpReportRecordsNext gls err)

/-- The rest of an iteration after `k_sleep`. -/
def racpReportRecordsWake (gls : Gls) : Gls :=
  racpReportRecordsNext { gls with workQueue := .looping } 0

/-! ## Requests -/

/-- An operator that is none of those defined. -/
def undefinedOperatorResponse (operator : UInt8) : UInt8 :=
  if racpOperatorRfuStart ≤ operator then racpResponseOperatorUnsupported
  else racpResponseInvalidOperator

/-- The response code for a request to report records or their number. -/
def reportResponse (request : GlsRacp) : UInt8 :=
  if request.operator = racpOperatorAll ∨ request.operator = racpOperatorFirst ∨
      request.operator = racpOperatorLast then
    if request.operandLen ≠ 0 then racpResponseInvalidOperand else racpResponseReserved
  else if request.operator = racpOperatorGreaterOrEqual then
    if request.operand[0] = operandFilterTypeSeqNum then
      if request.operandLen ≠ 3 then racpResponseInvalidOperand else racpResponseReserved
    else if request.operand[0] = operandFilterTypeFacingTime then racpResponseOperandUnsupported
    else if operandFilterTypeRfuStart ≤ request.operand[0] then racpResponseOperandUnsupported
    else racpResponseInvalidOperand
  else if request.operator = racpOperatorLessOrEqual ∨ request.operator = racpOperatorRange then
    racpResponseOperatorUnsupported
  else undefinedOperatorResponse request.operator

/-- The response code for a request to delete records. -/
def deleteResponse (request : GlsRacp) : UInt8 :=
  if request.operator = racpOperatorAll ∨ request.operator = racpOperatorFirst ∨
      request.operator = racpOperatorLast then
    if request.operandLen ≠ 0 then racpResponseInvalidOperand else racpResponseReserved
  else if request.operator = racpOperatorGreaterOrEqual ∨
      request.operator = racpOperatorLessOrEqual ∨ request.operator = racpOperatorRange then
    racpResponseOperatorUnsupported
  else undefinedOperatorResponse request.operator

def abortResponse (racpState : GlsState) (request : GlsRacp) : UInt8 :=
  if racpState = .racpProcActive then
    if request.operator ≠ racpOperatorNull then racpResponseInvalidOperator
    else if request.operandLen ≠ 0 then racpResponseInvalidOperand
    else racpResponseSuccess
  else racpResponseAbortFailed

/-- The verdict and the response code. -/
def isRequestToBeExecuted (racpState : GlsState) (request : GlsRacp) : Bool × UInt8 :=
  let verdict (code : UInt8) : Bool × UInt8 := (decide (code = racpResponseReserved), code)
  if request.opcode = racpOpcodeAbortOperation then verdict (abortResponse racpState request)
  -- refused without a response
  else if racpState ≠ .noComm then (false, racpResponseReserved)
  else if request.opcode = racpOpcodeReportRecs ∨ request.opcode = racpOpcodeReportNumRecs then
    verdict (reportResponse request)
  else if request.opcode = racpOpcodeDeleteRecs then verdict (deleteResponse request)
  else verdict racpResponseOpcodeUnsupported

def GlsRacp.seqNum (request : GlsRacp) : UInt16 :=
  (request.operand[2].toUInt16 <<< 8) ||| request.operand[1].toUInt16

/-- The report starts with the head of its loop. -/
def reportRecordsRequestExecute (gls : Gls) (request : GlsRacp) : Gls :=
  { stateSet gls .racpProcActive with
    racpProcRecordIdx := 0
    racpProcOperator := request.operator
    racpProcRecordsReported := 0
    racpProcSeqNum := request.seqNum
    workQueue := .looping }

def deleteRecordsRequestExecute (gls : Gls) (request : GlsRacp) : Option Gls :=
  let respond (db : GlsDatabase) (delNumRecords : UInt16) : Gls :=
    racpResponseCodeSend { gls with db } racpOpcodeDeleteRecs
      (if 0 < delNumRecords then racpResponseSuccess else racpResponseNoRecordsFound)
  if request.operator = racpOperatorAll then
    some (respond (glsDbRecordDeleteAll gls.db) (glsDbNumRecordsGet gls.db))
  else if request.operator = racpOperatorFirst then
    let (err, db) := glsDbRecordDeleteFirst gls.db
    some (respond db (if err = 0 then 1 else 0))
  else if request.operator = racpOperatorLast then
    match glsDbRecordDeleteLast gls.db with
    | none => none
    | some (err, db) => some (respond db (if err = 0 then 1 else 0))
  else some (respond gls.db 0)

/-- The loop of `report_num_records_request_execute` over the remaining records. -/
def countGreaterOrEqual (db : GlsDatabase) (seqNum : UInt16) :
    Nat → UInt16 → UInt16 → Option (Except Int UInt16)
  | 0, _, numRecords => some (.ok numRecords)
  | remaining + 1, i, numRecords =>
      match glsDbRecordGet db i.toUInt8 with
      | none => none
      | some (.error err) => some (.error err)
      | some (.ok record) =>
          countGreaterOrEqual db seqNum remaining (i + 1)
            (if seqNum ≤ record.meas.sequenceNumber then numRecords + 1 else numRecords)

def reportNumRecordsRequestExecute (gls : Gls) (request : GlsRacp) : Option Gls :=
  let totalRecords := glsDbNumRecordsGet gls.db
  let respond (numRecords : UInt16) : Gls :=
    racpSend gls
      { opcode := racpOpcodeNumRecsResponse
        operator := racpOperatorNull
        operandLen := 2
        operand := #v[(numRecords &&& 0xff).toUInt8, (numRecords >>> 8).toUInt8, 0, 0, 0, 0] }
  if request.operator = racpOperatorAll then some (respond totalRecords)
  else if request.operator = racpOperatorGreaterOrEqual then
    match countGreaterOrEqual gls.db request.seqNum totalRecords.toNat 0 0 with
    | none => none
    -- an error of the database leaves the request without a response
    | some (.error _) => some gls
    | some (.ok numRecords) => some (respond numRecords)
  else if request.operator = racpOperatorFirst ∨ request.operator = racpOperatorLast then
    some (respond (if 0 < totalRecords then 1 else 0))
  else some (respond 0)

/-- The work item; a report goes on with the steps of its loop. -/
def glsRacpHandle (gls : Gls) : Option Gls :=
  let request := gls.glsRacpRequest
  match isRequestToBeExecuted gls.racpState request with
  | (true, _) =>
      if request.opcode = racpOpcodeReportRecs then
        some (reportRecordsRequestExecute gls request)
      else if request.opcode = racpOpcodeReportNumRecs then
        reportNumRecordsRequestExecute gls request
      else if request.opcode = racpOpcodeDeleteRecs then deleteRecordsRequestExecute gls request
      else some gls
  | (false, code) =>
      if code ≠ racpResponseReserved then
        some (racpResponseCodeSend (stateSet gls .noComm) request.opcode code)
      else some gls

/-- The request is decoded before it is known whether it is accepted. -/
def glsRacpWrite (gls : Gls) (data : List UInt8) (offset : UInt16) : Option (Int × Gls) :=
  if !gls.racpCcc then some (btGattErr glsErrCccImproperConf, gls)
  else if sizeofGlsRacp < offset.toNat + data.length then
    some (btGattErr btAttErrInvalidOffset, gls)
  else
    match glsRacpDecode data gls.glsRacpRequest with
    | none => none
    | some request =>
        -- from here on the old request is lost, also if this one is refused
        let gls := { gls with glsRacpRequest := request }
        if request.opcode ≠ racpOpcodeAbortOperation ∧ gls.racpState ≠ .noComm then
          some (btGattErr glsErrProcedureInProgress, gls)
        else some (data.length, { gls with workPending := true })

/-! ## Steps -/

/-- What can happen next. A new measurement comes from the timer of the service. -/
inductive GlsAction where
  | racpWrite (data : List UInt8) (offset : UInt16)
  | racpHandle
  | loop (results : NotifyResults)
  | wake
  | indicateRsp
  | measurement (record : GlsRecord)
deriving DecidableEq

/-- The work item runs only when the work queue is free, and a confirmation follows
an indication; an action that is not possible changes nothing. -/
def Gls.step (gls : Gls) : GlsAction → Option Gls
  | .racpWrite data offset => (glsRacpWrite gls data offset).map Prod.snd
  | .racpHandle =>
      if gls.workPending ∧ gls.workQueue = .idle then
        glsRacpHandle { gls with workPending := false }
      else some gls
  | .loop results =>
      if gls.workQueue = .looping then racpReportRecordsProcedure gls results else some gls
  | .wake => if gls.workQueue = .sleeping then some (racpReportRecordsWake gls) else some gls
  | .indicateRsp => if gls.racpIndicating then some (glsIndicateRsp gls) else some gls
  | .measurement record => some { gls with db := (glsDbRecordAdd gls.db record).2 }

def glsStep (state : Option Gls) (action : GlsAction) : Option Gls :=
  state.bind fun gls => gls.step action

/-- The service after `gls_init`, with indications of the control point on or off. -/
def glsInit (racpCcc : Bool) (db : GlsDatabase) : Gls where
  racpCcc := racpCcc
  racpIndicating := false
  glsRacpRequest := ⟨0, 0, 0, #v[0, 0, 0, 0, 0, 0]⟩
  racpState := .noComm
  racpProcOperator := 0
  racpProcSeqNum := 0
  racpProcRecordIdx := 0
  racpProcRecordsReported := 0
  db := glsDbInit db
  workPending := false
  workQueue := .idle
  notifications := []
  indications := []

end CubieBle.Gatt
