import CubieBle.Gatt.Racp

/-! # Laws of the record access control point

What the work item and one iteration of the report loop can do, and the facts about
the service that every step keeps.
-/

namespace CubieBle.Gatt

open Machine

/-! ## Responses -/

/-- The values that answer a request with the given opcode. -/
inductive Answers (opcode : UInt8) : List UInt8 → Prop where
  | responseCode (code : UInt8) :
      Answers opcode [racpOpcodeResponseCode, racpOperatorNull, opcode, code]
  | numRecs (hopcode : opcode = racpOpcodeReportNumRecs) (low high : UInt8) :
      Answers opcode [racpOpcodeNumRecsResponse, racpOperatorNull, low, high]

theorem glsRacpEncode_two (opcode operator first second : UInt8) :
    glsRacpEncode ⟨opcode, operator, 2, #v[first, second, 0, 0, 0, 0]⟩ =
      [opcode, operator, first, second] := by
  rfl

/-- With indications on, a value is sent exactly if no indication is outstanding. -/
theorem racpSend_cases {gls : Gls} (hccc : gls.racpCcc = true) (racp : GlsRacp) :
    (gls.racpIndicating = true ∧ racpSend gls racp = gls) ∨
      (gls.racpIndicating = false ∧
        racpSend gls racp =
          { gls with
            indications := gls.indications ++ [glsRacpEncode racp]
            racpIndicating := true }) := by
  unfold racpSend
  cases hbusy : gls.racpIndicating with
  | true => exact .inl ⟨rfl, by simp⟩
  | false => exact .inr ⟨rfl, by simp [hccc]⟩

/-- Sending a value leaves the work queue and the procedure as they are. -/
theorem racpSend_frame (gls : Gls) (racp : GlsRacp) :
    (racpSend gls racp).workQueue = gls.workQueue ∧
      (racpSend gls racp).workPending = gls.workPending ∧
      (racpSend gls racp).racpState = gls.racpState ∧
      (racpSend gls racp).glsRacpRequest = gls.glsRacpRequest := by
  unfold racpSend
  split
  next => exact ⟨rfl, rfl, rfl, rfl⟩
  next => exact ⟨rfl, rfl, rfl, rfl⟩

theorem racpSend_notifications (gls : Gls) (racp : GlsRacp) :
    (racpSend gls racp).notifications = gls.notifications := by
  unfold racpSend
  split
  next => rfl
  next => rfl

theorem racpSend_indications (gls : Gls) (racp : GlsRacp) :
    (racpSend gls racp).indications = gls.indications ++
      if gls.racpCcc && !gls.racpIndicating then [glsRacpEncode racp] else [] := by
  unfold racpSend
  split
  next => rfl
  next => exact (List.append_nil _).symm

theorem exists_racpSend_completed (gls : Gls) :
    ∃ racp, racpReportRecordsCompleted gls = racpSend gls racp ∧
      Answers racpOpcodeReportRecs (glsRacpEncode racp) := by
  refine ⟨_, rfl, ?_⟩
  rw [glsRacpEncode_two]
  exact .responseCode _

/-! ## The work item -/

/-- The operators of a report that is executed. -/
def Reportable (operator : UInt8) : Prop :=
  operator = racpOperatorAll ∨ operator = racpOperatorFirst ∨ operator = racpOperatorLast ∨
    operator = racpOperatorGreaterOrEqual

/-- What handling the request can do. -/
inductive HandleCase (gls : Gls) : Gls → Prop where
  | report (hopcode : gls.glsRacpRequest.opcode = racpOpcodeReportRecs)
      (hoperator : Reportable gls.glsRacpRequest.operator) :
      HandleCase gls (reportRecordsRequestExecute gls gls.glsRacpRequest)
  | response (db : GlsDatabase) (racpState : GlsState) (racp : GlsRacp) (hdb : db.Consistent)
      (hanswers : Answers gls.glsRacpRequest.opcode (glsRacpEncode racp)) :
      HandleCase gls (racpSend { gls with db, racpState } racp)
  | inProgress (hopcode : gls.glsRacpRequest.opcode ≠ racpOpcodeAbortOperation)
      (hstate : gls.racpState ≠ .noComm) : HandleCase gls gls

/-- The last slot is in use if the last record is deleted. -/
def DeletesInBounds (gls : Gls) : Prop :=
  (isRequestToBeExecuted gls.racpState gls.glsRacpRequest).1 = true →
    gls.glsRacpRequest.opcode = racpOpcodeDeleteRecs →
      gls.glsRacpRequest.operator = racpOperatorLast →
        (glsDbRecordDeleteLast gls.db).isSome = true

theorem reportable_of_response {request : GlsRacp}
    (hcode : reportResponse request = racpResponseReserved) : Reportable request.operator := by
  unfold reportResponse at hcode
  split at hcode
  next hplain =>
    rcases hplain with hall | hfirst | hlast
    · exact .inl hall
    · exact .inr (.inl hfirst)
    · exact .inr (.inr (.inl hlast))
  next =>
    split at hcode
    next hfilter => exact .inr (.inr (.inr hfilter))
    next =>
      -- every other operator is refused
      split at hcode
      next => exact absurd hcode (by decide)
      next =>
        unfold undefinedOperatorResponse at hcode
        split at hcode <;> exact absurd hcode (by decide)

theorem abortResponse_ne (racpState : GlsState) (request : GlsRacp) :
    abortResponse racpState request ≠ racpResponseReserved := by
  unfold abortResponse
  split
  · split
    · decide
    · split <;> decide
  · decide

theorem countGreaterOrEqual_ok {db : GlsDatabase} (hdb : db.Consistent) (seqNum : UInt16)
    (remaining : Nat) (i numRecords : UInt16)
    (hbound : i.toNat + remaining ≤ db.recordsNum.toNat) :
    ∃ total, countGreaterOrEqual db seqNum remaining i numRecords = some (.ok total) := by
  have hmax : db.recordsNum.toNat ≤ 20 := hdb.recordsNum_le
  induction remaining generalizing i numRecords with
  | zero => exact ⟨numRecords, rfl⟩
  | succ remaining ih =>
      have hidx : i.toUInt8.toNat = i.toNat := by
        rw [UInt16.toNat_toUInt8]
        omega
      obtain ⟨record, hget⟩ := hdb.recordGet (show i.toUInt8.toNat < _ by omega)
      have hnext : (i + 1).toNat = i.toNat + 1 := uint16_toNat_succ (by omega)
      unfold countGreaterOrEqual glsDbRecordGet
      rw [hget]
      exact ih (i + 1) _ (by omega)

theorem handleCase_num {gls : Gls} (hdb : gls.db.Consistent)
    (hopcode : gls.glsRacpRequest.opcode = racpOpcodeReportNumRecs) :
    ∃ next, reportNumRecordsRequestExecute gls gls.glsRacpRequest = some next ∧
      HandleCase gls next := by
  have hresponse : ∀ numRecords : UInt16, HandleCase gls (racpSend gls
      ⟨racpOpcodeNumRecsResponse, racpOperatorNull, 2,
        #v[(numRecords &&& 0xff).toUInt8, (numRecords >>> 8).toUInt8, 0, 0, 0, 0]⟩) := by
    intro numRecords
    refine .response gls.db gls.racpState _ hdb ?_
    rw [glsRacpEncode_two]
    exact .numRecs hopcode _ _
  unfold reportNumRecordsRequestExecute
  split
  next => exact ⟨_, rfl, hresponse _⟩
  next =>
    split
    next =>
      obtain ⟨total, hcount⟩ := countGreaterOrEqual_ok hdb gls.glsRacpRequest.seqNum
        (glsDbNumRecordsGet gls.db).toNat 0 0 (by simp [glsDbNumRecordsGet, Database.numRecordsGet])
      simp only [hcount]
      exact ⟨_, rfl, hresponse total⟩
    next =>
      split
      next => exact ⟨_, rfl, hresponse _⟩
      next => exact ⟨_, rfl, hresponse _⟩

theorem handleCase_delete {gls : Gls} (hdb : gls.db.Consistent)
    (hbounds : gls.glsRacpRequest.operator = racpOperatorLast →
      (glsDbRecordDeleteLast gls.db).isSome = true)
    (hopcode : gls.glsRacpRequest.opcode = racpOpcodeDeleteRecs) :
    ∃ next, deleteRecordsRequestExecute gls gls.glsRacpRequest = some next ∧
      HandleCase gls next := by
  have hresponse : ∀ (db : GlsDatabase) (code : UInt8), db.Consistent →
      HandleCase gls (racpResponseCodeSend { gls with db } racpOpcodeDeleteRecs code) := by
    intro db code hnext
    refine .response db gls.racpState _ hnext ?_
    rw [glsRacpEncode_two, hopcode]
    exact .responseCode code
  unfold deleteRecordsRequestExecute
  split
  next => exact ⟨_, rfl, hresponse _ _ (Database.consistent_deleteAll gls.db)⟩
  next =>
    split
    next => exact ⟨_, rfl, hresponse _ _ hdb.deleteFirst⟩
    next =>
      split
      next hlast =>
        obtain ⟨⟨err, db⟩, hdelete⟩ := Option.isSome_iff_exists.mp (hbounds hlast)
        rw [hdelete]
        exact ⟨_, rfl, hresponse _ _ (hdb.deleteLast hdelete)⟩
      next => exact ⟨_, rfl, hresponse _ _ hdb⟩

/-- A request is refused with a code, ignored while a procedure runs, or executed. -/
theorem isRequestToBeExecuted_cases (racpState : GlsState) (request : GlsRacp) :
    (∃ code, code ≠ racpResponseReserved ∧
        isRequestToBeExecuted racpState request = (false, code)) ∨
      (request.opcode ≠ racpOpcodeAbortOperation ∧ racpState ≠ .noComm ∧
        isRequestToBeExecuted racpState request = (false, racpResponseReserved)) ∨
      (((request.opcode = racpOpcodeReportRecs ∨ request.opcode = racpOpcodeReportNumRecs) ∧
          reportResponse request = racpResponseReserved ∨
          request.opcode = racpOpcodeDeleteRecs) ∧
        isRequestToBeExecuted racpState request = (true, racpResponseReserved)) := by
  have hverdict : ∀ code, code ≠ racpResponseReserved →
      (decide (code = racpResponseReserved), code) = (false, code) := by
    intro code hcode
    rw [decide_eq_false hcode]
  unfold isRequestToBeExecuted
  split
  next => exact .inl ⟨_, abortResponse_ne racpState request, hverdict _ (abortResponse_ne _ _)⟩
  next habort =>
    split
    next hstate => exact .inr (.inl ⟨habort, hstate, rfl⟩)
    next =>
      split
      next hreport =>
        by_cases hcode : reportResponse request = racpResponseReserved
        · exact .inr (.inr ⟨.inl ⟨hreport, hcode⟩, by rw [hcode]; rfl⟩)
        · exact .inl ⟨_, hcode, hverdict _ hcode⟩
      next =>
        split
        next hdelete =>
          by_cases hcode : deleteResponse request = racpResponseReserved
          · exact .inr (.inr ⟨.inr hdelete, by rw [hcode]; rfl⟩)
          · exact .inl ⟨_, hcode, hverdict _ hcode⟩
        next => exact .inl ⟨racpResponseOpcodeUnsupported, by decide, rfl⟩

/-- A request is refused with a response, or handled by the function of its opcode. -/
theorem handleCase (gls : Gls) (hdb : gls.db.Consistent) (hbounds : DeletesInBounds gls) :
    ∃ next, glsRacpHandle gls = some next ∧ HandleCase gls next := by
  have hrefuse : ∀ code, HandleCase gls
      (racpResponseCodeSend (stateSet gls .noComm) gls.glsRacpRequest.opcode code) := by
    intro code
    refine .response gls.db .noComm _ hdb ?_
    rw [glsRacpEncode_two]
    exact .responseCode code
  unfold glsRacpHandle
  rcases isRequestToBeExecuted_cases gls.racpState gls.glsRacpRequest with
    ⟨code, hcode, hverdict⟩ | ⟨habort, hstate, hverdict⟩ | ⟨hexecuted, hverdict⟩
  · simp only [hverdict]
    rw [if_pos hcode]
    exact ⟨_, rfl, hrefuse code⟩
  · simp only [hverdict]
    exact ⟨gls, rfl, .inProgress habort hstate⟩
  · simp only [hverdict]
    rcases hexecuted with ⟨hreport | hnum, hcode⟩ | hdelete
    · rw [if_pos hreport]
      exact ⟨_, rfl, .report hreport (reportable_of_response hcode)⟩
    · rw [if_neg (by rw [hnum]; decide), if_pos hnum]
      exact handleCase_num hdb hnum
    · rw [if_neg (by rw [hdelete]; decide), if_neg (by rw [hdelete]; decide), if_pos hdelete]
      exact handleCase_delete hdb (hbounds (by rw [hverdict]) hdelete) hdelete

/-! ## The report loop -/

/-- Both notifications of a record succeed. -/
def notifyOk : NotifyResults := ⟨0, 0⟩

theorem glucoseMeasSend_spec (gls : Gls) (record : GlsRecord) (results : NotifyResults) :
    ∃ err reported notifications,
      glucoseMeasSend gls record results =
        (err, { gls with notifications, racpProcRecordsReported := reported }) ∧
      (results = notifyOk → err = 0 ∧ reported = gls.racpProcRecordsReported + 1) := by
  unfold glucoseMeasSend
  by_cases hmeas : results.meas ≠ 0
  · have hfailed : results ≠ notifyOk := by
      rintro rfl
      exact hmeas rfl
    simp only [if_pos hmeas]
    split
    · split
      · exact ⟨_, gls.racpProcRecordsReported, gls.notifications, rfl, (absurd · hfailed)⟩
      · exact ⟨_, gls.racpProcRecordsReported, _, rfl, (absurd · hfailed)⟩
    · exact ⟨_, gls.racpProcRecordsReported, gls.notifications, rfl, (absurd · hfailed)⟩
  · simp only [if_neg hmeas]
    split
    · split
      next hcontext =>
        refine ⟨_, _, _, rfl, ?_⟩
        rintro rfl
        exact absurd rfl hcontext
      next hcontext => exact ⟨_, _, _, rfl, fun _ => ⟨by simpa using hcontext, rfl⟩⟩
    · exact ⟨_, _, _, rfl, fun _ => ⟨by simpa using hmeas, rfl⟩⟩

/-- The operators whose report moves through the database by its index. -/
def Indexed (operator : UInt8) : Prop :=
  operator = racpOperatorAll ∨ operator = racpOperatorGreaterOrEqual

/-- What the function called by an iteration of the report loop can do. -/
inductive ReportCase (gls : Gls) (results : NotifyResults) : Int → Gls → Prop where
  | sent (idx reported : UInt8) (notifications : List GlsNotification)
      (hidx : Indexed gls.racpProcOperator → gls.racpProcRecordIdx.toNat ≤ idx.toNat ∧
        idx.toNat < gls.db.recordsNum.toNat)
      (hreported : ¬ Indexed gls.racpProcOperator →
        gls.racpProcRecordsReported = 0 ∧ (results = notifyOk → reported = 1)) :
      ReportCase gls results 0
        { gls with
          racpProcRecordIdx := idx, racpProcRecordsReported := reported, notifications }
  | slept (reported : UInt8) (notifications : List GlsNotification)
      (hoperator : gls.racpProcOperator = racpOperatorAll)
      (hidx : gls.racpProcRecordIdx.toNat < gls.db.recordsNum.toNat) :
      ReportCase gls results 0
        { gls with
          racpProcRecordsReported := reported, notifications, workQueue := .sleeping }
  | completed (idx : UInt8) :
      ReportCase gls results 0 { gls with racpProcRecordIdx := idx, racpState := .noComm }
  | failed (err : Int) (idx reported : UInt8) (notifications : List GlsNotification)
      (herr : err ≠ 0) (hresults : results ≠ notifyOk) :
      ReportCase gls results err
        { gls with
          racpProcRecordIdx := idx, racpProcRecordsReported := reported, notifications }

theorem not_ok_of_err {results : NotifyResults} {err : Int} {reported reported' : UInt8}
    (hok : results = notifyOk → err = 0 ∧ reported = reported') (herr : err ≠ 0) :
    results ≠ notifyOk := fun hresults => herr (hok hresults).1

theorem reportCase_all {gls : Gls} (hdb : gls.db.Consistent)
    (hoperator : gls.racpProcOperator = racpOperatorAll) (results : NotifyResults) :
    ∃ err next, racpReportRecordsAll gls results = some (err, next) ∧
      ReportCase gls results err next := by
  unfold racpReportRecordsAll
  split
  next => exact ⟨_, _, rfl, .completed gls.racpProcRecordIdx⟩
  next hlt =>
    have hidx : gls.racpProcRecordIdx.toNat < gls.db.recordsNum.toNat := by
      rw [glsDbNumRecordsGet, Database.numRecordsGet, UInt16.le_iff_toNat_le,
        UInt8.toNat_toUInt16] at hlt
      omega
    obtain ⟨record, hget⟩ := hdb.recordGet hidx
    obtain ⟨err, reported, notifications, hsend, hok⟩ := glucoseMeasSend_spec gls record results
    unfold glsDbRecordGet
    simp only [hget, hsend]
    by_cases herr : err = 0
    · subst herr
      exact ⟨_, _, rfl, .slept reported notifications hoperator hidx⟩
    · refine ⟨err, _, ?_, .failed err gls.racpProcRecordIdx reported notifications herr
        (not_ok_of_err hok herr)⟩
      split
      next hzero => exact absurd (Prod.mk.inj hzero).1 herr
      next hother => rw [← (Prod.mk.inj hother).1, ← (Prod.mk.inj hother).2]

theorem firstLast_lt {db : GlsDatabase} (hdb : db.Consistent)
    (hnum : glsDbNumRecordsGet db ≠ 0) (operator : UInt8) :
    (if operator = racpOperatorFirst then 0
      else (glsDbNumRecordsGet db - 1).toUInt8).toNat < db.recordsNum.toNat := by
  have hmax : db.recordsNum.toNat ≤ 20 := hdb.recordsNum_le
  have hpos : 0 < db.recordsNum.toNat := by
    rw [← UInt16.toNat_zero, ← UInt16.lt_iff_toNat_lt, UInt16.pos_iff_ne_zero]
    exact hnum
  split
  next => exact hpos
  next =>
    rw [UInt16.toNat_toUInt8, glsDbNumRecordsGet, Database.numRecordsGet, uint16_toNat_pred hpos]
    omega

theorem reportCase_firstLast {gls : Gls} (hdb : gls.db.Consistent)
    (hoperator : ¬ Indexed gls.racpProcOperator) (results : NotifyResults) :
    ∃ err next, racpReportRecordsFirstLast gls results = some (err, next) ∧
      ReportCase gls results err next := by
  unfold racpReportRecordsFirstLast
  by_cases hdone : gls.racpProcRecordsReported ≠ 0 ∨ glsDbNumRecordsGet gls.db = 0
  · simp only [if_pos hdone]
    exact ⟨_, _, rfl, .completed gls.racpProcRecordIdx⟩
  · simp only [if_neg hdone]
    rw [not_or, not_not] at hdone
    obtain ⟨hreported, hnum⟩ := hdone
    obtain ⟨record, hget⟩ := hdb.recordGet (firstLast_lt hdb hnum gls.racpProcOperator)
    obtain ⟨err, reported, notifications, hsend, hok⟩ := glucoseMeasSend_spec gls record results
    unfold glsDbRecordGet
    simp only [hget, hsend]
    refine ⟨err, _, rfl, ?_⟩
    by_cases herr : err = 0
    · subst herr
      refine .sent gls.racpProcRecordIdx reported notifications (absurd · hoperator) ?_
      intro _
      refine ⟨hreported, ?_⟩
      intro hresults
      rw [(hok hresults).2, hreported]
      rfl
    · exact .failed err gls.racpProcRecordIdx reported notifications herr (not_ok_of_err hok herr)

theorem findGreaterOrEqual_spec {db : GlsDatabase} (hdb : db.Consistent) (seqNum : UInt16)
    (fuel : Nat) (idx : UInt8) (hidx : idx.toNat ≤ db.recordsNum.toNat)
    (hfuel : db.recordsNum.toNat < idx.toNat + fuel) :
    ∃ stop found, findGreaterOrEqual db seqNum fuel idx = some (stop, .ok found) ∧
      idx.toNat ≤ stop.toNat ∧
      (found = none ∧ stop.toNat = db.recordsNum.toNat ∨
        found.isSome = true ∧ stop.toNat < db.recordsNum.toNat) := by
  have hmax : db.recordsNum.toNat ≤ 20 := hdb.recordsNum_le
  induction fuel generalizing idx with
  | zero => omega
  | succ fuel ih =>
      unfold findGreaterOrEqual
      have hiff : idx.toUInt16 < glsDbNumRecordsGet db ↔ idx.toNat < db.recordsNum.toNat := by
        rw [UInt16.lt_iff_toNat_lt, UInt8.toNat_toUInt16]
        rfl
      by_cases hlt : idx.toNat < db.recordsNum.toNat
      · obtain ⟨record, hget⟩ := hdb.recordGet hlt
        simp only [if_pos (hiff.mpr hlt), glsDbRecordGet, hget]
        split
        next => exact ⟨idx, some record, rfl, Nat.le_refl _, .inr ⟨rfl, hlt⟩⟩
        next =>
          have hnext : (idx + 1).toNat = idx.toNat + 1 := uint8_toNat_succ (by omega)
          obtain ⟨stop, found, hfind, hle, hstop⟩ := ih (idx + 1) (by omega) (by omega)
          exact ⟨stop, found, hfind, by omega, hstop⟩
      · rw [if_neg (hiff.not.mpr hlt)]
        exact ⟨idx, none, rfl, Nat.le_refl _, .inl ⟨rfl, by omega⟩⟩

theorem reportCase_greaterOrEqual {gls : Gls} (hdb : gls.db.Consistent)
    (hoperator : gls.racpProcOperator = racpOperatorGreaterOrEqual)
    (hidx : gls.racpProcRecordIdx.toNat ≤ gls.db.recordsNum.toNat) (results : NotifyResults) :
    ∃ err next, racpReportRecordsGreaterOrEqual gls results = some (err, next) ∧
      ReportCase gls results err next := by
  have hmax : gls.db.recordsNum.toNat ≤ 20 := hdb.recordsNum_le
  have hindexed : Indexed gls.racpProcOperator := .inr hoperator
  obtain ⟨stop, found, hfind, hle, hstop⟩ := findGreaterOrEqual_spec hdb gls.racpProcSeqNum
    (glsDbMaxRecords + 2) gls.racpProcRecordIdx hidx (by unfold glsDbMaxRecords; omega)
  unfold racpReportRecordsGreaterOrEqual
  rcases hstop with ⟨rfl, hend⟩ | ⟨hfound, hlt⟩
  · have hnum : stop.toUInt16 = glsDbNumRecordsGet gls.db := by
      rw [← UInt16.toNat_inj, UInt8.toNat_toUInt16]
      exact hend
    simp only [hfind, ne_eq, not_true_eq_false, if_false, if_pos hnum]
    exact ⟨_, _, rfl, .completed stop⟩
  · obtain ⟨record, rfl⟩ := Option.isSome_iff_exists.mp hfound
    obtain ⟨err, reported, notifications, hsend, hok⟩ :=
      glucoseMeasSend_spec { gls with racpProcRecordIdx := stop } record results
    simp only [hfind, hsend]
    by_cases herr : err = 0
    · subst herr
      have hnum : stop.toUInt16 ≠ glsDbNumRecordsGet gls.db := by
        rw [ne_eq, ← UInt16.toNat_inj, UInt8.toNat_toUInt16]
        exact hlt.ne
      simp only [ne_eq, not_true_eq_false, if_false, if_neg hnum]
      exact ⟨_, _, rfl, .sent stop reported notifications (fun _ => ⟨hle, hlt⟩)
        (absurd hindexed ·)⟩
    · simp only [ne_eq, herr, not_false_eq_true, if_true]
      exact ⟨_, _, rfl, .failed err stop reported notifications herr (not_ok_of_err hok herr)⟩

theorem reportCase {gls : Gls} (hdb : gls.db.Consistent)
    (hoperator : Reportable gls.racpProcOperator)
    (hidx : Indexed gls.racpProcOperator →
      gls.racpProcRecordIdx.toNat ≤ gls.db.recordsNum.toNat) (results : NotifyResults) :
    ∃ err next, racpReportRecords gls results = some (some (err, next)) ∧
      ReportCase gls results err next := by
  unfold racpReportRecords
  split
  next hall =>
    obtain ⟨err, next, hreport, hcase⟩ := reportCase_all hdb hall results
    exact ⟨err, next, by rw [hreport], hcase⟩
  next hall =>
    split
    next hends =>
      have hindexed : ¬ Indexed gls.racpProcOperator := by
        rcases hends with hfirst | hlast
        · rw [hfirst]
          exact not_or.mpr ⟨by decide, by decide⟩
        · rw [hlast]
          exact not_or.mpr ⟨by decide, by decide⟩
      obtain ⟨err, next, hreport, hcase⟩ := reportCase_firstLast hdb hindexed results
      exact ⟨err, next, by rw [hreport], hcase⟩
    next hends =>
      have hfilter : gls.racpProcOperator = racpOperatorGreaterOrEqual := by
        rw [not_or] at hends
        rcases hoperator with hop | hop | hop | hop
        · exact absurd hop hall
        · exact absurd hop hends.1
        · exact absurd hop hends.2
        · exact hop
      rw [if_pos hfilter]
      obtain ⟨err, next, hreport, hcase⟩ :=
        reportCase_greaterOrEqual hdb hfilter (hidx (.inr hfilter)) results
      exact ⟨err, next, by rw [hreport], hcase⟩

/-! ## Steps -/

/-- What the service keeps: a running report has indications on, an operator it supports
and an index inside the database. -/
structure Sound (gls : Gls) : Prop where
  db : gls.db.Consistent
  ccc : gls.workPending = true ∨ gls.workQueue ≠ .idle → gls.racpCcc = true
  operator : gls.workQueue ≠ .idle → Reportable gls.racpProcOperator
  idx : gls.workQueue ≠ .idle → gls.racpState = .racpProcActive →
    Indexed gls.racpProcOperator → gls.racpProcRecordIdx.toNat ≤ gls.db.recordsNum.toNat
  sleeping : gls.workQueue = .sleeping →
    gls.racpProcRecordIdx.toNat < gls.db.recordsNum.toNat

/-- The iteration that runs next calls a report function and it returns an error. -/
def reportFails (gls : Gls) (results : NotifyResults) : Bool :=
  match racpReportRecords gls results with
  | some (some (err, _)) =>
      decide (gls.racpState = .racpProcActive ∧
        gls.glsRacpRequest.opcode = racpOpcodeReportRecs ∧ err ≠ 0)
  | _ => false

/-- What an iteration of the report loop can do. -/
inductive LoopCase (gls : Gls) (results : NotifyResults) : Gls → Prop where
  | exit (hstop : gls.racpState ≠ .racpProcActive ∨
        gls.glsRacpRequest.opcode ≠ racpOpcodeReportRecs) :
      LoopCase gls results { gls with workQueue := .idle }
  | sent (idx reported : UInt8) (notifications : List GlsNotification)
      (hactive : gls.racpState = .racpProcActive)
      (hidx : Indexed gls.racpProcOperator → gls.racpProcRecordIdx.toNat < idx.toNat ∧
        idx.toNat ≤ gls.db.recordsNum.toNat)
      (hreported : ¬ Indexed gls.racpProcOperator →
        gls.racpProcRecordsReported = 0 ∧ (results = notifyOk → reported = 1)) :
      LoopCase gls results
        { gls with
          racpProcRecordIdx := idx, racpProcRecordsReported := reported, notifications }
  | slept (reported : UInt8) (notifications : List GlsNotification)
      (hactive : gls.racpState = .racpProcActive)
      (hoperator : gls.racpProcOperator = racpOperatorAll)
      (hidx : gls.racpProcRecordIdx.toNat < gls.db.recordsNum.toNat) :
      LoopCase gls results
        { gls with
          racpProcRecordsReported := reported, notifications, workQueue := .sleeping }
  | completed (idx : UInt8) (racp : GlsRacp) (hactive : gls.racpState = .racpProcActive)
      (hanswers : Answers racpOpcodeReportRecs (glsRacpEncode racp)) :
      LoopCase gls results
        (racpSend { gls with racpProcRecordIdx := idx, racpState := .noComm } racp)
  | failed (idx reported : UInt8) (notifications : List GlsNotification)
      (hactive : gls.racpState = .racpProcActive)
      (hfails : reportFails gls results = true) (hresults : results ≠ notifyOk) :
      LoopCase gls results
        { gls with
          racpProcRecordIdx := idx, racpProcRecordsReported := reported, notifications
          racpState := .noComm }

theorem racpReportRecordsNext_active {gls : Gls} (hactive : gls.racpState = .racpProcActive) :
    racpReportRecordsNext gls 0 =
      { gls with racpProcRecordIdx := gls.racpProcRecordIdx + 1 } := by
  unfold racpReportRecordsNext
  rw [if_pos rfl, if_pos hactive]

theorem racpReportRecordsNext_done {gls : Gls} (hactive : gls.racpState ≠ .racpProcActive) :
    racpReportRecordsNext gls 0 = racpReportRecordsCompleted gls := by
  unfold racpReportRecordsNext
  rw [if_pos rfl, if_neg hactive]

theorem racpReportRecordsNext_failed (gls : Gls) {err : Int} (herr : err ≠ 0) :
    racpReportRecordsNext gls err = stateSet gls .noComm := by
  unfold racpReportRecordsNext
  rw [if_neg herr]

theorem loopCase {gls : Gls} (hsound : Sound gls) (hloop : gls.workQueue = .looping)
    (results : NotifyResults) :
    ∃ next, racpReportRecordsProcedure gls results = some next ∧ LoopCase gls results next := by
  have hmax : gls.db.recordsNum.toNat ≤ 20 := hsound.db.recordsNum_le
  have hrunning : gls.workQueue ≠ .idle := by
    rw [hloop]
    decide
  have hawake : gls.workQueue ≠ .sleeping := by
    rw [hloop]
    decide
  unfold racpReportRecordsProcedure
  split
  next hstate => exact ⟨_, rfl, .exit (.inl hstate)⟩
  next hstate =>
    split
    next hopcode => exact ⟨_, rfl, .exit (.inr hopcode)⟩
    next hopcode =>
      rw [not_not] at hstate hopcode
      obtain ⟨err, next, hreport, hcase⟩ := reportCase hsound.db (hsound.operator hrunning)
        (hsound.idx hrunning hstate) results
      simp only [hreport]
      cases hcase with
      | sent idx reported notifications hidx hreported =>
          rw [if_neg hawake, racpReportRecordsNext_active (by exact hstate)]
          refine ⟨_, rfl, .sent (idx + 1) reported notifications hstate ?_ hreported⟩
          intro hindexed
          obtain ⟨hle, hlt⟩ := hidx hindexed
          have hnext : (idx + 1).toNat = idx.toNat + 1 := uint8_toNat_succ (by omega)
          omega
      | slept reported notifications hoperator hidx =>
          exact ⟨_, rfl, .slept reported notifications hstate hoperator hidx⟩
      | completed idx =>
          rw [if_neg hawake, racpReportRecordsNext_done (by simp)]
          obtain ⟨racp, hsend, hanswers⟩ := exists_racpSend_completed
            { gls with racpProcRecordIdx := idx, racpState := .noComm }
          rw [hsend]
          exact ⟨_, rfl, .completed idx racp hstate hanswers⟩
      | failed err idx reported notifications herr hresults =>
          rw [if_neg hawake, racpReportRecordsNext_failed _ herr]
          have hfails : reportFails gls results = true := by
            unfold reportFails
            rw [hreport]
            exact decide_eq_true ⟨hstate, hopcode, herr⟩
          exact ⟨_, rfl, .failed idx reported notifications hstate hfails hresults⟩

theorem noComm_of_not_active {racpState : GlsState} (hactive : racpState ≠ .racpProcActive) :
    racpState = .noComm := by
  cases racpState with
  | noComm => rfl
  | racpProcActive => exact absurd rfl hactive

/-- What the end of a sleep can do. -/
inductive WakeCase (gls : Gls) : Gls → Prop where
  | next (hactive : gls.racpState = .racpProcActive) :
      WakeCase gls
        { gls with workQueue := .looping, racpProcRecordIdx := gls.racpProcRecordIdx + 1 }
  | completed (racp : GlsRacp) (hstate : gls.racpState = .noComm)
      (hanswers : Answers racpOpcodeReportRecs (glsRacpEncode racp)) :
      WakeCase gls (racpSend { gls with workQueue := .looping } racp)

theorem wakeCase (gls : Gls) : WakeCase gls (racpReportRecordsWake gls) := by
  unfold racpReportRecordsWake
  by_cases hactive : gls.racpState = .racpProcActive
  · rw [racpReportRecordsNext_active (by exact hactive)]
    exact .next hactive
  · obtain ⟨racp, hsend, hanswers⟩ :=
      exists_racpSend_completed { gls with workQueue := .looping }
    rw [racpReportRecordsNext_done (by exact hactive), hsend]
    exact .completed racp (noComm_of_not_active hactive) hanswers

/-! ## Requests as written -/

/-- A request as a client writes it. -/
structure Request where
  opcode : UInt8
  operator : UInt8
  operand : List UInt8
deriving DecidableEq

/-- Missing bytes read as `0xff`. -/
def requestOf (data : List UInt8) : Request where
  opcode := data[0]?.getD 0xff
  operator := data[1]?.getD 0xff
  operand := data.drop 2

def GlsRacp.request (racp : GlsRacp) : Request where
  opcode := racp.opcode
  operator := racp.operator
  operand := racp.operand.toList.take racp.operandLen.toNat

/-- Of an operand array the received bytes are read back. -/
theorem take_ofFn_received {size : Nat} (data : List UInt8) (skip : Nat) (old : Vector UInt8 size)
    (hlen : data.length ≤ size + skip) :
    (Vector.ofFn fun i : Fin size => data[i.val + skip]?.getD old[i]).toList.take
      (data.length - skip) = data.drop skip := by
  apply List.ext_getElem
  · rw [List.length_take, Vector.length_toList, List.length_drop]
    omega
  · intro i hi hdata
    rw [List.length_drop] at hdata
    have hin : skip + i < data.length := by omega
    simp [Nat.add_comm i skip, List.getElem?_eq_getElem hin]

theorem request_of_decode {data : List UInt8} {racp decoded : GlsRacp}
    (hdecode : glsRacpDecode data racp = some decoded) : decoded.request = requestOf data := by
  unfold glsRacpDecode at hdecode
  split at hdecode
  next => cases hdecode
  next hlen =>
    cases hdecode
    unfold GlsRacp.request requestOf
    simp only [Request.mk.injEq, true_and]
    split
    next hlong =>
      have hbyte : (data.length - 2).toUInt8.toNat = data.length - 2 := by
        rw [Nat.toUInt8_eq, UInt8.toNat_ofNat']
        omega
      rw [hbyte]
      exact take_ofFn_received data 2 racp.operand (by omega)
    next hshort =>
      rw [List.drop_eq_nil_of_le (Nat.le_of_not_lt hshort)]
      rfl

/-- The write is passed to the decoder. -/
def Decoded (gls : Gls) (data : List UInt8) (offset : UInt16) : Prop :=
  gls.racpCcc = true ∧ offset.toNat + data.length ≤ sizeofGlsRacp

/-- What a write can do, with its result. -/
inductive WriteCase (gls : Gls) (data : List UInt8) (offset : UInt16) : Int → Gls → Prop where
  | ignored (result : Int) (hdecoded : ¬ Decoded gls data offset)
      (hresult : result ≠ data.length) : WriteCase gls data offset result gls
  | rejected (result : Int) (request : GlsRacp) (hdecoded : Decoded gls data offset)
      (hresult : result ≠ data.length) :
      WriteCase gls data offset result { gls with glsRacpRequest := request }
  | accepted (request : GlsRacp) (hdecoded : Decoded gls data offset)
      (hrequest : request.request = requestOf data)
      (hfree : request.opcode = racpOpcodeAbortOperation ∨ gls.racpState = .noComm) :
      WriteCase gls data offset data.length
        { gls with glsRacpRequest := request, workPending := true }

theorem writeCase {gls : Gls} {data : List UInt8} {offset : UInt16}
    (hbounds : Decoded gls data offset → data.length ≤ 8) :
    ∃ result next, glsRacpWrite gls data offset = some (result, next) ∧
      WriteCase gls data offset result next := by
  have herr : ∀ code : Int, 0 < code → btGattErr code ≠ data.length := by
    intro code hcode
    unfold btGattErr
    omega
  unfold glsRacpWrite
  split
  next hccc =>
    refine ⟨_, _, rfl, .ignored _ ?_ (herr _ (by decide))⟩
    rintro ⟨hon, -⟩
    simp [hon] at hccc
  next hccc =>
    split
    next hsize =>
      refine ⟨_, _, rfl, .ignored _ ?_ (herr _ (by decide))⟩
      rintro ⟨-, hfits⟩
      omega
    next hsize =>
      have hdecoded : Decoded gls data offset := ⟨by simpa using hccc, by omega⟩
      have hlen : ¬ 8 < data.length := Nat.not_lt.mpr (hbounds hdecoded)
      cases hdecode : glsRacpDecode data gls.glsRacpRequest with
      | none =>
          unfold glsRacpDecode at hdecode
          rw [if_neg hlen] at hdecode
          cases hdecode
      | some request =>
          dsimp only
          split
          next => exact ⟨_, _, rfl, .rejected _ request hdecoded (herr _ (by decide))⟩
          next hfree =>
            refine ⟨_, _, rfl, .accepted request hdecoded (request_of_decode hdecode) ?_⟩
            tauto

end CubieBle.Gatt
