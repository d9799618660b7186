import CubieBle.Gatt.RacpLaws

/-! # Verdicts on requests to the record access control point

The decoder gives an opcode and an operator to a request that lacks them but leaves the operand
bytes of the request before it. The verdict on a request with a filter starts with the first of
these bytes, before it looks at their number.
-/

namespace CubieBle.Gatt

open Machine

/-! ## Two histories -/

/-- What the verdict and the execution make of two requests. -/
structure SameVerdict (first second : Gls) : Prop where
  verdict : isRequestToBeExecuted first.racpState first.glsRacpRequest =
    isRequestToBeExecuted second.racpState second.glsRacpRequest
  seqNum : (isRequestToBeExecuted first.racpState first.glsRacpRequest).1 = true →
    first.glsRacpRequest.operator = racpOperatorGreaterOrEqual →
      first.glsRacpRequest.seqNum = second.glsRacpRequest.seqNum

/-- The first operand byte after a step. -/
def filterAfter (filter : UInt8) : GlsAction → UInt8
  | .racpWrite data offset =>
      if offset.toNat + data.length ≤ sizeofGlsRacp then data[2]?.getD filter else filter
  | _ => filter

/-- The first operand byte that the writes of a history leave: the one of the last write that
had one. -/
def staleFilter (history : List GlsAction) : UInt8 := history.foldl filterAfter 0

/-- The filter types that are answered with a code of their own. -/
def FilterUnsupported (filter : UInt8) : Prop :=
  filter = operandFilterTypeFacingTime ∨ operandFilterTypeRfuStart ≤ filter

instance (filter : UInt8) : Decidable (FilterUnsupported filter) :=
  inferInstanceAs (Decidable (_ ∨ _))

/-- A request with a filter that has no operand. -/
def LacksFilter (data : List UInt8) : Prop :=
  data = [racpOpcodeReportRecs, racpOperatorGreaterOrEqual] ∨
    data = [racpOpcodeReportNumRecs, racpOperatorGreaterOrEqual]

instance (data : List UInt8) : Decidable (LacksFilter data) := inferInstanceAs (Decidable (_ ∨ _))

/-! ## Only writes change the request -/

/-- A step that leaves the control point alone. -/
structure SameControl (gls next : Gls) : Prop where
  request : next.glsRacpRequest = gls.glsRacpRequest
  ccc : next.racpCcc = gls.racpCcc

section Frame

variable {gls next : Gls} {results : NotifyResults} {err : Int}

theorem sameControl_racpSend (gls : Gls) (racp : GlsRacp) :
    SameControl gls (racpSend gls racp) := by
  rw [racpSend]
  split
  next => exact ⟨rfl, rfl⟩
  next => exact ⟨rfl, rfl⟩

theorem SameControl.trans {middle : Gls} (hfirst : SameControl gls middle)
    (hsecond : SameControl middle next) : SameControl gls next :=
  ⟨hsecond.request.trans hfirst.request, hsecond.ccc.trans hfirst.ccc⟩

theorem sameControl_glucoseMeasSend (gls : Gls) (record : GlsRecord) (results : NotifyResults) :
    SameControl gls (glucoseMeasSend gls record results).2 := by
  obtain ⟨err, reported, notifications, hsend, -⟩ := glucoseMeasSend_spec gls record results
  rw [hsend]
  exact ⟨rfl, rfl⟩

theorem sameControl_all (hreport : racpReportRecordsAll gls results = some (err, next)) :
    SameControl gls next := by
  rw [racpReportRecordsAll] at hreport
  split at hreport
  next =>
    cases hreport
    exact ⟨rfl, rfl⟩
  next =>
    split at hreport
    next => cases hreport
    next =>
      cases hreport
      exact ⟨rfl, rfl⟩
    next record _ =>
      have hsend := sameControl_glucoseMeasSend gls record results
      split at hreport
      next sent hsent =>
        rw [hsent] at hsend
        cases hreport
        exact ⟨hsend.request, hsend.ccc⟩
      next sent _ hsent =>
        rw [hsent] at hsend
        cases hreport
        exact hsend

theorem sameControl_firstLast
    (hreport : racpReportRecordsFirstLast gls results = some (err, next)) :
    SameControl gls next := by
  rw [racpReportRecordsFirstLast] at hreport
  split at hreport
  next =>
    cases hreport
    exact ⟨rfl, rfl⟩
  next =>
    split at hreport
    next => cases hreport
    next =>
      cases hreport
      exact ⟨rfl, rfl⟩
    next record _ =>
      have hsend := sameControl_glucoseMeasSend gls record results
      rw [Option.some.inj hreport] at hsend
      exact hsend

/-- The end of `racp_report_records_greater_or_equal`. -/
theorem SameControl.found {sent : Gls} {code : Int} {idx : UInt8} (hsent : SameControl gls sent)
    (hreport : (if code ≠ 0 then some (code, sent)
      else if idx.toUInt16 = glsDbNumRecordsGet sent.db then some (0, stateSet sent .noComm)
      else some (0, sent)) = some (err, next)) : SameControl gls next := by
  split at hreport
  next =>
    cases hreport
    exact hsent
  next =>
    split at hreport
    next =>
      cases hreport
      exact ⟨hsent.request, hsent.ccc⟩
    next =>
      cases hreport
      exact hsent

theorem sameControl_greaterOrEqual
    (hreport : racpReportRecordsGreaterOrEqual gls results = some (err, next)) :
    SameControl gls next := by
  rw [racpReportRecordsGreaterOrEqual] at hreport
  split at hreport
  next => cases hreport
  next =>
    cases hreport
    exact ⟨rfl, rfl⟩
  next idx found _ =>
    cases found with
    | none =>
        have hkept : SameControl gls { gls with racpProcRecordIdx := idx } := ⟨rfl, rfl⟩
        exact hkept.found hreport
    | some record =>
        have hsend :=
          sameControl_glucoseMeasSend { gls with racpProcRecordIdx := idx } record results
        have hsent : SameControl gls
            (glucoseMeasSend { gls with racpProcRecordIdx := idx } record results).2 :=
          ⟨hsend.request, hsend.ccc⟩
        exact hsent.found hreport

theorem sameControl_report (hreport : racpReportRecords gls results = some (some (err, next))) :
    SameControl gls next := by
  rw [racpReportRecords] at hreport
  split at hreport
  next => exact sameControl_all (Option.some.inj hreport)
  next =>
    split at hreport
    next => exact sameControl_firstLast (Option.some.inj hreport)
    next =>
      split at hreport
      next => exact sameControl_greaterOrEqual (Option.some.inj hreport)
      next => cases hreport

theorem sameControl_next (gls : Gls) (err : Int) :
    SameControl gls (racpReportRecordsNext gls err) := by
  rw [racpReportRecordsNext]
  split
  next =>
    split
    next => exact ⟨rfl, rfl⟩
    next => exact sameControl_racpSend gls _
  next => exact ⟨rfl, rfl⟩

theorem sameControl_procedure (hloop : racpReportRecordsProcedure gls results = some next) :
    SameControl gls next := by
  rw [racpReportRecordsProcedure] at hloop
  split at hloop
  next =>
    cases hloop
    exact ⟨rfl, rfl⟩
  next =>
    split at hloop
    next =>
      cases hloop
      exact ⟨rfl, rfl⟩
    next =>
      split at hloop
      next =>
        cases hloop
        exact ⟨rfl, rfl⟩
      next => cases hloop
      next err sent hreport =>
        have hsent := sameControl_report hreport
        split at hloop
        next =>
          cases hloop
          exact hsent
        next =>
          cases hloop
          exact hsent.trans (sameControl_next sent err)

theorem sameControl_delete {request : GlsRacp}
    (hdelete : deleteRecordsRequestExecute gls request = some next) : SameControl gls next := by
  have hrespond : ∀ (db : GlsDatabase) (code : UInt8), SameControl gls
      (racpResponseCodeSend { gls with db } racpOpcodeDeleteRecs code) := by
    intro db code
    have hsend := sameControl_racpSend { gls with db }
      ⟨racpOpcodeResponseCode, racpOperatorNull, 2, #v[racpOpcodeDeleteRecs, code, 0, 0, 0, 0]⟩
    exact ⟨hsend.request, hsend.ccc⟩
  rw [deleteRecordsRequestExecute] at hdelete
  split at hdelete
  next =>
    cases hdelete
    exact hrespond _ _
  next =>
    split at hdelete
    next =>
      cases hdelete
      exact hrespond _ _
    next =>
      split at hdelete
      next =>
        split at hdelete
        next => cases hdelete
        next =>
          cases hdelete
          exact hrespond _ _
      next =>
        cases hdelete
        exact hrespond _ _

theorem sameControl_num {request : GlsRacp}
    (hnum : reportNumRecordsRequestExecute gls request = some next) : SameControl gls next := by
  rw [reportNumRecordsRequestExecute] at hnum
  split at hnum
  next =>
    cases hnum
    exact sameControl_racpSend gls _
  next =>
    split at hnum
    next =>
      split at hnum
      next => cases hnum
      next =>
        cases hnum
        exact ⟨rfl, rfl⟩
      next =>
        cases hnum
        exact sameControl_racpSend gls _
    next =>
      split at hnum
      next =>
        cases hnum
        exact sameControl_racpSend gls _
      next =>
        cases hnum
        exact sameControl_racpSend gls _

theorem sameControl_handle (hhandle : glsRacpHandle gls = some next) : SameControl gls next := by
  rw [glsRacpHandle] at hhandle
  split at hhandle
  next =>
    split at hhandle
    next =>
      cases hhandle
      exact ⟨rfl, rfl⟩
    next =>
      split at hhandle
      next => exact sameControl_num hhandle
      next =>
        split at hhandle
        next => exact sameControl_delete hhandle
        next =>
          cases hhandle
          exact ⟨rfl, rfl⟩
  next code _ =>
    split at hhandle
    next =>
      cases hhandle
      have hsend := sameControl_racpSend (stateSet gls .noComm) ⟨racpOpcodeResponseCode,
        racpOperatorNull, 2, #v[gls.glsRacpRequest.opcode, code, 0, 0, 0, 0]⟩
      exact ⟨hsend.request, hsend.ccc⟩
    next =>
      cases hhandle
      exact ⟨rfl, rfl⟩

/-- A step other than a write leaves the control point alone. -/
theorem sameControl_step {action : GlsAction}
    (hwrite : ∀ data offset, action ≠ .racpWrite data offset)
    (hstep : gls.step action = some next) : SameControl gls next := by
  cases action with
  | racpWrite data offset => exact absurd rfl (hwrite data offset)
  | racpHandle =>
      rw [Gls.step] at hstep
      split at hstep
      next =>
        have hhandle := sameControl_handle hstep
        exact ⟨hhandle.request, hhandle.ccc⟩
      next =>
        cases hstep
        exact ⟨rfl, rfl⟩
  | loop results =>
      rw [Gls.step] at hstep
      split at hstep
      next => exact sameControl_procedure hstep
      next =>
        cases hstep
        exact ⟨rfl, rfl⟩
  | wake =>
      rw [Gls.step] at hstep
      split at hstep
      next =>
        cases hstep
        have hnext := sameControl_next { gls with workQueue := .looping } 0
        exact ⟨hnext.request, hnext.ccc⟩
      next =>
        cases hstep
        exact ⟨rfl, rfl⟩
  | indicateRsp =>
      rw [Gls.step] at hstep
      split at hstep
      next =>
        cases hstep
        exact ⟨rfl, rfl⟩
      next =>
        cases hstep
        exact ⟨rfl, rfl⟩
  | measurement record =>
      cases hstep
      exact ⟨rfl, rfl⟩

end Frame

/-! ## Writes -/

theorem decode_spec {data : List UInt8} {racp request : GlsRacp}
    (hdecode : glsRacpDecode data racp = some request) :
    data.length ≤ 8 ∧ request.opcode = data[0]?.getD 0xff ∧
      request.operator = data[1]?.getD 0xff ∧
      request.operandLen = (if 2 < data.length then (data.length - 2).toUInt8 else 0) ∧
      ∀ i : Fin 6, request.operand.get i = data[i.val + 2]?.getD (racp.operand.get i) := by
  rw [glsRacpDecode] at hdecode
  split at hdecode
  next => cases hdecode
  next hlen =>
    cases hdecode
    refine ⟨Nat.le_of_not_lt hlen, rfl, rfl, rfl, ?_⟩
    intro i
    exact Vector.getElem_ofFn i.isLt

/-- A write with indications on decodes its request, unless it is too long. -/
theorem glsRacpWrite_spec {gls next : Gls} {data : List UInt8} {offset : UInt16} {err : Int}
    (hccc : gls.racpCcc = true) (hwrite : glsRacpWrite gls data offset = some (err, next)) :
    next.racpCcc = true ∧ next.racpState = gls.racpState ∧
      (sizeofGlsRacp < offset.toNat + data.length ∧ err < 0 ∧ next = gls ∨
        offset.toNat + data.length ≤ sizeofGlsRacp ∧
          glsRacpDecode data gls.glsRacpRequest = some next.glsRacpRequest ∧
          (err < 0 ∨ next.glsRacpRequest.opcode = racpOpcodeAbortOperation ∨
            gls.racpState = .noComm)) := by
  rw [glsRacpWrite, if_neg (by rw [hccc]; decide)] at hwrite
  split at hwrite
  next hsize =>
    cases hwrite
    exact ⟨hccc, rfl, .inl ⟨hsize, by decide, rfl⟩⟩
  next hsize =>
    split at hwrite
    next => cases hwrite
    next request hdecode =>
      dsimp only at hwrite
      split at hwrite
      next =>
        cases hwrite
        exact ⟨hccc, rfl, .inr ⟨Nat.le_of_not_lt hsize, hdecode, .inl (by decide)⟩⟩
      next hfree =>
        cases hwrite
        refine ⟨hccc, rfl, .inr ⟨Nat.le_of_not_lt hsize, hdecode, .inr ?_⟩⟩
        tauto

theorem ccc_step {gls next : Gls} {action : GlsAction} (hstep : gls.step action = some next) :
    next.racpCcc = gls.racpCcc := by
  cases action with
  | racpWrite data offset =>
      rw [Gls.step] at hstep
      obtain ⟨⟨err, written⟩, hwrite, rfl⟩ := Option.map_eq_some_iff.mp hstep
      cases hccc : gls.racpCcc with
      | true => exact (glsRacpWrite_spec hccc hwrite).1
      | false =>
          rw [glsRacpWrite, if_pos (by rw [hccc]; rfl)] at hwrite
          rw [← hccc, (Prod.mk.inj (Option.some.inj hwrite)).2]
  | racpHandle => exact (sameControl_step (by nofun) hstep).ccc
  | loop results => exact (sameControl_step (by nofun) hstep).ccc
  | wake => exact (sameControl_step (by nofun) hstep).ccc
  | indicateRsp => exact (sameControl_step (by nofun) hstep).ccc
  | measurement record => exact (sameControl_step (by nofun) hstep).ccc

/-- Every step keeps track of the first operand byte. -/
theorem filter_step {gls next : Gls} (hccc : gls.racpCcc = true) {action : GlsAction}
    (hstep : gls.step action = some next) :
    next.glsRacpRequest.operand.get 0 = filterAfter (gls.glsRacpRequest.operand.get 0) action := by
  cases action with
  | racpWrite data offset =>
      rw [Gls.step] at hstep
      obtain ⟨⟨err, written⟩, hwrite, rfl⟩ := Option.map_eq_some_iff.mp hstep
      obtain ⟨-, -, ⟨hsize, -, rfl⟩ | ⟨hsize, hdecode, -⟩⟩ := glsRacpWrite_spec hccc hwrite
      · rw [filterAfter, if_neg (Nat.not_le_of_lt hsize)]
      · rw [filterAfter, if_pos hsize]
        exact (decode_spec hdecode).2.2.2.2 0
  | racpHandle => exact congrArg (·.operand.get 0) (sameControl_step (by nofun) hstep).request
  | loop results => exact congrArg (·.operand.get 0) (sameControl_step (by nofun) hstep).request
  | wake => exact congrArg (·.operand.get 0) (sameControl_step (by nofun) hstep).request
  | indicateRsp => exact congrArg (·.operand.get 0) (sameControl_step (by nofun) hstep).request
  | measurement record =>
      exact congrArg (·.operand.get 0) (sameControl_step (by nofun) hstep).request

theorem run_glsStep_none (actions : List GlsAction) : run glsStep none actions = none := by
  induction actions with
  | nil => rfl
  | cons action rest ih => exact ih

/-- The first operand byte after a run is the one its writes leave. -/
theorem filter_run {history : List GlsAction} {gls next : Gls}
    (hrun : run glsStep (some gls) history = some next) :
    next.racpCcc = gls.racpCcc ∧
      (gls.racpCcc = true → next.glsRacpRequest.operand.get 0 =
        history.foldl filterAfter (gls.glsRacpRequest.operand.get 0)) := by
  induction history generalizing gls with
  | nil =>
      cases hrun
      exact ⟨rfl, fun _ => rfl⟩
  | cons action rest ih =>
      rw [run_cons] at hrun
      cases hstep : gls.step action with
      | none =>
          rw [glsStep, Option.bind_some, hstep, run_glsStep_none] at hrun
          cases hrun
      | some middle =>
          rw [glsStep, Option.bind_some, hstep] at hrun
          obtain ⟨hccc, hfilter⟩ := ih hrun
          have hmiddle := ccc_step hstep
          refine ⟨hccc.trans hmiddle, ?_⟩
          intro hon
          rw [List.foldl_cons, ← filter_step hon hstep]
          exact hfilter (hmiddle.trans hon)

/-- The filter in the state that a history leaves with indications on. -/
theorem staleFilter_eq {racpCcc : Bool} {db : GlsDatabase} {history : List GlsAction} {gls : Gls}
    (hrun : run glsStep (some (glsInit racpCcc db)) history = some gls)
    (hccc : gls.racpCcc = true) : gls.glsRacpRequest.operand.get 0 = staleFilter history := by
  obtain ⟨hsame, hfilter⟩ := filter_run hrun
  exact hfilter (hsame.symm.trans hccc)

/-! ## Verdicts -/

theorem reportResponse_filter {request : GlsRacp}
    (hoperator : request.operator = racpOperatorGreaterOrEqual) :
    reportResponse request =
      if FilterUnsupported (request.operand.get 0) then racpResponseOperandUnsupported
      else if request.operand.get 0 = operandFilterTypeSeqNum ∧ request.operandLen = 3 then
        racpResponseReserved
      else racpResponseInvalidOperand := by
  have hget : request.operand.get 0 = request.operand[0] := rfl
  rw [hget, reportResponse, hoperator, if_neg (by decide), if_pos rfl]
  by_cases hseq : request.operand[0] = operandFilterTypeSeqNum
  · rw [if_pos hseq, hseq, if_neg (show ¬FilterUnsupported operandFilterTypeSeqNum by decide)]
    by_cases hlen : request.operandLen = 3
    · rw [if_neg (not_not.mpr hlen), if_pos ⟨rfl, hlen⟩]
    · rw [if_pos hlen, if_neg fun hboth => hlen hboth.2]
  · rw [if_neg hseq]
    have hnot : ¬(request.operand[0] = operandFilterTypeSeqNum ∧ request.operandLen = 3) :=
      fun hboth => hseq hboth.1
    rw [if_neg hnot]
    by_cases htime : request.operand[0] = operandFilterTypeFacingTime
    · rw [if_pos htime, if_pos (.inl htime)]
    · rw [if_neg htime]
      by_cases hrfu : operandFilterTypeRfuStart ≤ request.operand[0]
      · rw [if_pos hrfu, if_pos (.inr hrfu)]
      · have hsupported : ¬FilterUnsupported request.operand[0] := not_or.mpr ⟨htime, hrfu⟩
        rw [if_neg hrfu, if_neg hsupported]

/-- Operand bytes matter only to a request with a filter. -/
theorem verdict_congr (racpState : GlsState) {first second : GlsRacp}
    (hopcode : first.opcode = second.opcode) (hoperator : first.operator = second.operator)
    (hlen : first.operandLen = second.operandLen)
    (hfilter : first.opcode = racpOpcodeReportRecs ∨ first.opcode = racpOpcodeReportNumRecs →
      first.operator = racpOperatorGreaterOrEqual → reportResponse first = reportResponse second) :
    isRequestToBeExecuted racpState first = isRequestToBeExecuted racpState second := by
  have habort : abortResponse racpState first = abortResponse racpState second := by
    rw [abortResponse, abortResponse, hoperator, hlen]
  have hdelete : deleteResponse first = deleteResponse second := by
    rw [deleteResponse, deleteResponse, hoperator, hlen]
  have hreport (hop : first.opcode = racpOpcodeReportRecs ∨
      first.opcode = racpOpcodeReportNumRecs) : reportResponse first = reportResponse second := by
    by_cases hgreater : first.operator = racpOperatorGreaterOrEqual
    · exact hfilter hop hgreater
    · rw [reportResponse, reportResponse, ← hoperator, ← hlen, if_neg hgreater, if_neg hgreater]
  rw [isRequestToBeExecuted, isRequestToBeExecuted, ← hopcode, ← habort, ← hdelete]
  by_cases hop : first.opcode = racpOpcodeReportRecs ∨ first.opcode = racpOpcodeReportNumRecs
  · rw [hreport hop]
  · rw [if_neg hop, if_neg hop]

/-- A request with a filter is executed only with all its bytes. -/
theorem executed_filter {racpState : GlsState} {request : GlsRacp}
    (hexecuted : (isRequestToBeExecuted racpState request).1 = true)
    (hoperator : request.operator = racpOperatorGreaterOrEqual) : request.operandLen = 3 := by
  rcases isRequestToBeExecuted_cases racpState request with
    ⟨code, -, hverdict⟩ | ⟨-, -, hverdict⟩ | ⟨⟨-, hresponse⟩ | hdelete, hverdict⟩
  · rw [hverdict] at hexecuted
    cases hexecuted
  · rw [hverdict] at hexecuted
    cases hexecuted
  · rw [reportResponse_filter hoperator] at hresponse
    split at hresponse
    next => exact absurd hresponse (by decide)
    next =>
      split at hresponse
      next hboth => exact hboth.2
      next => exact absurd hresponse (by decide)
  · have hcode : deleteResponse request = racpResponseOperatorUnsupported := by
      rw [deleteResponse, hoperator]
      rfl
    by_cases hstate : racpState ≠ .noComm
    · rw [isRequestToBeExecuted, hdelete, if_neg (by decide), if_pos hstate] at hverdict
      cases hverdict
    · rw [isRequestToBeExecuted, hdelete, if_neg (by decide), if_neg hstate, if_neg (by decide),
        if_pos rfl, hcode] at hverdict
      cases hverdict

theorem lacksFilter_of_short {data : List UInt8} (hshort : data.length ≤ 2)
    (hopcode : data[0]?.getD 0xff = racpOpcodeReportRecs ∨
      data[0]?.getD 0xff = racpOpcodeReportNumRecs)
    (hoperator : data[1]?.getD 0xff = racpOperatorGreaterOrEqual) : LacksFilter data := by
  rcases data with _ | ⟨code, _ | ⟨operator, _ | ⟨first, rest⟩⟩⟩
  · exact absurd hoperator (by decide)
  · exact absurd (show (0xff : UInt8) = racpOperatorGreaterOrEqual from hoperator) (by decide)
  · obtain rfl : operator = racpOperatorGreaterOrEqual := hoperator
    rcases hopcode with hcode | hcode
    · exact .inl (congrArg (fun code => [code, racpOperatorGreaterOrEqual]) hcode)
    · exact .inr (congrArg (fun code => [code, racpOperatorGreaterOrEqual]) hcode)
  · simp at hshort

section Accepted

variable {gls next : Gls} {data : List UInt8} {offset : UInt16}

theorem accepted_spec (hwrite : glsRacpWrite gls data offset = some ((data.length : Int), next)) :
    gls.racpCcc = true ∧ next.racpState = gls.racpState ∧
      glsRacpDecode data gls.glsRacpRequest = some next.glsRacpRequest ∧
      (next.glsRacpRequest.opcode = racpOpcodeAbortOperation ∨ gls.racpState = .noComm) := by
  have hresult : ¬(data.length : Int) < 0 := by omega
  have hccc : gls.racpCcc = true := by
    by_contra hoff
    rw [glsRacpWrite, if_pos (by simp [hoff])] at hwrite
    have hnegative := (Prod.mk.inj (Option.some.inj hwrite)).1
    exact hresult (hnegative ▸ by decide)
  obtain ⟨-, hstate, ⟨-, hnegative, -⟩ | ⟨-, hdecode, hnegative | hfree⟩⟩ :=
    glsRacpWrite_spec hccc hwrite
  · exact absurd hnegative hresult
  · exact absurd hnegative hresult
  · exact ⟨hccc, hstate, hdecode, hfree⟩

/-- A request without its filter is judged by the operand of the request before it. -/
theorem verdict_of_lacksFilter
    (hwrite : glsRacpWrite gls data offset = some ((data.length : Int), next))
    (hlacks : LacksFilter data) :
    isRequestToBeExecuted next.racpState next.glsRacpRequest =
      (false, if FilterUnsupported (gls.glsRacpRequest.operand.get 0) then
        racpResponseOperandUnsupported else racpResponseInvalidOperand) := by
  obtain ⟨-, hstate, hdecode, hfree⟩ := accepted_spec hwrite
  obtain ⟨-, hopcode, hoperator, hlen, hoperand⟩ := decode_spec hdecode
  have hreport : next.glsRacpRequest.opcode = racpOpcodeReportRecs ∨
      next.glsRacpRequest.opcode = racpOpcodeReportNumRecs := by
    rcases hlacks with rfl | rfl
    · exact .inl hopcode
    · exact .inr hopcode
  have hnotAbort : next.glsRacpRequest.opcode ≠ racpOpcodeAbortOperation := by
    rcases hreport with hreport | hreport
    · rw [hreport]
      decide
    · rw [hreport]
      decide
  have hgreater : next.glsRacpRequest.operator = racpOperatorGreaterOrEqual := by
    rcases hlacks with rfl | rfl
    · exact hoperator
    · exact hoperator
  have hnone : next.glsRacpRequest.operandLen = 0 := by
    rcases hlacks with rfl | rfl
    · exact hlen
    · exact hlen
  have hstale : next.glsRacpRequest.operand.get 0 = gls.glsRacpRequest.operand.get 0 := by
    rcases hlacks with rfl | rfl
    · exact hoperand 0
    · exact hoperand 0
  rw [isRequestToBeExecuted, if_neg hnotAbort, hstate,
    if_neg (not_not.mpr (hfree.resolve_left hnotAbort)), if_pos hreport,
    reportResponse_filter hgreater, hstale, hnone]
  split
  next => rfl
  next =>
    rw [if_neg fun hboth => absurd hboth.2 (by decide)]
    rfl

/-- Of a request with its filter, the bytes of the request before it decide nothing. -/
theorem sameVerdict_of_filter {gls' next' : Gls}
    (hwrite : glsRacpWrite gls data offset = some ((data.length : Int), next))
    (hwrite' : glsRacpWrite gls' data offset = some ((data.length : Int), next'))
    (hstate : gls.racpState = gls'.racpState) (hfilter : ¬LacksFilter data) :
    SameVerdict next next' := by
  obtain ⟨-, hkept, hdecode, -⟩ := accepted_spec hwrite
  obtain ⟨-, hkept', hdecode', -⟩ := accepted_spec hwrite'
  obtain ⟨hbound, hopcode, hoperator, hlen, hoperand⟩ := decode_spec hdecode
  obtain ⟨-, hopcode', hoperator', hlen', hoperand'⟩ := decode_spec hdecode'
  have hreceived (i : Fin 6) (hi : i.val + 2 < data.length) :
      next.glsRacpRequest.operand.get i = next'.glsRacpRequest.operand.get i := by
    rw [hoperand i, hoperand' i, List.getElem?_eq_getElem hi, Option.getD_some, Option.getD_some]
  constructor
  · rw [hkept, hkept', hstate]
    apply verdict_congr _ (hopcode.trans hopcode'.symm) (hoperator.trans hoperator'.symm)
      (hlen.trans hlen'.symm)
    intro hreport hgreater
    have hlong : 2 < data.length := by
      rw [hopcode] at hreport
      rw [hoperator] at hgreater
      by_contra hshort
      exact hfilter (lacksFilter_of_short (Nat.le_of_not_lt hshort) hreport hgreater)
    have hfirst := hreceived 0 hlong
    have hgreater' : next'.glsRacpRequest.operator = racpOperatorGreaterOrEqual :=
      (hoperator'.trans hoperator.symm).trans hgreater
    rw [reportResponse_filter hgreater, reportResponse_filter hgreater',
      hfirst, hlen.trans hlen'.symm]
  · intro hexecuted hgreater
    have hthree := executed_filter hexecuted hgreater
    have hfive : data.length = 5 := by
      rw [hlen] at hthree
      split at hthree
      next =>
        have hbyte := congrArg UInt8.toNat hthree
        rw [Nat.toUInt8_eq, UInt8.toNat_ofNat'] at hbyte
        simp at hbyte
        omega
      next => exact absurd hthree (by decide)
    have hlow := hreceived 1 (by rw [hfive]; decide)
    have hhigh := hreceived 2 (by rw [hfive]; decide)
    rw [GlsRacp.seqNum, GlsRacp.seqNum,
      show next.glsRacpRequest.operand[1] = next'.glsRacpRequest.operand[1] from hlow,
      show next.glsRacpRequest.operand[2] = next'.glsRacpRequest.operand[2] from hhigh]

end Accepted

/-- Two histories that leave the same state judge a request alike, and read the same threshold,
if and only if the request has its filter or is one without it whose stale filters are of one
kind. -/
theorem sameVerdict_iff (racpCcc : Bool) (db : GlsDatabase) {first second : List GlsAction}
    {gls gls' next next' : Gls}
    (hfirst : run glsStep (some (glsInit racpCcc db)) first = some gls)
    (hsecond : run glsStep (some (glsInit racpCcc db)) second = some gls')
    (hstate : gls.racpState = gls'.racpState) {data : List UInt8} {offset : UInt16}
    (hwrite : glsRacpWrite gls data offset = some ((data.length : Int), next))
    (hwrite' : glsRacpWrite gls' data offset = some ((data.length : Int), next')) :
    SameVerdict next next' ↔
      (LacksFilter data →
        (FilterUnsupported (staleFilter first) ↔ FilterUnsupported (staleFilter second))) := by
  rw [← staleFilter_eq hfirst (accepted_spec hwrite).1,
    ← staleFilter_eq hsecond (accepted_spec hwrite').1]
  by_cases hlacks : LacksFilter data
  · have hverdict := verdict_of_lacksFilter hwrite hlacks
    have hverdict' := verdict_of_lacksFilter hwrite' hlacks
    constructor
    · intro hsame _
      have hcodes := hsame.verdict
      rw [hverdict, hverdict'] at hcodes
      have hcode := (Prod.mk.inj hcodes).2
      by_cases hfilter : FilterUnsupported (gls.glsRacpRequest.operand.get 0)
      · refine iff_of_true hfilter ?_
        by_contra hother
        rw [if_pos hfilter, if_neg hother] at hcode
        exact absurd hcode (by decide)
      · refine iff_of_false hfilter ?_
        intro hother
        rw [if_neg hfilter, if_pos hother] at hcode
        exact absurd hcode (by decide)
    · intro hfilters
      refine ⟨?_, ?_⟩
      · rw [hverdict, hverdict', if_congr (hfilters hlacks) rfl rfl]
      · intro hexecuted
        rw [hverdict] at hexecuted
        cases hexecuted
  · exact iff_of_true (sameVerdict_of_filter hwrite hwrite' hstate hlacks) (absurd · hlacks)

/-- Whatever came before, a filter by sequence number is judged by itself. -/
theorem sameVerdict_sequence_number :
    let service := glsInit true sampleGlsDatabase
    let request : List UInt8 := [1, 3, 1, 5, 0]
    ∃ gls next next', run glsStep (some service) [.racpWrite [1, 3, 2, 9, 9] 0] = some gls ∧
      glsRacpWrite service request 0 = some ((request.length : Int), next) ∧
      glsRacpWrite gls request 0 = some ((request.length : Int), next') ∧
      SameVerdict next next' := by
  intro service request
  have hbefore : run glsStep (some service) [] = some service := rfl
  have hwrite : glsRacpWrite service request 0 = some ((request.length : Int), _) := rfl
  refine ⟨_, _, _, rfl, hwrite, rfl, ?_⟩
  have hiff := sameVerdict_iff true sampleGlsDatabase hbefore
    (show run glsStep (some service) [.racpWrite [1, 3, 2, 9, 9] 0] = some _ from rfl) rfl hwrite
    rfl
  exact hiff.mpr (fun hlacks => absurd hlacks (by decide))

/-- The same two bytes are refused with one code at first and with another one after a request
by time. -/
theorem verdict_differs_after_time_filter :
    let service := glsInit true sampleGlsDatabase
    ∃ gls next next', run glsStep (some service) [.racpWrite [1, 3, 2] 0] = some gls ∧
      service.racpState = gls.racpState ∧
      glsRacpWrite service [1, 3] 0 = some (2, next) ∧
      glsRacpWrite gls [1, 3] 0 = some (2, next') ∧
      isRequestToBeExecuted next.racpState next.glsRacpRequest =
        (false, racpResponseInvalidOperand) ∧
      isRequestToBeExecuted next'.racpState next'.glsRacpRequest =
        (false, racpResponseOperandUnsupported) ∧ ¬SameVerdict next next' := by
  refine ⟨_, _, _, rfl, rfl, rfl, rfl, rfl, rfl, ?_⟩
  intro hsame
  exact absurd hsame.verdict (by decide)

end CubieBle.Gatt
