import CubieBle.Gatt.RacpAnswers
import CubieBle.Gatt.RacpVerdicts

/-! # Rejected writes to the record access control point

A write that comes while a report runs is decoded into the one global request before it is
rejected. The loop of the report reads the opcode of that request in each iteration, and so does
the work item of an abort that was accepted. A rejected write leaves them alone only if it was
not decoded, or if no abort waits and the loop makes the same of both opcodes.
-/

namespace CubieBle.Gatt

open Machine

/-! ## Two runs of one report -/

/-- The work queue has left the report, and the service is free again. -/
def Gls.Over (gls : Gls) : Prop :=
  gls.workQueue = .idle ∧ gls.racpState = .noComm

instance (gls : Gls) : Decidable gls.Over :=
  inferInstanceAs (Decidable (_ ∧ _))

/-- Anything but a write; the work item is run when its turn comes. -/
def Continues : GlsAction → Prop
  | .racpWrite _ _ => False
  | _ => True

instance : (action : GlsAction) → Decidable (Continues action)
  | .racpWrite _ _ => isFalse id
  | .racpHandle => isTrue trivial
  | .loop _ => isTrue trivial
  | .wake => isTrue trivial
  | .indicateRsp => isTrue trivial
  | .measurement _ => isTrue trivial

/-- A step without a write of a procedure that is not over yet. -/
def GoesOn (state : Option Gls) (action : GlsAction) : Prop :=
  (∀ gls ∈ state, ¬gls.Over) ∧ Continues action

instance (state : Option Gls) (action : GlsAction) : Decidable (GoesOn state action) :=
  inferInstanceAs (Decidable (_ ∧ _))

/-- Two runs have sent the same and are in the same state. -/
structure SameReport (alone joined : Gls) : Prop where
  notifications : joined.notifications = alone.notifications
  indications : joined.indications = alone.indications
  racpState : joined.racpState = alone.racpState
  workQueue : joined.workQueue = alone.workQueue

/-- Whatever comes, the second run does the same as the first one until that one is over. -/
def Undisturbed (gls next : Gls) : Prop :=
  ∀ later : List GlsAction, Along glsStep GoesOn (some gls) later →
    ∀ alone, run glsStep (some gls) later = some alone →
      ∃ joined, run glsStep (some next) later = some joined ∧ SameReport alone joined

/-- A write that is decoded takes no abort away, and is for a report if and only if the request
it replaces is one. -/
def KeepsRequest (gls : Gls) (data : List UInt8) (offset : UInt16) : Prop :=
  Decoded gls data offset →
    gls.glsRacpRequest.opcode ≠ racpOpcodeAbortOperation ∧
      (gls.glsRacpRequest.opcode = racpOpcodeReportRecs ↔
        data[0]? = some racpOpcodeReportRecs)

/-! ## Who reads the request -/

def Gls.withRequest (gls : Gls) (request : GlsRacp) : Gls :=
  { gls with glsRacpRequest := request }

section Request

variable (gls : Gls) (request : GlsRacp) (results : NotifyResults)

theorem racpSend_withRequest (racp : GlsRacp) :
    racpSend (gls.withRequest request) racp = (racpSend gls racp).withRequest request := by
  rw [racpSend, racpSend]
  change (if gls.racpCcc && !gls.racpIndicating then _ else _) = _
  split
  next => rfl
  next => rfl

theorem glucoseMeasSend_withRequest (record : GlsRecord) :
    glucoseMeasSend (gls.withRequest request) record results =
      (glucoseMeasSend gls record results).map id (Gls.withRequest · request) := by
  rw [glucoseMeasSend, glucoseMeasSend]
  split_ifs <;> rfl

theorem racpReportRecordsAll_withRequest :
    racpReportRecordsAll (gls.withRequest request) results =
      (racpReportRecordsAll gls results).map (Prod.map id (Gls.withRequest · request)) := by
  rw [racpReportRecordsAll, racpReportRecordsAll]
  by_cases hdone : glsDbNumRecordsGet gls.db ≤ gls.racpProcRecordIdx.toUInt16
  · rw [if_pos hdone, if_pos (by exact hdone)]
    rfl
  · rw [if_neg hdone, if_neg (by exact hdone)]
    have hget : glsDbRecordGet (gls.withRequest request).db
        (gls.withRequest request).racpProcRecordIdx =
          glsDbRecordGet gls.db gls.racpProcRecordIdx := rfl
    rw [hget]
    rcases glsDbRecordGet gls.db gls.racpProcRecordIdx with _ | err | record
    · rfl
    · rfl
    · dsimp only
      rw [glucoseMeasSend_withRequest]
      rcases glucoseMeasSend gls record results with ⟨err, next⟩
      rcases err with (_ | count) | count
      · rfl
      · rfl
      · rfl

theorem racpReportRecordsFirstLast_withRequest :
    racpReportRecordsFirstLast (gls.withRequest request) results =
      (racpReportRecordsFirstLast gls results).map
        (Prod.map id (Gls.withRequest · request)) := by
  rw [racpReportRecordsFirstLast, racpReportRecordsFirstLast]
  by_cases hdone : gls.racpProcRecordsReported ≠ 0 ∨ glsDbNumRecordsGet gls.db = 0
  · rw [if_pos hdone, if_pos (by exact hdone)]
    rfl
  · rw [if_neg hdone, if_neg (by exact hdone)]
    have hget : glsDbRecordGet (gls.withRequest request).db
        (if (gls.withRequest request).racpProcOperator = racpOperatorFirst then 0
          else (glsDbNumRecordsGet (gls.withRequest request).db - 1).toUInt8) =
          glsDbRecordGet gls.db (if gls.racpProcOperator = racpOperatorFirst then 0
            else (glsDbNumRecordsGet gls.db - 1).toUInt8) := rfl
    rw [hget]
    rcases glsDbRecordGet gls.db (if gls.racpProcOperator = racpOperatorFirst then 0
        else (glsDbNumRecordsGet gls.db - 1).toUInt8) with _ | err | record
    · rfl
    · rfl
    · exact congrArg some (glucoseMeasSend_withRequest gls request results record)

theorem racpReportRecordsGreaterOrEqual_withRequest :
    racpReportRecordsGreaterOrEqual (gls.withRequest request) results =
      (racpReportRecordsGreaterOrEqual gls results).map
        (Prod.map id (Gls.withRequest · request)) := by
  rw [racpReportRecordsGreaterOrEqual, racpReportRecordsGreaterOrEqual]
  have hfind : findGreaterOrEqual (gls.withRequest request).db
      (gls.withRequest request).racpProcSeqNum (glsDbMaxRecords + 2)
        (gls.withRequest request).racpProcRecordIdx =
      findGreaterOrEqual gls.db gls.racpProcSeqNum (glsDbMaxRecords + 2)
        gls.racpProcRecordIdx := rfl
  rw [hfind]
  rcases findGreaterOrEqual gls.db gls.racpProcSeqNum (glsDbMaxRecords + 2)
    gls.racpProcRecordIdx with _ | ⟨idx, err | found⟩
  · rfl
  · rfl
  · cases found with
    | none =>
        by_cases hend : idx.toUInt16 = glsDbNumRecordsGet gls.db
        · simp [Gls.withRequest, stateSet, hend]
        · simp [Gls.withRequest, hend]
    | some record =>
        have hsend : glucoseMeasSend { gls.withRequest request with racpProcRecordIdx := idx }
            record results = _ :=
          glucoseMeasSend_withRequest { gls with racpProcRecordIdx := idx } request results record
        simp only [hsend]
        rcases glucoseMeasSend { gls with racpProcRecordIdx := idx } record results with
          ⟨err, next⟩
        by_cases herr : err = 0
        · by_cases hend : idx.toUInt16 = glsDbNumRecordsGet next.db
          · simp [Gls.withRequest, stateSet, herr, hend]
          · simp [Gls.withRequest, herr, hend]
        · simp [herr]

theorem racpReportRecords_withRequest :
    racpReportRecords (gls.withRequest request) results =
      (racpReportRecords gls results).map
        (Option.map (Prod.map id (Gls.withRequest · request))) := by
  rw [racpReportRecords, racpReportRecords, racpReportRecordsAll_withRequest,
    racpReportRecordsFirstLast_withRequest, racpReportRecordsGreaterOrEqual_withRequest]
  change (if gls.racpProcOperator = racpOperatorAll then _ else if _ then _ else if _ then _
    else _) = _
  simp only [apply_ite (Option.map _), Option.map_some, Option.map_none]
  rfl

theorem racpReportRecordsNext_withRequest (err : Int) :
    racpReportRecordsNext (gls.withRequest request) err =
      (racpReportRecordsNext gls err).withRequest request := by
  by_cases herr : err = 0
  · subst herr
    by_cases hactive : gls.racpState = .racpProcActive
    · rw [racpReportRecordsNext_active hactive, racpReportRecordsNext_active (by exact hactive)]
      rfl
    · rw [racpReportRecordsNext_done hactive, racpReportRecordsNext_done (by exact hactive)]
      exact racpSend_withRequest gls request _
  · rw [racpReportRecordsNext_failed _ herr, racpReportRecordsNext_failed _ herr]
    rfl

variable {gls request}

/-- The loop does not tell apart two requests for a report, nor two for something else. -/
theorem racpReportRecordsProcedure_withRequest
    (hsame : gls.glsRacpRequest.opcode = racpOpcodeReportRecs ↔
      request.opcode = racpOpcodeReportRecs) :
    racpReportRecordsProcedure (gls.withRequest request) results =
      (racpReportRecordsProcedure gls results).map (Gls.withRequest · request) := by
  rw [racpReportRecordsProcedure, racpReportRecordsProcedure]
  by_cases hactive : gls.racpState = .racpProcActive
  · rw [if_neg (not_not.mpr hactive), if_neg (not_not.mpr (by exact hactive))]
    by_cases hown : gls.glsRacpRequest.opcode = racpOpcodeReportRecs
    · have hother := hsame.mp hown
      rw [if_neg (not_not.mpr hown), if_neg (not_not.mpr (by exact hother)),
        racpReportRecords_withRequest]
      rcases racpReportRecords gls results with _ | _ | ⟨err, next⟩
      · rfl
      · rfl
      · by_cases hsleeping : next.workQueue = .sleeping
        · simp only [Option.map_some, Prod.map, Gls.withRequest, hsleeping, if_true]
        · have hkept : (next.withRequest request).workQueue ≠ .sleeping := hsleeping
          simp only [Option.map_some, Prod.map, if_neg hsleeping, if_neg hkept, id_eq,
            racpReportRecordsNext_withRequest]
    · have hother : request.opcode ≠ racpOpcodeReportRecs := fun hreport =>
        hown (hsame.mpr hreport)
      rw [if_pos hown, if_pos (by exact hother)]
      rfl
  · rw [if_pos hactive, if_pos (by exact hactive)]
    rfl

omit results in
/-- The work item refuses what is not an abort while a procedure is active. -/
theorem glsRacpHandle_active (hactive : gls.racpState = .racpProcActive)
    (hopcode : gls.glsRacpRequest.opcode ≠ racpOpcodeAbortOperation) :
    glsRacpHandle gls = some gls := by
  have hbusy : gls.racpState ≠ .noComm := by
    rw [hactive]
    decide
  have hverdict : isRequestToBeExecuted gls.racpState gls.glsRacpRequest =
      (false, racpResponseReserved) := by
    rw [isRequestToBeExecuted, if_neg hopcode, if_pos hbusy]
  rw [glsRacpHandle, hverdict]
  exact if_neg (not_not.mpr rfl)

theorem step_withRequest
    (hsame : gls.glsRacpRequest.opcode = racpOpcodeReportRecs ↔
      request.opcode = racpOpcodeReportRecs)
    (hown : gls.glsRacpRequest.opcode ≠ racpOpcodeAbortOperation)
    (hother : request.opcode ≠ racpOpcodeAbortOperation) (hgoes : ¬gls.Over)
    {action : GlsAction} (hcontinues : Continues action) :
    (gls.withRequest request).step action =
      (gls.step action).map (Gls.withRequest · request) := by
  cases action with
  | racpWrite data offset => cases hcontinues
  | racpHandle =>
      rw [Gls.step, Gls.step, apply_ite (Option.map _)]
      refine ite_congr rfl ?_ fun _ => rfl
      rintro ⟨hpending, hidle⟩
      have hactive : gls.racpState = .racpProcActive := by
        by_contra hstate
        exact hgoes ⟨hidle, noComm_of_not_active hstate⟩
      have halone : glsRacpHandle { gls with workPending := false } =
          some { gls with workPending := false } := glsRacpHandle_active hactive hown
      rw [halone]
      exact glsRacpHandle_active (by exact hactive) (by exact hother)
  | loop results =>
      rw [Gls.step, Gls.step, racpReportRecordsProcedure_withRequest results hsame,
        apply_ite (Option.map _)]
      exact if_congr Iff.rfl rfl rfl
  | wake =>
      rw [Gls.step, Gls.step, apply_ite (Option.map _)]
      refine if_congr Iff.rfl ?_ rfl
      exact congrArg some (racpReportRecordsNext_withRequest { gls with workQueue := .looping }
        request 0)
  | indicateRsp =>
      rw [Gls.step, Gls.step, apply_ite (Option.map _)]
      exact if_congr Iff.rfl rfl rfl
  | measurement record => rfl

end Request

/-! ## The procedure with another request -/

theorem Continues.ne_write {action : GlsAction} (hcontinues : Continues action) :
    ∀ data offset, action ≠ .racpWrite data offset := by
  rintro data offset rfl
  exact hcontinues

/-- A procedure whose request is replaced goes on in the same way if the loop and the work item
make the same of both requests. -/
theorem run_withRequest {gls : Gls} {request : GlsRacp}
    (hsame : gls.glsRacpRequest.opcode = racpOpcodeReportRecs ↔
      request.opcode = racpOpcodeReportRecs)
    (hown : gls.glsRacpRequest.opcode ≠ racpOpcodeAbortOperation)
    (hother : request.opcode ≠ racpOpcodeAbortOperation) {later : List GlsAction}
    (hlater : Along glsStep GoesOn (some gls) later) {alone : Gls}
    (halone : run glsStep (some gls) later = some alone) :
    run glsStep (some (gls.withRequest request)) later = some (alone.withRequest request) := by
  induction later generalizing gls with
  | nil =>
      obtain rfl := Option.some.inj halone
      rfl
  | cons action rest ih =>
      obtain ⟨⟨hgoes, hcontinues⟩, hrest⟩ := hlater
      have hjoined := step_withRequest hsame hown hother (hgoes gls rfl) hcontinues
      rw [run_cons] at halone ⊢
      change run glsStep (gls.step action) rest = _ at halone
      change run glsStep ((gls.withRequest request).step action) rest = _
      change Along glsStep GoesOn (gls.step action) rest at hrest
      cases hstep : gls.step action with
      | none =>
          rw [hstep, run_glsStep_none] at halone
          cases halone
      | some next =>
          have hkept := (sameControl_step hcontinues.ne_write hstep).request
          rw [hjoined, hstep]
          rw [hstep] at halone hrest
          exact ih (hkept ▸ hsame) (hkept ▸ hown) hrest halone

/-! ## Rounds of a report -/

/-- A report that finds its own request ends without communication. -/
def EndsFree (gls : Gls) : Prop :=
  gls.glsRacpRequest.opcode = racpOpcodeReportRecs ∧
    (gls.workQueue = .idle → gls.racpState = .noComm)

theorem endsFree_loop {gls next : Gls} {results : NotifyResults} (hsound : Sound gls)
    (hends : EndsFree gls) (hstep : gls.step (.loop results) = some next) : EndsFree next := by
  rw [Gls.step] at hstep
  split at hstep
  next hloop =>
    obtain ⟨_, hnext, hcase⟩ := loopCase hsound hloop results
    obtain rfl := Option.some.inj (hstep.symm.trans hnext)
    cases hcase with
    | exit hstop =>
        exact ⟨hends.1, fun _ =>
          noComm_of_not_active (hstop.resolve_right (not_not.mpr hends.1))⟩
    | sent => exact ⟨hends.1, fun hidle => absurd (hloop.symm.trans hidle) (by decide)⟩
    | slept =>
        refine ⟨hends.1, fun hidle => ?_⟩
        cases hidle
    | completed idx racp =>
        have hframe := racpSend_frame
          { gls with racpProcRecordIdx := idx, racpState := .noComm } racp
        exact ⟨(congrArg GlsRacp.opcode hframe.2.2.2).trans hends.1, fun _ => hframe.2.2.1⟩
    | failed => exact ⟨hends.1, fun _ => rfl⟩
  next =>
    obtain rfl := Option.some.inj hstep
    exact hends

theorem endsFree_wake {gls next : Gls} (hends : EndsFree gls)
    (hstep : gls.step .wake = some next) : EndsFree next := by
  rw [Gls.step] at hstep
  split at hstep
  next =>
    have hcase := wakeCase gls
    rw [Option.some.inj hstep] at hcase
    cases hcase with
    | next =>
        refine ⟨hends.1, fun hidle => ?_⟩
        cases hidle
    | completed racp hstate =>
        have hframe := racpSend_frame { gls with workQueue := .looping } racp
        refine ⟨(congrArg GlsRacp.opcode hframe.2.2.2).trans hends.1, ?_⟩
        intro hidle
        cases hframe.1.symm.trans hidle
  next =>
    obtain rfl := Option.some.inj hstep
    exact hends

/-- A procedure that is active and finds another request stays as it is. -/
def Lost (request : GlsRacp) (gls : Gls) : Prop :=
  gls.racpState = .racpProcActive ∧ gls.glsRacpRequest = request

theorem lost_loop {request : GlsRacp} (hrequest : request.opcode ≠ racpOpcodeReportRecs)
    {gls next : Gls} {results : NotifyResults} (hlost : Lost request gls)
    (hstep : gls.step (.loop results) = some next) : Lost request next := by
  obtain ⟨hactive, rfl⟩ := hlost
  rw [Gls.step] at hstep
  split at hstep
  next =>
    rw [racpReportRecordsProcedure, if_neg (not_not.mpr hactive), if_pos hrequest] at hstep
    obtain rfl := Option.some.inj hstep
    exact ⟨hactive, rfl⟩
  next =>
    obtain rfl := Option.some.inj hstep
    exact ⟨hactive, rfl⟩

theorem lost_wake {request : GlsRacp} {gls next : Gls} (hlost : Lost request gls)
    (hstep : gls.step .wake = some next) : Lost request next := by
  obtain ⟨hactive, rfl⟩ := hlost
  rw [Gls.step] at hstep
  split at hstep
  next =>
    rw [racpReportRecordsWake, racpReportRecordsNext_active (by exact hactive)] at hstep
    obtain rfl := Option.some.inj hstep
    exact ⟨hactive, rfl⟩
  next =>
    obtain rfl := Option.some.inj hstep
    exact ⟨hactive, rfl⟩

theorem mem_rounds {count : Nat} {action : GlsAction} (haction : action ∈ rounds count) :
    action = .wake ∨ action = .loop notifyOk := by
  obtain ⟨round, hround, hmem⟩ := List.mem_flatten.mp haction
  rwa [List.eq_of_mem_replicate hround, List.mem_pair] at hmem

theorem continues_of_mem_rounds {count : Nat} {action : GlsAction}
    (haction : action ∈ rounds count) : Continues action := by
  rcases mem_rounds haction with rfl | rfl
  · trivial
  · trivial

/-- What the two steps of a round keep holds throughout the rounds. -/
theorem rounds_keeps {property : Gls → Prop}
    (hwake : ∀ gls next, property gls → gls.step .wake = some next → property next)
    (hloop : ∀ gls next, Sound gls → property gls → gls.step (.loop notifyOk) = some next →
      property next)
    {gls : Gls} {ledger : Ledger} (hinv : RacpInv gls ledger) (hproperty : property gls)
    (count : Nat) :
    Throughout glsStep (fun state => ∃ next, state = some next ∧ property next) (some gls)
      (rounds count) := by
  have htracked : Throughout racpStep (fun current => ∃ next, current.state = some next ∧
      RacpInv next current.history ∧ property next) ⟨some gls, ledger⟩ (rounds count) := by
    refine throughout_of_invariant _ ?_ ⟨gls, rfl, hinv, hproperty⟩
      (along_of_forall_mem fun action haction => mem_rounds haction)
    rintro ⟨_, history⟩ action ⟨current, rfl, hcurrent, hholds⟩ haction
    rcases haction with rfl | rfl
    · obtain ⟨next, hstep, hnext⟩ := racpInv_step hcurrent .wake trivial
      rw [racpStep_of_step hstep]
      exact ⟨next, rfl, hnext, hwake _ _ hholds hstep⟩
    · obtain ⟨next, hstep, hnext⟩ := racpInv_step hcurrent (.loop notifyOk) trivial
      rw [racpStep_of_step hstep]
      exact ⟨next, rfl, hnext, hloop _ _ hcurrent.sound hholds hstep⟩
  refine throughout_trackedStep.mp (htracked.imp ?_)
  rintro _ ⟨next, hstate, -, hholds⟩
  exact ⟨next, hstate, hholds⟩

/-- After 22 rounds the work queue is idle. -/
theorem idle_of_rounds {gls last : Gls} {ledger : Ledger} (hinv : RacpInv gls ledger)
    (hrun : run glsStep (some gls) (rounds 22) = some last) :
    last.workQueue = .idle ∧ last.workPending = gls.workPending := by
  obtain ⟨reached, history, hreached, -, hremaining, hpending⟩ := rounds_spec 22 hinv
  have hstate := congrArg Tracked.state hreached
  rw [racpStep, run_trackedStep_state, hrun] at hstate
  obtain rfl := Option.some.inj hstate
  refine ⟨idle_of_remaining ?_, hpending⟩
  have := remaining_le hinv.sound
  omega

/-! ## Rejected writes -/

/-- What a write does: it is not decoded, or it is decoded and rejected, or it is accepted. -/
theorem write_cases {gls next : Gls} {data : List UInt8} {offset : UInt16} {err : Int}
    (hwrite : glsRacpWrite gls data offset = some (err, next)) :
    ¬Decoded gls data offset ∧ next = gls ∨
      Decoded gls data offset ∧ data.length ≤ 8 ∧
        (∃ request, next = gls.withRequest request ∧ request.opcode = data[0]?.getD 0xff ∧
          request.opcode ≠ racpOpcodeAbortOperation) ∨
      0 ≤ err ∧ next.workPending = true := by
  rw [glsRacpWrite] at hwrite
  split at hwrite
  next hccc =>
    refine .inl ⟨?_, (Prod.mk.inj (Option.some.inj hwrite)).2.symm⟩
    rintro ⟨hon, -⟩
    simp [hon] at hccc
  next hccc =>
    split at hwrite
    next hsize =>
      refine .inl ⟨?_, (Prod.mk.inj (Option.some.inj hwrite)).2.symm⟩
      rintro ⟨-, hfits⟩
      omega
    next hsize =>
      cases hdecode : glsRacpDecode data gls.glsRacpRequest with
      | none =>
          rw [hdecode] at hwrite
          cases hwrite
      | some request =>
          rw [hdecode] at hwrite
          dsimp only at hwrite
          split at hwrite
          next hbusy =>
            obtain ⟨-, rfl⟩ := Prod.mk.inj (Option.some.inj hwrite)
            have hrequest := decode_spec hdecode
            exact .inr (.inl ⟨⟨by simpa using hccc, by omega⟩, hrequest.1, request, rfl,
              hrequest.2.1, hbusy.1⟩)
          next =>
            obtain ⟨rfl, rfl⟩ := Prod.mk.inj (Option.some.inj hwrite)
            exact .inr (.inr ⟨by omega, rfl⟩)

theorem getD_eq_reportRecs_iff {data : List UInt8} :
    data[0]?.getD 0xff = racpOpcodeReportRecs ↔ data[0]? = some racpOpcodeReportRecs := by
  cases data[0]? with
  | none => exact iff_of_false (by decide) nofun
  | some opcode => exact (Option.some_inj).symm

/-- An abort whose turn has not come has not been taken away. -/
def AbortKept (gls : Gls) : Prop :=
  gls.glsRacpRequest.opcode = racpOpcodeAbortOperation → gls.workQueue ≠ .idle →
    gls.workPending = true

theorem abortKept_step {gls next : Gls} {action : GlsAction} (hsound : Sound gls)
    (hkept : AbortKept gls) (hbounds : InBounds gls action)
    (hstep : gls.step action = some next) : AbortKept next := by
  by_cases hwrites : ∃ data offset, action = .racpWrite data offset
  · obtain ⟨data, offset, rfl⟩ := hwrites
    obtain ⟨⟨err, written⟩, hwrite, rfl⟩ := Option.map_eq_some_iff.mp hstep
    rcases write_cases hwrite with
      ⟨-, rfl⟩ | ⟨-, -, request, rfl, -, hopcode⟩ | ⟨-, hpending⟩
    · exact hkept
    · exact fun habort => absurd habort hopcode
    · exact fun _ _ => hpending
  · intro habort hbusy
    have hrequest := (sameControl_step (fun data offset heq => hwrites ⟨data, offset, heq⟩)
      hstep).request
    rw [hrequest] at habort
    cases action with
    | racpWrite data offset => exact absurd ⟨data, offset, rfl⟩ hwrites
    | racpHandle =>
        rw [Gls.step] at hstep
        split at hstep
        next hrun =>
          obtain ⟨_, hhandle, hcase⟩ :=
            handleCase { gls with workPending := false } hsound.db (hbounds hrun)
          obtain rfl := Option.some.inj (hstep.symm.trans hhandle)
          cases hcase with
          | report hopcode => exact absurd (habort.symm.trans hopcode) (by decide)
          | response db racpState racp =>
              have hqueue := (racpSend_frame
                { gls with workPending := false, db := db, racpState := racpState } racp).1
              exact absurd (hqueue.trans hrun.2) hbusy
          | inProgress hopcode => exact absurd habort hopcode
        next =>
          obtain rfl := Option.some.inj hstep
          exact hkept habort hbusy
    | loop results =>
        rw [Gls.step] at hstep
        split at hstep
        next hloop =>
          have hpending := hkept habort (by rw [hloop]; decide)
          obtain ⟨_, hnext, hcase⟩ := loopCase hsound hloop results
          obtain rfl := Option.some.inj (hstep.symm.trans hnext)
          cases hcase with
          | exit => exact absurd rfl hbusy
          | sent => exact hpending
          | slept => exact hpending
          | completed idx racp =>
              exact (racpSend_frame _ racp).2.1.trans hpending
          | failed => exact hpending
        next =>
          obtain rfl := Option.some.inj hstep
          exact hkept habort hbusy
    | wake =>
        rw [Gls.step] at hstep
        split at hstep
        next hsleeping =>
          have hpending := hkept habort (by rw [hsleeping]; decide)
          have hcase := wakeCase gls
          rw [Option.some.inj hstep] at hcase
          cases hcase with
          | next => exact hpending
          | completed racp => exact (racpSend_frame _ racp).2.1.trans hpending
        next =>
          obtain rfl := Option.some.inj hstep
          exact hkept habort hbusy
    | indicateRsp =>
        rw [Gls.step] at hstep
        split at hstep
        next =>
          obtain rfl := Option.some.inj hstep
          exact hkept habort hbusy
        next =>
          obtain rfl := Option.some.inj hstep
          exact hkept habort hbusy
    | measurement record =>
        obtain rfl := Option.some.inj hstep
        exact hkept habort hbusy

/-- A step that leaves an array has no result. -/
theorem inBounds_of_step {gls next : Gls} {action : GlsAction}
    (hstep : gls.step action = some next) : InBounds gls action := by
  cases action with
  | racpWrite data offset =>
      rintro ⟨hccc, hfits⟩
      by_contra hlong
      have hdecode : glsRacpDecode data gls.glsRacpRequest = none := if_pos (by omega)
      rw [Gls.step, glsRacpWrite, if_neg (by simp [hccc]), if_neg (by omega), hdecode] at hstep
      cases hstep
  | racpHandle =>
      rintro ⟨hpending, hidle⟩ hexecuted hdelete hlast
      by_contra hnone
      have hnone : glsDbRecordDeleteLast gls.db = none := Option.not_isSome_iff_eq_none.mp hnone
      obtain ⟨code, hverdict⟩ :
          ∃ code, isRequestToBeExecuted gls.racpState gls.glsRacpRequest = (true, code) :=
        ⟨_, Prod.ext hexecuted rfl⟩
      have hstuck : glsRacpHandle { gls with workPending := false } = none := by
        simp only [glsRacpHandle, hverdict, hdelete, deleteRecordsRequestExecute, hlast, hnone]
        rfl
      rw [Gls.step, if_pos ⟨hpending, hidle⟩, hstuck] at hstep
      cases hstep
  | _ => trivial

theorem along_inBounds {actions : List GlsAction} {current : RacpState} {gls : Gls}
    (hgls : run glsStep current.state actions = some gls) :
    Along racpStep RacpInBounds current actions := by
  induction actions generalizing current with
  | nil => trivial
  | cons action rest ih =>
      refine ⟨?_, ih hgls⟩
      obtain ⟨_ | before, ledger⟩ := current
      · trivial
      · cases hstep : before.step action with
        | none =>
            change run glsStep (before.step action) rest = _ at hgls
            rw [hstep, run_glsStep_none] at hgls
            cases hgls
        | some next => exact inBounds_of_step hstep

theorem abortKept_of_run {racpCcc : Bool} {db : GlsDatabase} {actions : List GlsAction} {gls : Gls}
    (hgls : run glsStep (some (glsInit racpCcc db)) actions = some gls) :
    AbortKept gls ∧ ∃ ledger, RacpInv gls ledger := by
  have hbounds : Along racpStep RacpInBounds (racpInit racpCcc db) actions := along_inBounds hgls
  have hnone : (0 : UInt8) ≠ racpOpcodeAbortOperation := by decide
  have hinit : ∃ start, (racpInit racpCcc db).state = some start ∧
      RacpInv start (racpInit racpCcc db).history ∧ AbortKept start :=
    ⟨_, rfl, racpInv_init racpCcc db, fun habort => absurd habort hnone⟩
  have hreached := throughout_of_invariant (fun current : RacpState => ∃ gls,
    current.state = some gls ∧ RacpInv gls current.history ∧ AbortKept gls) ?_ hinit hbounds
  · obtain ⟨reached, hstate, hinv, hkept⟩ := hreached.last
    rw [racpStep, run_trackedStep_state] at hstate
    obtain rfl := Option.some.inj (hgls.symm.trans hstate)
    exact ⟨hkept, _, hinv⟩
  · rintro ⟨_, history⟩ action ⟨current, rfl, hinv, hkept⟩ hin
    obtain ⟨next, hstep, hnext⟩ := racpInv_step hinv action hin
    rw [racpStep_of_step hstep]
    exact ⟨next, rfl, hnext, abortKept_step hinv.sound hkept hin hstep⟩

/-! ## A request that is replaced -/

section Replaced

variable {gls joined : Gls} {ledger history : Ledger} {request : GlsRacp}

/-- A report that loses its request does not end as it would have. -/
theorem not_undisturbed_of_lost (hinv : RacpInv gls ledger) (hjoined : RacpInv joined history)
    (hbusy : gls.workQueue ≠ .idle) (hown : gls.glsRacpRequest.opcode = racpOpcodeReportRecs)
    (hrequest : request.opcode ≠ racpOpcodeReportRecs) (hlost : Lost request joined) :
    ¬Undisturbed gls joined := by
  intro hundisturbed
  have hfree := rounds_keeps (fun _ _ => endsFree_wake) (fun _ _ => endsFree_loop) hinv
    ⟨hown, fun hidle => absurd hidle hbusy⟩ 22
  have hstays := rounds_keeps (fun _ _ => lost_wake) (fun _ _ _ => lost_loop hrequest) hjoined
    hlost 22
  obtain ⟨last, hlast, -, hends⟩ := hfree.last
  have hover : ∃ alone ∈ run glsStep (some gls) (rounds 22), alone.Over :=
    ⟨last, hlast, (idle_of_rounds hinv hlast).1, hends (idle_of_rounds hinv hlast).1⟩
  -- the two runs are compared where the first one is over
  obtain ⟨first, rest, hsplit, hbefore, alone, halone, hfirst⟩ :=
    @exists_first _ _ glsStep (fun state => ∃ alone ∈ state, alone.Over) _ _ hover
  have hlater : Along glsStep GoesOn (some gls) first := by
    refine along_and.mpr ⟨hbefore.imp fun state _ hnot alone hstate hdone =>
      hnot ⟨alone, hstate, hdone⟩, along_of_forall_mem fun action hmem => ?_⟩
    exact continues_of_mem_rounds (hsplit ▸ List.mem_append_left rest hmem : action ∈ rounds 22)
  obtain ⟨after, hafter, hsame⟩ := hundisturbed first hlater alone halone
  rw [hsplit] at hstays
  obtain ⟨stuck, hstuck, hactive, -⟩ := hstays.of_append
  obtain rfl := Option.some.inj (hafter.symm.trans hstuck)
  rw [hsame.racpState, hfirst.2] at hactive
  cases hactive

/-- A procedure without a request for a report goes on for as long as it is left alone. -/
theorem goesOn_of_lost (hrequest : request.opcode ≠ racpOpcodeReportRecs)
    (hinv : RacpInv gls ledger) (hlost : Lost request gls) :
    ∃ last, run glsStep (some gls) (rounds 22) = some last ∧
      Along glsStep GoesOn (some gls) (rounds 22) ∧ Lost request last := by
  have hstays := rounds_keeps (fun _ _ => lost_wake) (fun _ _ _ => lost_loop hrequest) hinv
    hlost 22
  obtain ⟨last, hlast, hlostLast⟩ := hstays.last
  refine ⟨last, hlast, along_and.mpr ⟨hstays.along.imp ?_, ?_⟩, hlostLast⟩
  · rintro _ _ ⟨current, rfl, hactive, -⟩ _ ⟨⟩ hdone
    rw [hdone.2] at hactive
    cases hactive
  · exact along_of_forall_mem fun action hmem => continues_of_mem_rounds hmem

/-- A procedure gets a request for a report. -/
theorem not_undisturbed_of_found (hinv : RacpInv gls ledger) (hjoined : RacpInv joined history)
    (hrequest : request.opcode ≠ racpOpcodeReportRecs) (hlost : Lost request gls)
    (hbusy : joined.workQueue ≠ .idle)
    (hfound : joined.glsRacpRequest.opcode = racpOpcodeReportRecs) :
    ¬Undisturbed gls joined := by
  intro hundisturbed
  have hfree := rounds_keeps (fun _ _ => endsFree_wake) (fun _ _ => endsFree_loop) hjoined
    ⟨hfound, fun hidle => absurd hidle hbusy⟩ 22
  obtain ⟨alone, halone, hlater, hactive, -⟩ := goesOn_of_lost hrequest hinv hlost
  obtain ⟨after, hafter, hsame⟩ := hundisturbed _ hlater alone halone
  obtain ⟨last, hlast, -, hends⟩ := hfree.last
  obtain rfl := Option.some.inj (hafter.symm.trans hlast)
  rw [← hsame.racpState, hends (idle_of_rounds hjoined hafter).1] at hactive
  cases hactive

theorem glsRacpHandle_abort {gls : Gls}
    (habort : gls.glsRacpRequest.opcode = racpOpcodeAbortOperation) :
    ∃ next, glsRacpHandle gls = some next ∧ next.racpState = .noComm := by
  have hcode : abortResponse gls.racpState gls.glsRacpRequest ≠ racpResponseReserved := by
    rw [abortResponse]
    split_ifs <;> decide
  have hverdict : isRequestToBeExecuted gls.racpState gls.glsRacpRequest =
      (false, abortResponse gls.racpState gls.glsRacpRequest) := by
    rw [isRequestToBeExecuted, if_pos habort]
    exact Prod.ext (decide_eq_false hcode) rfl
  refine ⟨racpResponseCodeSend (stateSet gls .noComm) gls.glsRacpRequest.opcode
    (abortResponse gls.racpState gls.glsRacpRequest), ?_, (racpSend_frame _ _).2.2.1⟩
  rw [glsRacpHandle, hverdict]
  exact if_pos hcode

/-- An abort is taken away before the work item carries it out. -/
theorem not_undisturbed_of_abort (hinv : RacpInv gls ledger) (hjoined : RacpInv joined history)
    (hpending : gls.workPending = true) (hactive : gls.racpState = .racpProcActive)
    (habort : gls.glsRacpRequest.opcode = racpOpcodeAbortOperation)
    (hreport : request.opcode ≠ racpOpcodeReportRecs)
    (hother : request.opcode ≠ racpOpcodeAbortOperation) (hlost : Lost request joined) :
    ¬Undisturbed gls joined := by
  intro hundisturbed
  have hnot : gls.glsRacpRequest.opcode ≠ racpOpcodeReportRecs := by
    rw [habort]
    decide
  obtain ⟨alone, halone, hlater, hstill, hown⟩ := goesOn_of_lost hnot hinv ⟨hactive, rfl⟩
  obtain ⟨stuck, hstuck, -, hstays, hlast⟩ := goesOn_of_lost hreport hjoined hlost
  obtain ⟨hidle, hwaits⟩ := idle_of_rounds hinv halone
  have hgoes : ¬alone.Over := fun hdone => by
    rw [hdone.2] at hstill
    cases hstill
  obtain ⟨aborted, hhandle, hfree⟩ :=
    @glsRacpHandle_abort { alone with workPending := false } (by rw [← habort, ← hown])
  have halone' : run glsStep (some gls) (rounds 22 ++ [.racpHandle]) = some aborted := by
    rw [run_append, halone]
    exact (if_pos ⟨hwaits.trans hpending, hidle⟩).trans hhandle
  have hlater' : Along glsStep GoesOn (some gls) (rounds 22 ++ [.racpHandle]) := by
    refine along_append.mpr ⟨hlater, ?_, trivial⟩
    rw [halone]
    exact ⟨by rintro _ ⟨⟩; exact hgoes, trivial⟩
  obtain ⟨after, hafter, hsame⟩ := hundisturbed _ hlater' aborted halone'
  have hrefused : run glsStep (some joined) (rounds 22 ++ [.racpHandle]) =
      stuck.step .racpHandle := by
    rw [run_append, hstuck]
    rfl
  rw [hafter, Gls.step] at hrefused
  have hkept : after.racpState = .racpProcActive := by
    split at hrefused
    next =>
      rw [glsRacpHandle_active (by exact hstays) (by exact hlast ▸ hother)] at hrefused
      rw [Option.some.inj hrefused]
      exact hstays
    next =>
      rw [Option.some.inj hrefused]
      exact hstays
  rw [hsame.racpState, hfree] at hkept
  cases hkept

end Replaced

/-- In every state that is reached inside the loop of a report, a rejected write leaves the
records that follow, the responses and the states as they would have been if and only if it is
not decoded, or no abort waits and the loop and the work item make the same of its opcode. -/
theorem rejected_write_harmless_iff (racpCcc : Bool) (db : GlsDatabase)
    (actions : List GlsAction) {gls next : Gls}
    (hgls : run glsStep (some (glsInit racpCcc db)) actions = some gls)
    (hbusy : gls.workQueue ≠ .idle) (hactive : gls.racpState = .racpProcActive)
    {data : List UInt8} {offset : UInt16} {err : Int}
    (hwrite : glsRacpWrite gls data offset = some (err, next)) (herr : err < 0) :
    Undisturbed gls next ↔ KeepsRequest gls data offset := by
  obtain ⟨hkept, ledger, hinv⟩ := abortKept_of_run hgls
  rcases write_cases hwrite with
    ⟨hnot, rfl⟩ | ⟨hdecoded, hlength, request, rfl, hopcode, hother⟩ | haccepted
  · refine iff_of_true ?_ fun hdecoded => absurd hdecoded hnot
    exact fun later _ alone halone => ⟨alone, halone, rfl, rfl, rfl, rfl⟩
  · obtain ⟨joined, hstep, hjoined⟩ :=
      racpInv_step hinv (.racpWrite data offset) fun _ => hlength
    rw [Gls.step, hwrite] at hstep
    obtain rfl := Option.some.inj hstep
    rw [KeepsRequest, ← getD_eq_reportRecs_iff, ← hopcode]
    constructor
    · intro hundisturbed _
      refine ⟨fun habort => ?_, fun hown => ?_, fun hfound => ?_⟩
      · by_cases hreport : request.opcode = racpOpcodeReportRecs
        · have hnot : gls.glsRacpRequest.opcode ≠ racpOpcodeReportRecs := by
            rw [habort]
            decide
          exact not_undisturbed_of_found hinv hjoined hnot ⟨hactive, rfl⟩ hbusy hreport
            hundisturbed
        · exact not_undisturbed_of_abort hinv hjoined (hkept habort hbusy) hactive habort hreport
            hother ⟨hactive, rfl⟩ hundisturbed
      · by_contra hlost
        exact not_undisturbed_of_lost hinv hjoined hbusy hown hlost ⟨hactive, rfl⟩ hundisturbed
      · by_contra hlost
        exact not_undisturbed_of_found hinv hjoined hlost ⟨hactive, rfl⟩ hbusy hfound
          hundisturbed
    · intro hkeeps later hlater alone halone
      obtain ⟨hown, hsame⟩ := hkeeps hdecoded
      exact ⟨_, run_withRequest hsame hown hother hlater halone, rfl, rfl, rfl, rfl⟩
  · exact absurd herr (Int.not_lt.mpr haccepted.1)

/-- A report of one record, at the head of its loop. -/
def runningReport : List GlsAction :=
  [.measurement (sampleGlsRecord 1), .racpWrite [1, 1] 0, .racpHandle]

theorem rejected_write_harmless_second_report :
    ∃ gls next, run glsStep (some (glsInit true sampleGlsDatabase)) runningReport = some gls ∧
      glsRacpWrite gls [1, 6] 0 = some (btGattErr glsErrProcedureInProgress, next) ∧
      Undisturbed gls next := by
  let service := (run glsStep (some (glsInit true sampleGlsDatabase)) runningReport).get
    (by decide +kernel)
  have hwrite : glsRacpWrite service [1, 6] 0 = some (btGattErr glsErrProcedureInProgress,
      service.withRequest ⟨1, 6, 0, #v[0, 0, 0, 0, 0, 0]⟩) := by decide +kernel
  have hgls : run glsStep (some (glsInit true sampleGlsDatabase)) runningReport = some service :=
    (Option.some_get _).symm
  exact ⟨service, _, hgls, hwrite,
    (rejected_write_harmless_iff true sampleGlsDatabase runningReport hgls (by decide) (by decide)
      hwrite (by decide)).mpr fun _ => by decide⟩

/-- A request for the number of records is rejected, and the report never ends. -/
theorem rejected_write_stops_report :
    ∃ gls next, run glsStep (some (glsInit true sampleGlsDatabase)) runningReport = some gls ∧
      gls.workQueue ≠ .idle ∧ gls.racpState = .racpProcActive ∧
      glsRacpWrite gls [4, 1] 0 = some (btGattErr glsErrProcedureInProgress, next) ∧
      ¬Undisturbed gls next := by
  let service := (run glsStep (some (glsInit true sampleGlsDatabase)) runningReport).get
    (by decide +kernel)
  let disturbed := service.withRequest ⟨4, 1, 0, #v[0, 0, 0, 0, 0, 0]⟩
  refine ⟨service, disturbed, (Option.some_get _).symm, by decide, by decide,
    by decide +kernel, ?_⟩
  intro hundisturbed
  let later : List GlsAction := [.loop notifyOk, .wake, .loop notifyOk, .loop notifyOk]
  let alone := (run glsStep (some service) later).get (by decide +kernel)
  obtain ⟨joined, hjoined, hsame⟩ := hundisturbed later (by decide +kernel) alone
    (Option.some_get _).symm
  have hfree : alone.racpState = .noComm := by decide +kernel
  have hstate : (run glsStep (some disturbed) later).map Gls.racpState = some .racpProcActive := by
    decide
  rw [hjoined, Option.map_some, hsame.racpState, hfree] at hstate
  cases hstate

end CubieBle.Gatt
