import CubieBle.Gatt.RacpLedger

/-! # Answers of the record access control point

A request that no later write disturbs is handled as it was written and answered by
exactly one indication, unless an earlier indication was still unconfirmed when its
handling began or one of the notifications of its report failed.
-/

namespace CubieBle.Gatt

open Machine

variable {gls : Gls} {ledger : Ledger}

/-! ## The end of a report -/

instance (operator : UInt8) : Decidable (Indexed operator) :=
  inferInstanceAs (Decidable (_ ∨ _))

/-- A bound on the iterations that a report still makes if its notifications succeed. -/
def remaining (gls : Gls) : Nat :=
  if gls.workQueue = .idle then 0
  else if gls.racpState = .noComm then 1
  else if Indexed gls.racpProcOperator then
    gls.db.recordsNum.toNat - gls.racpProcRecordIdx.toNat +
      (if gls.workQueue = .sleeping then 1 else 2)
  else if gls.racpProcRecordsReported = 0 then 3
  else 2

theorem remaining_le (hsound : Sound gls) : remaining gls ≤ 22 := by
  have hmax : gls.db.recordsNum.toNat ≤ 20 := hsound.db.recordsNum_le
  unfold remaining
  split_ifs <;> omega

theorem remaining_noComm {base : Gls} (hstate : base.racpState = .noComm) :
    remaining base ≤ 1 := by
  unfold remaining
  rw [if_pos hstate]
  split_ifs <;> omega

theorem two_le_remaining (hbusy : gls.workQueue = .looping)
    (hactive : gls.racpState = .racpProcActive) : 2 ≤ remaining gls := by
  unfold remaining
  rw [hbusy, hactive]
  simp only [reduceCtorEq, if_false]
  split_ifs <;> omega

theorem wake_remaining {next : Gls} (hsound : Sound gls) (hstep : gls.step .wake = some next) :
    remaining next ≤ remaining gls ∧ next.workQueue ≠ .sleeping ∧
      next.workPending = gls.workPending := by
  have hmax : gls.db.recordsNum.toNat ≤ 20 := hsound.db.recordsNum_le
  rw [Gls.step] at hstep
  split at hstep
  next hsleeping =>
    have hidx := hsound.sleeping hsleeping
    have hcase : WakeCase gls next := by
      rw [← Option.some.inj hstep]
      exact wakeCase gls
    cases hcase with
    | next hactive =>
        have hnext : (gls.racpProcRecordIdx + 1).toNat = gls.racpProcRecordIdx.toNat + 1 :=
          uint8_toNat_succ (by omega)
        have hlooping : WorkQueue.looping ≠ .sleeping := by decide
        refine ⟨?_, hlooping, rfl⟩
        simp only [remaining, hsleeping, hactive, hnext, reduceCtorEq, if_false, if_true]
        split_ifs <;> omega
    | completed racp hstate hanswers =>
        obtain ⟨hqueue, hpending, hstate', -⟩ :=
          racpSend_frame { gls with workQueue := .looping } racp
        refine ⟨(remaining_noComm (hstate'.trans hstate)).trans ?_, ?_, hpending⟩
        · simp only [remaining, hsleeping, hstate, reduceCtorEq, if_false, if_true, Nat.le_refl]
        · rw [hqueue]
          exact (by decide : WorkQueue.looping ≠ .sleeping)
  next hawake =>
    cases hstep
    exact ⟨Nat.le_refl _, hawake, rfl⟩

theorem loop_remaining {next : Gls} (hsound : Sound gls) (hawake : gls.workQueue ≠ .sleeping)
    (hstep : gls.step (.loop notifyOk) = some next) :
    remaining next ≤ remaining gls - 1 ∧ next.workPending = gls.workPending := by
  rw [Gls.step] at hstep
  split at hstep
  next hloop =>
    obtain ⟨_, hnext, hcase⟩ := loopCase hsound hloop notifyOk
    obtain rfl := Option.some.inj (hstep.symm.trans hnext)
    cases hcase with
    | exit hstop => exact ⟨by simp [remaining], rfl⟩
    | sent idx reported notifications hactive hidx hreported =>
        refine ⟨?_, rfl⟩
        by_cases hindexed : Indexed gls.racpProcOperator
        · have := hidx hindexed
          simp only [remaining, hloop, hactive, hindexed, reduceCtorEq, if_false, if_true]
          omega
        · obtain ⟨hzero, hone⟩ := hreported hindexed
          simp only [remaining, hloop, hactive, hindexed, hzero, hone rfl, reduceCtorEq, if_false,
            if_true]
          decide
    | slept reported notifications hactive hoperator hidx =>
        have hindexed : Indexed gls.racpProcOperator := .inl hoperator
        refine ⟨?_, rfl⟩
        simp only [remaining, hloop, hactive, hindexed, reduceCtorEq, if_false, if_true]
        omega
    | completed idx racp hactive hanswers =>
        obtain ⟨-, hpending, hstate, -⟩ :=
          racpSend_frame { gls with racpProcRecordIdx := idx, racpState := .noComm } racp
        -- a report that is active has its last iteration still to make
        have := remaining_noComm hstate
        have := two_le_remaining hloop hactive
        exact ⟨by omega, hpending⟩
    | failed idx reported notifications hactive hfails hresults => exact absurd rfl hresults
  next hloop =>
    cases hstep
    have hidle : gls.workQueue = .idle := by
      cases hqueue : gls.workQueue with
      | idle => rfl
      | looping => exact absurd hqueue hloop
      | sleeping => exact absurd hqueue hawake
    refine ⟨?_, rfl⟩
    simp [remaining, hidle]

/-! ## Runs -/

/-- The run is inside the bounds at this step. -/
def RacpInBounds (current : RacpState) (action : GlsAction) : Prop :=
  match current.state with
  | some gls => InBounds gls action
  | none => True

/-- No access has left its array and every accepted request is accounted for. -/
def RacpLawful (current : RacpState) : Prop :=
  current.state.isSome = true ∧ LedgerLaw current.history

/-- Nothing waits and nothing runs. -/
def Settled (ledger : Ledger) : Prop :=
  ledger.waiting = none ∧ ledger.current = none

/-- Each round lets a sleeping report go on and makes one iteration. -/
def rounds (count : Nat) : List GlsAction :=
  (List.replicate count [.wake, .loop notifyOk]).flatten

/-- A running report ends, the work item runs, and the report that it may start ends. -/
def drain : List GlsAction :=
  rounds 22 ++ .racpHandle :: rounds 22

theorem racpStep_of_step {next : Gls} {action : GlsAction} (hstep : gls.step action = some next) :
    racpStep ⟨some gls, ledger⟩ action = ⟨some next, ledger.note gls next action⟩ := by
  simp only [racpStep, trackedStep, glsStep, observeRacp, Option.bind_some, hstep]

theorem rounds_spec (count : Nat) (hinv : RacpInv gls ledger) :
    ∃ next history, run racpStep ⟨some gls, ledger⟩ (rounds count) = ⟨some next, history⟩ ∧
      RacpInv next history ∧ remaining next ≤ remaining gls - count ∧
      next.workPending = gls.workPending := by
  induction count generalizing gls ledger with
  | zero => exact ⟨gls, ledger, rfl, hinv, Nat.le_refl _, rfl⟩
  | succ count ih =>
      obtain ⟨awake, hwake, hinvAwake⟩ := racpInv_step hinv .wake trivial
      obtain ⟨hawakeLe, hawake, hpendingAwake⟩ := wake_remaining hinv.sound hwake
      obtain ⟨next, hloop, hinvNext⟩ := racpInv_step hinvAwake (.loop notifyOk) trivial
      obtain ⟨hnextLe, hpendingNext⟩ := loop_remaining hinvAwake.sound hawake hloop
      obtain ⟨last, history, hrun, hinvLast, hle, hpending⟩ := ih hinvNext
      refine ⟨last, history, ?_, hinvLast, by omega,
        hpending.trans (hpendingNext.trans hpendingAwake)⟩
      rw [← hrun]
      simp only [rounds, List.replicate_succ, List.flatten_cons, List.cons_append, List.nil_append,
        run_cons, racpStep_of_step hwake, racpStep_of_step hloop]

/-- The work item leaves nothing submitted. -/
theorem handle_pending {next : Gls} (hsound : Sound gls) (hidle : gls.workQueue = .idle)
    (hbounds : InBounds gls .racpHandle) (hstep : gls.step .racpHandle = some next) :
    next.workPending = false := by
  by_cases hpending : gls.workPending = true
  · obtain ⟨_, hhandle, hcase⟩ :=
      handleCase { gls with workPending := false } hsound.db (hbounds ⟨hpending, hidle⟩)
    rw [Gls.step, if_pos ⟨hpending, hidle⟩] at hstep
    obtain rfl := Option.some.inj (hstep.symm.trans hhandle)
    exact hcase.workPending
  · rw [Gls.step, if_neg (by simp [hpending])] at hstep
    obtain rfl := Option.some.inj hstep
    simpa using hpending

/-- What is known of a state that a run inside the bounds reaches. -/
def RacpReached (current : RacpState) : Prop :=
  ∃ gls, current.state = some gls ∧ RacpInv gls current.history

theorem racpReached_step (current : RacpState) (action : GlsAction)
    (hreached : RacpReached current) (hbounds : RacpInBounds current action) :
    RacpReached (racpStep current action) := by
  obtain ⟨state, ledger⟩ := current
  obtain ⟨gls, rfl, hinv⟩ := hreached
  obtain ⟨next, hstep, hnext⟩ := racpInv_step hinv action hbounds
  rw [racpStep_of_step hstep]
  exact ⟨next, rfl, hnext⟩

theorem idle_of_remaining (hremaining : remaining gls = 0) : gls.workQueue = .idle := by
  unfold remaining at hremaining
  split_ifs at hremaining with hidle
  exact hidle

theorem drain_settled {current : RacpState} (hreached : RacpReached current)
    (hbounds : Along racpStep RacpInBounds current drain) :
    Settled (run racpStep current drain).history := by
  obtain ⟨state, ledger⟩ := current
  obtain ⟨gls, rfl, hinv⟩ := hreached
  obtain ⟨free, history, hrun, hinvFree, hfree, -⟩ := rounds_spec 22 hinv
  have hidle : free.workQueue = .idle := by
    apply idle_of_remaining
    have := remaining_le hinv.sound
    omega
  rw [drain, along_append, hrun] at hbounds
  have hhandle : InBounds free .racpHandle := hbounds.2.1
  obtain ⟨next, hstep, hinvNext⟩ := racpInv_step hinvFree .racpHandle hhandle
  have hpending := handle_pending hinvFree.sound hidle hhandle hstep
  obtain ⟨last, final, hrun', hinvLast, hlast, hkept⟩ := rounds_spec 22 hinvNext
  rw [drain, run_append, hrun, run_cons, racpStep_of_step hstep, hrun']
  constructor
  · rw [← Option.not_isSome_iff_eq_none, hinvLast.waiting_iff, hkept, hpending]
    decide
  · rw [← Option.not_isSome_iff_eq_none, hinvLast.current_iff, not_not]
    apply idle_of_remaining
    have := remaining_le hinvNext.sound
    omega

/-- Every accepted request is finished and accounted for. -/
def AllAccounted (ledger : Ledger) : Prop :=
  (ledger.finished.map Handling.request).Perm ledger.accepted ∧
    ∀ handling ∈ ledger.finished, Accounted handling

theorem allAccounted_of_settled {ledger : Ledger} (hlaw : LedgerLaw ledger)
    (hsettled : Settled ledger) : AllAccounted ledger := by
  refine ⟨?_, hlaw.finished⟩
  have hconserved := hlaw.conserved
  rw [hsettled.1, hsettled.2] at hconserved
  simpa using hconserved

/-- In every state, every finished request is accounted for and no accepted one is lost;
and from every state the handler ends, with every accepted request finished. -/
theorem requests_answered (racpCcc : Bool) (db : GlsDatabase) (actions : List GlsAction)
    (hbounds : Along racpStep RacpInBounds (racpInit racpCcc db) actions) :
    Throughout racpStep RacpLawful (racpInit racpCcc db) actions ∧
      (Along racpStep RacpInBounds (racpInit racpCcc db) (actions ++ drain) →
        AllAccounted (run racpStep (racpInit racpCcc db) (actions ++ drain)).history) := by
  have hinit : RacpReached (racpInit racpCcc db) := ⟨_, rfl, racpInv_init racpCcc db⟩
  have hreached : ∀ steps, Along racpStep RacpInBounds (racpInit racpCcc db) steps →
      Throughout racpStep RacpReached (racpInit racpCcc db) steps := fun _ hsteps =>
    throughout_of_invariant RacpReached racpReached_step hinit hsteps
  constructor
  · apply (hreached actions hbounds).imp
    rintro current ⟨gls, hstate, hinv⟩
    exact ⟨by rw [hstate]; rfl, hinv.law⟩
  · intro hdrained
    obtain ⟨gls, -, hinv⟩ := (hreached _ hdrained).last
    refine allAccounted_of_settled hinv.law ?_
    rw [run_append]
    exact drain_settled (hreached actions hbounds).last (along_append.mp hdrained).2

instance (gls : Gls) : Decidable (DeletesInBounds gls) :=
  inferInstanceAs (Decidable (_ → _ → _ → _))

instance (gls : Gls) : (action : GlsAction) → Decidable (InBounds gls action)
  | .racpWrite _ _ => inferInstanceAs (Decidable (_ → _))
  | .racpHandle => inferInstanceAs (Decidable (_ → _))
  | .loop _ => isTrue trivial
  | .wake => isTrue trivial
  | .indicateRsp => isTrue trivial
  | .measurement _ => isTrue trivial

instance (current : RacpState) (action : GlsAction) : Decidable (RacpInBounds current action) :=
  match current with
  | ⟨some gls, _⟩ => inferInstanceAs (Decidable (InBounds gls action))
  | ⟨none, _⟩ => isTrue trivial

/-- A report of all records and a request for their number, each confirmed. -/
def answeredRequests : List GlsAction :=
  [.measurement (sampleGlsRecord 1), .racpWrite [1, 1] 0, .racpHandle, .loop notifyOk, .wake,
    .loop notifyOk, .loop notifyOk, .indicateRsp, .racpWrite [4, 1] 0, .racpHandle, .indicateRsp]

theorem answeredRequests_accounted :
    Throughout racpStep RacpLawful (racpInit true sampleGlsDatabase) answeredRequests ∧
      AllAccounted
        (run racpStep (racpInit true sampleGlsDatabase) (answeredRequests ++ drain)).history :=
  have hanswered := requests_answered true sampleGlsDatabase answeredRequests (by decide +kernel)
  ⟨hanswered.1, hanswered.2 (by decide +kernel)⟩

/-- Every accepted request was handled as written and answered by one indication. -/
def AnsweredOnce (ledger : Ledger) : Prop :=
  (ledger.finished.map Handling.request).Perm ledger.accepted ∧
    ∀ handling ∈ ledger.finished, handling.handled = some handling.request ∧
      ∃ value, handling.answers = [value] ∧ Answers handling.request.opcode value

/-- A report that is aborted while it sleeps after its first record. -/
def abortedReport : List GlsAction :=
  [.measurement (sampleGlsRecord 1), .racpWrite [1, 1] 0, .racpHandle, .loop notifyOk,
    .racpWrite [3, 0] 0, .wake, .loop notifyOk, .racpHandle, .indicateRsp]

/-- The abort is answered, the report is not. -/
theorem abortedReport_unanswered :
    Along racpStep RacpInBounds (racpInit true sampleGlsDatabase) abortedReport ∧
      Settled (run racpStep (racpInit true sampleGlsDatabase) abortedReport).history ∧
      ¬ AnsweredOnce (run racpStep (racpInit true sampleGlsDatabase) abortedReport).history := by
  refine ⟨by decide +kernel, ⟨by decide +kernel, by decide +kernel⟩, ?_⟩
  rintro ⟨-, hall⟩
  have hreport : ({ request := ⟨1, 1, []⟩, handled := some ⟨1, 1, []⟩, disturbed := true } :
      Handling) ∈
      (run racpStep (racpInit true sampleGlsDatabase) abortedReport).history.finished := by
    decide +kernel
  obtain ⟨-, value, hanswers, -⟩ := hall _ hreport
  cases hanswers

end CubieBle.Gatt
