import CubieBle.Gatt.CgmsReports

/-! # The progress of a report

Every step of the work queue brings a report closer to its end, and the rest of the service leaves
it where it is. After as many steps of the work queue as the longest report takes, it is over.
-/

namespace CubieBle.Gatt.ContinuousGlucose

open Machine

/-- The next step of the work queue handles a report that is executed. -/
structure Requested (point : CgmsPoint) : Prop where
  idle : point.workQueue = .idle
  pending : point.workPending = true
  noComm : point.racpState = .noComm
  ccc : point.racpCcc = true
  indicating : point.racpIndicating = false
  opcode : point.cgmsRacpRequest.opcode = racpOpcodeReportRecs
  accepted : reportResponse point.cgmsRacpRequest = racpResponseReserved

/-- The report has not begun. -/
structure Waiting (base : CgmsPoint) (old : List CgmsRecord) (point : CgmsPoint)
    (live : List CgmsRecord) : Prop where
  serving : Serving point live
  older : old.length ≤ live.length
  requested : Requested point
  request : point.cgmsRacpRequest = base.cgmsRacpRequest
  feature : point.cgms.cgmFeature = base.cgms.cgmFeature
  reports : point.reports = base.reports
  indications : point.indications = base.indications

/-- The report is over. Only an unreliable one ends without a response. -/
structure Ended (reliable : Prop) (base : CgmsPoint) (old : List CgmsRecord) (point : CgmsPoint)
    (live : List CgmsRecord) (count : Nat) : Prop where
  serving : Serving point live
  pending : point.workPending = false
  noComm : point.racpState = .noComm
  count_le : count ≤ live.length
  reports : point.reports = base.reports ++
    (selected base (live.take count)).map (reportValue base.cgms.cgmFeature)
  response : (old.length ≤ count ∧ point.indications = base.indications ++
      [[racpOpcodeResponseCode, racpOperatorNull, racpOpcodeReportRecs,
        reportCode (selected base (live.take count))]]) ∨
    (¬reliable ∧ point.indications = base.indications)

/-- The number of steps of the work queue that a report takes at most. -/
def reportSteps : Nat := 43

/-- Where a report stands, with the steps of the work queue that are left at most. -/
inductive Progress (reliable : Prop) (base : CgmsPoint) (old : List CgmsRecord)
    (point : CgmsPoint) (live : List CgmsRecord) : Nat → Prop where
  | waiting (hwaiting : Waiting base old point live) :
      Progress reliable base old point live reportSteps
  | looping (seen : Nat) (hreporting : Reporting base old point live seen) :
      Progress reliable base old point live (2 * (20 - seen) + 2)
  | sleeping (seen : Nat) (hqueue : point.workQueue = .sleeping)
      (hreporting : Reporting base old { point with
        workQueue := .looping, racpProcRecordIdx := point.racpProcRecordIdx + 1 } live seen) :
      Progress reliable base old point live (2 * (20 - seen) + 3)
  | leaving (count : Nat) (hqueue : point.workQueue = .looping)
      (hended : Ended reliable base old point live count) :
      Progress reliable base old point live 1
  | finished (count : Nat) (hqueue : point.workQueue = .idle)
      (hended : Ended reliable base old point live count) :
      Progress reliable base old point live 0

section Progress

variable {reliable : Prop} {base point : CgmsPoint} {old live : List CgmsRecord}

/-! ## The rest of the service -/

theorem Reporting.session {seen : Nat} (hreporting : Reporting base old point live seen)
    {action : Gatt.CgmsAction} (hongoing : Ongoing action) :
    Reporting base old (point.session action) (live ++ added point.cgms live action) seen := by
  obtain ⟨hserving, hfeature⟩ := hreporting.serving.session hongoing
  have hlonger : live.length ≤ (live ++ added point.cgms live action).length := by
    rw [List.length_append]
    exact Nat.le_add_right _ _
  have htake : (live ++ added point.cgms live action).take seen = live.take seen :=
    List.take_append_of_le_length hreporting.seen_le
  constructor
  case serving => exact hserving
  case older => exact hreporting.older.trans hlonger
  case request => exact hreporting.request
  case feature => exact hfeature.trans hreporting.feature
  case opcode => exact hreporting.opcode
  case reportable => exact hreporting.reportable
  case pending => exact hreporting.pending
  case looping => exact hreporting.looping
  case active => exact hreporting.active
  case operator => exact hreporting.operator
  case timeOffset => exact hreporting.timeOffset
  case seen_le => exact hreporting.seen_le.trans hlonger
  case idx => exact hreporting.idx
  case ends => exact hreporting.ends
  case reported =>
    rw [htake]
    exact hreporting.reported
  case reports =>
    rw [htake]
    exact hreporting.reports
  case ccc => exact hreporting.ccc
  case indicating => exact hreporting.indicating
  case indications => exact hreporting.indications

theorem Waiting.session (hwaiting : Waiting base old point live) {action : Gatt.CgmsAction}
    (hongoing : Ongoing action) :
    Waiting base old (point.session action) (live ++ added point.cgms live action) := by
  obtain ⟨hserving, hfeature⟩ := hwaiting.serving.session hongoing
  have hrequested := hwaiting.requested
  refine ⟨hserving, hwaiting.older.trans ?_, ?_, hwaiting.request,
    hfeature.trans hwaiting.feature, hwaiting.reports, hwaiting.indications⟩
  · rw [List.length_append]
    exact Nat.le_add_right _ _
  · exact ⟨hrequested.idle, hrequested.pending, hrequested.noComm, hrequested.ccc,
      hrequested.indicating, hrequested.opcode, hrequested.accepted⟩

theorem Ended.session {count : Nat} (hended : Ended reliable base old point live count)
    {action : Gatt.CgmsAction} (hongoing : Ongoing action) :
    Ended reliable base old (point.session action) (live ++ added point.cgms live action)
      count := by
  obtain ⟨hserving, -⟩ := hended.serving.session hongoing
  have htake : (live ++ added point.cgms live action).take count = live.take count :=
    List.take_append_of_le_length hended.count_le
  refine ⟨hserving, hended.pending, hended.noComm, hended.count_le.trans ?_, ?_, ?_⟩
  · rw [List.length_append]
    exact Nat.le_add_right _ _
  · rw [htake]
    exact hended.reports
  · rw [htake]
    exact hended.response

/-- The rest of the service leaves a report where it is. -/
theorem Progress.session {left : Nat} (hprogress : Progress reliable base old point live left)
    {action : Gatt.CgmsAction} (hongoing : Ongoing action) :
    Progress reliable base old (point.session action) (live ++ added point.cgms live action)
      left := by
  cases hprogress with
  | waiting hwaiting => exact .waiting (hwaiting.session hongoing)
  | looping seen hreporting => exact .looping seen (hreporting.session hongoing)
  | sleeping seen hqueue hreporting => exact .sleeping seen hqueue (hreporting.session hongoing)
  | leaving count hqueue hended => exact .leaving count hqueue (hended.session hongoing)
  | finished count hqueue hended => exact .finished count hqueue (hended.session hongoing)

/-! ## The work queue -/

theorem isRequestToBeExecuted_of_requested (hrequested : Requested point) :
    isRequestToBeExecuted point.racpState point.cgmsRacpRequest =
      (true, racpResponseReserved) := by
  rw [isRequestToBeExecuted, Gatt.isRequestToBeExecuted, hrequested.noComm, hrequested.opcode,
    if_neg (by decide), if_neg (by decide), if_pos (.inl rfl), hrequested.accepted]
  rfl

theorem Waiting.work (hwaiting : Waiting base old point live) (result : Int) :
    ∃ next, point.work result = some next ∧ Reporting base old next live 0 := by
  have hrequested := hwaiting.requested
  have hverdict := isRequestToBeExecuted_of_requested hrequested
  refine ⟨reportRecordsRequestExecute { point with workPending := false } point.cgmsRacpRequest,
    ?_, ?_⟩
  · rw [CgmsPoint.work, hrequested.idle]
    dsimp only
    rw [if_pos hrequested.pending, cgmsRacpHandle, hverdict]
    dsimp only
    rw [if_pos hrequested.opcode]
  · have hopcode := hrequested.opcode
    have haccepted := hrequested.accepted
    rw [hwaiting.request] at hopcode haccepted
    have hnothing : selected base [] = [] := by
      rw [selected]
      rcases reportable_of_response haccepted with hop | hop | hop | hop
      all_goals
        rw [hop]
        rfl
    constructor
    case serving => exact hwaiting.serving.frame rfl rfl
    case older => exact hwaiting.older
    case request => exact hwaiting.request
    case feature => exact hwaiting.feature
    case opcode => exact hopcode
    case reportable => exact reportable_of_response haccepted
    case pending => rfl
    case looping => rfl
    case active => rfl
    case operator => exact congrArg GlsRacp.operator hwaiting.request
    case timeOffset => exact congrArg timeOffsetOf hwaiting.request
    case seen_le => exact Nat.zero_le _
    case idx => exact fun _ => rfl
    case ends => exact fun _ => .inl rfl
    case reported =>
      rw [List.take_zero, hnothing]
      rfl
    case reports =>
      rw [List.take_zero, hnothing, List.map_nil, List.append_nil]
      exact hwaiting.reports
    case ccc => exact hrequested.ccc
    case indicating => exact hrequested.indicating
    case indications => exact hwaiting.indications

/-- A report that has sent a record goes on behind it. -/
theorem Reporting.sent {seen next : Nat} {record : CgmsRecord} {idx : UInt8}
    (hreporting : Reporting base old point live seen) (hnext : next ≤ live.length)
    (hidx : Indexed base.cgmsRacpRequest.operator → idx.toNat + 1 = next)
    (hends : ¬Indexed base.cgmsRacpRequest.operator → next = live.length)
    (hselected : selected base (live.take next) = selected base (live.take seen) ++ [record]) :
    Reporting base old { point.sent record with
      racpProcRecordIdx := idx + 1, workQueue := .looping } live next := by
  have hmax := length_le_of_holds hreporting.serving.holds
  constructor
  case serving => exact hreporting.serving.frame rfl rfl
  case older => exact hreporting.older
  case request => exact hreporting.request
  case feature => exact hreporting.feature
  case opcode => exact hreporting.opcode
  case reportable => exact hreporting.reportable
  case pending => exact hreporting.pending
  case looping => rfl
  case active => exact hreporting.active
  case operator => exact hreporting.operator
  case timeOffset => exact hreporting.timeOffset
  case seen_le => exact hnext
  case idx =>
    intro hindexed
    have hidx := hidx hindexed
    exact (uint8_toNat_succ (by omega)).trans hidx
  case ends =>
    intro hindexed
    rw [hends hindexed]
    exact .inr hreporting.older
  case reported =>
    have hcount : (selected base (live.take seen)).length ≤ (live.take seen).length :=
      length_matching_le _ _ _
    rw [List.length_take] at hcount
    rw [hselected, List.length_append, List.length_singleton, ← hreporting.reported]
    apply uint8_toNat_succ
    rw [hreporting.reported]
    omega
  case reports =>
    rw [hselected, List.map_append, List.map_singleton, ← List.append_assoc,
      ← hreporting.reports, ← hreporting.feature]
    rfl
  case ccc => exact hreporting.ccc
  case indicating => exact hreporting.indicating
  case indications => exact hreporting.indications

theorem Reporting.completed {seen count : Nat} (idx : UInt8)
    (hreporting : Reporting base old point live seen) (hold : old.length ≤ count)
    (hcount : count ≤ live.length)
    (hselected : selected base (live.take count) = selected base (live.take seen)) :
    Ended reliable base old (racpReportRecordsCompleted { point with
      racpProcRecordIdx := idx, racpState := .noComm }) live count ∧
      (racpReportRecordsCompleted { point with
        racpProcRecordIdx := idx, racpState := .noComm }).workQueue = .looping := by
  have hcode : (if 0 < point.racpProcRecordsReported then racpResponseSuccess
      else racpResponseNoRecordsFound) = reportCode (selected base (live.take count)) := by
    have hpos : 0 < point.racpProcRecordsReported ↔ selected base (live.take seen) ≠ [] := by
      rw [UInt8.lt_iff_toNat_lt, hreporting.reported]
      exact List.length_pos_iff
    rw [reportCode, hselected]
    by_cases hempty : selected base (live.take seen) = []
    · rw [if_pos hempty, if_neg (mt hpos.mp (not_not.mpr hempty))]
    · rw [if_neg hempty, if_pos (hpos.mpr hempty)]
  rw [racpReportRecordsCompleted, racpResponseCodeSend, racpSend]
  dsimp only
  rw [hreporting.ccc, hreporting.indicating, if_pos (by decide), hcode]
  refine ⟨?_, hreporting.looping⟩
  constructor
  case serving => exact hreporting.serving.frame rfl rfl
  case pending => exact hreporting.pending
  case noComm => rfl
  case count_le => exact hcount
  case reports =>
    rw [hselected]
    exact hreporting.reports
  case response =>
    refine .inl ⟨hold, ?_⟩
    dsimp only
    rw [hreporting.indications]
    rfl

theorem Reporting.failed {seen : Nat} (idx : UInt8)
    (hreporting : Reporting base old point live seen) (hreliable : ¬reliable) :
    Ended reliable base old (stateSet { point with racpProcRecordIdx := idx } .noComm) live
      seen where
  serving := hreporting.serving.frame rfl rfl
  pending := hreporting.pending
  noComm := rfl
  count_le := hreporting.seen_le
  reports := hreporting.reports
  response := .inr ⟨hreliable, hreporting.indications⟩

/-- An iteration sends a record, notices the end of the report, or fails. -/
theorem Reporting.work {seen : Nat} (hreporting : Reporting base old point live seen)
    {result : Int} (hresult : reliable → result = 0) :
    ∃ next, point.work result = some next ∧
      ∃ left ≤ 2 * (20 - seen) + 1, Progress reliable base old next live left := by
  have hmax := length_le_of_holds hreporting.serving.holds
  have hopcode : point.cgmsRacpRequest.opcode = racpOpcodeReportRecs := by
    rw [hreporting.request]
    exact hreporting.opcode
  have hawake : point.workQueue ≠ .sleeping := by
    rw [hreporting.looping]
    decide
  rw [CgmsPoint.work, hreporting.looping]
  dsimp only
  rw [racpReportRecordsProcedure, if_neg (not_not.mpr hreporting.active),
    if_neg (not_not.mpr hopcode)]
  have hcase := reportCase hreporting result
  generalize racpReportRecords point result = reported at hcase
  cases hcase with
  | sent record idx next queue hqueue hzero hseen hnext hidx hends hselected =>
      have hsent := hreporting.sent hnext hidx hends hselected
      dsimp only
      cases queue with
      | idle => exact absurd rfl hqueue
      | looping =>
          rw [if_neg (by decide), racpReportRecordsNext, if_pos rfl,
            if_pos (by exact hreporting.active)]
          exact ⟨_, rfl, _, by omega, .looping next hsent⟩
      | sleeping =>
          rw [if_pos rfl]
          exact ⟨_, rfl, _, by omega, .sleeping next rfl hsent⟩
  | completed idx count hold hcount hselected =>
      obtain ⟨hended, hqueue⟩ : Ended reliable base old _ live count ∧ _ :=
        hreporting.completed idx hold hcount hselected
      dsimp only
      rw [if_neg (by exact hawake), racpReportRecordsNext, if_pos rfl,
        if_neg (by exact GlsState.noConfusion)]
      exact ⟨_, rfl, 1, by omega, .leaving count hqueue hended⟩
  | failed idx hfailed =>
      dsimp only
      rw [if_neg (by exact hawake), racpReportRecordsNext, if_neg hfailed]
      exact ⟨_, rfl, 1, by omega,
        .leaving seen hreporting.looping (hreporting.failed idx (mt hresult hfailed))⟩

theorem Ended.frame {next : CgmsPoint} {count : Nat}
    (hended : Ended reliable base old point live count)
    (hnext : next = { point with workQueue := next.workQueue }) :
    Ended reliable base old next live count := by
  rw [hnext]
  exact ⟨hended.serving.frame rfl rfl, hended.pending, hended.noComm, hended.count_le,
    hended.reports, hended.response⟩

/-- A step of the work queue brings a report closer to its end. -/
theorem Progress.work {left : Nat} (hprogress : Progress reliable base old point live left)
    {result : Int} (hresult : reliable → result = 0) :
    ∃ next, point.work result = some next ∧
      ∃ left' ≤ left - 1, Progress reliable base old next live left' := by
  cases hprogress with
  | waiting hwaiting =>
      obtain ⟨next, hwork, hreporting⟩ := hwaiting.work result
      exact ⟨next, hwork, _, Nat.le_refl _, .looping 0 hreporting⟩
  | looping seen hreporting => exact hreporting.work hresult
  | sleeping seen hqueue hreporting =>
      refine ⟨_, ?_, _, Nat.le_refl _, .looping seen hreporting⟩
      rw [CgmsPoint.work, hqueue]
      dsimp only
      rw [racpReportRecordsWake, racpReportRecordsNext, if_pos rfl,
        if_pos (by exact hreporting.active)]
  | leaving count hqueue hended =>
      refine ⟨{ point with workQueue := .idle }, ?_, 0, Nat.le_refl _,
        .finished count rfl (hended.frame rfl)⟩
      rw [CgmsPoint.work, hqueue]
      dsimp only
      rw [racpReportRecordsProcedure, if_pos (by rw [hended.noComm]; decide)]
  | finished count hqueue hended =>
      refine ⟨point, ?_, 0, Nat.le_refl _, .finished count hqueue hended⟩
      rw [CgmsPoint.work, hqueue]
      dsimp only
      rw [if_neg (by rw [hended.pending]; decide)]

end Progress

/-! ## Schedules -/

/-- The session and the work queue go on, and the control point is left alone. -/
def CgmsAction.Elapses : CgmsAction → Prop
  | .session action => Ongoing action
  | .work _ => True
  | _ => False

instance : (action : CgmsAction) → Decidable action.Elapses
  | .session action => inferInstanceAs (Decidable (Ongoing action))
  | .work _ => isTrue trivial
  | .racpWrite _ | .indicateRsp | .racpCcc _ => isFalse not_false

/-- The steps of the work queue in a schedule. -/
def works : List CgmsAction → Nat
  | [] => 0
  | .work _ :: rest => works rest + 1
  | _ :: rest => works rest

theorem Progress.run {reliable : Prop} {base point : CgmsPoint} {old live : List CgmsRecord}
    {left : Nat} (hprogress : Progress reliable base old point live left)
    {schedule : List CgmsAction} (helapses : ∀ action ∈ schedule, action.Elapses)
    (hreliable : reliable → ∀ result, .work result ∈ schedule → result = 0) :
    ∃ last live' left', Machine.run cgmsStep (some point) schedule = some last ∧
      live <+: live' ∧ left' ≤ left - works schedule ∧
      Progress reliable base old last live' left' := by
  induction schedule generalizing point live left with
  | nil => exact ⟨point, live, left, rfl, List.prefix_refl live, Nat.le_refl _, hprogress⟩
  | cons action rest ih =>
      have hrest : ∀ action ∈ rest, action.Elapses := fun action haction =>
        helapses action (List.mem_cons_of_mem _ haction)
      have hreliableRest : reliable → ∀ result, .work result ∈ rest → result = 0 :=
        fun hok result hmem => hreliable hok result (List.mem_cons_of_mem _ hmem)
      cases action with
      | session action =>
          have hongoing : Ongoing action := helapses _ (List.mem_cons_self ..)
          obtain ⟨last, live', left', hrun, hlive, hleft, hlast⟩ :=
            ih (hprogress.session hongoing) hrest hreliableRest
          exact ⟨last, live', left', hrun, (List.prefix_append _ _).trans hlive, hleft, hlast⟩
      | work result =>
          obtain ⟨next, hwork, middle, hmiddle, hnext⟩ := hprogress.work
            fun hok => hreliable hok result (List.mem_cons_self ..)
          obtain ⟨last, live', left', hrun, hlive, hleft, hlast⟩ := ih hnext hrest hreliableRest
          refine ⟨last, live', left', ?_, hlive, ?_, hlast⟩
          · rw [run_cons, cgmsStep, Option.bind_some, CgmsPoint.step, hwork]
            exact hrun
          · rw [works]
            omega
      | racpWrite data => exact absurd (helapses _ (List.mem_cons_self ..)) not_false
      | indicateRsp => exact absurd (helapses _ (List.mem_cons_self ..)) not_false
      | racpCcc enabled => exact absurd (helapses _ (List.mem_cons_self ..)) not_false

end CubieBle.Gatt.ContinuousGlucose
