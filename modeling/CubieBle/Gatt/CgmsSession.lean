import CubieBle.Gatt.CgmsProgress

/-! # The records of a session

The timer takes a measurement at each multiple of five seconds while there is room for it. What
the control point does between, reports and deletions of all records included, leaves the records
in the order in which they were taken.
-/

namespace CubieBle.Gatt.ContinuousGlucose

open Machine

/-! ## What a step of the work queue leaves alone -/

section Frame

variable {point : CgmsPoint} {live : List CgmsRecord}

@[simp] theorem racpSend_cgms (point : CgmsPoint) (racp : CgmsRacp) :
    (racpSend point racp).cgms = point.cgms := by
  rw [racpSend]
  split
  · rfl
  · rfl

theorem cgmMeasSend_cgms (point : CgmsPoint) (record : CgmsRecord) (err : Int) :
    (cgmMeasSend point record err).2.cgms = point.cgms := by
  simp only [cgmMeasSend]
  split
  · rfl
  · rfl

theorem racpReportRecordsNext_cgms (point : CgmsPoint) (err : Int) :
    (racpReportRecordsNext point err).cgms = point.cgms := by
  rw [racpReportRecordsNext]
  split
  · split
    · rfl
    · rw [racpReportRecordsCompleted, racpResponseCodeSend, racpSend_cgms]
  · rfl

theorem findGreaterOrEqual_total {db : CgmsDatabase} (hholds : Holds db live)
    (timeOffset : UInt16) (idx : UInt8) :
    ∃ stop found, findGreaterOrEqual db timeOffset (cgmsDbMaxRecords + 2) idx =
      some (stop, .ok found) := by
  have hmax := length_le_of_holds hholds
  by_cases hle : idx.toNat ≤ live.length
  · have hfuel : live.length < idx.toNat + (cgmsDbMaxRecords + 2) := by
      rw [show cgmsDbMaxRecords = 20 from rfl]
      omega
    rcases findGreaterOrEqual_holds hholds timeOffset hle hfuel with
      ⟨stop, hfind, -⟩ | ⟨stop, hstop, -, hfind, -⟩
    · exact ⟨stop, none, hfind⟩
    · exact ⟨stop, some live[stop.toNat], hfind⟩
  · -- behind the last record the loop does not begin
    have hout : ¬idx.toUInt16 < cgmsDbNumRecordsGet db := by
      rw [UInt16.lt_iff_toNat_lt, UInt8.toNat_toUInt16, cgmsDbNumRecordsGet_toNat hholds]
      omega
    rw [findGreaterOrEqual, if_neg hout]
    exact ⟨idx, none, rfl⟩

theorem firstLast_lt {db : CgmsDatabase} (hholds : Holds db live)
    (hnum : cgmsDbNumRecordsGet db ≠ 0) (operator : UInt8) :
    (if operator = racpOperatorFirst then 0
      else (cgmsDbNumRecordsGet db - 1).toUInt8).toNat < live.length := by
  have hmax := length_le_of_holds hholds
  have hlength := cgmsDbNumRecordsGet_toNat hholds
  have hpos : live.length ≠ 0 := by
    rw [← hlength, ne_eq, ← UInt16.toNat_zero, UInt16.toNat_inj]
    exact hnum
  split
  · exact Nat.pos_of_ne_zero hpos
  · rw [UInt16.toNat_toUInt8, uint16_toNat_pred (by omega)]
    omega

theorem racpReportRecordsAll_cgms (hserving : Serving point live) (result : Int) :
    ∃ err next, racpReportRecordsAll point result = some (err, next) ∧
      next.cgms = point.cgms := by
  rw [racpReportRecordsAll]
  split
  · exact ⟨_, _, rfl, rfl⟩
  · rename_i hlt
    rw [numRecords_le_iff hserving.holds, not_le] at hlt
    rw [cgmsDbRecordGet_of_lt hserving.holds hlt]
    dsimp only
    have hcgms := cgmMeasSend_cgms point live[point.racpProcRecordIdx.toNat] result
    split
    next sent hsend =>
      rw [hsend] at hcgms
      exact ⟨_, _, rfl, hcgms⟩
    next err sent _ hsend =>
      rw [hsend] at hcgms
      exact ⟨_, _, rfl, hcgms⟩

theorem racpReportRecordsFirstLast_cgms (hserving : Serving point live) (result : Int) :
    ∃ err next, racpReportRecordsFirstLast point result = some (err, next) ∧
      next.cgms = point.cgms := by
  rw [racpReportRecordsFirstLast]
  split
  · exact ⟨_, _, rfl, rfl⟩
  · rename_i hdone
    have hidx := firstLast_lt hserving.holds (not_or.mp hdone).2 point.racpProcOperator
    rw [cgmsDbRecordGet_of_lt hserving.holds hidx]
    exact ⟨_, _, rfl, cgmMeasSend_cgms point _ result⟩

theorem racpReportRecordsGreaterOrEqual_cgms (hserving : Serving point live) (result : Int) :
    ∃ err next, racpReportRecordsGreaterOrEqual point result = some (err, next) ∧
      next.cgms = point.cgms := by
  obtain ⟨stop, found, hfind⟩ := findGreaterOrEqual_total hserving.holds
    point.racpProcTimeOffset point.racpProcRecordIdx
  rw [racpReportRecordsGreaterOrEqual, hfind]
  cases found with
  | none =>
      dsimp only
      rw [if_neg (not_not.mpr rfl)]
      split
      · exact ⟨_, _, rfl, rfl⟩
      · exact ⟨_, _, rfl, rfl⟩
  | some record =>
      have hcgms := cgmMeasSend_cgms { point with racpProcRecordIdx := stop } record result
      dsimp only
      split
      · exact ⟨_, _, rfl, hcgms⟩
      · split
        · exact ⟨_, _, rfl, hcgms⟩
        · exact ⟨_, _, rfl, hcgms⟩

theorem racpReportRecords_cgms (hserving : Serving point live) (result : Int) :
    racpReportRecords point result = none ∨
      ∃ err next, racpReportRecords point result = some (some (err, next)) ∧
        next.cgms = point.cgms := by
  rw [racpReportRecords]
  split
  · obtain ⟨err, next, hreport, hcgms⟩ := racpReportRecordsAll_cgms hserving result
    exact .inr ⟨err, next, congrArg some hreport, hcgms⟩
  · split
    · obtain ⟨err, next, hreport, hcgms⟩ := racpReportRecordsFirstLast_cgms hserving result
      exact .inr ⟨err, next, congrArg some hreport, hcgms⟩
    · split
      · obtain ⟨err, next, hreport, hcgms⟩ :=
          racpReportRecordsGreaterOrEqual_cgms hserving result
        exact .inr ⟨err, next, congrArg some hreport, hcgms⟩
      · exact .inl rfl

/-- Reports never touch the service behind the control point. -/
theorem racpReportRecordsProcedure_cgms (hserving : Serving point live) (result : Int) :
    ∃ next, racpReportRecordsProcedure point result = some next ∧ next.cgms = point.cgms := by
  rw [racpReportRecordsProcedure]
  split
  · exact ⟨_, rfl, rfl⟩
  · split
    · exact ⟨_, rfl, rfl⟩
    · rcases racpReportRecords_cgms hserving result with hreport | ⟨err, next, hreport, hcgms⟩
      · rw [hreport]
        exact ⟨_, rfl, rfl⟩
      · rw [hreport]
        dsimp only
        split
        · exact ⟨_, rfl, hcgms⟩
        · exact ⟨_, rfl, (racpReportRecordsNext_cgms next err).trans hcgms⟩

theorem countGreaterOrEqual_total {db : CgmsDatabase} (hholds : Holds db live)
    (timeOffset : UInt16) (remaining : Nat) (i numRecords : UInt16)
    (hbound : i.toNat + remaining ≤ live.length) :
    ∃ total, countGreaterOrEqual db timeOffset remaining i numRecords = some (.ok total) := by
  have hmax := length_le_of_holds hholds
  induction remaining generalizing i numRecords with
  | zero => exact ⟨numRecords, rfl⟩
  | succ remaining ih =>
      have hidx : i.toUInt8.toNat = i.toNat := by
        rw [UInt16.toNat_toUInt8]
        omega
      have hnext : (i + 1).toNat = i.toNat + 1 := uint16_toNat_succ (by omega)
      rw [countGreaterOrEqual, cgmsDbRecordGet_of_lt hholds (by omega)]
      exact ih (i + 1) _ (by omega)

theorem reportNumRecordsRequestExecute_cgms (hserving : Serving point live)
    (request : CgmsRacp) :
    ∃ next, reportNumRecordsRequestExecute point request = some next ∧
      next.cgms = point.cgms := by
  obtain ⟨total, hcount⟩ := countGreaterOrEqual_total hserving.holds (timeOffsetOf request)
    (cgmsDbNumRecordsGet point.cgms.db).toNat 0 0
    (by rw [cgmsDbNumRecordsGet_toNat hserving.holds, UInt16.toNat_zero, Nat.zero_add])
  simp only [reportNumRecordsRequestExecute, hcount]
  split
  · exact ⟨_, rfl, racpSend_cgms _ _⟩
  · split
    · exact ⟨_, rfl, racpSend_cgms _ _⟩
    · split
      · exact ⟨_, rfl, racpSend_cgms _ _⟩
      · exact ⟨_, rfl, racpSend_cgms _ _⟩

/-! ## Deletions -/

/-- The work queue is about to delete what this operator selects. -/
def Deletes (point : CgmsPoint) (operator : UInt8) : Prop :=
  point.workQueue = .idle ∧ point.workPending = true ∧
    (isRequestToBeExecuted point.racpState point.cgmsRacpRequest).1 = true ∧
    point.cgmsRacpRequest.opcode = racpOpcodeDeleteRecs ∧
    point.cgmsRacpRequest.operator = operator

instance (point : CgmsPoint) (operator : UInt8) : Decidable (Deletes point operator) :=
  inferInstanceAs (Decidable (_ ∧ _))

theorem deleteRecordsRequestExecute_cgms (point : CgmsPoint) (request : CgmsRacp)
    (hfirst : request.operator ≠ racpOperatorFirst) (hlast : request.operator ≠ racpOperatorLast) :
    ∃ next, deleteRecordsRequestExecute point request = some next ∧
      next.cgms = if request.operator = racpOperatorAll then
        { point.cgms with db := cgmsDbRecordDeleteAll point.cgms.db } else point.cgms := by
  rw [deleteRecordsRequestExecute]
  dsimp only
  by_cases hall : request.operator = racpOperatorAll
  · rw [if_pos hall, if_pos hall]
    exact ⟨_, rfl, racpSend_cgms _ _⟩
  · rw [if_neg hall, if_neg hall, if_neg hfirst, if_neg hlast]
    exact ⟨_, rfl, racpSend_cgms _ _⟩

/-- Unless it deletes one record, handling a request clears the database or leaves it. -/
theorem cgmsRacpHandle_cgms (hserving : Serving point live) (hidle : point.workQueue = .idle)
    (hpending : point.workPending = true) (hfirst : ¬Deletes point racpOperatorFirst)
    (hlast : ¬Deletes point racpOperatorLast) :
    ∃ next, cgmsRacpHandle { point with workPending := false } = some next ∧
      next.cgms = if Deletes point racpOperatorAll then
        { point.cgms with db := cgmsDbRecordDeleteAll point.cgms.db } else point.cgms := by
  have hdeletes : ∀ operator, Deletes point operator ↔
      (isRequestToBeExecuted point.racpState point.cgmsRacpRequest).1 = true ∧
        point.cgmsRacpRequest.opcode = racpOpcodeDeleteRecs ∧
        point.cgmsRacpRequest.operator = operator := fun operator =>
    ⟨fun hall => hall.2.2, fun hall => ⟨hidle, hpending, hall⟩⟩
  rw [hdeletes] at hfirst hlast
  simp only [hdeletes]
  rw [cgmsRacpHandle]
  dsimp only
  generalize isRequestToBeExecuted point.racpState point.cgmsRacpRequest = verdict at hfirst hlast ⊢
  obtain ⟨executed, code⟩ := verdict
  cases executed with
  | false =>
      simp only [Bool.false_eq_true, false_and, if_false]
      split
      · exact ⟨_, rfl, racpSend_cgms _ _⟩
      · exact ⟨_, rfl, rfl⟩
  | true =>
      dsimp only
      by_cases hdelete : point.cgmsRacpRequest.opcode = racpOpcodeDeleteRecs
      · simp only [hdelete, true_and, if_true] at hfirst hlast ⊢
        rw [if_neg (by decide), if_neg (by decide)]
        exact deleteRecordsRequestExecute_cgms _ _ hfirst hlast
      · simp only [hdelete, false_and, and_false, if_false]
        split
        · exact ⟨_, rfl, rfl⟩
        · split
          · have htaken : Serving { point with workPending := false } live :=
              hserving.frame rfl rfl
            obtain ⟨next, hnum, hcgms⟩ :=
              reportNumRecordsRequestExecute_cgms htaken point.cgmsRacpRequest
            exact ⟨next, hnum, hcgms⟩
          · exact ⟨_, rfl, rfl⟩

/-- A step of the work queue that deletes no single record clears the database or leaves it. -/
theorem work_cgms (hserving : Serving point live) (hfirst : ¬Deletes point racpOperatorFirst)
    (hlast : ¬Deletes point racpOperatorLast) (result : Int) :
    ∃ next, point.work result = some next ∧
      next.cgms = if Deletes point racpOperatorAll then
        { point.cgms with db := cgmsDbRecordDeleteAll point.cgms.db } else point.cgms := by
  have hbusy : point.workQueue ≠ .idle → ¬Deletes point racpOperatorAll :=
    fun hqueue hdeletes => hqueue hdeletes.1
  rw [CgmsPoint.work]
  cases hqueue : point.workQueue with
  | idle =>
      dsimp only
      by_cases hpending : point.workPending = true
      · have hhandle := cgmsRacpHandle_cgms hserving hqueue hpending hfirst hlast
        rw [hqueue] at hhandle
        rw [if_pos hpending]
        exact hhandle
      · rw [if_neg hpending, if_neg fun hdeletes => hpending hdeletes.2.1]
        exact ⟨_, rfl, rfl⟩
  | looping =>
      rw [if_neg (hbusy (by rw [hqueue]; decide))]
      exact racpReportRecordsProcedure_cgms hserving result
  | sleeping =>
      rw [if_neg (hbusy (by rw [hqueue]; decide))]
      exact ⟨_, rfl, racpReportRecordsNext_cgms _ 0⟩

end Frame

/-! ## The history of a session -/

/-- The seconds that the session has lasted: up to the last time its records were cleared, and
up to now. -/
structure Elapsed where
  cleared : Nat
  now : Nat

/-- The times of the records: the first twenty multiples of five seconds since the clearing. -/
def sampled (elapsed : Elapsed) : List Nat :=
  ((List.range (elapsed.now + 1)).filter fun t => elapsed.cleared < t ∧ t % 5 = 0).take
    cgmsDbMaxRecords

def elapsedAfter (state : Option CgmsPoint) (action : CgmsAction) (elapsed : Elapsed) : Elapsed :=
  match action with
  | .session .init => { elapsed with cleared := elapsed.now }
  | .session .sessionStart => ⟨0, 0⟩
  | .session (.timer _) => { elapsed with now := elapsed.now + 1 }
  | .work _ =>
      if state.any fun point => Deletes point racpOperatorAll then
        { elapsed with cleared := elapsed.now }
      else elapsed
  | _ => elapsed

abbrev elapsedStep := trackedStep cgmsStep elapsedAfter

/-- The database holds the records of the session. -/
structure Recorded (point : CgmsPoint) (elapsed : Elapsed) (live : List CgmsRecord) : Prop where
  serving : Serving point live
  now : point.cgms.sessionRunTime.toNat = elapsed.now
  cleared : elapsed.cleared ≤ elapsed.now
  times : live.map (·.meas.timeOffset.toNat) = sampled elapsed

/-- Sessions last less than 2^16 seconds, requests fit into their structure, and no client deletes
the first or the last record alone. -/
def Undisturbed (current : Tracked (Option CgmsPoint) Elapsed) : CgmsAction → Prop
  | .session (.timer _) => current.history.now + 1 < 2 ^ 16
  | .racpWrite data => (byteLen data).length ≤ 8
  | .work _ =>
      match current.state with
      | some point => ¬Deletes point racpOperatorFirst ∧ ¬Deletes point racpOperatorLast
      | none => True
  | _ => True

instance (current : Tracked (Option CgmsPoint) Elapsed) :
    (action : CgmsAction) → Decidable (Undisturbed current action)
  | .session (.timer _) => inferInstanceAs (Decidable (_ < _))
  | .session .init | .session (.crcEnable _) | .session .sessionStart
  | .session (.startTimeWrite _) | .session .runTimeRead | .session (.measCcc _)
  | .session (.setCommunicationInterval _) | .indicateRsp | .racpCcc _ => isTrue trivial
  | .racpWrite _ => inferInstanceAs (Decidable (_ ≤ _))
  | .work _ =>
      match current with
      | ⟨some _, _⟩ => inferInstanceAs (Decidable (_ ∧ _))
      | ⟨none, _⟩ => isTrue trivial

theorem sampled_cleared (now : Nat) : sampled ⟨now, now⟩ = [] := by
  rw [sampled, List.filter_eq_nil_iff.mpr, List.take_nil]
  intro t ht
  have hnow : t < now + 1 := List.mem_range.mp ht
  simp only [decide_eq_true_eq, not_and]
  intro hcleared
  exact absurd hcleared (Nat.not_lt_of_le (Nat.le_of_lt_succ hnow))

theorem sampled_tick {elapsed : Elapsed} (hcleared : elapsed.cleared ≤ elapsed.now) :
    sampled ⟨elapsed.cleared, elapsed.now + 1⟩ = sampled elapsed ++
      if (elapsed.now + 1) % 5 = 0 ∧ (sampled elapsed).length < cgmsDbMaxRecords then
        [elapsed.now + 1]
      else [] := by
  simp only [sampled, List.length_take]
  rw [List.range_succ, List.filter_append, List.take_append]
  congr 1
  have hnew : ([elapsed.now + 1].filter fun t => elapsed.cleared < t ∧ t % 5 = 0) =
      if (elapsed.now + 1) % 5 = 0 then [elapsed.now + 1] else [] := by
    simp [List.filter_singleton, Nat.lt_succ_of_le hcleared]
  rw [hnew]
  generalize ((List.range (elapsed.now + 1)).filter fun t =>
    elapsed.cleared < t ∧ t % 5 = 0).length = count
  by_cases hdue : (elapsed.now + 1) % 5 = 0
  · rw [if_pos hdue]
    by_cases hroom : count < cgmsDbMaxRecords
    · rw [List.take_of_length_le (by rw [List.length_singleton]; omega),
        if_pos ⟨hdue, by omega⟩]
    · rw [Nat.sub_eq_zero_of_le (Nat.le_of_not_lt hroom), List.take_zero,
        if_neg fun hall => hroom (by omega)]
  · rw [if_neg hdue, List.take_nil, if_neg fun hall => hdue hall.1]

/-! ## Steps of the session -/

section Steps

variable {point : CgmsPoint} {elapsed : Elapsed} {live : List CgmsRecord}

theorem Recorded.length_le (hrecorded : Recorded point elapsed live) : live.length ≤ 20 :=
  length_le_of_holds hrecorded.serving.holds

/-- The control point is not what the records are about. -/
theorem Recorded.frame (hrecorded : Recorded point elapsed live) {next : CgmsPoint}
    (hdb : next.cgms.db = point.cgms.db) (hmeas : next.cgms.cgmMeas = point.cgms.cgmMeas)
    (htime : next.cgms.sessionRunTime = point.cgms.sessionRunTime) :
    Recorded next elapsed live := by
  refine ⟨hrecorded.serving.frame hdb hmeas, ?_, hrecorded.cleared, hrecorded.times⟩
  rw [htime]
  exact hrecorded.now

theorem recorded_empty {now : Nat} (hholds : Holds point.cgms.db [])
    (hnow : point.cgms.sessionRunTime.toNat = now) : Recorded point ⟨now, now⟩ [] where
  serving := ⟨hholds, absurd rfl, fun _ hnone => absurd hnone List.not_mem_nil⟩
  now := hnow
  cleared := Nat.le_refl now
  times := (sampled_cleared now).symm

theorem Recorded.timer (hrecorded : Recorded point elapsed live) (sent : Bool)
    (hshort : elapsed.now + 1 < 2 ^ 16) :
    Recorded (point.session (.timer sent)) { elapsed with now := elapsed.now + 1 }
      (live ++ measured point.cgms live) := by
  obtain ⟨hserving, -, htime⟩ := hrecorded.serving.timer sent
  have hnow : (point.cgms.sessionRunTime + 1).toNat = elapsed.now + 1 := by
    rw [← hrecorded.now]
    apply uint16_toNat_succ
    rw [hrecorded.now]
    omega
  refine ⟨hserving, ?_, hrecorded.cleared.trans (Nat.le_succ _), ?_⟩
  · rw [htime, hnow]
  · have hdue : (point.cgms.sessionRunTime + 1) % 5 = 0 ↔ (elapsed.now + 1) % 5 = 0 := by
      rw [← UInt16.toNat_inj, UInt16.toNat_mod, hnow]
      rfl
    have hlength : live.length = (sampled elapsed).length := by
      rw [← hrecorded.times, List.length_map]
    rw [List.map_append, hrecorded.times, sampled_tick hrecorded.cleared, measured, ← hlength]
    congr 1
    simp only [hdue]
    split
    · rw [List.map_singleton, simulatedMeas, hnow]
    · rfl

theorem cgmsRacpWrite_cgms (point : CgmsPoint) {data : List UInt8}
    (hfits : (byteLen data).length ≤ 8) :
    ∃ result next, cgmsRacpWrite point data = some (result, next) ∧ next.cgms = point.cgms := by
  rw [cgmsRacpWrite, cgmsRacpDecode, glsRacpDecode, if_neg (Nat.not_lt.mpr hfits)]
  dsimp only
  split
  · exact ⟨_, _, rfl, rfl⟩
  · split
    · exact ⟨_, _, rfl, rfl⟩
    · exact ⟨_, _, rfl, rfl⟩

/-- Every action keeps the records of the session. -/
theorem Recorded.step (hrecorded : Recorded point elapsed live) {action : CgmsAction}
    (hundisturbed : Undisturbed ⟨some point, elapsed⟩ action) :
    ∃ next live', point.step action = some next ∧
      Recorded next (elapsedAfter (some point) action elapsed) live' := by
  cases action with
  | session action =>
      cases action with
      | init =>
          exact ⟨_, [], rfl, recorded_empty (Database.holds_init point.cgms.db) hrecorded.now⟩
      | crcEnable enable => exact ⟨_, live, rfl, hrecorded.frame rfl rfl rfl⟩
      | sessionStart =>
          exact ⟨_, [], rfl, recorded_empty (Database.holds_init point.cgms.db) rfl⟩
      | timer sent => exact ⟨_, _, rfl, hrecorded.timer sent hundisturbed⟩
      | startTimeWrite write =>
          obtain ⟨hdb, hmeas, -, htime⟩ := startTimeWrite_frame point.cgms write
          exact ⟨_, live, rfl, hrecorded.frame hdb hmeas htime⟩
      | runTimeRead =>
          obtain ⟨hdb, hmeas, -, htime⟩ := runTimeRead_frame point.cgms
          exact ⟨_, live, rfl, hrecorded.frame hdb hmeas htime⟩
      | measCcc enabled => exact ⟨_, live, rfl, hrecorded.frame rfl rfl rfl⟩
      | setCommunicationInterval interval => exact ⟨_, live, rfl, hrecorded.frame rfl rfl rfl⟩
  | work result =>
      obtain ⟨next, hwork, hcgms⟩ :=
        work_cgms hrecorded.serving hundisturbed.1 hundisturbed.2 result
      by_cases hall : Deletes point racpOperatorAll
      · rw [if_pos hall] at hcgms
        refine ⟨next, [], hwork, ?_⟩
        rw [elapsedAfter, Option.any_some, decide_eq_true hall, if_pos rfl]
        apply recorded_empty
        · rw [hcgms]
          exact Database.holds_init point.cgms.db
        · rw [hcgms]
          exact hrecorded.now
      · rw [if_neg hall] at hcgms
        refine ⟨next, live, hwork, ?_⟩
        rw [elapsedAfter, Option.any_some, decide_eq_false hall, if_neg Bool.false_ne_true]
        exact hrecorded.frame (by rw [hcgms]) (by rw [hcgms]) (by rw [hcgms])
  | racpWrite data =>
      obtain ⟨result, next, hwrite, hcgms⟩ := cgmsRacpWrite_cgms point hundisturbed
      refine ⟨next, live, ?_, ?_⟩
      · rw [CgmsPoint.step, hwrite, Option.map_some]
      · exact hrecorded.frame (by rw [hcgms]) (by rw [hcgms]) (by rw [hcgms])
  | indicateRsp =>
      rw [CgmsPoint.step]
      split
      · exact ⟨_, live, rfl, hrecorded.frame rfl rfl rfl⟩
      · exact ⟨_, live, rfl, hrecorded⟩
  | racpCcc enabled => exact ⟨_, live, rfl, hrecorded.frame rfl rfl rfl⟩

end Steps

/-- The service at start, whose memory is zero but for what `cgms_init` sets. -/
def cgmsPointStart : CgmsPoint where
  cgms := cgmsInit cgmsStart
  racpCcc := false
  racpIndicating := false
  cgmsRacpRequest := ⟨0, 0, 0, Vector.replicate _ 0⟩
  racpState := .noComm
  racpProcOperator := 0
  racpProcTimeOffset := 0
  racpProcRecordIdx := 0
  racpProcRecordsReported := 0
  workPending := false
  workQueue := .idle
  reports := []
  indications := []

def elapsedStart : Tracked (Option CgmsPoint) Elapsed := ⟨some cgmsPointStart, ⟨0, 0⟩⟩

/-- In every state of a run the database holds one record for each of the first twenty multiples
of five seconds since it was cleared, in their order, whatever was written, reported and notified
between. -/
theorem session_records {actions : List CgmsAction}
    (hrun : Along elapsedStep Undisturbed elapsedStart actions) :
    Throughout elapsedStep
      (fun current => ∃ point live, current.state = some point ∧
        Recorded point current.history live) elapsedStart actions := by
  refine throughout_of_invariant _ ?_ ?_ hrun
  · intro current action hrecorded hundisturbed
    obtain ⟨state, elapsed⟩ := current
    obtain ⟨point, live, rfl, hrecorded⟩ := hrecorded
    exact hrecorded.step hundisturbed
  · exact ⟨cgmsPointStart, [], rfl, recorded_empty (Database.holds_init cgmsStart.db) rfl⟩

/-- Ten seconds, a deletion of all records, and five more. -/
def clearedSession : List CgmsAction :=
  .racpCcc true :: List.replicate 10 (.session (.timer true)) ++
    [.racpWrite [racpOpcodeDeleteRecs, racpOperatorAll], .work 0, .indicateRsp] ++
    List.replicate 5 (.session (.timer true))

theorem clearedSession_records :
    Throughout elapsedStep
      (fun current => ∃ point live, current.state = some point ∧
        Recorded point current.history live) elapsedStart clearedSession :=
  session_records (by decide +kernel)

end CubieBle.Gatt.ContinuousGlucose
