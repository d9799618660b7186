import CubieBle.Gatt.CgmsRacp
import CubieBle.Gatt.RacpReports

/-! # Reports among measurements

The timer adds records while a report is running. As they are only added behind the others, the
report sends what its operator selects of the records up to its end, each of them once.
-/

namespace CubieBle.Gatt.ContinuousGlucose

open Machine

/-! ## The service and its records -/

/-- The octets of every measurement that the timer takes. -/
def announced : List UInt8 := [0x00, 0x01, 0x00]

/-- The database holds these records, in this order. -/
structure Serving (point : CgmsPoint) (live : List CgmsRecord) : Prop where
  holds : Holds point.cgms.db live
  current : live ≠ [] → annunciationOctets point.cgms.cgmMeas = announced
  records : ∀ record ∈ live, annunciationOctets record.meas = announced

/-- The value of a record, with the octets that it announces. -/
def reportValue (feature : CgmsCgmFeature) (record : CgmsRecord) : List UInt8 :=
  (cgmsMeasEncode feature record.meas record.meas).1

theorem annunciationOctets_simulated (meas : CgmsCgmMeasurement) (sessionRunTime : UInt16) :
    annunciationOctets (simulatedMeas meas sessionRunTime) = announced := by
  have hflag : (simulatedMeas meas sessionRunTime).flag = 0xe3 := by
    simp only [simulatedMeas]
    decide
  have hstatus : (simulatedMeas meas sessionRunTime).sensorStatusAnnunciation = 0x000100 := by
    simp only [simulatedMeas]
    decide
  rw [annunciationOctets, hflag, hstatus]
  decide

theorem annunciationOctets_encoded (feature : CgmsCgmFeature) (current meas : CgmsCgmMeasurement) :
    annunciationOctets (cgmsMeasEncode feature current meas).2 = annunciationOctets meas := rfl

theorem cgmsMeasEncode_of_octets (feature : CgmsCgmFeature) {current meas : CgmsCgmMeasurement}
    (hoctets : annunciationOctets current = annunciationOctets meas) :
    cgmsMeasEncode feature current meas = cgmsMeasEncode feature meas meas := by
  simp only [cgmsMeasEncode, measBody, hoctets]

/-! ## The timer -/

theorem notifyPeriodically_frame (cgms : Cgms) (sent : Bool) :
    (notifyPeriodically cgms sent).db = cgms.db ∧
      (notifyPeriodically cgms sent).cgmFeature = cgms.cgmFeature ∧
      (notifyPeriodically cgms sent).sessionRunTime = cgms.sessionRunTime ∧
      annunciationOctets (notifyPeriodically cgms sent).cgmMeas =
        annunciationOctets cgms.cgmMeas := by
  have hnotify : (cgmMeasurementNotify cgms sent).db = cgms.db ∧
      (cgmMeasurementNotify cgms sent).cgmFeature = cgms.cgmFeature ∧
      (cgmMeasurementNotify cgms sent).sessionRunTime = cgms.sessionRunTime ∧
      annunciationOctets (cgmMeasurementNotify cgms sent).cgmMeas =
        annunciationOctets cgms.cgmMeas := by
    rw [cgmMeasurementNotify]
    split
    · exact ⟨rfl, rfl, rfl, annunciationOctets_encoded _ _ _⟩
    · exact ⟨rfl, rfl, rfl, rfl⟩
  rw [notifyPeriodically]
  split
  · exact hnotify
  · split
    · exact hnotify
    · exact ⟨rfl, rfl, rfl, rfl⟩

/-- The record that a tick adds, if any. -/
def measured (cgms : Cgms) (live : List CgmsRecord) : List CgmsRecord :=
  if (cgms.sessionRunTime + 1) % 5 = 0 ∧ live.length < cgmsDbMaxRecords then
    [⟨simulatedMeas cgms.cgmMeas (cgms.sessionRunTime + 1)⟩]
  else []

theorem takeMeasurement_spec {cgms : Cgms} {live : List CgmsRecord} (hholds : Holds cgms.db live) :
    takeMeasurement { cgms with sessionRunTime := cgms.sessionRunTime + 1 } =
        (if measured cgms live = [] then { cgms with sessionRunTime := cgms.sessionRunTime + 1 }
          else cgmMeasurementSimulation { cgms with sessionRunTime := cgms.sessionRunTime + 1 }) ∧
      Holds (takeMeasurement { cgms with sessionRunTime := cgms.sessionRunTime + 1 }).db
        (live ++ measured cgms live) := by
  have hnum : (cgmsDbNumRecordsGet cgms.db).toNat = live.length := hholds.num
  rw [takeMeasurement, measured]
  dsimp only
  rw [hnum]
  split
  · rename_i hdue
    refine ⟨rfl, ?_⟩
    have hadd := Database.holds_add (by decide) hholds
      (⟨simulatedMeas cgms.cgmMeas (cgms.sessionRunTime + 1)⟩ : CgmsRecord)
    rw [Fifo.add, if_neg (Nat.ne_of_lt hdue.2)] at hadd
    exact hadd
  · refine ⟨rfl, ?_⟩
    rw [List.append_nil]
    exact hholds

/-- The session goes on, with the feature that it has. -/
def Ongoing : Gatt.CgmsAction → Prop
  | .init | .crcEnable _ | .sessionStart => False
  | _ => True

instance : (action : Gatt.CgmsAction) → Decidable (Ongoing action)
  | .init | .crcEnable _ | .sessionStart => isFalse not_false
  | .timer _ | .startTimeWrite _ | .runTimeRead | .measCcc _ | .setCommunicationInterval _ =>
      isTrue trivial

/-- The records that an operation of the service adds. -/
def added (cgms : Cgms) (live : List CgmsRecord) : Gatt.CgmsAction → List CgmsRecord
  | .timer _ => measured cgms live
  | _ => []

theorem startTimeWrite_frame (cgms : Cgms) (write : StartTimeWrite) :
    (cgmsCgmStartTimeWrite cgms write).2.db = cgms.db ∧
      (cgmsCgmStartTimeWrite cgms write).2.cgmMeas = cgms.cgmMeas ∧
      (cgmsCgmStartTimeWrite cgms write).2.cgmFeature = cgms.cgmFeature ∧
      (cgmsCgmStartTimeWrite cgms write).2.sessionRunTime = cgms.sessionRunTime := by
  simp only [cgmsCgmStartTimeWrite]
  split_ifs
  all_goals exact ⟨rfl, rfl, rfl, rfl⟩

theorem runTimeRead_frame (cgms : Cgms) :
    (cgmsCgmRunTimeRead cgms).2.db = cgms.db ∧
      (cgmsCgmRunTimeRead cgms).2.cgmMeas = cgms.cgmMeas ∧
      (cgmsCgmRunTimeRead cgms).2.cgmFeature = cgms.cgmFeature ∧
      (cgmsCgmRunTimeRead cgms).2.sessionRunTime = cgms.sessionRunTime := by
  simp only [cgmsCgmRunTimeRead]
  split_ifs
  all_goals exact ⟨rfl, rfl, rfl, rfl⟩

section Service

variable {point : CgmsPoint} {live : List CgmsRecord}

theorem Serving.timer (hserving : Serving point live) (sent : Bool) :
    Serving (point.session (.timer sent)) (live ++ measured point.cgms live) ∧
      (point.session (.timer sent)).cgms.cgmFeature = point.cgms.cgmFeature ∧
      (point.session (.timer sent)).cgms.sessionRunTime = point.cgms.sessionRunTime + 1 := by
  obtain ⟨htake, hholds⟩ := takeMeasurement_spec hserving.holds
  obtain ⟨hdb, hfeature, htime, hoctets⟩ := notifyPeriodically_frame
    (takeMeasurement { point.cgms with sessionRunTime := point.cgms.sessionRunTime + 1 }) sent
  have hdb' : (point.session (.timer sent)).cgms.db = (takeMeasurement
      { point.cgms with sessionRunTime := point.cgms.sessionRunTime + 1 }).db := hdb
  have hoctets' : annunciationOctets (point.session (.timer sent)).cgms.cgmMeas =
      annunciationOctets (takeMeasurement
        { point.cgms with sessionRunTime := point.cgms.sessionRunTime + 1 }).cgmMeas := hoctets
  refine ⟨⟨?_, ?_, ?_⟩, ?_, ?_⟩
  · rw [hdb']
    exact hholds
  · intro hlive
    rw [hoctets', htake]
    split
    · rename_i hnone
      rw [hnone, List.append_nil] at hlive
      exact hserving.current hlive
    · exact annunciationOctets_simulated _ _
  · intro record hrecord
    rw [List.mem_append] at hrecord
    rcases hrecord with hold | hnew
    · exact hserving.records record hold
    · rw [measured] at hnew
      split at hnew
      · rw [List.mem_singleton] at hnew
        rw [hnew]
        exact annunciationOctets_simulated _ _
      · cases hnew
  · refine hfeature.trans ?_
    rw [htake]
    split
    · rfl
    · rfl
  · refine htime.trans ?_
    rw [htake]
    split
    · rfl
    · rfl

/-- The database and the measurement are all that counts. -/
theorem Serving.frame (hserving : Serving point live) {next : CgmsPoint}
    (hdb : next.cgms.db = point.cgms.db) (hmeas : next.cgms.cgmMeas = point.cgms.cgmMeas) :
    Serving next live := by
  refine ⟨?_, ?_, hserving.records⟩
  · rw [hdb]
    exact hserving.holds
  · rw [hmeas]
    exact hserving.current

theorem Serving.session (hserving : Serving point live) {action : Gatt.CgmsAction}
    (hongoing : Ongoing action) :
    Serving (point.session action) (live ++ added point.cgms live action) ∧
      (point.session action).cgms.cgmFeature = point.cgms.cgmFeature := by
  cases action with
  | init => exact absurd hongoing not_false
  | crcEnable enable => exact absurd hongoing not_false
  | sessionStart => exact absurd hongoing not_false
  | timer sent =>
      obtain ⟨hnext, hfeature, -⟩ := hserving.timer sent
      exact ⟨hnext, hfeature⟩
  | startTimeWrite write =>
      obtain ⟨hdb, hmeas, hfeature, -⟩ := startTimeWrite_frame point.cgms write
      simp only [added, List.append_nil]
      exact ⟨hserving.frame hdb hmeas, hfeature⟩
  | runTimeRead =>
      obtain ⟨hdb, hmeas, hfeature, -⟩ := runTimeRead_frame point.cgms
      simp only [added, List.append_nil]
      exact ⟨hserving.frame hdb hmeas, hfeature⟩
  | measCcc enabled =>
      simp only [added, List.append_nil]
      exact ⟨hserving.frame rfl rfl, rfl⟩
  | setCommunicationInterval interval =>
      simp only [added, List.append_nil]
      exact ⟨hserving.frame rfl rfl, rfl⟩

end Service

/-! ## What is reported -/

/-- The records that an operator selects, in their order. -/
def matching (operator : UInt8) (timeOffset : UInt16) (live : List CgmsRecord) :
    List CgmsRecord :=
  if operator = racpOperatorFirst then live.head?.toList
  else if operator = racpOperatorLast then live.getLast?.toList
  else if operator = racpOperatorGreaterOrEqual then
    live.filter fun record => timeOffset ≤ record.meas.timeOffset
  else live

theorem matching_all (timeOffset : UInt16) (live : List CgmsRecord) :
    matching racpOperatorAll timeOffset live = live := rfl

theorem matching_first (timeOffset : UInt16) (live : List CgmsRecord) :
    matching racpOperatorFirst timeOffset live = live.head?.toList := rfl

theorem matching_last (timeOffset : UInt16) (live : List CgmsRecord) :
    matching racpOperatorLast timeOffset live = live.getLast?.toList := rfl

theorem matching_greaterOrEqual (timeOffset : UInt16) (live : List CgmsRecord) :
    matching racpOperatorGreaterOrEqual timeOffset live =
      live.filter fun record => timeOffset ≤ record.meas.timeOffset := rfl

/-- The records that the request of a service selects. -/
def selected (point : CgmsPoint) (live : List CgmsRecord) : List CgmsRecord :=
  matching point.cgmsRacpRequest.operator (timeOffsetOf point.cgmsRacpRequest) live

/-- The code of the final response. -/
def reportCode (records : List CgmsRecord) : UInt8 :=
  if records = [] then racpResponseNoRecordsFound else racpResponseSuccess

theorem eq_nil_of_matching {operator : UInt8} {timeOffset : UInt16} {live : List CgmsRecord}
    (hends : operator = racpOperatorFirst ∨ operator = racpOperatorLast)
    (hmatching : matching operator timeOffset live = []) : live = [] := by
  rcases hends with rfl | rfl
  · rw [matching_first, Option.toList_eq_nil_iff] at hmatching
    exact List.head?_eq_none_iff.mp hmatching
  · rw [matching_last, Option.toList_eq_nil_iff] at hmatching
    exact List.getLast?_eq_none_iff.mp hmatching

theorem length_matching_le (operator : UInt8) (timeOffset : UInt16) (live : List CgmsRecord) :
    (matching operator timeOffset live).length ≤ live.length := by
  rw [matching]
  split
  · cases live with
    | nil => exact Nat.le_refl 0
    | cons first rest => exact Nat.succ_le_succ (Nat.zero_le _)
  · split
    · cases live using List.reverseRecOn with
      | nil => exact Nat.le_refl 0
      | append_singleton rest last => simp
    · split
      · exact List.length_filter_le _ _
      · exact Nat.le_refl _

/-! ## Records of the database -/

section Database

variable {db : CgmsDatabase} {live : List CgmsRecord}

theorem cgmsDbNumRecordsGet_toNat (hholds : Holds db live) :
    (cgmsDbNumRecordsGet db).toNat = live.length := hholds.num

theorem length_le_of_holds (hholds : Holds db live) : live.length ≤ 20 := hholds.le_max

theorem cgmsDbRecordGet_of_lt (hholds : Holds db live) {idx : UInt8}
    (hidx : idx.toNat < live.length) : cgmsDbRecordGet db idx = some (.ok live[idx.toNat]) := by
  rw [cgmsDbRecordGet, Database.recordGet_of_holds hholds, Fifo.get,
    List.getElem?_eq_getElem hidx]

theorem numRecords_le_iff (hholds : Holds db live) (idx : UInt8) :
    cgmsDbNumRecordsGet db ≤ idx.toUInt16 ↔ live.length ≤ idx.toNat :=
  Database.recordsNum_le_iff hholds idx

/-- The loop stops at the first record that matches, or behind the last one. -/
theorem findGreaterOrEqual_holds (hholds : Holds db live) (timeOffset : UInt16) {fuel : Nat}
    {idx : UInt8} (hidx : idx.toNat ≤ live.length) (hfuel : live.length < idx.toNat + fuel) :
    (∃ stop, findGreaterOrEqual db timeOffset fuel idx = some (stop, .ok none) ∧
        stop.toNat = live.length ∧
        matching racpOperatorGreaterOrEqual timeOffset live =
          matching racpOperatorGreaterOrEqual timeOffset (live.take idx.toNat)) ∨
      ∃ stop, ∃ hstop : stop.toNat < live.length, idx.toNat ≤ stop.toNat ∧
        findGreaterOrEqual db timeOffset fuel idx = some (stop, .ok (some live[stop.toNat])) ∧
        matching racpOperatorGreaterOrEqual timeOffset (live.take (stop.toNat + 1)) =
          matching racpOperatorGreaterOrEqual timeOffset (live.take idx.toNat) ++
            [live[stop.toNat]] := by
  have hmax := length_le_of_holds hholds
  induction fuel generalizing idx with
  | zero => omega
  | succ fuel ih =>
      have hiff : idx.toUInt16 < cgmsDbNumRecordsGet db ↔ idx.toNat < live.length := by
        rw [UInt16.lt_iff_toNat_lt, UInt8.toNat_toUInt16, cgmsDbNumRecordsGet_toNat hholds]
      rw [findGreaterOrEqual]
      by_cases hlt : idx.toNat < live.length
      · rw [if_pos (hiff.mpr hlt), cgmsDbRecordGet_of_lt hholds hlt]
        dsimp only
        have htake : live.take (idx.toNat + 1) = live.take idx.toNat ++ [live[idx.toNat]] :=
          List.take_succ_eq_append_getElem hlt
        by_cases hmatch : timeOffset ≤ live[idx.toNat].meas.timeOffset
        · rw [if_pos hmatch]
          refine .inr ⟨idx, hlt, Nat.le_refl _, rfl, ?_⟩
          rw [htake, matching_greaterOrEqual, matching_greaterOrEqual, List.filter_append,
            List.filter_singleton]
          simp [hmatch]
        · rw [if_neg hmatch]
          have hnext : (idx + 1).toNat = idx.toNat + 1 := uint8_toNat_succ (by omega)
          have hskip : matching racpOperatorGreaterOrEqual timeOffset
              (live.take (idx + 1).toNat) =
                matching racpOperatorGreaterOrEqual timeOffset (live.take idx.toNat) := by
            rw [hnext, htake, matching_greaterOrEqual, matching_greaterOrEqual,
              List.filter_append, List.filter_singleton]
            simp [hmatch]
          rw [← hskip]
          rcases ih (show (idx + 1).toNat ≤ live.length by omega) (by omega) with
            hnone | ⟨stop, hstop, hle, hfind, hmore⟩
          · exact .inl hnone
          · exact .inr ⟨stop, hstop, by omega, hfind, hmore⟩
      · rw [if_neg (hiff.not.mpr hlt)]
        refine .inl ⟨idx, rfl, by omega, ?_⟩
        rw [List.take_of_length_le (Nat.le_of_not_lt hlt)]

end Database

/-! ## One iteration -/

/-- A running report that has looked at the first `seen` records. -/
structure Reporting (base : CgmsPoint) (old : List CgmsRecord) (point : CgmsPoint)
    (live : List CgmsRecord) (seen : Nat) : Prop where
  serving : Serving point live
  older : old.length ≤ live.length
  request : point.cgmsRacpRequest = base.cgmsRacpRequest
  feature : point.cgms.cgmFeature = base.cgms.cgmFeature
  opcode : base.cgmsRacpRequest.opcode = racpOpcodeReportRecs
  reportable : Reportable base.cgmsRacpRequest.operator
  pending : point.workPending = false
  looping : point.workQueue = .looping
  active : point.racpState = .racpProcActive
  operator : point.racpProcOperator = base.cgmsRacpRequest.operator
  timeOffset : point.racpProcTimeOffset = timeOffsetOf base.cgmsRacpRequest
  seen_le : seen ≤ live.length
  idx : Indexed base.cgmsRacpRequest.operator → point.racpProcRecordIdx.toNat = seen
  ends : ¬Indexed base.cgmsRacpRequest.operator → seen = 0 ∨ old.length ≤ seen
  reported : point.racpProcRecordsReported.toNat = (selected base (live.take seen)).length
  reports : point.reports = base.reports ++
    (selected base (live.take seen)).map (reportValue base.cgms.cgmFeature)
  ccc : point.racpCcc = true
  indicating : point.racpIndicating = false
  indications : point.indications = base.indications

/-- The service after a record was sent. -/
def CgmsPoint.sent (point : CgmsPoint) (record : CgmsRecord) : CgmsPoint :=
  { point with
    reports := point.reports ++ [reportValue point.cgms.cgmFeature record]
    racpProcRecordsReported := point.racpProcRecordsReported + 1 }

theorem cgmMeasSend_of_serving {point : CgmsPoint} {live : List CgmsRecord}
    (hserving : Serving point live) {record : CgmsRecord} (hrecord : record ∈ live)
    (result : Int) :
    cgmMeasSend point record result =
      if result ≠ 0 then (result, point) else (0, point.sent record) := by
  have hoctets : annunciationOctets point.cgms.cgmMeas = annunciationOctets record.meas := by
    rw [hserving.current (List.ne_nil_of_mem hrecord), hserving.records record hrecord]
  rw [cgmMeasSend, cgmsMeasEncode_of_octets point.cgms.cgmFeature hoctets]
  by_cases hresult : result = 0
  · rw [hresult]
    rfl
  · rw [if_pos hresult]
    exact if_pos hresult

/-- What the function called by an iteration of the report loop can do. -/
inductive ReportCase (base : CgmsPoint) (old : List CgmsRecord) (point : CgmsPoint)
    (live : List CgmsRecord) (seen : Nat) (result : Int) :
    Option (Option (Int × CgmsPoint)) → Prop where
  | sent (record : CgmsRecord) (idx : UInt8) (next : Nat) (queue : WorkQueue)
      (hqueue : queue ≠ .idle) (hresult : result = 0) (hseen : seen < next)
      (hnext : next ≤ live.length)
      (hidx : Indexed base.cgmsRacpRequest.operator → idx.toNat + 1 = next)
      (hends : ¬Indexed base.cgmsRacpRequest.operator → next = live.length)
      (hselected : selected base (live.take next) = selected base (live.take seen) ++ [record]) :
      ReportCase base old point live seen result (some (some (0,
        { point.sent record with racpProcRecordIdx := idx, workQueue := queue })))
  | completed (idx : UInt8) (last : Nat) (hold : old.length ≤ last) (hlast : last ≤ live.length)
      (hselected : selected base (live.take last) = selected base (live.take seen)) :
      ReportCase base old point live seen result
        (some (some (0, { point with racpProcRecordIdx := idx, racpState := .noComm })))
  | failed (idx : UInt8) (hresult : result ≠ 0) :
      ReportCase base old point live seen result
        (some (some (result, { point with racpProcRecordIdx := idx })))

section Iteration

variable {base point : CgmsPoint} {old live : List CgmsRecord} {seen : Nat}

theorem reportCase_all (hreporting : Reporting base old point live seen)
    (hoperator : base.cgmsRacpRequest.operator = racpOperatorAll) (result : Int) :
    ReportCase base old point live seen result (racpReportRecords point result) := by
  have hholds := hreporting.serving.holds
  have hidx := hreporting.idx (.inl hoperator)
  rw [racpReportRecords, hreporting.operator, if_pos hoperator, racpReportRecordsAll]
  by_cases hlt : point.racpProcRecordIdx.toNat < live.length
  · rw [if_neg (mt (numRecords_le_iff hholds _).mp (Nat.not_le_of_lt hlt)),
      cgmsDbRecordGet_of_lt hholds hlt]
    dsimp only
    rw [cgmMeasSend_of_serving hreporting.serving (List.getElem_mem hlt)]
    by_cases hresult : result = 0
    · rw [if_neg (not_not.mpr hresult)]
      refine .sent live[point.racpProcRecordIdx.toNat] point.racpProcRecordIdx (seen + 1) .sleeping
        (by decide) hresult (Nat.lt_succ_self seen) (by omega) (fun _ => by rw [hidx])
        (absurd (.inl hoperator)) ?_
      simp only [selected, hoperator, matching_all, hidx]
      exact List.take_succ_eq_append_getElem (hidx ▸ hlt)
    · rw [if_pos hresult]
      have hfailed : ReportCase base old point live seen result (some (some (result, point))) :=
        .failed point.racpProcRecordIdx hresult
      split
      next hzero => exact absurd (Prod.mk.inj hzero).1 hresult
      next hother =>
        rw [← (Prod.mk.inj hother).1, ← (Prod.mk.inj hother).2]
        exact hfailed
  · rw [if_pos ((numRecords_le_iff hholds _).mpr (Nat.le_of_not_lt hlt))]
    refine .completed point.racpProcRecordIdx live.length hreporting.older (Nat.le_refl _) ?_
    rw [List.take_length, List.take_of_length_le (by omega)]

theorem reportCase_greaterOrEqual (hreporting : Reporting base old point live seen)
    (hoperator : base.cgmsRacpRequest.operator = racpOperatorGreaterOrEqual) (result : Int) :
    ReportCase base old point live seen result (racpReportRecords point result) := by
  have hholds := hreporting.serving.holds
  have hindexed : Indexed base.cgmsRacpRequest.operator := .inr hoperator
  have hidx := hreporting.idx hindexed
  have hle : point.racpProcRecordIdx.toNat ≤ live.length := hidx ▸ hreporting.seen_le
  have hmax := length_le_of_holds hholds
  have hfuel : live.length < point.racpProcRecordIdx.toNat + (cgmsDbMaxRecords + 2) := by
    rw [show cgmsDbMaxRecords = 20 from rfl]
    omega
  rw [racpReportRecords, hreporting.operator, if_neg (by rw [hoperator]; decide),
    if_neg (by rw [hoperator]; decide), if_pos hoperator, racpReportRecordsGreaterOrEqual]
  rcases findGreaterOrEqual_holds hholds point.racpProcTimeOffset hle hfuel with
    ⟨stop, hfind, hstop, hnone⟩ | ⟨stop, hstop, hseen, hfind, hmore⟩
  · have hnum : stop.toUInt16 = cgmsDbNumRecordsGet point.cgms.db := by
      rw [← UInt16.toNat_inj, UInt8.toNat_toUInt16, cgmsDbNumRecordsGet_toNat hholds]
      exact hstop
    rw [hfind]
    simp only [ne_eq, not_true_eq_false, if_false, if_pos hnum]
    refine .completed stop live.length hreporting.older (Nat.le_refl _) ?_
    rw [List.take_length, selected, selected, hoperator, ← hreporting.timeOffset, hnone, hidx]
  · have hnum : stop.toUInt16 ≠ cgmsDbNumRecordsGet point.cgms.db := by
      rw [ne_eq, ← UInt16.toNat_inj, UInt8.toNat_toUInt16, cgmsDbNumRecordsGet_toNat hholds]
      exact Nat.ne_of_lt hstop
    have hserving : Serving { point with racpProcRecordIdx := stop } live :=
      hreporting.serving.frame rfl rfl
    have hsend := cgmMeasSend_of_serving hserving (List.getElem_mem hstop) result
    rw [hfind]
    by_cases hresult : result = 0
    · rw [if_neg (not_not.mpr hresult)] at hsend
      simp only [hsend, CgmsPoint.sent, ne_eq, not_true_eq_false, if_false, if_neg hnum]
      refine .sent live[stop.toNat] stop (stop.toNat + 1) point.workQueue ?_ hresult (by omega)
        hstop (fun _ => rfl) (absurd hindexed) ?_
      · rw [hreporting.looping]
        decide
      · rw [selected, selected, hoperator, ← hreporting.timeOffset, hmore, hidx]
    · rw [if_pos hresult] at hsend
      simp only [hsend, if_pos hresult]
      exact .failed stop hresult

/-- Of the first and the last record there is one, at the index that is read. -/
theorem firstLast_index (hholds : Holds point.cgms.db live) (hlive : live ≠ [])
    (hends : base.cgmsRacpRequest.operator = racpOperatorFirst ∨
      base.cgmsRacpRequest.operator = racpOperatorLast) :
    ∃ hidx : (if base.cgmsRacpRequest.operator = racpOperatorFirst then 0
        else (cgmsDbNumRecordsGet point.cgms.db - 1).toUInt8).toNat < live.length,
      selected base live = [live[(if base.cgmsRacpRequest.operator = racpOperatorFirst then 0
        else (cgmsDbNumRecordsGet point.cgms.db - 1).toUInt8).toNat]] := by
  have hpos : 0 < live.length := List.length_pos_iff.mpr hlive
  rw [selected]
  rcases hends with hfirst | hlast
  · simp only [hfirst, if_true]
    refine ⟨hpos, ?_⟩
    rw [matching_first, List.head?_eq_some_head hlive, Option.toList_some, List.head_eq_getElem]
    rfl
  · have hmax := length_le_of_holds hholds
    have hnum := cgmsDbNumRecordsGet_toNat hholds
    have hidx : (cgmsDbNumRecordsGet point.cgms.db - 1).toUInt8.toNat = live.length - 1 := by
      rw [UInt16.toNat_toUInt8, uint16_toNat_pred (by omega)]
      omega
    simp only [hlast, if_neg (show racpOperatorLast ≠ racpOperatorFirst by decide), hidx]
    refine ⟨Nat.sub_lt hpos Nat.one_pos, ?_⟩
    rw [matching_last, List.getLast?_eq_some_getLast hlive, Option.toList_some,
      List.getLast_eq_getElem]

theorem reportCase_firstLast (hreporting : Reporting base old point live seen)
    (hindexed : ¬Indexed base.cgmsRacpRequest.operator) (result : Int) :
    ReportCase base old point live seen result (racpReportRecords point result) := by
  have hholds := hreporting.serving.holds
  have hends := first_or_last hreporting.reportable hindexed
  rw [racpReportRecords, hreporting.operator, if_neg (not_or.mp hindexed).1, if_pos hends,
    racpReportRecordsFirstLast, hreporting.operator]
  have hzero : cgmsDbNumRecordsGet point.cgms.db = 0 ↔ live = [] := by
    rw [← UInt16.toNat_inj, cgmsDbNumRecordsGet_toNat hholds]
    exact List.length_eq_zero_iff
  have hnone : point.racpProcRecordsReported = 0 ↔ selected base (live.take seen) = [] := by
    rw [← UInt8.toNat_inj, hreporting.reported]
    exact List.length_eq_zero_iff
  by_cases hdone : point.racpProcRecordsReported ≠ 0 ∨ cgmsDbNumRecordsGet point.cgms.db = 0
  · rw [if_pos hdone]
    refine .completed point.racpProcRecordIdx seen ?_ hreporting.seen_le rfl
    rcases hdone with hreported | hempty
    · -- a record was sent, from as many as there were
      rcases hreporting.ends hindexed with hzero | hold
      · refine absurd (hnone.mpr ?_) hreported
        rw [hzero, List.take_zero, selected]
        rcases hends with hop | hop
        · rw [hop]
          rfl
        · rw [hop]
          rfl
      · exact hold
    · have hlength := hreporting.older
      rw [hzero.mp hempty, List.length_nil] at hlength
      exact hlength.trans (Nat.zero_le seen)
  · rw [if_neg hdone]
    obtain ⟨hreported, hnum⟩ := not_or.mp hdone
    have hlive : live ≠ [] := mt hzero.mpr hnum
    have hnothing : selected base (live.take seen) = [] := hnone.mp (not_not.mp hreported)
    have hseen : seen = 0 := by
      rcases List.take_eq_nil_iff.mp (eq_nil_of_matching hends hnothing) with hseen | hempty
      · exact hseen
      · exact absurd hempty hlive
    obtain ⟨hidx, hselected⟩ := firstLast_index hholds hlive hends
    rw [cgmsDbRecordGet_of_lt hholds hidx]
    dsimp only
    rw [cgmMeasSend_of_serving hreporting.serving (List.getElem_mem hidx)]
    by_cases hresult : result = 0
    · rw [if_neg (not_not.mpr hresult)]
      refine .sent _ point.racpProcRecordIdx live.length point.workQueue ?_ hresult
        (hseen ▸ List.length_pos_iff.mpr hlive) (Nat.le_refl _) (absurd · hindexed)
        (fun _ => rfl) ?_
      · rw [hreporting.looping]
        decide
      · rw [hnothing, List.take_length, hselected]
        rfl
    · rw [if_pos hresult]
      exact .failed point.racpProcRecordIdx hresult

theorem reportCase (hreporting : Reporting base old point live seen) (result : Int) :
    ReportCase base old point live seen result (racpReportRecords point result) := by
  by_cases hindexed : Indexed base.cgmsRacpRequest.operator
  · rcases hindexed with hall | hfilter
    · exact reportCase_all hreporting hall result
    · exact reportCase_greaterOrEqual hreporting hfilter result
  · exact reportCase_firstLast hreporting hindexed result

end Iteration

end CubieBle.Gatt.ContinuousGlucose
