import CubieBle.Gatt.RacpLaws
import CubieBle.Gatt.RecordFifo

/-! # Reports and their number

A report of records is a loop that advances its index in two places and notices its end one
iteration late, and the number of records is a plain count. Over a database whose live records
fill the lowest slots, the records that are reported are those that are counted.
-/

namespace CubieBle.Gatt

open Machine

/-! ## What is reported -/

/-- The live records that an operator selects, in the order of their slots. -/
def matching (operator : UInt8) (seqNum : UInt16) (live : List GlsRecord) : List GlsRecord :=
  if operator = racpOperatorFirst then live.head?.toList
  else if operator = racpOperatorLast then live.getLast?.toList
  else if operator = racpOperatorGreaterOrEqual then
    live.filter fun record => seqNum ≤ record.meas.sequenceNumber
  else live

theorem matching_all (seqNum : UInt16) (live : List GlsRecord) :
    matching racpOperatorAll seqNum live = live := rfl

theorem matching_first (seqNum : UInt16) (live : List GlsRecord) :
    matching racpOperatorFirst seqNum live = live.head?.toList := rfl

theorem matching_last (seqNum : UInt16) (live : List GlsRecord) :
    matching racpOperatorLast seqNum live = live.getLast?.toList := rfl

theorem matching_greaterOrEqual (seqNum : UInt16) (live : List GlsRecord) :
    matching racpOperatorGreaterOrEqual seqNum live =
      live.filter fun record => seqNum ≤ record.meas.sequenceNumber := rfl

/-- The notifications of a record: its measurement, and its context if it has one. -/
def recordNotifications (record : GlsRecord) : List GlsNotification :=
  .meas (glsMeasEncode record.meas) ::
    if record.meas.flags &&& glsMeasFlagContextInfo ≠ 0 then
      [.context (glsMeasContextEncode record.context)]
    else []

/-- The code of the final response. -/
def reportCode (records : List GlsRecord) : UInt8 :=
  if records = [] then racpResponseNoRecordsFound else racpResponseSuccess

/-- The report is over, and these are the records it has sent. -/
structure Reports (base last : Gls) (records : List GlsRecord) : Prop where
  idle : last.workQueue = .idle
  noComm : last.racpState = .noComm
  notifications : last.notifications =
    base.notifications ++ records.flatMap recordNotifications
  response : last.indications = base.indications ++
    if base.racpCcc && !base.racpIndicating then
      [[racpOpcodeResponseCode, racpOperatorNull, racpOpcodeReportRecs, reportCode records]]
    else []

/-- Iterations of the loop without anything in between. -/
def iterations (count : Nat) : List GlsAction :=
  (List.replicate count [.loop notifyOk, .wake]).flatten

/-! ## Records of a database -/

section Database

variable {db : GlsDatabase} {live : List GlsRecord}

theorem glsDbRecordGet_of_getElem? (hholds : Holds db live) {idx : UInt8} {record : GlsRecord}
    (hrecord : live[idx.toNat]? = some record) : glsDbRecordGet db idx = some (.ok record) := by
  rw [glsDbRecordGet, Database.recordGet_of_holds hholds, Fifo.get, hrecord]

theorem glsDbRecordGet_of_lt (hholds : Holds db live) {idx : UInt8}
    (hidx : idx.toNat < live.length) : glsDbRecordGet db idx = some (.ok live[idx.toNat]) :=
  glsDbRecordGet_of_getElem? hholds (List.getElem?_eq_getElem hidx)

theorem glsDbNumRecordsGet_toNat (hholds : Holds db live) :
    (glsDbNumRecordsGet db).toNat = live.length := hholds.num

theorem length_le_of_holds (hholds : Holds db live) : live.length ≤ 20 := hholds.le_max

theorem length_lt_fuel (hholds : Holds db live) (idx : UInt8) :
    live.length < idx.toNat + (glsDbMaxRecords + 2) := by
  have hmax : live.length ≤ glsDbMaxRecords := hholds.le_max
  omega

/-- The loop stops at the first record that matches, or behind the last one. -/
theorem findGreaterOrEqual_holds (hholds : Holds db live) (seqNum : UInt16) {fuel : Nat}
    {idx : UInt8} (hidx : idx.toNat ≤ live.length) (hfuel : live.length < idx.toNat + fuel) :
    (∃ stop, findGreaterOrEqual db seqNum fuel idx = some (stop, .ok none) ∧
        stop.toNat = live.length ∧
        matching racpOperatorGreaterOrEqual seqNum (live.drop idx.toNat) = []) ∨
      ∃ stop, ∃ hstop : stop.toNat < live.length,
        findGreaterOrEqual db seqNum fuel idx = some (stop, .ok (some live[stop.toNat])) ∧
        matching racpOperatorGreaterOrEqual seqNum (live.drop idx.toNat) =
          live[stop.toNat] ::
            matching racpOperatorGreaterOrEqual seqNum (live.drop (stop.toNat + 1)) := by
  have hmax := length_le_of_holds hholds
  induction fuel generalizing idx with
  | zero => omega
  | succ fuel ih =>
      have hiff : idx.toUInt16 < glsDbNumRecordsGet db ↔ idx.toNat < live.length := by
        rw [UInt16.lt_iff_toNat_lt, UInt8.toNat_toUInt16, glsDbNumRecordsGet_toNat hholds]
      rw [findGreaterOrEqual]
      by_cases hlt : idx.toNat < live.length
      · rw [if_pos (hiff.mpr hlt), glsDbRecordGet_of_lt hholds hlt]
        dsimp only
        rw [List.drop_eq_getElem_cons hlt]
        by_cases hmatch : seqNum ≤ live[idx.toNat].meas.sequenceNumber
        · rw [if_pos hmatch]
          refine .inr ⟨idx, hlt, rfl, ?_⟩
          rw [matching_greaterOrEqual, List.filter_cons_of_pos (by simpa using hmatch)]
          rfl
        · rw [if_neg hmatch]
          have hnext : (idx + 1).toNat = idx.toNat + 1 := uint8_toNat_succ (by omega)
          have hskip : matching racpOperatorGreaterOrEqual seqNum
              (live[idx.toNat] :: live.drop (idx.toNat + 1)) =
                matching racpOperatorGreaterOrEqual seqNum (live.drop (idx + 1).toNat) := by
            rw [hnext, matching_greaterOrEqual, List.filter_cons_of_neg (by simpa using hmatch)]
            rfl
          rw [hskip]
          exact ih (by omega) (by omega)
      · rw [if_neg (hiff.not.mpr hlt)]
        refine .inl ⟨idx, rfl, by omega, ?_⟩
        rw [List.drop_eq_nil_of_le (Nat.le_of_not_lt hlt)]
        rfl

end Database

/-! ## One iteration -/

/-- A running report: the records it has sent, and those it still has to send. -/
structure Reporting (base gls : Gls) (live sent todo : List GlsRecord) : Prop where
  looping : gls.workQueue = .looping
  active : gls.racpState = .racpProcActive
  opcode : gls.glsRacpRequest.opcode = racpOpcodeReportRecs
  operator : Reportable gls.racpProcOperator
  holds : Holds gls.db live
  idx : Indexed gls.racpProcOperator → gls.racpProcRecordIdx.toNat ≤ live.length ∧
    todo = matching gls.racpProcOperator gls.racpProcSeqNum (live.drop gls.racpProcRecordIdx.toNat)
  ends : ¬Indexed gls.racpProcOperator →
    todo = if sent = [] then matching gls.racpProcOperator gls.racpProcSeqNum live else []
  fits : sent.length + todo.length ≤ live.length
  reported : gls.racpProcRecordsReported.toNat = sent.length
  notifications : gls.notifications = base.notifications ++ sent.flatMap recordNotifications
  indications : gls.indications = base.indications
  indicating : gls.racpIndicating = base.racpIndicating
  ccc : gls.racpCcc = base.racpCcc

/-- The service after a record was sent. -/
def Gls.sent (gls : Gls) (record : GlsRecord) : Gls :=
  { gls with
    notifications := gls.notifications ++ recordNotifications record
    racpProcRecordsReported := gls.racpProcRecordsReported + 1 }

theorem glucoseMeasSend_ok (gls : Gls) (record : GlsRecord) :
    glucoseMeasSend gls record notifyOk = (0, gls.sent record) := by
  rw [glucoseMeasSend, Gls.sent, recordNotifications]
  by_cases hcontext : record.meas.flags &&& glsMeasFlagContextInfo ≠ 0
  · simp [notifyOk, hcontext]
  · simp [notifyOk, hcontext]

/-- A report function has sent a record and stands at its index. -/
def SendsNext (gls : Gls) (record : GlsRecord) (idx : UInt8) : Prop :=
  ∃ queue : WorkQueue, queue ≠ .idle ∧ racpReportRecords gls notifyOk =
    some (some (0, { gls.sent record with racpProcRecordIdx := idx, workQueue := queue }))

section Iteration

variable {base gls : Gls} {live sent todo : List GlsRecord}

theorem numRecords_le_iff (hholds : Holds gls.db live) :
    glsDbNumRecordsGet gls.db ≤ gls.racpProcRecordIdx.toUInt16 ↔
      live.length ≤ gls.racpProcRecordIdx.toNat :=
  Database.recordsNum_le_iff hholds _

theorem sendsNext_all {record : GlsRecord} {rest : List GlsRecord}
    (hreporting : Reporting base gls live sent (record :: rest))
    (hoperator : gls.racpProcOperator = racpOperatorAll) :
    gls.racpProcRecordIdx.toNat < live.length ∧ SendsNext gls record gls.racpProcRecordIdx ∧
      rest = live.drop (gls.racpProcRecordIdx.toNat + 1) := by
  obtain ⟨-, htodo⟩ := hreporting.idx (.inl hoperator)
  rw [hoperator, matching_all] at htodo
  have hlt : gls.racpProcRecordIdx.toNat < live.length := by
    by_contra hout
    rw [List.drop_eq_nil_of_le (Nat.le_of_not_lt hout)] at htodo
    cases htodo
  rw [List.drop_eq_getElem_cons hlt] at htodo
  obtain ⟨rfl, rfl⟩ := List.cons.inj htodo
  refine ⟨hlt, ⟨.sleeping, by decide, ?_⟩, rfl⟩
  rw [racpReportRecords, if_pos hoperator, racpReportRecordsAll,
    if_neg (mt (numRecords_le_iff hreporting.holds).mp (Nat.not_le_of_lt hlt)),
    glsDbRecordGet_of_lt hreporting.holds hlt]
  dsimp only
  rw [glucoseMeasSend_ok]
  rfl

theorem sendsNext_greaterOrEqual {record : GlsRecord} {rest : List GlsRecord}
    (hreporting : Reporting base gls live sent (record :: rest))
    (hoperator : gls.racpProcOperator = racpOperatorGreaterOrEqual) :
    ∃ idx : UInt8, idx.toNat < live.length ∧ SendsNext gls record idx ∧
      rest = matching racpOperatorGreaterOrEqual gls.racpProcSeqNum
        (live.drop (idx.toNat + 1)) := by
  obtain ⟨hle, htodo⟩ := hreporting.idx (.inr hoperator)
  rw [hoperator] at htodo
  rcases findGreaterOrEqual_holds hreporting.holds gls.racpProcSeqNum hle
      (length_lt_fuel hreporting.holds gls.racpProcRecordIdx) with
    ⟨stop, -, -, hnone⟩ | ⟨stop, hstop, hfind, hrest⟩
  · rw [hnone] at htodo
    cases htodo
  · rw [hrest] at htodo
    obtain ⟨rfl, rfl⟩ := List.cons.inj htodo
    refine ⟨stop, hstop, ⟨gls.workQueue, by rw [hreporting.looping]; decide, ?_⟩, rfl⟩
    have hnum : stop.toUInt16 ≠ glsDbNumRecordsGet gls.db := by
      rw [ne_eq, ← UInt16.toNat_inj, UInt8.toNat_toUInt16,
        glsDbNumRecordsGet_toNat hreporting.holds]
      exact Nat.ne_of_lt hstop
    rw [racpReportRecords, hoperator, if_neg (by decide), if_neg (by decide), if_pos rfl,
      racpReportRecordsGreaterOrEqual, hfind]
    simp only [glucoseMeasSend_ok, Gls.sent, ne_eq, not_true_eq_false, if_false, if_neg hnum]

theorem first_or_last {operator : UInt8} (hoperator : Reportable operator)
    (hindexed : ¬Indexed operator) :
    operator = racpOperatorFirst ∨ operator = racpOperatorLast := by
  rcases hoperator with hop | hop | hop | hop
  · exact absurd (.inl hop) hindexed
  · exact .inl hop
  · exact .inr hop
  · exact absurd (.inr hop) hindexed

theorem toList_eq_cons {α : Type} {o : Option α} {a : α} {rest : List α}
    (ho : o.toList = a :: rest) : o = some a ∧ rest = [] := by
  cases o with
  | none => cases ho
  | some b =>
      obtain ⟨rfl, rfl⟩ := List.cons.inj ho
      exact ⟨rfl, rfl⟩

theorem eq_nil_of_matching {operator : UInt8} {seqNum : UInt16}
    (hends : operator = racpOperatorFirst ∨ operator = racpOperatorLast)
    (hmatching : matching operator seqNum live = []) : live = [] := by
  rcases hends with rfl | rfl
  · rw [matching_first, Option.toList_eq_nil_iff] at hmatching
    exact List.head?_eq_none_iff.mp hmatching
  · rw [matching_last, Option.toList_eq_nil_iff] at hmatching
    exact List.getLast?_eq_none_iff.mp hmatching

/-- Of the first and the last record there is one at most, at the index that is read. -/
theorem firstLast_getElem? {db : GlsDatabase} {operator : UInt8} {seqNum : UInt16}
    {record : GlsRecord} {rest : List GlsRecord} (hholds : Holds db live)
    (hends : operator = racpOperatorFirst ∨ operator = racpOperatorLast)
    (hmatching : matching operator seqNum live = record :: rest) :
    rest = [] ∧ live[(if operator = racpOperatorFirst then 0
      else (glsDbNumRecordsGet db - 1).toUInt8).toNat]? = some record := by
  rcases hends with rfl | rfl
  · rw [matching_first, List.head?_eq_getElem?] at hmatching
    obtain ⟨hfirst, hrest⟩ := toList_eq_cons hmatching
    exact ⟨hrest, hfirst⟩
  · rw [matching_last, List.getLast?_eq_getElem?] at hmatching
    obtain ⟨hlast, hrest⟩ := toList_eq_cons hmatching
    obtain ⟨hlt, -⟩ := List.getElem?_eq_some_iff.mp hlast
    have hmax := length_le_of_holds hholds
    have hnum := glsDbNumRecordsGet_toNat hholds
    have hidx : (glsDbNumRecordsGet db - 1).toUInt8.toNat = live.length - 1 := by
      rw [UInt16.toNat_toUInt8, uint16_toNat_pred (by omega)]
      omega
    rw [if_neg (by decide), hidx]
    exact ⟨hrest, hlast⟩

theorem sendsNext_firstLast {record : GlsRecord} {rest : List GlsRecord}
    (hreporting : Reporting base gls live sent (record :: rest))
    (hindexed : ¬Indexed gls.racpProcOperator) :
    rest = [] ∧ SendsNext gls record gls.racpProcRecordIdx := by
  have hends := first_or_last hreporting.operator hindexed
  have htodo := hreporting.ends hindexed
  have hempty : sent = [] := by
    by_contra hsent
    rw [if_neg hsent] at htodo
    cases htodo
  rw [if_pos hempty] at htodo
  obtain ⟨hrest, hrecord⟩ := firstLast_getElem? hreporting.holds hends htodo.symm
  have hreported : gls.racpProcRecordsReported = 0 := by
    rw [← UInt8.toNat_inj, hreporting.reported, hempty]
    rfl
  have hnum : glsDbNumRecordsGet gls.db ≠ 0 := by
    rw [ne_eq, ← UInt16.toNat_inj, glsDbNumRecordsGet_toNat hreporting.holds]
    obtain ⟨hlt, -⟩ := List.getElem?_eq_some_iff.mp hrecord
    exact Nat.ne_of_gt (Nat.zero_lt_of_lt hlt)
  refine ⟨hrest, gls.workQueue, by rw [hreporting.looping]; decide, ?_⟩
  rw [racpReportRecords, if_neg (not_or.mp hindexed).1, if_pos hends,
    racpReportRecordsFirstLast, if_neg (not_or.mpr ⟨not_not.mpr hreported, hnum⟩),
    glsDbRecordGet_of_getElem? hreporting.holds hrecord]
  dsimp only
  rw [glucoseMeasSend_ok]
  rfl

/-- With a record left, the iteration sends it and stands at its index. -/
theorem sendsNext {record : GlsRecord} {rest : List GlsRecord}
    (hreporting : Reporting base gls live sent (record :: rest)) :
    ∃ idx, SendsNext gls record idx ∧
      (Indexed gls.racpProcOperator → idx.toNat < live.length ∧
        rest = matching gls.racpProcOperator gls.racpProcSeqNum (live.drop (idx.toNat + 1))) ∧
      (¬Indexed gls.racpProcOperator → rest = []) := by
  by_cases hindexed : Indexed gls.racpProcOperator
  · rcases hindexed with hall | hfilter
    · obtain ⟨hidx, hsends, hrest⟩ := sendsNext_all hreporting hall
      refine ⟨gls.racpProcRecordIdx, hsends, fun _ => ⟨hidx, ?_⟩, absurd (.inl hall)⟩
      rw [hall, hrest]
      rfl
    · obtain ⟨idx, hidx, hsends, hrest⟩ := sendsNext_greaterOrEqual hreporting hfilter
      refine ⟨idx, hsends, fun _ => ⟨hidx, ?_⟩, absurd (.inr hfilter)⟩
      rw [hfilter, hrest]
  · obtain ⟨hrest, hsends⟩ := sendsNext_firstLast hreporting hindexed
    exact ⟨gls.racpProcRecordIdx, hsends, (absurd · hindexed), fun _ => hrest⟩

/-- Without a record left, the iteration notices the end of the report. -/
theorem report_done (hreporting : Reporting base gls live sent []) :
    ∃ idx, racpReportRecords gls notifyOk =
      some (some (0, { gls with racpProcRecordIdx := idx, racpState := .noComm })) := by
  by_cases hindexed : Indexed gls.racpProcOperator
  · obtain ⟨hle, htodo⟩ := hreporting.idx hindexed
    rcases hindexed with hall | hfilter
    · rw [hall, matching_all, eq_comm, List.drop_eq_nil_iff] at htodo
      refine ⟨gls.racpProcRecordIdx, ?_⟩
      rw [racpReportRecords, if_pos hall, racpReportRecordsAll,
        if_pos ((numRecords_le_iff hreporting.holds).mpr htodo)]
      rfl
    · rw [hfilter] at htodo
      rcases findGreaterOrEqual_holds hreporting.holds gls.racpProcSeqNum hle
          (length_lt_fuel hreporting.holds gls.racpProcRecordIdx) with
        ⟨stop, hfind, hstop, -⟩ | ⟨stop, hstop, -, hsome⟩
      · have hnum : stop.toUInt16 = glsDbNumRecordsGet gls.db := by
          rw [← UInt16.toNat_inj, UInt8.toNat_toUInt16,
            glsDbNumRecordsGet_toNat hreporting.holds]
          exact hstop
        refine ⟨stop, ?_⟩
        rw [racpReportRecords, hfilter, if_neg (by decide), if_neg (by decide), if_pos rfl,
          racpReportRecordsGreaterOrEqual, hfind]
        simp only [ne_eq, not_true_eq_false, if_false, if_pos hnum, stateSet]
        rw [hfilter]
      · rw [hsome] at htodo
        cases htodo
  · have hends := first_or_last hreporting.operator hindexed
    have htodo := hreporting.ends hindexed
    have hdone : gls.racpProcRecordsReported ≠ 0 ∨ glsDbNumRecordsGet gls.db = 0 := by
      by_cases hempty : sent = []
      · right
        rw [if_pos hempty] at htodo
        rw [← UInt16.toNat_inj, glsDbNumRecordsGet_toNat hreporting.holds,
          eq_nil_of_matching hends htodo.symm]
        rfl
      · left
        rw [ne_eq, ← UInt8.toNat_inj, hreporting.reported]
        exact mt List.length_eq_zero_iff.mp hempty
    refine ⟨gls.racpProcRecordIdx, ?_⟩
    rw [racpReportRecords, if_neg (not_or.mp hindexed).1, if_pos hends,
      racpReportRecordsFirstLast, if_pos hdone]
    rfl

/-! ## A round of the loop -/

/-- The service at the head of the loop, after a record was sent. -/
def Gls.advanced (gls : Gls) (record : GlsRecord) (idx : UInt8) : Gls :=
  { gls.sent record with racpProcRecordIdx := idx + 1, workQueue := .looping }

theorem glsStep_loop (hreporting : Reporting base gls live sent todo) :
    glsStep (some gls) (.loop notifyOk) = racpReportRecordsProcedure gls notifyOk := by
  rw [glsStep, Option.bind_some, Gls.step, if_pos hreporting.looping]

/-- The index is advanced behind the sleep, or right after a record that needs none. -/
theorem run_sends {record : GlsRecord} {idx : UInt8}
    (hreporting : Reporting base gls live sent todo) (hsends : SendsNext gls record idx) :
    run glsStep (some gls) [.loop notifyOk, .wake] = some (gls.advanced record idx) := by
  obtain ⟨queue, hqueue, hreport⟩ := hsends
  rw [run_cons, glsStep_loop hreporting, racpReportRecordsProcedure,
    if_neg (not_not.mpr hreporting.active), if_neg (not_not.mpr hreporting.opcode), hreport]
  dsimp only
  cases queue with
  | idle => exact absurd rfl hqueue
  | looping =>
      rw [if_neg (by decide), racpReportRecordsNext_active (by exact hreporting.active)]
      rfl
  | sleeping =>
      rw [if_pos rfl, run_cons, run_nil, glsStep, Option.bind_some, Gls.step, if_pos rfl,
        racpReportRecordsWake, racpReportRecordsNext_active (by exact hreporting.active)]
      rfl

/-- After a round one record has gone over from those left to those sent. -/
theorem reporting_advanced {record : GlsRecord} {rest : List GlsRecord} {idx : UInt8}
    (hreporting : Reporting base gls live sent (record :: rest))
    (hidx : Indexed gls.racpProcOperator → idx.toNat < live.length ∧
      rest = matching gls.racpProcOperator gls.racpProcSeqNum (live.drop (idx.toNat + 1)))
    (hends : ¬Indexed gls.racpProcOperator → rest = []) :
    Reporting base (gls.advanced record idx) live (sent ++ [record]) rest := by
  have hmax := length_le_of_holds hreporting.holds
  have hfits := hreporting.fits
  rw [List.length_cons] at hfits
  constructor
  case looping => rfl
  case active => exact hreporting.active
  case opcode => exact hreporting.opcode
  case operator => exact hreporting.operator
  case holds => exact hreporting.holds
  case idx =>
    intro hindexed
    obtain ⟨hlt, hrest⟩ := hidx hindexed
    have hnext : (idx + 1).toNat = idx.toNat + 1 := uint8_toNat_succ (by omega)
    simp only [Gls.advanced, Gls.sent, hnext]
    exact ⟨hlt, hrest⟩
  case ends =>
    intro hindexed
    rw [if_neg (List.append_ne_nil_of_right_ne_nil sent (List.cons_ne_nil record []))]
    exact hends hindexed
  case fits =>
    rw [List.length_append, List.length_singleton]
    omega
  case reported =>
    rw [List.length_append, List.length_singleton, ← hreporting.reported]
    apply uint8_toNat_succ
    rw [hreporting.reported]
    omega
  case notifications =>
    rw [List.flatMap_append, List.flatMap_singleton, ← List.append_assoc,
      ← hreporting.notifications]
    rfl
  case indications => exact hreporting.indications
  case indicating => exact hreporting.indicating
  case ccc => exact hreporting.ccc

/-- The service when the loop has noticed its end. -/
def Gls.reportDone (gls : Gls) (idx : UInt8) : Gls :=
  racpReportRecordsCompleted { gls with racpProcRecordIdx := idx, racpState := .noComm }

theorem reportDone_indications (hreporting : Reporting base gls live sent todo) (idx : UInt8) :
    (gls.reportDone idx).indications = gls.indications ++
      if gls.racpCcc && !gls.racpIndicating then
        [[racpOpcodeResponseCode, racpOperatorNull, racpOpcodeReportRecs, reportCode sent]]
      else [] := by
  have hcode : (if 0 < gls.racpProcRecordsReported then racpResponseSuccess
      else racpResponseNoRecordsFound) = reportCode sent := by
    have hpos : 0 < gls.racpProcRecordsReported ↔ sent ≠ [] := by
      rw [UInt8.lt_iff_toNat_lt, hreporting.reported]
      exact List.length_pos_iff
    rw [reportCode]
    by_cases hempty : sent = []
    · rw [if_pos hempty, if_neg (mt hpos.mp (not_not.mpr hempty))]
    · rw [if_neg hempty, if_pos (hpos.mpr hempty)]
  rw [Gls.reportDone, racpReportRecordsCompleted, racpResponseCodeSend, racpSend_indications,
    glsRacpEncode_two]
  dsimp only
  rw [hcode]

/-- The end is noticed in one iteration and the loop left in the next. -/
theorem run_done (hreporting : Reporting base gls live sent []) :
    ∃ last, run glsStep (some gls) (iterations 2) = some last ∧ Reports base last sent := by
  obtain ⟨idx, hreport⟩ := report_done hreporting
  obtain ⟨hqueue, -, hstate, -⟩ :
      (gls.reportDone idx).workQueue = gls.workQueue ∧ _ ∧
        (gls.reportDone idx).racpState = .noComm ∧ _ := racpSend_frame _ _
  rw [hreporting.looping] at hqueue
  have hfirst : glsStep (some gls) (.loop notifyOk) = some (gls.reportDone idx) := by
    rw [glsStep_loop hreporting, racpReportRecordsProcedure,
      if_neg (not_not.mpr hreporting.active), if_neg (not_not.mpr hreporting.opcode), hreport]
    dsimp only
    rw [hreporting.looping, if_neg (by decide), racpReportRecordsNext_done (by simp),
      Gls.reportDone, hreporting.looping]
  have hawake : glsStep (some (gls.reportDone idx)) .wake = some (gls.reportDone idx) := by
    rw [glsStep, Option.bind_some, Gls.step, hqueue, if_neg (by decide)]
  have hexit : glsStep (some (gls.reportDone idx)) (.loop notifyOk) =
      some { gls.reportDone idx with workQueue := .idle } := by
    rw [glsStep, Option.bind_some, Gls.step, if_pos hqueue, racpReportRecordsProcedure,
      if_pos (by rw [hstate]; decide)]
  refine ⟨{ gls.reportDone idx with workQueue := .idle }, ?_, ?_⟩
  · have hrounds : iterations 2 = [.loop notifyOk, .wake, .loop notifyOk, .wake] := rfl
    rw [hrounds, run_cons, hfirst, run_cons, hawake, run_cons, hexit]
    rfl
  · constructor
    case idle => rfl
    case noComm => exact hstate
    case notifications => exact (racpSend_notifications _ _).trans hreporting.notifications
    case response =>
      rw [← hreporting.indications, ← hreporting.ccc, ← hreporting.indicating]
      exact reportDone_indications hreporting idx

/-- Run lemma: what is left is sent, a record in each round. -/
theorem run_reports (hreporting : Reporting base gls live sent todo) :
    ∃ last, run glsStep (some gls) (iterations (todo.length + 2)) = some last ∧
      Reports base last (sent ++ todo) := by
  induction todo generalizing gls sent with
  | nil =>
      rw [List.append_nil]
      exact run_done hreporting
  | cons record rest ih =>
      obtain ⟨idx, hsends, hidx, hends⟩ := sendsNext hreporting
      obtain ⟨last, hrun, hreports⟩ := ih (reporting_advanced hreporting hidx hends)
      refine ⟨last, ?_, ?_⟩
      · have hrounds : iterations ((record :: rest).length + 2) =
            [.loop notifyOk, .wake] ++ iterations (rest.length + 2) := rfl
        rw [hrounds, run_append, run_sends hreporting hsends]
        exact hrun
      · rw [List.append_assoc, List.singleton_append] at hreports
        exact hreports

end Iteration

/-! ## The whole report -/

theorem matching_sublist (operator : UInt8) (seqNum : UInt16) (live : List GlsRecord) :
    (matching operator seqNum live).Sublist live := by
  have htoList : ∀ found : Option GlsRecord, (∀ record ∈ found, record ∈ live) →
      found.toList.Sublist live := by
    intro found hmem
    cases found with
    | none => exact List.nil_sublist live
    | some record => exact List.singleton_sublist.mpr (hmem record rfl)
  unfold matching
  split
  next => exact htoList _ fun record => List.mem_of_mem_head?
  next =>
    split
    next => exact htoList _ fun record => List.mem_of_mem_getLast?
    next =>
      split
      next => exact List.filter_sublist
      next => exact List.Sublist.refl live

theorem reporting_start {gls : Gls} {live : List GlsRecord} (hholds : Holds gls.db live)
    (hopcode : gls.glsRacpRequest.opcode = racpOpcodeReportRecs)
    (hoperator : Reportable gls.glsRacpRequest.operator) :
    Reporting gls (reportRecordsRequestExecute gls gls.glsRacpRequest) live []
      (matching gls.glsRacpRequest.operator gls.glsRacpRequest.seqNum live) where
  looping := rfl
  active := rfl
  opcode := hopcode
  operator := hoperator
  holds := hholds
  idx := fun _ => ⟨Nat.zero_le _, rfl⟩
  ends := fun _ => rfl
  fits := by
    rw [List.length_nil, Nat.zero_add]
    exact (matching_sublist _ _ live).length_le
  reported := rfl
  notifications := (List.append_nil _).symm
  indications := rfl
  indicating := rfl
  ccc := rfl

/-! ## The number of records -/

/-- The answer to a request for the number of records. -/
def Counts (base last : Gls) (records : List GlsRecord) : Prop :=
  last.indications = base.indications ++
    if base.racpCcc && !base.racpIndicating then
      [[racpOpcodeNumRecsResponse, racpOperatorNull] ++ littleEndian 2 records.length]
    else []

theorem countGreaterOrEqual_holds {db : GlsDatabase} {live : List GlsRecord}
    (hholds : Holds db live) (seqNum : UInt16) {remaining : Nat} {i numRecords : UInt16}
    (hremaining : i.toNat + remaining = live.length) (hcounted : numRecords.toNat ≤ i.toNat) :
    ∃ total, countGreaterOrEqual db seqNum remaining i numRecords = some (.ok total) ∧
      total.toNat = numRecords.toNat +
        (matching racpOperatorGreaterOrEqual seqNum (live.drop i.toNat)).length := by
  have hmax := length_le_of_holds hholds
  induction remaining generalizing i numRecords with
  | zero =>
      refine ⟨numRecords, rfl, ?_⟩
      rw [List.drop_eq_nil_of_le (by omega)]
      rfl
  | succ remaining ih =>
      have hlt : i.toNat < live.length := by omega
      have hidx : i.toUInt8.toNat = i.toNat := by
        rw [UInt16.toNat_toUInt8]
        omega
      have hnext : (i + 1).toNat = i.toNat + 1 := uint16_toNat_succ (by omega)
      have hrecord : live[i.toUInt8.toNat]? = some live[i.toNat] := by
        rw [hidx]
        exact List.getElem?_eq_getElem hlt
      rw [countGreaterOrEqual, glsDbRecordGet_of_getElem? hholds hrecord,
        List.drop_eq_getElem_cons hlt, matching_greaterOrEqual]
      dsimp only
      by_cases hmatch : seqNum ≤ live[i.toNat].meas.sequenceNumber
      · have hsucc : (numRecords + 1).toNat = numRecords.toNat + 1 := uint16_toNat_succ (by omega)
        obtain ⟨total, hcount, htotal⟩ :=
          ih (show (i + 1).toNat + remaining = live.length by omega)
            (show (numRecords + 1).toNat ≤ (i + 1).toNat by omega)
        rw [matching_greaterOrEqual, hnext, hsucc] at htotal
        rw [if_pos hmatch, List.filter_cons_of_pos (by simpa using hmatch), List.length_cons]
        exact ⟨total, hcount, by omega⟩
      · obtain ⟨total, hcount, htotal⟩ :=
          ih (show (i + 1).toNat + remaining = live.length by omega)
            (show numRecords.toNat ≤ (i + 1).toNat by omega)
        rw [matching_greaterOrEqual, hnext] at htotal
        rw [if_neg hmatch, List.filter_cons_of_neg (by simpa using hmatch)]
        exact ⟨total, hcount, htotal⟩

theorem counts_racpSend (gls : Gls) {numRecords : UInt16} {records : List GlsRecord}
    (hnum : numRecords.toNat = records.length) :
    Counts gls (racpSend gls ⟨racpOpcodeNumRecsResponse, racpOperatorNull, 2,
      #v[(numRecords &&& 0xff).toUInt8, (numRecords >>> 8).toUInt8, 0, 0, 0, 0]⟩) records := by
  rw [Counts, racpSend_indications, glsRacpEncode_two, ← hnum, ← littleEndian_uint16]
  rfl

/-- Of the first and the last record there is one if there are records at all. -/
theorem length_matching_firstLast {db : GlsDatabase} {live : List GlsRecord}
    (hholds : Holds db live) {operator : UInt8} {seqNum : UInt16}
    (hends : operator = racpOperatorFirst ∨ operator = racpOperatorLast) :
    (if 0 < glsDbNumRecordsGet db then (1 : UInt16) else 0).toNat =
      (matching operator seqNum live).length := by
  have hpos : 0 < glsDbNumRecordsGet db ↔ 0 < live.length := by
    rw [UInt16.lt_iff_toNat_lt, glsDbNumRecordsGet_toNat hholds]
    rfl
  cases hmatching : matching operator seqNum live with
  | nil =>
      rw [if_neg (mt hpos.mp (by rw [eq_nil_of_matching hends hmatching]; decide))]
      rfl
  | cons record rest =>
      obtain ⟨rfl, hrecord⟩ := firstLast_getElem? hholds hends hmatching
      obtain ⟨hlt, -⟩ := List.getElem?_eq_some_iff.mp hrecord
      rw [if_pos (hpos.mpr (Nat.zero_lt_of_lt hlt))]
      rfl

theorem counts_matching {gls : Gls} {live : List GlsRecord} (hholds : Holds gls.db live)
    {request : GlsRacp} (hoperator : Reportable request.operator) :
    ∃ last, reportNumRecordsRequestExecute gls request = some last ∧
      Counts gls last (matching request.operator request.seqNum live) := by
  have hnum := glsDbNumRecordsGet_toNat hholds
  unfold reportNumRecordsRequestExecute
  by_cases hindexed : Indexed request.operator
  · rcases hindexed with hall | hfilter
    · rw [if_pos hall]
      refine ⟨_, rfl, counts_racpSend gls ?_⟩
      rw [hnum, hall, matching_all]
    · obtain ⟨total, hcount, htotal⟩ := countGreaterOrEqual_holds hholds request.seqNum
        (show (0 : UInt16).toNat + (glsDbNumRecordsGet gls.db).toNat = live.length by
          rw [hnum, UInt16.toNat_zero, Nat.zero_add])
        (Nat.le_refl _)
      rw [UInt16.toNat_zero, Nat.zero_add, List.drop_zero] at htotal
      rw [hfilter, if_neg (by decide), if_pos rfl, hcount]
      exact ⟨_, rfl, counts_racpSend gls htotal⟩
  · have hends := first_or_last hoperator hindexed
    rw [if_neg (not_or.mp hindexed).1, if_neg (not_or.mp hindexed).2, if_pos hends]
    exact ⟨_, rfl, counts_racpSend gls (length_matching_firstLast hholds hends)⟩

/-- The records that a request is about. -/
def GlsRacp.selected (request : GlsRacp) (live : List GlsRecord) : List GlsRecord :=
  matching request.operator request.seqNum live

/-- A report sends the records that its request selects, in the order of the database, and a
request for their number with the same operator and operand is answered with that many. -/
theorem report_sends_counted (gls : Gls) (live : List GlsRecord) (hholds : Holds gls.db live)
    (hopcode : gls.glsRacpRequest.opcode = racpOpcodeReportRecs)
    (hoperator : Reportable gls.glsRacpRequest.operator) (request : GlsRacp)
    (hsame : request.operator = gls.glsRacpRequest.operator ∧
      request.operand = gls.glsRacpRequest.operand) :
    (∃ last, run glsStep (some (reportRecordsRequestExecute gls gls.glsRacpRequest))
        (iterations ((gls.glsRacpRequest.selected live).length + 2)) = some last ∧
      Reports gls last (gls.glsRacpRequest.selected live)) ∧
    ∃ last, reportNumRecordsRequestExecute gls request = some last ∧
      Counts gls last (gls.glsRacpRequest.selected live) := by
  obtain ⟨hop, hoperand⟩ := hsame
  have hselected : gls.glsRacpRequest.selected live = request.selected live := by
    rw [GlsRacp.selected, GlsRacp.selected, GlsRacp.seqNum, GlsRacp.seqNum, hop, hoperand]
  refine ⟨run_reports (reporting_start hholds hopcode hoperator), ?_⟩
  rw [hselected]
  exact counts_matching hholds (by rwa [hop])

/-- Three records, and a request for those from the second number on. -/
def sampleReport : Gls :=
  { glsInit true sampleGlsDatabase with
    db := (glsDbRecordAdd (glsDbRecordAdd (glsDbRecordAdd (glsDbInit sampleGlsDatabase)
      (sampleGlsRecord 3)).2 (sampleGlsRecord 1)).2 (sampleGlsRecord 2)).2
    glsRacpRequest :=
      ⟨racpOpcodeReportRecs, racpOperatorGreaterOrEqual, 3,
        #v[operandFilterTypeSeqNum, 2, 0, 0, 0, 0]⟩ }

theorem sampleReport_holds :
    Holds sampleReport.db [sampleGlsRecord 3, sampleGlsRecord 1, sampleGlsRecord 2] := by
  have hmax : glsDbMaxRecords < 2 ^ 16 := by decide
  have hfirst := Database.holds_add hmax (Database.holds_init sampleGlsDatabase) (sampleGlsRecord 3)
  have hsecond := Database.holds_add hmax hfirst (sampleGlsRecord 1)
  exact Database.holds_add hmax hsecond (sampleGlsRecord 2)

theorem report_sends_counted_two :
    (∃ last, run glsStep (some (reportRecordsRequestExecute sampleReport
        sampleReport.glsRacpRequest)) (iterations 4) = some last ∧
      Reports sampleReport last [sampleGlsRecord 3, sampleGlsRecord 2]) ∧
    ∃ last, reportNumRecordsRequestExecute sampleReport
        { sampleReport.glsRacpRequest with opcode := racpOpcodeReportNumRecs } = some last ∧
      Counts sampleReport last [sampleGlsRecord 3, sampleGlsRecord 2] :=
  report_sends_counted sampleReport _ sampleReport_holds rfl (.inr (.inr (.inr rfl))) _ ⟨rfl, rfl⟩

end CubieBle.Gatt
