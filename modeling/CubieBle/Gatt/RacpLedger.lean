import CubieBle.Gatt.RacpLaws
import CubieBle.Machine.Run

/-! # The ledger of accepted requests

A ledger follows each accepted write from the work item to the end of its handling,
and every step of the service keeps its entries in order.
-/

namespace CubieBle.Gatt

open Machine

/-! ## The ledger -/

/-- An accepted request, what its handling saw of it and the indications it led to. -/
structure Handling where
  request : Request
  handled : Option Request := none
  answers : List (List UInt8) := []
  /-- Another write was decoded before the handling ended. -/
  disturbed : Bool := false
  /-- An indication was outstanding when the handling began. -/
  blocked : Bool := false
  /-- Sending a record to the client failed. -/
  failed : Bool := false
deriving DecidableEq

/-- The accepted writes, of which one waits for the work item, one is being handled
and the others are finished. -/
structure Ledger where
  accepted : List Request := []
  waiting : Option Handling := none
  current : Option Handling := none
  finished : List Handling := []
deriving DecidableEq

def Handling.disturb (handling : Handling) : Handling :=
  { handling with disturbed := true }

/-- The handling is finished when the work queue is free again. -/
def Ledger.proceed (ledger : Ledger) (handling : Handling) (next : Gls) : Ledger :=
  if next.workQueue = .idle then
    { ledger with current := none, finished := ledger.finished ++ [handling] }
  else { ledger with current := some handling }

instance (gls : Gls) (data : List UInt8) (offset : UInt16) :
    Decidable (Decoded gls data offset) :=
  inferInstanceAs (Decidable (_ ∧ _))

def newIndications (gls next : Gls) : List (List UInt8) :=
  next.indications.drop gls.indications.length

/-- The work item takes the request. -/
def Handling.taken (handling : Handling) (gls next : Gls) : Handling :=
  { handling with
    handled := some gls.glsRacpRequest.request
    answers := newIndications gls next
    blocked := gls.racpIndicating }

/-- The report of the request makes a step. -/
def Handling.continued (handling : Handling) (gls next : Gls) (failed : Bool) : Handling :=
  { handling with
    answers := handling.answers ++ newIndications gls next
    failed := handling.failed || failed }

/-- What the ledger notes of a step. A write that takes the place of one that still
waits finishes it unhandled. -/
def Ledger.note (ledger : Ledger) (gls next : Gls) : GlsAction → Ledger
  | .racpWrite data offset =>
      if Decoded gls data offset then
        if (glsRacpWrite gls data offset).map Prod.fst = some (data.length : Int) then
          { accepted := ledger.accepted ++ [requestOf data]
            waiting := some { request := requestOf data }
            current := ledger.current.map Handling.disturb
            finished := ledger.finished ++ (ledger.waiting.map Handling.disturb).toList }
        else
          { ledger with
            waiting := ledger.waiting.map Handling.disturb
            current := ledger.current.map Handling.disturb }
      else ledger
  | .racpHandle =>
      match ledger.waiting with
      | some handling =>
          if gls.workPending ∧ gls.workQueue = .idle then
            { ledger with waiting := none }.proceed (handling.taken gls next) next
          else ledger
      | none => ledger
  | .loop results =>
      match ledger.current with
      | some handling =>
          if gls.workQueue = .looping then
            ledger.proceed (handling.continued gls next (reportFails gls results)) next
          else ledger
      | none => ledger
  | .wake =>
      match ledger.current with
      | some handling =>
          if gls.workQueue = .sleeping then
            ledger.proceed (handling.continued gls next false) next
          else ledger
      | none => ledger
  | .indicateRsp => ledger
  | .measurement _ => ledger

def observeRacp (state : Option Gls) (action : GlsAction) (ledger : Ledger) : Ledger :=
  match state with
  | none => ledger
  | some gls =>
      match gls.step action with
      | none => ledger
      | some next => ledger.note gls next action

abbrev RacpState := Tracked (Option Gls) Ledger

abbrev racpStep : RacpState → GlsAction → RacpState :=
  trackedStep glsStep observeRacp

def racpInit (racpCcc : Bool) (db : GlsDatabase) : RacpState :=
  ⟨some (glsInit racpCcc db), {}⟩

/-! ## The property -/

/-- A request that was not disturbed is handled as it was written, and by no more
than one indication; by exactly one unless it was blocked or failed. -/
structure Accounted (handling : Handling) : Prop where
  once : handling.answers.length ≤ 1
  own : handling.disturbed = false → handling.handled = some handling.request
  answers : handling.disturbed = false →
    ∀ value ∈ handling.answers, Answers handling.request.opcode value
  answered : handling.disturbed = false → handling.blocked = false → handling.failed = false →
    handling.answers ≠ []

/-- Every accepted request is finished, running or waiting. -/
structure LedgerLaw (ledger : Ledger) : Prop where
  finished : ∀ handling ∈ ledger.finished, Accounted handling
  conserved : ((ledger.finished ++ ledger.current.toList ++ ledger.waiting.toList).map
    Handling.request).Perm ledger.accepted

/-! ## Invariant -/

/-- A request that waits undisturbed is the one that the work item will find. -/
structure Waits (gls : Gls) (handling : Handling) : Prop where
  answers : handling.answers = []
  failed : handling.failed = false
  request : handling.disturbed = false → gls.glsRacpRequest.request = handling.request
  free : handling.disturbed = false →
    handling.request.opcode = racpOpcodeAbortOperation ∨ gls.racpState = .noComm

/-- A report that runs undisturbed goes on until it is answered. -/
structure Runs (gls : Gls) (handling : Handling) : Prop where
  once : handling.answers.length ≤ 1
  last : handling.answers ≠ [] → gls.workQueue = .looping ∧ gls.racpState = .noComm
  own : handling.disturbed = false → handling.handled = some handling.request
  report : handling.disturbed = false → handling.request.opcode = racpOpcodeReportRecs
  answers : handling.disturbed = false →
    ∀ value ∈ handling.answers, Answers handling.request.opcode value
  going : handling.disturbed = false → handling.blocked = false → handling.failed = false →
    handling.answers = [] → gls.racpState = .racpProcActive ∧
      gls.glsRacpRequest.opcode = racpOpcodeReportRecs ∧ gls.racpIndicating = false

structure RacpInv (gls : Gls) (ledger : Ledger) : Prop where
  sound : Sound gls
  waiting_iff : ledger.waiting.isSome = gls.workPending
  current_iff : ledger.current.isSome = true ↔ gls.workQueue ≠ .idle
  waiting : ∀ handling ∈ ledger.waiting, Waits gls handling
  current : ∀ handling ∈ ledger.current, Runs gls handling
  law : LedgerLaw ledger

theorem newIndications_of_eq {gls next : Gls} (heq : next.indications = gls.indications) :
    newIndications gls next = [] := by
  unfold newIndications
  rw [heq, List.drop_length]

theorem newIndications_of_append {gls next : Gls} {values : List (List UInt8)}
    (happend : next.indications = gls.indications ++ values) :
    newIndications gls next = values := by
  unfold newIndications
  rw [happend, List.drop_left]

theorem Sound.send {gls : Gls} (hsound : Sound gls) (racp : GlsRacp) :
    Sound (racpSend gls racp) := by
  unfold racpSend
  split
  next => exact ⟨hsound.db, hsound.ccc, hsound.operator, hsound.idx, hsound.sleeping⟩
  next => exact hsound

theorem HandleCase.workPending {base next : Gls} (hcase : HandleCase base next) :
    next.workPending = base.workPending := by
  cases hcase with
  | report hopcode hoperator => rfl
  | response db racpState racp hdb hanswers =>
      exact (racpSend_frame { base with db, racpState } racp).2.1
  | inProgress hopcode hstate => rfl

/-- A handling is answered by what is sent, unless an indication is outstanding. -/
theorem newIndications_send (gls base : Gls) (hccc : base.racpCcc = true)
    (hbase : base.indications = gls.indications) (racp : GlsRacp) :
    base.racpIndicating = true ∧ newIndications gls (racpSend base racp) = [] ∨
      base.racpIndicating = false ∧
        newIndications gls (racpSend base racp) = [glsRacpEncode racp] := by
  rcases racpSend_cases hccc racp with ⟨hbusy, hsend⟩ | ⟨hfree, hsend⟩
  · refine .inl ⟨hbusy, newIndications_of_eq ?_⟩
    rw [hsend, hbase]
  · refine .inr ⟨hfree, newIndications_of_append ?_⟩
    rw [hsend, hbase]

theorem Waits.of_eq {gls next : Gls} {handling : Handling} (hwaits : Waits gls handling)
    (hrequest : next.glsRacpRequest = gls.glsRacpRequest)
    (hstate : next.racpState = gls.racpState ∨ next.racpState = .noComm) :
    Waits next handling where
  answers := hwaits.answers
  failed := hwaits.failed
  request := by
    rw [hrequest]
    exact hwaits.request
  free := by
    intro hdisturbed
    rcases hstate with hsame | hnone
    · rw [hsame]
      exact hwaits.free hdisturbed
    · exact .inr hnone

/-- Once disturbed, nothing is known about the request. -/
theorem Waits.disturb {gls next : Gls} {handling : Handling} (hwaits : Waits gls handling) :
    Waits next handling.disturb where
  answers := hwaits.answers
  failed := hwaits.failed
  request := nofun
  free := nofun

theorem Waits.accounted {gls : Gls} {handling : Handling} (hwaits : Waits gls handling) :
    Accounted handling.disturb where
  once := by
    change handling.answers.length ≤ 1
    rw [hwaits.answers]
    exact Nat.zero_le 1
  own := nofun
  answers := nofun
  answered := nofun

theorem Runs.disturb {gls next : Gls} {handling : Handling} (hruns : Runs gls handling)
    (hqueue : next.workQueue = gls.workQueue) (hstate : next.racpState = gls.racpState) :
    Runs next handling.disturb where
  once := hruns.once
  last := by
    rw [hqueue, hstate]
    exact hruns.last
  own := nofun
  report := nofun
  answers := nofun
  going := nofun

theorem forall_mem_map_disturb {property property' : Handling → Prop}
    {entry : Option Handling} (hentry : ∀ handling ∈ entry, property handling)
    (himp : ∀ handling, property handling → property' handling.disturb) :
    ∀ handling ∈ entry.map Handling.disturb, property' handling := by
  intro handling hmem
  obtain ⟨old, hold, rfl⟩ := Option.mem_map.mp hmem
  exact himp old (hentry old hold)

theorem map_request_disturb (entry : Option Handling) :
    (entry.map Handling.disturb).toList.map Handling.request =
      entry.toList.map Handling.request := by
  cases entry with
  | none => rfl
  | some handling => rfl

/-- The invariant after a step of the handler. -/
theorem RacpInv.proceed {next : Gls} {ledger : Ledger} {handling : Handling}
    (hsound : Sound next) (hpending : ledger.waiting.isSome = next.workPending)
    (hwaiting : ∀ other ∈ ledger.waiting, Waits next other)
    (hfinished : ∀ other ∈ ledger.finished, Accounted other)
    (hconserved : ((ledger.finished ++ [handling] ++ ledger.waiting.toList).map
      Handling.request).Perm ledger.accepted)
    (hidle : next.workQueue = .idle → Accounted handling)
    (hrunning : next.workQueue ≠ .idle → Runs next handling) :
    RacpInv next (ledger.proceed handling next) := by
  unfold Ledger.proceed
  split
  next hqueue =>
    refine ⟨hsound, hpending, by simp [hqueue], hwaiting, nofun, ?_, ?_⟩
    · intro other hother
      rcases List.mem_append.mp hother with hold | hnew
      · exact hfinished other hold
      · rw [List.mem_singleton.mp hnew]
        exact hidle hqueue
    · simpa using hconserved
  next hqueue =>
    refine ⟨hsound, hpending, by simp [hqueue], hwaiting, ?_, hfinished, ?_⟩
    · rintro other ⟨rfl⟩
      exact hrunning hqueue
    · simpa using hconserved

/-! ## Steps -/

/-- Accesses stay inside the arrays: an operand fits and the last slot is in use when
the last record is deleted. -/
def InBounds (gls : Gls) : GlsAction → Prop
  | .racpWrite data offset => Decoded gls data offset → data.length ≤ 8
  | .racpHandle => gls.workPending = true ∧ gls.workQueue = .idle → DeletesInBounds gls
  | _ => True

variable {gls : Gls} {ledger : Ledger}

theorem racpInv_write (hinv : RacpInv gls ledger) (data : List UInt8) (offset : UInt16)
    (hbounds : InBounds gls (.racpWrite data offset)) :
    ∃ next, gls.step (.racpWrite data offset) = some next ∧
      RacpInv next (ledger.note gls next (.racpWrite data offset)) := by
  obtain ⟨result, next, hwrite, hcase⟩ := writeCase hbounds
  refine ⟨next, by rw [Gls.step, hwrite]; rfl, ?_⟩
  rw [Ledger.note]
  have hsound := hinv.sound
  cases hcase with
  | ignored _ hdecoded _ =>
      rw [if_neg hdecoded]
      exact hinv
  | rejected _ request hdecoded hresult =>
      have hrefused : (glsRacpWrite gls data offset).map Prod.fst ≠ some (data.length : Int) := by
        rw [hwrite]
        simpa using hresult
      rw [if_pos hdecoded, if_neg hrefused]
      refine ⟨⟨hsound.db, hsound.ccc, hsound.operator, hsound.idx, hsound.sleeping⟩, ?_, ?_, ?_,
        ?_, hinv.law.finished, ?_⟩
      · simpa using hinv.waiting_iff
      · simpa using hinv.current_iff
      · exact forall_mem_map_disturb hinv.waiting fun _ hwaits => hwaits.disturb
      · exact forall_mem_map_disturb hinv.current fun _ hruns => hruns.disturb rfl rfl
      · simp only [List.map_append, map_request_disturb]
        simpa using hinv.law.conserved
  | accepted request hdecoded hrequest hfree =>
      have haccepted : (glsRacpWrite gls data offset).map Prod.fst = some (data.length : Int) := by
        rw [hwrite]
        rfl
      rw [if_pos hdecoded, if_pos haccepted]
      refine ⟨⟨hsound.db, fun _ => hdecoded.1, hsound.operator, hsound.idx, hsound.sleeping⟩, rfl,
        ?_, ?_, ?_, ?_, ?_⟩
      · simpa using hinv.current_iff
      · rintro handling ⟨rfl⟩
        refine ⟨rfl, rfl, fun _ => hrequest, fun _ => ?_⟩
        rw [← hrequest]
        exact hfree
      · exact forall_mem_map_disturb hinv.current fun _ hruns => hruns.disturb rfl rfl
      · intro handling hmem
        rcases List.mem_append.mp hmem with hold | hnew
        · exact hinv.law.finished handling hold
        · exact forall_mem_map_disturb hinv.waiting (fun _ hwaits => hwaits.accounted) handling
            (by simpa using hnew)
      -- the request that waited is finished, the new one waits in its place
      · have hswap : ((ledger.finished ++ (ledger.waiting.toList ++ ledger.current.toList)).map
            Handling.request).Perm ledger.accepted := by
          refine List.Perm.trans ?_ hinv.law.conserved
          rw [List.append_assoc]
          exact ((List.perm_append_comm).append_left _).map _
        simp only [List.map_append, map_request_disturb, Option.toList_some, List.map_singleton]
        simp only [List.map_append, ← List.append_assoc] at hswap
        exact hswap.append_right _

/-- The work item answers the request it found, leaves it to the report loop, or ignores
it, which does not happen to one that waited undisturbed. -/
theorem handle_spec {base next : Gls} {handling : Handling} (hsound : Sound base)
    (hccc : base.racpCcc = true) (hidle : base.workQueue = .idle)
    (hwaits : Waits base handling) (hcase : HandleCase base next) :
    Sound next ∧
      (next.workQueue = .idle → Accounted (handling.taken base next)) ∧
      (next.workQueue ≠ .idle → Runs next (handling.taken base next)) := by
  have hown : handling.disturbed = false →
      some base.glsRacpRequest.request = some handling.request := by
    intro hdisturbed
    rw [hwaits.request hdisturbed]
  cases hcase with
  | report hopcode hoperator =>
      refine ⟨⟨hsound.db, fun _ => hccc, fun _ => hoperator, fun _ _ _ => Nat.zero_le _, nofun⟩,
        nofun, fun _ => ?_⟩
      have hnone : (handling.taken base
          (reportRecordsRequestExecute base base.glsRacpRequest)).answers = [] :=
        newIndications_of_eq rfl
      refine ⟨by simp [hnone], fun hanswers => absurd hnone hanswers, hown, ?_, ?_, ?_⟩
      · intro hdisturbed
        exact (congrArg Request.opcode (hwaits.request hdisturbed)).symm.trans hopcode
      · simp [hnone]
      · intro _ hblocked _ _
        exact ⟨rfl, hopcode, hblocked⟩
  | response db racpState racp hdb hanswers =>
      obtain ⟨hqueue, -, -, -⟩ := racpSend_frame { base with db, racpState } racp
      have hnext : Sound { base with db, racpState } := by
        refine ⟨hdb, hsound.ccc, absurd hidle, fun hbusy => absurd hidle hbusy, ?_⟩
        intro hsleeping
        exact absurd (hidle.symm.trans hsleeping) (by decide)
      refine ⟨hnext.send racp, fun _ => ?_, fun hbusy => absurd (hqueue.trans hidle) hbusy⟩
      have hopcode : handling.disturbed = false →
          handling.request.opcode = base.glsRacpRequest.opcode := by
        intro hdisturbed
        exact (congrArg Request.opcode (hwaits.request hdisturbed)).symm
      rcases newIndications_send base { base with db, racpState } hccc rfl racp with
        ⟨hbusy, hnone⟩ | ⟨hfree, hone⟩
      -- the response was kept back by an outstanding indication
      · refine ⟨by simp [Handling.taken, hnone], hown, by simp [Handling.taken, hnone], ?_⟩
        intro _ hblocked _
        exact absurd (hblocked.symm.trans hbusy) (by decide)
      · refine ⟨by simp [Handling.taken, hone], hown, ?_, by simp [Handling.taken, hone]⟩
        intro hdisturbed value hvalue
        simp only [Handling.taken, hone, List.mem_singleton] at hvalue
        subst hvalue
        change Answers handling.request.opcode _
        rw [hopcode hdisturbed]
        exact hanswers
  | inProgress hopcode hstate =>
      refine ⟨hsound, fun _ => ?_, fun hbusy => absurd hidle hbusy⟩
      have hnone : (handling.taken base base).answers = [] := newIndications_of_eq rfl
      refine ⟨by simp [hnone], hown, by simp [hnone], ?_⟩
      intro hdisturbed _ _
      -- an undisturbed request was accepted with no procedure running, or is an abort
      rcases hwaits.free hdisturbed with habort | hfree
      · rw [← hwaits.request hdisturbed] at habort
        exact absurd habort hopcode
      · exact absurd hfree hstate

theorem racpInv_handle (hinv : RacpInv gls ledger) (hbounds : InBounds gls .racpHandle) :
    ∃ next, gls.step .racpHandle = some next ∧
      RacpInv next (ledger.note gls next .racpHandle) := by
  have hsound := hinv.sound
  by_cases henabled : gls.workPending = true ∧ gls.workQueue = .idle
  · obtain ⟨hpending, hidle⟩ := henabled
    obtain ⟨handling, hwaiting⟩ := Option.isSome_iff_exists.mp (hinv.waiting_iff.trans hpending)
    have hcurrent : ledger.current = none := by
      rw [← Option.not_isSome_iff_eq_none, hinv.current_iff, not_not]
      exact hidle
    obtain ⟨next, hhandle, hcase⟩ :=
      handleCase { gls with workPending := false } hsound.db (hbounds ⟨hpending, hidle⟩)
    have hbase : Sound { gls with workPending := false } :=
      ⟨hsound.db, fun _ => hsound.ccc (.inl hpending), hsound.operator, hsound.idx,
        hsound.sleeping⟩
    obtain ⟨hnext, haccounted, hruns⟩ := handle_spec hbase (hsound.ccc (.inl hpending))
      hidle ((hinv.waiting handling hwaiting).of_eq rfl (.inl rfl)) hcase
    refine ⟨next, ?_, ?_⟩
    · rw [Gls.step, if_pos ⟨hpending, hidle⟩]
      exact hhandle
    · rw [Ledger.note, hwaiting]
      dsimp only
      rw [if_pos ⟨hpending, hidle⟩]
      refine RacpInv.proceed hnext hcase.workPending.symm (fun other hother => by cases hother)
        hinv.law.finished ?_ haccounted hruns
      have hconserved := hinv.law.conserved
      rw [hwaiting, hcurrent] at hconserved
      simpa [Handling.taken] using hconserved
  · refine ⟨gls, by rw [Gls.step, if_neg henabled], ?_⟩
    rw [Ledger.note]
    split
    next => rw [if_neg henabled]; exact hinv
    next => exact hinv

/-- A report that sends no indication in this step. -/
theorem Runs.quiet {next : Gls} {handling : Handling} {failed : Bool} (hruns : Runs gls handling)
    (hquiet : next.indications = gls.indications) (hnone : handling.answers = [])
    (hgoing : failed = false → next.racpState = gls.racpState ∧
      next.glsRacpRequest = gls.glsRacpRequest ∧ next.racpIndicating = gls.racpIndicating) :
    Runs next (handling.continued gls next failed) := by
  have hanswers : (handling.continued gls next failed).answers = [] := by
    rw [Handling.continued, newIndications_of_eq hquiet, hnone]
    rfl
  refine ⟨by simp [hanswers], absurd hanswers, hruns.own, hruns.report, by simp [hanswers], ?_⟩
  intro hdisturbed hblocked hfailed _
  obtain ⟨hold, hnew⟩ := Bool.or_eq_false_iff.mp hfailed
  obtain ⟨hstate, hrequest, hindicating⟩ := hgoing hnew
  rw [hstate, hrequest, hindicating]
  exact hruns.going hdisturbed hblocked hold hnone

/-- A report that sends its response: only an outstanding indication can keep it back. -/
theorem Runs.respond {base : Gls} {handling : Handling} {racp : GlsRacp} {failed : Bool}
    (hruns : Runs gls handling) (hnone : handling.answers = []) (hccc : base.racpCcc = true)
    (hindications : base.indications = gls.indications)
    (hindicating : base.racpIndicating = gls.racpIndicating)
    (hqueue : base.workQueue = .looping) (hstate : base.racpState = .noComm)
    (hvalue : Answers racpOpcodeReportRecs (glsRacpEncode racp)) :
    Runs (racpSend base racp) (handling.continued gls (racpSend base racp) failed) := by
  obtain ⟨hqueue', -, hstate', -⟩ := racpSend_frame base racp
  have hlast : (racpSend base racp).workQueue = .looping ∧
      (racpSend base racp).racpState = .noComm :=
    ⟨hqueue'.trans hqueue, hstate'.trans hstate⟩
  rcases newIndications_send gls base hccc hindications racp with ⟨hbusy, hsent⟩ | ⟨hfree, hsent⟩
  · have hanswers : (handling.continued gls (racpSend base racp) failed).answers = [] := by
      rw [Handling.continued, hsent, hnone]
      rfl
    refine ⟨by simp [hanswers], absurd hanswers, hruns.own, hruns.report, by simp [hanswers], ?_⟩
    intro hdisturbed hblocked hfailed _
    obtain ⟨-, -, hidle⟩ :=
      hruns.going hdisturbed hblocked (Bool.or_eq_false_iff.mp hfailed).1 hnone
    exact absurd ((hbusy.symm.trans hindicating).trans hidle) (by decide)
  · have hanswers : (handling.continued gls (racpSend base racp) failed).answers =
        [glsRacpEncode racp] := by
      rw [Handling.continued, hsent, hnone]
      rfl
    refine ⟨by simp [hanswers], fun _ => hlast, hruns.own, hruns.report, ?_, ?_⟩
    · intro hdisturbed value hmem
      rw [hanswers, List.mem_singleton] at hmem
      subst hmem
      change Answers handling.request.opcode _
      rw [hruns.report hdisturbed]
      exact hvalue
    · intro _ _ _ hempty
      rw [hanswers] at hempty
      cases hempty

/-- A report whose loop ends has been answered, unless it was stopped. -/
theorem Runs.accounted {next : Gls} {handling : Handling} {failed : Bool}
    (hruns : Runs gls handling) (hquiet : next.indications = gls.indications)
    (hstop : gls.racpState ≠ .racpProcActive ∨
      gls.glsRacpRequest.opcode ≠ racpOpcodeReportRecs) :
    Accounted (handling.continued gls next failed) := by
  have hanswers : (handling.continued gls next failed).answers = handling.answers := by
    rw [Handling.continued, newIndications_of_eq hquiet, List.append_nil]
  refine ⟨by rw [hanswers]; exact hruns.once, hruns.own, by rw [hanswers]; exact hruns.answers, ?_⟩
  intro hdisturbed hblocked hfailed hempty
  rw [hanswers] at hempty
  obtain ⟨hactive, hopcode, -⟩ :=
    hruns.going hdisturbed hblocked (Bool.or_eq_false_iff.mp hfailed).1 hempty
  rcases hstop with hstate | hrequest
  · exact hstate hactive
  · exact hrequest hopcode

/-- A running report that is still active has not been answered. -/
theorem Runs.answers_eq_nil {handling : Handling} (hruns : Runs gls handling)
    (hactive : gls.racpState = .racpProcActive) : handling.answers = [] := by
  by_contra hanswers
  rw [(hruns.last hanswers).2] at hactive
  cases hactive

/-- What a step of a running report keeps. -/
structure ReportKeeps (gls next : Gls) : Prop where
  sound : Sound next
  pending : next.workPending = gls.workPending
  request : next.glsRacpRequest = gls.glsRacpRequest
  state : next.racpState = gls.racpState ∨ next.racpState = .noComm

theorem loop_spec {next : Gls} {handling : Handling} {results : NotifyResults}
    (hsound : Sound gls) (hloop : gls.workQueue = .looping) (hruns : Runs gls handling)
    (hcase : LoopCase gls results next) :
    ReportKeeps gls next ∧
      (next.workQueue = .idle →
        Accounted (handling.continued gls next (reportFails gls results))) ∧
      (next.workQueue ≠ .idle →
        Runs next (handling.continued gls next (reportFails gls results))) := by
  have hbusy : gls.workQueue ≠ .idle := by
    rw [hloop]
    decide
  have hawake : gls.workQueue ≠ .sleeping := by
    rw [hloop]
    decide
  have hccc : gls.racpCcc = true := hsound.ccc (.inr hbusy)
  cases hcase with
  | exit hstop =>
      refine ⟨⟨⟨hsound.db, fun _ => hccc, nofun, nofun, nofun⟩, rfl, rfl, .inl rfl⟩, fun _ => ?_,
        nofun⟩
      exact hruns.accounted rfl hstop
  | sent idx reported notifications hactive hidx hreported =>
      refine ⟨⟨⟨hsound.db, fun _ => hccc, hsound.operator, ?_, ?_⟩, rfl, rfl, .inl rfl⟩,
        fun hidle => absurd hidle hbusy, fun _ => ?_⟩
      · exact fun _ _ hindexed => (hidx hindexed).2
      · exact fun hsleeping => absurd hsleeping hawake
      · exact hruns.quiet rfl (hruns.answers_eq_nil hactive) fun _ => ⟨rfl, rfl, rfl⟩
  | slept reported notifications hactive hoperator hidx =>
      refine ⟨⟨⟨hsound.db, fun _ => hccc, fun _ => hsound.operator hbusy, ?_, fun _ => hidx⟩, rfl,
        rfl, .inl rfl⟩, nofun, fun _ => ?_⟩
      · exact fun _ _ _ => hidx.le
      · exact hruns.quiet rfl (hruns.answers_eq_nil hactive) fun _ => ⟨rfl, rfl, rfl⟩
  | completed idx racp hactive hanswers =>
      obtain ⟨hqueue, hpending, hstate, hrequest⟩ :=
        racpSend_frame { gls with racpProcRecordIdx := idx, racpState := .noComm } racp
      have hnext : Sound { gls with racpProcRecordIdx := idx, racpState := .noComm } :=
        ⟨hsound.db, hsound.ccc, hsound.operator, nofun, fun hsleeping => absurd hsleeping hawake⟩
      refine ⟨⟨hnext.send racp, hpending, hrequest, .inr hstate⟩, ?_, fun _ => ?_⟩
      · exact fun hidle => absurd (hqueue.symm.trans hidle) hbusy
      · exact hruns.respond (hruns.answers_eq_nil hactive) hccc rfl rfl hloop rfl hanswers
  | failed idx reported notifications hactive hfails hresults =>
      refine ⟨⟨⟨hsound.db, fun _ => hccc, hsound.operator, nofun, ?_⟩, rfl, rfl, .inr rfl⟩,
        fun hidle => absurd hidle hbusy, fun _ => ?_⟩
      · exact fun hsleeping => absurd hsleeping hawake
      · refine hruns.quiet rfl (hruns.answers_eq_nil hactive) fun hok => ?_
        exact absurd (hfails.symm.trans hok) (by decide)

theorem wake_spec {next : Gls} {handling : Handling} (hsound : Sound gls)
    (hsleeping : gls.workQueue = .sleeping) (hruns : Runs gls handling)
    (hcase : WakeCase gls next) :
    ReportKeeps gls next ∧ next.workQueue ≠ .idle ∧
      Runs next (handling.continued gls next false) := by
  have hmax : gls.db.recordsNum.toNat ≤ 20 := hsound.db.recordsNum_le
  have hidx := hsound.sleeping hsleeping
  have hbusy : gls.workQueue ≠ .idle := by
    rw [hsleeping]
    decide
  have hccc : gls.racpCcc = true := hsound.ccc (.inr hbusy)
  -- a sleeping report has not been answered
  have hnone : handling.answers = [] := by
    by_contra hanswers
    exact absurd (hsleeping.symm.trans (hruns.last hanswers).1) (by decide)
  cases hcase with
  | next hactive =>
      refine ⟨⟨⟨hsound.db, fun _ => hccc, fun _ => hsound.operator hbusy, ?_, nofun⟩, rfl, rfl,
        .inl rfl⟩, nofun, hruns.quiet rfl hnone fun _ => ⟨rfl, rfl, rfl⟩⟩
      have hnext : (gls.racpProcRecordIdx + 1).toNat ≤ gls.db.recordsNum.toNat := by
        rw [uint8_toNat_succ (by omega)]
        omega
      exact fun _ _ _ => hnext
  | completed racp hstate hanswers =>
      obtain ⟨hqueue, hpending, hstate', hrequest⟩ :=
        racpSend_frame { gls with workQueue := .looping } racp
      have hnext : Sound { gls with workQueue := .looping } := by
        refine ⟨hsound.db, fun _ => hccc, fun _ => hsound.operator hbusy, ?_, nofun⟩
        intro _ hactive _
        exact absurd (hstate.symm.trans hactive) (by decide)
      refine ⟨⟨hnext.send racp, hpending, hrequest, .inl hstate'⟩, ?_, ?_⟩
      · rw [hqueue]
        nofun
      · exact hruns.respond hnone hccc rfl rfl rfl hstate hanswers

/-- The invariant after a step of a running report. -/
theorem RacpInv.continue {next : Gls} {handling : Handling} {failed : Bool}
    (hinv : RacpInv gls ledger) (hcurrent : ledger.current = some handling)
    (hkeeps : ReportKeeps gls next)
    (hidle : next.workQueue = .idle → Accounted (handling.continued gls next failed))
    (hrunning : next.workQueue ≠ .idle → Runs next (handling.continued gls next failed)) :
    RacpInv next (ledger.proceed (handling.continued gls next failed) next) := by
  refine RacpInv.proceed hkeeps.sound (hinv.waiting_iff.trans hkeeps.pending.symm) ?_
    hinv.law.finished ?_ hidle hrunning
  · intro other hother
    exact (hinv.waiting other hother).of_eq hkeeps.request hkeeps.state
  · have hconserved := hinv.law.conserved
    rw [hcurrent] at hconserved
    simpa [Handling.continued] using hconserved

theorem RacpInv.exists_current (hinv : RacpInv gls ledger) (hbusy : gls.workQueue ≠ .idle) :
    ∃ handling, ledger.current = some handling ∧ Runs gls handling := by
  obtain ⟨handling, hcurrent⟩ := Option.isSome_iff_exists.mp (hinv.current_iff.mpr hbusy)
  exact ⟨handling, hcurrent, hinv.current handling hcurrent⟩

theorem racpInv_loop (hinv : RacpInv gls ledger) (results : NotifyResults) :
    ∃ next, gls.step (.loop results) = some next ∧
      RacpInv next (ledger.note gls next (.loop results)) := by
  by_cases hloop : gls.workQueue = .looping
  · obtain ⟨handling, hcurrent, hruns⟩ := hinv.exists_current (by rw [hloop]; decide)
    obtain ⟨next, hnext, hcase⟩ := loopCase hinv.sound hloop results
    obtain ⟨hkeeps, hidle, hrunning⟩ := loop_spec hinv.sound hloop hruns hcase
    refine ⟨next, by rw [Gls.step, if_pos hloop, hnext], ?_⟩
    rw [Ledger.note, hcurrent]
    dsimp only
    rw [if_pos hloop]
    exact hinv.continue hcurrent hkeeps hidle hrunning
  · refine ⟨gls, by rw [Gls.step, if_neg hloop], ?_⟩
    rw [Ledger.note]
    split
    next => rw [if_neg hloop]; exact hinv
    next => exact hinv

theorem racpInv_wake (hinv : RacpInv gls ledger) :
    ∃ next, gls.step .wake = some next ∧ RacpInv next (ledger.note gls next .wake) := by
  by_cases hsleeping : gls.workQueue = .sleeping
  · obtain ⟨handling, hcurrent, hruns⟩ := hinv.exists_current (by rw [hsleeping]; decide)
    obtain ⟨hkeeps, hbusy, hrunning⟩ := wake_spec hinv.sound hsleeping hruns (wakeCase gls)
    refine ⟨racpReportRecordsWake gls, by rw [Gls.step, if_pos hsleeping], ?_⟩
    rw [Ledger.note, hcurrent]
    dsimp only
    rw [if_pos hsleeping]
    exact hinv.continue hcurrent hkeeps (absurd · hbusy) fun _ => hrunning
  · refine ⟨gls, by rw [Gls.step, if_neg hsleeping], ?_⟩
    rw [Ledger.note]
    split
    next => rw [if_neg hsleeping]; exact hinv
    next => exact hinv

theorem racpInv_indicateRsp (hinv : RacpInv gls ledger) :
    ∃ next, gls.step .indicateRsp = some next ∧ RacpInv next ledger := by
  have hsound := hinv.sound
  by_cases hindicating : gls.racpIndicating = true
  · refine ⟨glsIndicateRsp gls, by rw [Gls.step, if_pos hindicating], ?_⟩
    refine ⟨⟨hsound.db, hsound.ccc, hsound.operator, nofun, hsound.sleeping⟩, hinv.waiting_iff,
      hinv.current_iff, ?_, ?_, hinv.law⟩
    · intro handling hmem
      exact (hinv.waiting handling hmem).of_eq rfl (.inr rfl)
    · intro handling hmem
      have hruns := hinv.current handling hmem
      refine ⟨hruns.once, fun hanswers => ⟨(hruns.last hanswers).1, rfl⟩, hruns.own, hruns.report,
        hruns.answers, ?_⟩
      -- an unanswered report that was not blocked has no indication to be confirmed
      intro hdisturbed hblocked hfailed hanswers
      obtain ⟨-, -, hfree⟩ := hruns.going hdisturbed hblocked hfailed hanswers
      exact absurd (hindicating.symm.trans hfree) (by decide)
  · exact ⟨gls, by rw [Gls.step, if_neg hindicating], hinv⟩

theorem racpInv_measurement (hinv : RacpInv gls ledger) (record : GlsRecord) :
    ∃ next, gls.step (.measurement record) = some next ∧ RacpInv next ledger := by
  have hsound := hinv.sound
  have hgrows := Database.recordsNum_add (by decide) hsound.db record
  refine ⟨_, rfl, ⟨⟨hsound.db.add (by decide) record, hsound.ccc, hsound.operator, ?_, ?_⟩,
    hinv.waiting_iff, hinv.current_iff, ?_, ?_, hinv.law⟩⟩
  · intro hbusy hactive hindexed
    exact (hsound.idx hbusy hactive hindexed).trans hgrows
  · intro hsleeping
    exact (hsound.sleeping hsleeping).trans_le hgrows
  · intro handling hmem
    exact (hinv.waiting handling hmem).of_eq rfl (.inl rfl)
  · intro handling hmem
    have hruns := hinv.current handling hmem
    exact ⟨hruns.once, hruns.last, hruns.own, hruns.report, hruns.answers, hruns.going⟩

/-- Every step inside the bounds keeps the invariant. -/
theorem racpInv_step (hinv : RacpInv gls ledger) (action : GlsAction)
    (hbounds : InBounds gls action) :
    ∃ next, gls.step action = some next ∧ RacpInv next (ledger.note gls next action) := by
  cases action with
  | racpWrite data offset => exact racpInv_write hinv data offset hbounds
  | racpHandle => exact racpInv_handle hinv hbounds
  | loop results => exact racpInv_loop hinv results
  | wake => exact racpInv_wake hinv
  | indicateRsp => exact racpInv_indicateRsp hinv
  | measurement record => exact racpInv_measurement hinv record

theorem racpInv_init (racpCcc : Bool) (db : GlsDatabase) :
    RacpInv (glsInit racpCcc db) {} where
  sound := ⟨Database.consistent_init db, nofun, nofun, nofun, nofun⟩
  waiting_iff := rfl
  current_iff := by simp [glsInit]
  waiting := nofun
  current := nofun
  law := ⟨nofun, List.Perm.refl _⟩

end CubieBle.Gatt
