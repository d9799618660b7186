import Mathlib.Data.List.Induction
import CubieBle.Machine.Alternation
import CubieBle.Machine.Run

/-! # Voice sessions

The callback of the voice key sets a flag for the report that opens or closes a session and
starts or stops the recording. The main loop sends the report when it gets to the message of
the key, or to a buffer that was recorded, whichever comes first.
-/

namespace CubieBle.Rcu

open Machine

/-! ## Data -/

/-- The reports: `REMOTE_KEY_VOICE_COMMAND`, `REMOTE_KEY_VOICE_COMMAND_END`, the release
0x0000, and the encoded data from an offset on. -/
inductive VoiceReport where
  | voiceCommand
  | voiceCommandEnd
  | release
  | voice (offset : Nat)
deriving DecidableEq

/-- The messages of the voice key and of the recorder. -/
inductive VoiceMsg where
  | keyInput (down : Bool)
  | audioInput
deriving DecidableEq

/-- What the stack answers while the main loop handles a message: whether each report is
taken, the reports of the data by their offset; and the number of bytes the encoder
returns, at most those of `encode_out_buffer`. -/
structure VoiceEnv where
  start : Bool
  startRelease : Bool
  stop : Bool
  stopRelease : Bool
  voice : Nat → Bool
  outLen : Fin 81

/-- `audio_cb` with the variables of other modules that it depends on, the messages, and the
reports that were sent. -/
structure Voice where
  sendStartFlag : Bool := false
  sendStopFlag : Bool := false
  needDropBufferCount : Nat := 0
  encoderInitFlag : Bool := false
  running : Bool := false
  btReadyFlag : Bool := false
  overlayReadyFlag : Bool := false
  rmcConnected : Bool := false
  pconn : Bool := false
  rmcSecurityReadyFlag : Bool := false
  msgs : List VoiceMsg := []
  reports : List VoiceReport := []
deriving DecidableEq

/-- Reports need an encrypted connection. -/
def Voice.linkReady (voice : Voice) : Bool := voice.pconn && voice.rmcSecurityReadyFlag

/-! ## Reports -/

/-- `hid_app_remote_report_event` and `hid_app_voice_report_event`: whether they return 0. -/
def hidAppReportEvent (taken : Bool) (report : VoiceReport) (voice : Voice) : Bool × Voice :=
  if voice.linkReady && taken then
    (true, { voice with reports := voice.reports ++ [report] })
  else (false, voice)

section Handlers

-- whether `CONFIG_ANDROID_TV_BOX` is defined
variable (tvBox : Bool)

/-- The report of a flag, and on a TV box the release after it; whether all were sent. -/
def reportFlag (taken releaseTaken : Bool) (report : VoiceReport) (voice : Voice) :
    Bool × Voice :=
  let (sent, voice) := hidAppReportEvent taken report voice
  if sent && tvBox then hidAppReportEvent releaseTaken .release voice else (sent, voice)

def audioSendStartFlag (env : VoiceEnv) (voice : Voice) : Voice :=
  let voice := { voice with encoderInitFlag := false }
  if voice.sendStartFlag then
    let (sent, voice) := reportFlag tvBox env.start env.startRelease .voiceCommand voice
    if sent then { voice with sendStartFlag := false } else voice
  else voice

def audioSendStopFlag (env : VoiceEnv) (voice : Voice) : Voice :=
  if voice.sendStopFlag then
    let (sent, voice) := reportFlag tvBox env.stop env.stopRelease .voiceCommandEnd voice
    if sent then { voice with sendStopFlag := false } else voice
  else voice

/-- The offsets of the loop over the encoded data. -/
def voiceOffsets (outLen : Nat) : List Nat :=
  (List.range ((outLen + 19) / 20)).map fun chunk => chunk * 20

def sendVoice (env : VoiceEnv) (voice : Voice) : Voice :=
  (voiceOffsets env.outLen).foldl
    (fun voice offset => (hidAppReportEvent (env.voice offset) (.voice offset) voice).2) voice

def systemAudioEventHandle (env : VoiceEnv) (voice : Voice) : Voice :=
  if !voice.rmcConnected then voice
  else
    let voice := audioSendStartFlag tvBox env voice
    if voice.needDropBufferCount ≠ 0 then
      { voice with needDropBufferCount := voice.needDropBufferCount - 1 }
    else audioSendStopFlag tvBox env (sendVoice env voice)

/-- `is_need_deliver_to_app` for the voice key. -/
def voiceKeyHandle (env : VoiceEnv) (down : Bool) (voice : Voice) : Voice :=
  if voice.rmcConnected && voice.rmcSecurityReadyFlag then
    if down then audioSendStartFlag tvBox env voice else audioSendStopFlag tvBox env voice
  else voice

/-- The main loop handles its first message. -/
def mainLoop (env : VoiceEnv) (voice : Voice) : Voice :=
  match voice.msgs with
  | [] => voice
  | .keyInput down :: rest =>
      let voice := { voice with msgs := rest }
      if voice.btReadyFlag then voiceKeyHandle tvBox env down voice else voice
  | .audioInput :: rest => systemAudioEventHandle tvBox env { voice with msgs := rest }

end Handlers

/-! ## Callbacks -/

/-- `started` is whether a buffer could be allocated for the recorder. -/
def startAudioCapture (started : Bool) (voice : Voice) : Voice :=
  if voice.overlayReadyFlag then
    { voice with
      encoderInitFlag := true
      sendStartFlag := true
      sendStopFlag := false
      needDropBufferCount := 4
      running := started || voice.running }
  else voice

def stopAudioCapture (voice : Voice) : Voice :=
  if voice.overlayReadyFlag then
    { voice with sendStopFlag := true, sendStartFlag := false, running := false }
  else voice

/-- A message is lost if the queue has no room for it. -/
def sendVoiceMsg (room : Bool) (msg : VoiceMsg) (voice : Voice) : Voice :=
  if room then { voice with msgs := voice.msgs ++ [msg] } else voice

inductive VoiceAction where
  | btReady
  | link (rmcConnected pconn rmcSecurityReadyFlag : Bool)
  | keyDown (started room : Bool)
  | keyUp (room : Bool)
  | recorded (room : Bool)
  | mainLoop (env : VoiceEnv)

def voiceStep (tvBox : Bool) (voice : Voice) : VoiceAction → Voice
  | .btReady => { voice with btReadyFlag := true, overlayReadyFlag := true }
  | .link rmcConnected pconn rmcSecurityReadyFlag =>
      { voice with
        rmcConnected := rmcConnected
        pconn := pconn
        rmcSecurityReadyFlag := rmcSecurityReadyFlag }
  | .keyDown started room =>
      sendVoiceMsg room (.keyInput true) (startAudioCapture started voice)
  | .keyUp room => sendVoiceMsg room (.keyInput false) (stopAudioCapture voice)
  | .recorded room => if voice.running then sendVoiceMsg room .audioInput voice else voice
  | .mainLoop env => mainLoop tvBox env voice

/-- Whether the last callback that took effect was that of the key going down. -/
def noteKey (voice : Voice) (action : VoiceAction) (held : Bool) : Bool :=
  match action with
  | .keyDown _ _ => voice.overlayReadyFlag || held
  | .keyUp _ => !voice.overlayReadyFlag && held
  | _ => held

abbrev VoiceRun := Tracked Voice Bool

def voiceRunStep (tvBox : Bool) : VoiceRun → VoiceAction → VoiceRun :=
  trackedStep (voiceStep tvBox) noteKey

/-! ## The contract -/

/-- The marks among the reports: sessions opened (`true`) and closed. -/
def sessionMark : VoiceReport → Option Bool
  | .voiceCommand => some true
  | .voiceCommandEnd => some false
  | .release => none
  | .voice _ => none

def sessionMarks (reports : List VoiceReport) : List Bool := reports.filterMap sessionMark

/-- A session is open after these reports. -/
def inSession (reports : List VoiceReport) : Bool := !awaited true (sessionMarks reports)

/-- Sessions are opened and closed in turn, and data is sent in open sessions only. -/
structure Framed (reports : List VoiceReport) : Prop where
  alternates : Alternates true (sessionMarks reports)
  inside : ∀ before offset after, reports = before ++ .voice offset :: after →
    inSession before = true

/-- The session that is due by the flags: it is to be closed, or it was opened for the key
that is held. -/
def Voice.sessionDue (voice : Voice) (held : Bool) : Bool :=
  voice.sendStopFlag || (held && !voice.sendStartFlag)

/-- The release after the report of a flag is sent whenever the report is. -/
def FlagsWhole (tvBox : Bool) (env : VoiceEnv) (voice : Voice) : Prop :=
  tvBox = true →
    (voice.sendStartFlag = true → env.start = true → env.startRelease = true) ∧
      (voice.sendStopFlag = true → env.stop = true → env.stopRelease = true)

/-- Data that is sent belongs to a session that is due, or is opened just before it. -/
def DataDue (env : VoiceEnv) (voice : Voice) (held : Bool) : Prop :=
  voice.msgs.head? = some .audioInput → voice.rmcConnected = true →
    voice.needDropBufferCount = 0 → voice.linkReady = true →
    (∃ offset ∈ voiceOffsets env.outLen, env.voice offset = true) →
    voice.sessionDue held = true ∨ held = true ∧ env.start = true

/-- The key goes down when it is up and the last session was closed, and it goes up when it
is down and its session was opened. -/
def OnTime (tvBox : Bool) (current : VoiceRun) : VoiceAction → Prop
  | .keyDown _ _ => current.state.overlayReadyFlag = true →
      current.history = false ∧ current.state.sendStopFlag = false
  | .keyUp _ => current.state.overlayReadyFlag = true →
      current.history = true ∧ current.state.sendStartFlag = false
  | .mainLoop env => FlagsWhole tvBox env current.state ∧ DataDue env current.state current.history
  | _ => True

instance (tvBox : Bool) (env : VoiceEnv) (voice : Voice) : Decidable (FlagsWhole tvBox env voice) :=
  inferInstanceAs (Decidable (_ → _ ∧ _))

instance (env : VoiceEnv) (voice : Voice) (held : Bool) : Decidable (DataDue env voice held) :=
  inferInstanceAs (Decidable (_ → _ → _ → _ → _ → _))

instance (tvBox : Bool) (current : VoiceRun) : ∀ action, Decidable (OnTime tvBox current action)
  | .keyDown _ _ => inferInstanceAs (Decidable (_ → _ ∧ _))
  | .keyUp _ => inferInstanceAs (Decidable (_ → _ ∧ _))
  | .mainLoop _ => inferInstanceAs (Decidable (_ ∧ _))
  | .btReady => inferInstanceAs (Decidable True)
  | .link _ _ _ => inferInstanceAs (Decidable True)
  | .recorded _ => inferInstanceAs (Decidable True)

/-! ## Framing -/

section Framing

variable {reports : List VoiceReport} {report : VoiceReport}

theorem sessionMarks_append_singleton (reports : List VoiceReport) (report : VoiceReport) :
    sessionMarks (reports ++ [report]) = sessionMarks reports ++ (sessionMark report).toList := by
  rw [sessionMarks, List.filterMap_append]
  cases hmark : sessionMark report with
  | none => simp [sessionMarks, hmark]
  | some mark => simp [sessionMarks, hmark]

theorem inSession_append_singleton (reports : List VoiceReport) (report : VoiceReport) :
    inSession (reports ++ [report]) = (sessionMark report).getD (inSession reports) := by
  rw [inSession, sessionMarks_append_singleton]
  cases sessionMark report with
  | none => simp [inSession]
  | some mark => simp

/-- A report that may come next: a mark that switches, or data in a session. -/
def Follows (session : Bool) : VoiceReport → Prop
  | .voiceCommand => session = false
  | .voiceCommandEnd => session = true
  | .release => True
  | .voice _ => session = true

theorem Framed.append_singleton (hframed : Framed reports)
    (hfollows : Follows (inSession reports) report) : Framed (reports ++ [report]) := by
  constructor
  · rw [sessionMarks_append_singleton]
    cases report with
    | voiceCommand =>
        refine alternates_append_singleton.mpr ⟨hframed.alternates, ?_⟩
        rw [Follows, inSession, Bool.not_eq_false'] at hfollows
        exact hfollows.symm
    | voiceCommandEnd =>
        refine alternates_append_singleton.mpr ⟨hframed.alternates, ?_⟩
        rw [Follows, inSession, Bool.not_eq_true'] at hfollows
        exact hfollows.symm
    | release => exact (List.append_nil (sessionMarks reports)).symm ▸ hframed.alternates
    | voice offset => exact (List.append_nil (sessionMarks reports)).symm ▸ hframed.alternates
  · intro before offset after hsplit
    -- the data is the new report, or it was there before
    cases after using List.reverseRecOn with
    | nil =>
        obtain ⟨rfl, hlast⟩ := List.append_inj' hsplit rfl
        obtain rfl := List.singleton_injective hlast
        exact hfollows
    | append_singleton after last _ =>
        rw [← List.cons_append, ← List.append_assoc] at hsplit
        exact hframed.inside before offset after (List.append_inj' hsplit rfl).1

theorem framed_nil : Framed [] := by
  constructor
  · trivial
  · intro before offset after hsplit
    simp at hsplit

end Framing

/-! ## The flags and the session -/

/-- The reports are framed, and the flags tell whether a session is open. -/
structure Voice.InStep (voice : Voice) (held : Bool) : Prop where
  framed : Framed voice.reports
  session : inSession voice.reports = voice.sessionDue held
  start : voice.sendStartFlag = true → held = true
  stop : voice.sendStopFlag = true → held = false

section Steps

variable {tvBox : Bool} {env : VoiceEnv} {voice : Voice} {held : Bool}

theorem Voice.InStep.not_stop (hstep : voice.InStep held) (hstart : voice.sendStartFlag = true) :
    voice.sendStopFlag = false := by
  rw [← Bool.not_eq_true]
  intro hstop
  exact Bool.false_ne_true ((hstep.stop hstop).symm.trans (hstep.start hstart))

/-- The reports of a flag. -/
def flagReports (tvBox : Bool) (report : VoiceReport) : List VoiceReport :=
  if tvBox then [report, .release] else [report]

theorem reportFlag_eq {taken releaseTaken : Bool} {report : VoiceReport}
    (hwhole : tvBox = true → taken = true → releaseTaken = true) :
    reportFlag tvBox taken releaseTaken report voice =
      if voice.linkReady && taken then
        (true, { voice with reports := voice.reports ++ flagReports tvBox report })
      else (false, voice) := by
  rw [reportFlag, hidAppReportEvent]
  by_cases htaken : (voice.linkReady && taken) = true
  · rw [if_pos htaken, if_pos htaken]
    rw [Bool.and_eq_true] at htaken
    cases tvBox with
    | false => rfl
    | true =>
        have hready : Voice.linkReady { voice with reports := voice.reports ++ [report] } = true :=
          htaken.1
        simp [hidAppReportEvent, hready, hwhole rfl htaken.2, flagReports]
  · rw [if_neg htaken, if_neg htaken]
    rfl

theorem framed_append_flagReports {reports : List VoiceReport} {report : VoiceReport}
    (hframed : Framed reports) (hfollows : Follows (inSession reports) report) :
    Framed (reports ++ flagReports tvBox report) := by
  have hfirst := hframed.append_singleton hfollows
  cases tvBox with
  | false => exact hfirst
  | true =>
      have hsecond : Framed ((reports ++ [report]) ++ [.release]) :=
        hfirst.append_singleton trivial
      rwa [List.append_assoc] at hsecond

theorem inSession_append_flagReports (reports : List VoiceReport) (report : VoiceReport) :
    inSession (reports ++ flagReports tvBox report) =
      (sessionMark report).getD (inSession reports) := by
  have hfirst := inSession_append_singleton reports report
  cases tvBox with
  | false => exact hfirst
  | true =>
      have hsecond := inSession_append_singleton (reports ++ [report]) .release
      rw [List.append_assoc] at hsecond
      exact hsecond.trans hfirst

theorem audioSendStartFlag_eq
    (hwhole : tvBox = true → voice.sendStartFlag = true → env.start = true →
      env.startRelease = true) :
    audioSendStartFlag tvBox env voice =
      if voice.sendStartFlag && (voice.linkReady && env.start) then
        { voice with
          encoderInitFlag := false
          sendStartFlag := false
          reports := voice.reports ++ flagReports tvBox .voiceCommand }
      else { voice with encoderInitFlag := false } := by
  have hready : Voice.linkReady { voice with encoderInitFlag := false } = voice.linkReady := rfl
  rw [audioSendStartFlag]
  dsimp only
  by_cases hstart : voice.sendStartFlag = true
  · rw [if_pos hstart, reportFlag_eq fun htv htaken => hwhole htv hstart htaken, hready]
    by_cases hsent : (voice.linkReady && env.start) = true
    · rw [if_pos hsent, if_pos (Bool.and_eq_true_iff.mpr ⟨hstart, hsent⟩)]
      rfl
    · rw [if_neg hsent, if_neg fun hboth => hsent (Bool.and_eq_true_iff.mp hboth).2]
      rfl
  · rw [if_neg hstart, if_neg fun hboth => hstart (Bool.and_eq_true_iff.mp hboth).1]

theorem audioSendStopFlag_eq
    (hwhole : tvBox = true → voice.sendStopFlag = true → env.stop = true →
      env.stopRelease = true) :
    audioSendStopFlag tvBox env voice =
      if voice.sendStopFlag && (voice.linkReady && env.stop) then
        { voice with
          sendStopFlag := false
          reports := voice.reports ++ flagReports tvBox .voiceCommandEnd }
      else voice := by
  rw [audioSendStopFlag]
  by_cases hstop : voice.sendStopFlag = true
  · rw [if_pos hstop, reportFlag_eq fun htv htaken => hwhole htv hstop htaken]
    by_cases hsent : (voice.linkReady && env.stop) = true
    · rw [if_pos hsent, if_pos (Bool.and_eq_true_iff.mpr ⟨hstop, hsent⟩)]
      rfl
    · rw [if_neg hsent, if_neg fun hboth => hsent (Bool.and_eq_true_iff.mp hboth).2]
      rfl
  · rw [if_neg hstop, if_neg fun hboth => hstop (Bool.and_eq_true_iff.mp hboth).1]

theorem inStep_audioSendStartFlag (hstep : voice.InStep held)
    (hwhole : tvBox = true → voice.sendStartFlag = true → env.start = true →
      env.startRelease = true) :
    (audioSendStartFlag tvBox env voice).InStep held := by
  rw [audioSendStartFlag_eq hwhole]
  split
  next hsent =>
    rw [Bool.and_eq_true] at hsent
    have hheld := hstep.start hsent.1
    have hclosed : inSession voice.reports = false := by
      rw [hstep.session, Voice.sessionDue, hstep.not_stop hsent.1, hsent.1]
      simp
    refine ⟨framed_append_flagReports hstep.framed hclosed, ?_, Bool.noConfusion, hstep.stop⟩
    refine (inSession_append_flagReports voice.reports .voiceCommand).trans ?_
    simp [Voice.sessionDue, sessionMark, hheld]
  next => exact ⟨hstep.framed, hstep.session, hstep.start, hstep.stop⟩

theorem inStep_audioSendStopFlag (hstep : voice.InStep held)
    (hwhole : tvBox = true → voice.sendStopFlag = true → env.stop = true →
      env.stopRelease = true) :
    (audioSendStopFlag tvBox env voice).InStep held := by
  rw [audioSendStopFlag_eq hwhole]
  split
  next hsent =>
    rw [Bool.and_eq_true] at hsent
    have hheld := hstep.stop hsent.1
    have hopen : inSession voice.reports = true := by
      rw [hstep.session, Voice.sessionDue, hsent.1, Bool.true_or]
    refine ⟨framed_append_flagReports hstep.framed hopen, ?_, hstep.start, Bool.noConfusion⟩
    refine (inSession_append_flagReports voice.reports .voiceCommandEnd).trans ?_
    simp [Voice.sessionDue, sessionMark, hheld]
  next => exact hstep

/-- Data is sent in a session that is due. -/
theorem inStep_sendVoice (offsets : List Nat) (hstep : voice.InStep held)
    (hdue : voice.linkReady = true → (∃ offset ∈ offsets, env.voice offset = true) →
      voice.sessionDue held = true) :
    Voice.InStep (offsets.foldl
      (fun voice offset => (hidAppReportEvent (env.voice offset) (.voice offset) voice).2)
      voice) held := by
  induction offsets generalizing voice with
  | nil => exact hstep
  | cons offset rest ih =>
      rw [List.foldl_cons]
      rw [hidAppReportEvent]
      by_cases htaken : (voice.linkReady && env.voice offset) = true
      · rw [if_pos htaken]
        rw [Bool.and_eq_true] at htaken
        have hopen := hdue htaken.1 ⟨offset, List.mem_cons_self, htaken.2⟩
        have hsame : inSession (voice.reports ++ [.voice offset]) = inSession voice.reports :=
          inSession_append_singleton voice.reports (.voice offset)
        refine ih ⟨?_, hsame.trans hstep.session, hstep.start, hstep.stop⟩ fun _ _ => hopen
        exact hstep.framed.append_singleton (hstep.session.trans hopen)
      · rw [if_neg htaken]
        refine ih hstep fun hready hsome => hdue hready ?_
        obtain ⟨other, hother, hsent⟩ := hsome
        exact ⟨other, List.mem_cons_of_mem offset hother, hsent⟩

/-- The session is due after the attempt to open it. -/
theorem sessionDue_audioSendStartFlag
    (hwhole : tvBox = true → voice.sendStartFlag = true → env.start = true →
      env.startRelease = true)
    (hlink : voice.linkReady = true)
    (hdue : voice.sessionDue held = true ∨ held = true ∧ env.start = true) :
    (audioSendStartFlag tvBox env voice).sessionDue held = true := by
  rw [audioSendStartFlag_eq hwhole]
  split
  next =>
    rcases hdue with hdue | ⟨hheld, -⟩
    · rw [Voice.sessionDue, Bool.or_eq_true, Bool.and_eq_true] at hdue
      rcases hdue with hstop | ⟨hheld, -⟩
      · simp [Voice.sessionDue, hstop]
      · simp [Voice.sessionDue, hheld]
    · simp [Voice.sessionDue, hheld]
  next hsent =>
    rcases hdue with hdue | ⟨hheld, hstart⟩
    · exact hdue
    · have hflag : voice.sendStartFlag = false := by
        simpa [hlink, hstart] using hsent
      simp [Voice.sessionDue, hheld, hflag]

/-- The flag for closing the session stays while data is sent. -/
theorem sendVoice_sendStopFlag (env : VoiceEnv) (voice : Voice) :
    (sendVoice env voice).sendStopFlag = voice.sendStopFlag := by
  rw [sendVoice]
  generalize voiceOffsets env.outLen = offsets
  induction offsets generalizing voice with
  | nil => rfl
  | cons offset rest ih =>
      rw [List.foldl_cons, ih, hidAppReportEvent]
      split
      next => rfl
      next => rfl

theorem inStep_systemAudioEventHandle (hstep : voice.InStep held)
    (hwhole : FlagsWhole tvBox env voice)
    (hdata : voice.rmcConnected = true → voice.needDropBufferCount = 0 → voice.linkReady = true →
      (∃ offset ∈ voiceOffsets env.outLen, env.voice offset = true) →
      voice.sessionDue held = true ∨ held = true ∧ env.start = true) :
    (systemAudioEventHandle tvBox env voice).InStep held := by
  have hwholeStart : tvBox = true → voice.sendStartFlag = true → env.start = true →
      env.startRelease = true := fun htv => (hwhole htv).1
  have hstarted := inStep_audioSendStartFlag hstep hwholeStart
  rw [systemAudioEventHandle]
  split
  next => exact hstep
  next hconnected =>
    rw [Bool.not_eq_true', Bool.not_eq_false] at hconnected
    have hfields : (audioSendStartFlag tvBox env voice).needDropBufferCount =
          voice.needDropBufferCount ∧
        (audioSendStartFlag tvBox env voice).linkReady = voice.linkReady ∧
        (audioSendStartFlag tvBox env voice).sendStopFlag = voice.sendStopFlag := by
      rw [audioSendStartFlag_eq hwholeStart]
      split
      next => exact ⟨rfl, rfl, rfl⟩
      next => exact ⟨rfl, rfl, rfl⟩
    obtain ⟨hdrop, hready, hstop⟩ := hfields
    dsimp only
    split
    next => exact ⟨hstarted.framed, hstarted.session, hstarted.start, hstarted.stop⟩
    next hcount =>
      rw [hdrop, not_not] at hcount
      apply inStep_audioSendStopFlag
      · apply inStep_sendVoice
        · exact hstarted
        · intro hlink hsome
          rw [hready] at hlink
          exact sessionDue_audioSendStartFlag hwholeStart hlink
            (hdata hconnected hcount hlink hsome)
      · intro htv hflag
        rw [sendVoice_sendStopFlag, hstop] at hflag
        exact (hwhole htv).2 hflag

theorem inStep_voiceKeyHandle (hstep : voice.InStep held) (hwhole : FlagsWhole tvBox env voice)
    (down : Bool) : (voiceKeyHandle tvBox env down voice).InStep held := by
  rw [voiceKeyHandle]
  split_ifs
  · exact inStep_audioSendStartFlag hstep fun htv => (hwhole htv).1
  · exact inStep_audioSendStopFlag hstep fun htv => (hwhole htv).2
  · exact hstep

theorem inStep_mainLoop (hstep : voice.InStep held) (hwhole : FlagsWhole tvBox env voice)
    (hdata : DataDue env voice held) : (mainLoop tvBox env voice).InStep held := by
  rw [mainLoop]
  cases hmsgs : voice.msgs with
  | nil => exact hstep
  | cons msg rest =>
      have htaken : Voice.InStep { voice with msgs := rest } held :=
        ⟨hstep.framed, hstep.session, hstep.start, hstep.stop⟩
      cases msg with
      | keyInput down =>
          dsimp only
          split
          next => exact inStep_voiceKeyHandle htaken hwhole down
          next => exact htaken
      | audioInput =>
          refine inStep_systemAudioEventHandle htaken hwhole ?_
          exact hdata (by rw [hmsgs]; rfl)

theorem inStep_sendVoiceMsg (hstep : voice.InStep held) (room : Bool) (msg : VoiceMsg) :
    (sendVoiceMsg room msg voice).InStep held := by
  rw [sendVoiceMsg]
  split
  next => exact ⟨hstep.framed, hstep.session, hstep.start, hstep.stop⟩
  next => exact hstep

theorem inStep_startAudioCapture (hstep : voice.InStep held) (started : Bool)
    (hup : voice.overlayReadyFlag = true → held = false ∧ voice.sendStopFlag = false) :
    (startAudioCapture started voice).InStep (voice.overlayReadyFlag || held) := by
  rw [startAudioCapture]
  by_cases hready : voice.overlayReadyFlag = true
  · rw [if_pos hready, hready]
    obtain ⟨hheld, hstop⟩ := hup hready
    refine ⟨hstep.framed, ?_, fun _ => rfl, Bool.noConfusion⟩
    refine hstep.session.trans ?_
    rw [Voice.sessionDue, hheld, hstop]
    rfl
  · rw [if_neg hready, Bool.eq_false_iff.mpr hready]
    exact hstep

theorem inStep_stopAudioCapture (hstep : voice.InStep held)
    (hdown : voice.overlayReadyFlag = true → held = true ∧ voice.sendStartFlag = false) :
    (stopAudioCapture voice).InStep (!voice.overlayReadyFlag && held) := by
  rw [stopAudioCapture]
  by_cases hready : voice.overlayReadyFlag = true
  · rw [if_pos hready, hready]
    obtain ⟨hheld, hstart⟩ := hdown hready
    refine ⟨hstep.framed, ?_, Bool.noConfusion, fun _ => rfl⟩
    refine hstep.session.trans ?_
    simp [Voice.sessionDue, hheld, hstart]
  · rw [if_neg hready, Bool.eq_false_iff.mpr hready]
    exact hstep

/-- A step on time keeps the flags in step with the session. -/
theorem inStep_voiceStep (hstep : voice.InStep held) {action : VoiceAction}
    (htime : OnTime tvBox ⟨voice, held⟩ action) :
    (voiceStep tvBox voice action).InStep (noteKey voice action held) := by
  cases action with
  | btReady => exact ⟨hstep.framed, hstep.session, hstep.start, hstep.stop⟩
  | link rmcConnected pconn security =>
      exact ⟨hstep.framed, hstep.session, hstep.start, hstep.stop⟩
  | keyDown started room =>
      exact inStep_sendVoiceMsg (inStep_startAudioCapture hstep started htime) room _
  | keyUp room => exact inStep_sendVoiceMsg (inStep_stopAudioCapture hstep htime) room _
  | recorded room =>
      rw [voiceStep]
      split
      next => exact inStep_sendVoiceMsg hstep room _
      next => exact hstep
  | mainLoop env => exact inStep_mainLoop hstep htime.1 htime.2

end Steps

theorem inStep_init : Voice.InStep {} false :=
  ⟨framed_nil, rfl, Bool.noConfusion, Bool.noConfusion⟩

/-- If every step of a run is on time, its reports are framed all along. -/
theorem framed_of_onTime (tvBox : Bool) (actions : List VoiceAction)
    (htime : Along (voiceRunStep tvBox) (OnTime tvBox) ⟨{}, false⟩ actions) :
    Throughout (voiceStep tvBox) (fun voice => Framed voice.reports) {} actions := by
  have hrun : Throughout (voiceRunStep tvBox)
      (fun current => current.state.InStep current.history) ⟨{}, false⟩ actions :=
    throughout_of_invariant _ (fun _ _ hstep => inStep_voiceStep hstep) inStep_init htime
  exact throughout_trackedStep.mp (hrun.imp fun _ hstep => hstep.framed)

/-- The stack takes every report, and a buffer gives one report of data. -/
def allTaken : VoiceEnv where
  start := true
  startRelease := true
  stop := true
  stopRelease := true
  voice _ := true
  outLen := 20

/-- The key is held for six buffers, and the main loop keeps up. -/
def wholeSession : List VoiceAction :=
  [.btReady, .link true true true, .keyDown true true, .mainLoop allTaken, .recorded true,
    .mainLoop allTaken, .recorded true, .mainLoop allTaken, .recorded true, .mainLoop allTaken,
    .recorded true, .mainLoop allTaken, .recorded true, .mainLoop allTaken, .recorded true,
    .keyUp true, .mainLoop allTaken, .mainLoop allTaken]

theorem framed_of_onTime_wholeSession :
    (run (voiceStep true) {} wholeSession).reports =
        [.voiceCommand, .release, .voice 0, .voice 0, .voiceCommandEnd, .release] ∧
      Throughout (voiceStep true) (fun voice => Framed voice.reports) {} wholeSession := by
  refine ⟨by decide, ?_⟩
  apply framed_of_onTime
  decide

/-- The key is down and up again before the main loop gets to its messages. -/
def quickTap : List VoiceAction :=
  [.btReady, .link true true true, .keyDown true true, .keyUp true, .mainLoop allTaken,
    .mainLoop allTaken]

/-- The session of a quick tap is closed and was never opened. -/
theorem quickTap_not_framed :
    (run (voiceStep true) {} quickTap).reports = [.voiceCommandEnd, .release] ∧
      ¬Throughout (voiceStep true) (fun voice => Framed voice.reports) {} quickTap := by
  refine ⟨by decide, ?_⟩
  intro hall
  have hmarks := hall.last.alternates
  revert hmarks
  decide

end CubieBle.Rcu
