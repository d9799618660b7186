import CubieBle.Hal.IrcLearning
import CubieBle.Hal.IrcRecognition

/-! # The learn filter

A capture of less than twenty pulses is taken for a repeat code and discarded. Frames of the
bi-phase protocols can be shorter, as equal halves next to each other merge into one pulse.
-/

namespace CubieBle.Hal

open Machine

/-- The capture is what is stored for the key, and its success is reported. -/
structure CodeLearned (mask41 : UInt32) (maps : NvKeyMaps) (irc : Irc) (capture : Capture)
    (name : String) : Prop where
  stored : (ircHalEventHandle mask41 maps capture irc).stored name = some (capture.wave mask41)
  state : (ircHalEventHandle mask41 maps capture irc).curLearnState = .success
  notified : (ircHalEventHandle mask41 maps capture irc).notified = irc.notified ++ [.success]

/-- Learn mode, with a key selected that has a name. -/
structure AwaitsCode (maps : NvKeyMaps) (irc : Irc) (name : String) : Prop where
  mode : irc.swIrLearnMode = true
  selected : irc.hasSetLearnKey = true
  mapped : actsGetNvKeycode maps irc.curLearnKeycode = some name

/-- Learn mode is entered with a callback. -/
def Irc.HasCallback (irc : Irc) : Prop := irc.swIrLearnMode = true → irc.eventCb = true

section Callback

variable {mask41 : UInt32} {maps : NvKeyMaps} {irc : Irc}

theorem Irc.HasCallback.notifyApp (hcallback : irc.HasCallback) :
    (notifyApp irc).HasCallback := by
  rw [CubieBle.Hal.notifyApp]
  split
  next => exact hcallback
  next => exact hcallback

theorem Irc.HasCallback.disableRx (irc : Irc) : (ircDeviceDisableRx irc).HasCallback :=
  fun hmode => absurd hmode Bool.false_ne_true

theorem Irc.HasCallback.sendLearnKey (hcallback : irc.HasCallback) (keyCode : UInt32)
    (keyState : UInt8) : (ircDeviceSendLearnKey maps keyCode keyState irc).HasCallback := by
  rw [ircDeviceSendLearnKey]
  cases actsGetNvKeycode maps keyCode with
  | none => exact hcallback
  | some name =>
      dsimp only
      by_cases hmode : irc.swIrLearnMode = true
      · rw [if_pos hmode]
        split
        · exact Irc.HasCallback.notifyApp hcallback
        · exact hcallback
      · rw [if_neg hmode]
        exact hcallback

theorem Irc.HasCallback.handle (hcallback : irc.HasCallback) (capture : Capture) :
    (ircHalEventHandle mask41 maps capture irc).HasCallback := by
  rw [ircHalEventHandle]
  cases storeName maps irc capture with
  | none => exact hcallback
  | some name => exact Irc.HasCallback.notifyApp hcallback

theorem Irc.HasCallback.timeout (hcallback : irc.HasCallback) :
    (ircLearnTimeoutEvent irc).HasCallback := by
  unfold ircLearnTimeoutEvent
  extract_lets stopped left
  have hleft : left.HasCallback := by
    subst left
    split
    · exact Irc.HasCallback.disableRx stopped
    · exact hcallback
  split
  · exact Irc.HasCallback.notifyApp hleft
  · exact hleft

theorem Irc.HasCallback.exitLearnMode (hcallback : irc.HasCallback) :
    (ircDeviceExitLearnMode irc).HasCallback := by
  have hleft : ({ ircDeviceDisableRx irc with learnModeTimer := false } : Irc).HasCallback :=
    Irc.HasCallback.disableRx irc
  rw [ircDeviceExitLearnMode]
  dsimp only
  split
  · split
    · exact Irc.HasCallback.notifyApp hleft
    · exact hleft
  · exact hcallback

theorem Irc.HasCallback.step {irc : Irc} (hcallback : irc.HasCallback) (action : IrcAction) :
    (ircStep mask41 maps irc action).HasCallback := by
  cases action with
  | enableRx => exact fun _ => rfl
  | disableRx => exact Irc.HasCallback.disableRx _
  | sendLearnKey keyCode keyState => exact hcallback.sendLearnKey keyCode keyState
  | captured capture => exact hcallback.handle capture
  | learnTimeout =>
      rw [ircStep]
      split
      · exact hcallback.timeout
      · exact hcallback
  | exitLearnMode => exact hcallback.exitLearnMode

/-- In every state that a device reaches, learn mode has a callback. -/
theorem hasCallback_of_run (nvram : String → Option FlashPulseTab) (actions : List IrcAction) :
    (run (ircStep mask41 maps) (opened nvram) actions).HasCallback :=
  (throughout_of_step Irc.HasCallback
    (fun _ action hcallback => hcallback.step action)
    (fun hmode => absurd hmode Bool.false_ne_true) actions).last

end Callback

section Filter

variable {mask41 : UInt32} {maps : NvKeyMaps} {irc : Irc} {capture : Capture} {name : String}

/-- What the filter lets through is stored for the key. -/
theorem storeName_of_awaits (hawaits : AwaitsCode maps irc name)
    (hformat : capture.format = .pulseTab) :
    storeName maps irc capture =
      if capture.len.toNat < minFirstCodeNum then none else some name := by
  have hmode : ¬(¬irc.hasSetLearnKey ∨ ¬irc.swIrLearnMode) := by
    rw [hawaits.selected, hawaits.mode]
    decide
  rw [storeName, if_neg hmode, if_neg (not_not.mpr hformat), hawaits.mapped]

theorem codeLearned_iff (hcallback : irc.HasCallback) (hawaits : AwaitsCode maps irc name)
    (hformat : capture.format = .pulseTab) (hverdict : (capture.check mask41).1 = .success) :
    CodeLearned mask41 maps irc capture name ↔ minFirstCodeNum ≤ capture.len.toNat := by
  have hstore := storeName_of_awaits hawaits hformat
  constructor
  · intro hlearned
    by_contra hshort
    rw [if_pos (Nat.lt_of_not_le hshort)] at hstore
    have hsame : ircHalEventHandle mask41 maps capture irc = irc := by
      rw [ircHalEventHandle, hstore]
    have hnotified := hlearned.notified
    rw [hsame] at hnotified
    exact List.cons_ne_nil _ _ (List.self_eq_append_right.mp hnotified)
  · intro hlong
    rw [if_neg (Nat.not_lt.mpr hlong)] at hstore
    refine ⟨?_, ?_, ?_⟩
    · rw [stored_ircHalEventHandle mask41 hstore, if_pos rfl]
    · rw [ircHalEventHandle, hstore]
      dsimp only
      rw [notifyApp, if_pos (hcallback hawaits.mode)]
      exact hverdict
    · rw [ircHalEventHandle, hstore]
      dsimp only
      rw [notifyApp, if_pos (hcallback hawaits.mode), hverdict]

/-- Only the bi-phase protocols have frames that the filter discards. -/
theorem biphase_of_short (hverdict : (capture.check mask41).1 = .success)
    (hshort : capture.len.toNat < minFirstCodeNum) :
    isRc5Protocol capture.tab capture.len = some true ∨
      isRc6Protocol capture.tab capture.len = some true := by
  have hshort : capture.len.toNat < 20 := hshort
  have hother : ∀ protocol : PulseDistance, 20 ≤ protocol.tabLen → ∀ mask,
      protocol.recognise mask capture.tab capture.len = (false, capture.tab) := by
    intro protocol hlen mask
    exact PulseDistance.recognise_of_length_ne (by omega)
  have h50560 : is50560Protocol capture.tab capture.len = false := by
    have hlen : capture.len.toNat ≠ p50560.codeNum * 2 + 2 + 2 + 1 :=
      Nat.ne_of_lt (Nat.lt_trans hshort (by decide))
    rw [is50560Protocol, if_pos hlen]
  obtain ⟨rc5, hrc5⟩ :=
    Option.isSome_iff_exists.mp (isSome_isRc5Protocol capture.tab capture.fits)
  obtain ⟨rc6, hrc6⟩ :=
    Option.isSome_iff_exists.mp (isSome_isRc6Protocol capture.tab capture.fits)
  have hcheck : checkIrcWave mask41 capture.tab capture.len = some (capture.check mask41) :=
    (Option.some_get _).symm
  rw [checkIrcWave, isNecWave, hother nec (by decide)] at hcheck
  simp only [is9012Protocol, is7461Protocol, is50462Protocol, hother p9012 (by decide),
    hother p7461 (by decide), hother p50462 (by decide), h50560, hrc5, hrc6] at hcheck
  rw [hrc5, hrc6]
  cases rc5 with
  | true => exact .inl rfl
  | false =>
      cases rc6 with
      | true => exact .inr rfl
      | false =>
          have hfailed : capture.check mask41 = (.failed, capture.tab) :=
            (Option.some.inj hcheck).symm
          rw [hfailed] at hverdict
          exact IrLearn.noConfusion hverdict

end Filter

/-- In every state that a device reaches in learn mode, a recognised capture is learned exactly if
it has as many pulses as the filter asks for. -/
theorem recognised_learned_iff (mask41 : UInt32) (maps : NvKeyMaps)
    (nvram : String → Option FlashPulseTab) (actions : List IrcAction) (capture : Capture)
    (name : String)
    (hawaits :
      AwaitsCode maps (run (ircStep mask41 maps) (opened nvram) actions) name)
    (hformat : capture.format = .pulseTab) (hverdict : (capture.check mask41).1 = .success) :
    CodeLearned mask41 maps (run (ircStep mask41 maps) (opened nvram) actions) capture
        name ↔
      minFirstCodeNum ≤ capture.len.toNat :=
  codeLearned_iff (hasCallback_of_run nvram actions) hawaits hformat hverdict

/-- Learn mode with the power key selected. -/
def selectPower : List IrcAction := [.enableRx, .sendLearnKey 0x41 1]

/-- A waveform of NEC, as it was captured. -/
def necCapture : Capture := ⟨.pulseTab, nec.nominalWave 0x00FF02FD fun _ => 0, 67, by decide⟩

theorem recognised_learned_iff_nec :
    CodeLearned 0 oneKeyMap (run (ircStep 0 oneKeyMap) (opened powerStored) selectPower)
        necCapture "KEY_POWER" ↔
      minFirstCodeNum ≤ necCapture.len.toNat :=
  recognised_learned_iff 0 oneKeyMap powerStored selectPower necCapture "KEY_POWER"
    ⟨by decide, by decide, by decide⟩ rfl (by decide)

/-- An RC5 frame of thirteen single halves. -/
def shortRc5 : Capture := ⟨.pulseTab, fun _ => 844, 13, by decide⟩

/-- It is recognised, and taken for a repeat code. -/
theorem shortRc5_not_learned :
    (shortRc5.check 0).1 = .success ∧
      AwaitsCode oneKeyMap
        (run (ircStep 0 oneKeyMap) (opened powerStored) selectPower) "KEY_POWER" ∧
      ¬CodeLearned 0 oneKeyMap
        (run (ircStep 0 oneKeyMap) (opened powerStored) selectPower) shortRc5
        "KEY_POWER" := by
  refine ⟨by decide, ⟨by decide, by decide, by decide⟩, fun hlearned => ?_⟩
  have hnotified := hlearned.notified
  revert hnotified
  decide

end CubieBle.Hal
