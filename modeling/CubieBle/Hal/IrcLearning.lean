import CubieBle.Hal.IrcProtocol
import CubieBle.Machine.Run

/-! # Learned infrared codes

In learn mode a key press selects the key to learn, and the waveform captured next is kept
in nvram under the name of that key. Outside learn mode a press loads the waveform of the key
into the one static buffer and hands it to the transmitter.
-/

namespace CubieBle.Hal

/-- `acts_nv_key_maps`: the learn key codes of a board and their names in nvram. -/
structure NvKeyMaps where
  entries : List (UInt16 × String)
  distinct : (entries.map Prod.snd).Nodup

/-- `acts_get_nv_keycode`: the first entry with the code. -/
def actsGetNvKeycode (maps : NvKeyMaps) (keyCode : UInt32) : Option String :=
  (maps.entries.find? fun entry => entry.1.toUInt32 == keyCode).map Prod.snd

/-- A name belongs to one key. -/
theorem actsGetNvKeycode_inj {maps : NvKeyMaps} {first second : UInt32} {name : String}
    (hfirst : actsGetNvKeycode maps first = some name)
    (hsecond : actsGetNvKeycode maps second = some name) : first = second := by
  obtain ⟨entry, hentry, rfl⟩ := Option.map_eq_some_iff.mp hfirst
  obtain ⟨other, hother, hname⟩ := Option.map_eq_some_iff.mp hsecond
  have hsame : other = entry :=
    List.inj_on_of_nodup_map maps.distinct (List.mem_of_find?_eq_some hother)
      (List.mem_of_find?_eq_some hentry) hname
  have hcode := List.find?_some hentry
  have hcode' := List.find?_some hother
  rw [beq_iff_eq] at hcode hcode'
  rw [← hcode, ← hcode', hsame]

/-! ## Data -/

def maxPulseLen : Nat := 100
def minFirstCodeNum : Nat := 20
def irKeyDown : UInt8 := 1

inductive IrFormat where
  | p9012
  | nec
  | rc5
  | rc6
  | p50462
  | p7461
  | p50560
  | pulseTab
  | unknow
deriving DecidableEq

/-- `struct flash_pulse_tab_t`. -/
structure FlashPulseTab where
  tab : PulseTab
  len : UInt16

/-- The waveform in a table: as many entries as its length says. -/
def FlashPulseTab.wave (flash : FlashPulseTab) : List UInt16 :=
  (List.range flash.len.toNat).map flash.tab

/-- What the driver captured: the format it reports, and a table that fits its buffer. -/
structure Capture where
  format : IrFormat
  tab : PulseTab
  len : UInt16
  fits : len.toNat ≤ maxPulseLen

/-- What is handed to `irc_output_key`; `pulse` is `none` where the pointer is left
uninitialised. -/
structure IrOutput where
  code : UInt16
  value : UInt32
  pulse : Option (List UInt16)
deriving DecidableEq

/-- `struct irc_handle`, the static buffer, nvram as a map, and what was transmitted and
notified. -/
structure Irc where
  eventCb : Bool := false
  learnModeTimer : Bool := false
  curLearnKeycode : UInt32 := 0
  curLearnState : IrLearn := .success
  hasSetLearnKey : Bool := false
  swIrLearnMode : Bool := false
  state : UInt8 := 0
  flashPulseTab : FlashPulseTab := ⟨fun _ => 0, 0⟩
  nvram : String → Option FlashPulseTab
  outputs : List IrOutput := []
  notified : List IrLearn := []

/-! ## Operations -/

/-- Each use of the callback but one tests for it; learn mode is entered with one. -/
def notifyApp (irc : Irc) : Irc :=
  if irc.eventCb then { irc with notified := irc.notified ++ [irc.curLearnState] } else irc

def ircDeviceEnableRx (irc : Irc) : Irc :=
  { irc with
    eventCb := true
    swIrLearnMode := true
    curLearnKeycode := 0
    hasSetLearnKey := false
    learnModeTimer := true }

def ircDeviceDisableRx (irc : Irc) : Irc :=
  { irc with swIrLearnMode := false, curLearnKeycode := 0, hasSetLearnKey := false }

/-- `memcpy` of the captured entries: those of the buffer after them stay. -/
def copyPulses (buffer tab : PulseTab) (len : UInt16) : PulseTab := fun i =>
  if i < len.toNat then tab i else buffer i

section Handlers

variable (mask41 : UInt32) (maps : NvKeyMaps)

/-- `check_irc_wave` on a captured table, which ends. -/
def Capture.check (capture : Capture) : IrLearn × PulseTab :=
  (checkIrcWave mask41 capture.tab capture.len).get
    (isSome_checkIrcWave mask41 capture.fits capture.tab)

/-- The name under which the handler stores a capture, if it goes that far. -/
def storeName (irc : Irc) (capture : Capture) : Option String :=
  if ¬irc.hasSetLearnKey ∨ ¬irc.swIrLearnMode then none
  else if capture.format ≠ .pulseTab then none
  else
    match actsGetNvKeycode maps irc.curLearnKeycode with
    | none => none
    | some name => if capture.len.toNat < minFirstCodeNum then none else some name

def ircHalEventHandle (capture : Capture) (irc : Irc) : Irc :=
  match storeName maps irc capture with
  | none => irc
  | some name =>
      let (verdict, tab) := capture.check mask41
      let flash : FlashPulseTab :=
        ⟨copyPulses irc.flashPulseTab.tab tab capture.len, capture.len⟩
      notifyApp
        { irc with
          learnModeTimer := true
          curLearnState := verdict
          flashPulseTab := flash
          nvram := Function.update irc.nvram name (some flash)
          hasSetLearnKey := false }

def ircLearnTimeoutEvent (irc : Irc) : Irc :=
  let irc := { irc with learnModeTimer := false }
  let irc := if irc.swIrLearnMode then ircDeviceDisableRx irc else irc
  if irc.eventCb then notifyApp { irc with curLearnState := .timeout } else irc

/-- A failed `nvram_config_get` leaves the buffer as it was, and only the log is skipped. -/
def loadPulseTab (name : String) (irc : Irc) : FlashPulseTab :=
  (irc.nvram name).getD irc.flashPulseTab

def ircDeviceSendLearnKey (keyCode : UInt32) (keyState : UInt8) (irc : Irc) : Irc :=
  match actsGetNvKeycode maps keyCode with
  | none => irc
  | some name =>
      if irc.swIrLearnMode then
        if keyState = irKeyDown then
          notifyApp
            { irc with
              learnModeTimer := if irc.hasSetLearnKey then irc.learnModeTimer else true
              hasSetLearnKey := true
              curLearnKeycode := keyCode
              curLearnState := .ready }
        else irc
      else
        let flash := if keyState = irKeyDown then loadPulseTab name irc else irc.flashPulseTab
        let pulse := if keyState = irKeyDown then some flash.wave else none
        { irc with
          flashPulseTab := flash
          outputs := irc.outputs ++ [⟨keyCode.toUInt16, keyState.toUInt32, pulse⟩]
          state := keyState }

def ircDeviceExitLearnMode (irc : Irc) : Irc :=
  if irc.swIrLearnMode then
    let irc := { ircDeviceDisableRx irc with learnModeTimer := false }
    if irc.eventCb then notifyApp { irc with curLearnState := .timeout } else irc
  else irc

end Handlers

/-! ## Runs -/

inductive IrcAction where
  | enableRx
  | disableRx
  | sendLearnKey (keyCode : UInt32) (keyState : UInt8)
  | captured (capture : Capture)
  | learnTimeout
  | exitLearnMode

/-- For each key the waveform it learned last. -/
abbrev Learned := UInt32 → Option (List UInt16)

section Runs

variable (mask41 : UInt32) (maps : NvKeyMaps)

/-- The waveform a capture turns into. -/
def Capture.wave (capture : Capture) : List UInt16 :=
  FlashPulseTab.wave ⟨(capture.check mask41).2, capture.len⟩

def ircStep (irc : Irc) : IrcAction → Irc
  | .enableRx => ircDeviceEnableRx irc
  | .disableRx => ircDeviceDisableRx irc
  | .sendLearnKey keyCode keyState => ircDeviceSendLearnKey maps keyCode keyState irc
  | .captured capture => ircHalEventHandle mask41 maps capture irc
  | .learnTimeout => if irc.learnModeTimer then ircLearnTimeoutEvent irc else irc
  | .exitLearnMode => ircDeviceExitLearnMode irc

/-- A device that was just opened, with what nvram held before. -/
def opened (nvram : String → Option FlashPulseTab) : Irc := { nvram := nvram }

/-- A capture that is accepted for storing counts as learned by the selected key if its verdict
is one of those that count. -/
def noteCapture (counts : IrLearn → Prop) [DecidablePred counts] (irc : Irc)
    (action : IrcAction) (learned : Learned) : Learned :=
  match action with
  | .captured capture =>
      if (storeName maps irc capture).isSome ∧ counts (capture.check mask41).1 then
        Function.update learned irc.curLearnKeycode (some (capture.wave mask41))
      else learned
  | _ => learned

/-- The device beside what its keys have learned. -/
abbrev Learning := Machine.Tracked Irc Learned

abbrev learningStep (counts : IrLearn → Prop) [DecidablePred counts] :
    Learning → IrcAction → Learning :=
  Machine.trackedStep (ircStep mask41 maps) (noteCapture mask41 maps counts)

/-- No key has learned anything yet. -/
def openedLearning (nvram : String → Option FlashPulseTab) : Learning :=
  ⟨opened nvram, fun _ => none⟩

/-! ## The contract -/

/-- The waveform stored under a name. -/
def Irc.stored (irc : Irc) (name : String) : Option (List UInt16) :=
  (irc.nvram name).map FlashPulseTab.wave

/-- What is stored for a key is what it learned last, and before that what nvram held. -/
def KeepsLearned (nvram : String → Option FlashPulseTab) (learning : Learning) : Prop :=
  ∀ keyCode name, actsGetNvKeycode maps keyCode = some name →
    learning.state.stored name =
      (learning.history keyCode).or ((nvram name).map FlashPulseTab.wave)

/-- A press outside learn mode, of a key of the given kind, transmits the table stored for
the key. -/
def TransmitsStored (kind : Irc → String → Prop) (irc : Irc) : IrcAction → Prop
  | .sendLearnKey keyCode keyState =>
      ∀ name, actsGetNvKeycode maps keyCode = some name → irc.swIrLearnMode = false →
        keyState = irKeyDown → kind irc name →
        (ircStep mask41 maps irc (.sendLearnKey keyCode keyState)).outputs =
          irc.outputs ++ [⟨keyCode.toUInt16, keyState.toUInt32, irc.stored name⟩]
  | _ => True

/-- A run in which the stored codes are the captures that were recognised and every press
transmits its own. -/
def LearnsFaithfully (nvram : String → Option FlashPulseTab) (actions : List IrcAction) : Prop :=
  Machine.Throughout (learningStep mask41 maps (· = .success)) (KeepsLearned maps nvram)
      (openedLearning nvram) actions ∧
    Machine.Along (ircStep mask41 maps) (TransmitsStored mask41 maps fun _ _ => True)
      (opened nvram) actions

/-- A capture that would be stored is recognised, or is what the key has already; a key
pressed outside learn mode has a code. -/
def Recognised (irc : Irc) : IrcAction → Prop
  | .captured capture =>
      ∀ name, storeName maps irc capture = some name →
        (capture.check mask41).1 = .success ∨ irc.stored name = some (capture.wave mask41)
  | .sendLearnKey keyCode keyState =>
      ∀ name, actsGetNvKeycode maps keyCode = some name → irc.swIrLearnMode = false →
        keyState = irKeyDown → (irc.nvram name).isSome
  | _ => True

/-! ## What the operations do -/

@[simp] theorem notifyApp_nvram (irc : Irc) : (notifyApp irc).nvram = irc.nvram := by
  rw [notifyApp]
  split
  next => rfl
  next => rfl

variable {mask41 maps}

theorem ircLearnTimeoutEvent_nvram (irc : Irc) : (ircLearnTimeoutEvent irc).nvram = irc.nvram := by
  rw [ircLearnTimeoutEvent]
  dsimp only
  split_ifs
  all_goals simp [ircDeviceDisableRx]

theorem ircDeviceExitLearnMode_nvram (irc : Irc) :
    (ircDeviceExitLearnMode irc).nvram = irc.nvram := by
  rw [ircDeviceExitLearnMode]
  dsimp only
  split_ifs
  all_goals simp [ircDeviceDisableRx]

theorem ircDeviceSendLearnKey_nvram (keyCode : UInt32) (keyState : UInt8) (irc : Irc) :
    (ircDeviceSendLearnKey maps keyCode keyState irc).nvram = irc.nvram := by
  rw [ircDeviceSendLearnKey]
  cases actsGetNvKeycode maps keyCode with
  | none => rfl
  | some name =>
      dsimp only
      split_ifs
      all_goals simp

/-- Only a capture writes nvram. -/
theorem ircStep_nvram_of_not_captured (mask41 : UInt32) (maps : NvKeyMaps) (irc : Irc)
    {action : IrcAction} (hother : ∀ capture, action ≠ .captured capture) :
    (ircStep mask41 maps irc action).nvram = irc.nvram := by
  cases action with
  | enableRx => rfl
  | disableRx => rfl
  | sendLearnKey keyCode keyState => exact ircDeviceSendLearnKey_nvram keyCode keyState irc
  | captured capture => exact absurd rfl (hother capture)
  | learnTimeout =>
      rw [ircStep]
      split
      next => exact ircLearnTimeoutEvent_nvram irc
      next => rfl
  | exitLearnMode => exact ircDeviceExitLearnMode_nvram irc

theorem actsGetNvKeycode_of_storeName {irc : Irc} {capture : Capture} {name : String}
    (hstore : storeName maps irc capture = some name) :
    actsGetNvKeycode maps irc.curLearnKeycode = some name := by
  rw [storeName] at hstore
  cases hname : actsGetNvKeycode maps irc.curLearnKeycode with
  | none => simp [hname] at hstore
  | some found =>
      simp only [hname] at hstore
      split_ifs at hstore
      exact hstore

/-- The entries after the length do not belong to the waveform. -/
theorem wave_copyPulses (buffer tab : PulseTab) (len : UInt16) :
    FlashPulseTab.wave ⟨copyPulses buffer tab len, len⟩ = FlashPulseTab.wave ⟨tab, len⟩ := by
  apply List.map_congr_left
  intro i hi
  exact if_pos (List.mem_range.mp hi)

/-- The handler stores the waveform of the capture, whatever the verdict. -/
theorem stored_ircHalEventHandle (mask41 : UInt32) {irc : Irc} {capture : Capture} {name : String}
    (hstore : storeName maps irc capture = some name) (other : String) :
    (ircHalEventHandle mask41 maps capture irc).stored other =
      if other = name then some (capture.wave mask41) else irc.stored other := by
  rw [ircHalEventHandle, hstore, Irc.stored]
  dsimp only
  rw [notifyApp_nvram]
  dsimp only
  by_cases hother : other = name
  · rw [if_pos hother, hother, Function.update_self, Option.map_some, wave_copyPulses]
    rfl
  · rw [if_neg hother, Function.update_of_ne hother]
    rfl

/-! ## Steps -/

variable {counts : IrLearn → Prop} [DecidablePred counts] {learning : Learning}
  {nvram : String → Option FlashPulseTab}

/-- Only a capture counts as learned. -/
theorem noteCapture_of_not_captured (irc : Irc) (learned : Learned) {action : IrcAction}
    (hother : ∀ capture, action ≠ .captured capture) :
    noteCapture mask41 maps counts irc action learned = learned := by
  cases action with
  | captured capture => exact absurd rfl (hother capture)
  | _ => rfl

/-- A capture that counts is what its key has learned and what is stored for it; the other keys
are as they were. -/
theorem keepsLearned_of_counted (hkeeps : KeepsLearned maps nvram learning) {capture : Capture}
    {name : String} (hstore : storeName maps learning.state capture = some name)
    (hverdict : counts (capture.check mask41).1) :
    KeepsLearned maps nvram (learningStep mask41 maps counts learning (.captured capture)) := by
  have hselected := actsGetNvKeycode_of_storeName hstore
  have hlearned : noteCapture mask41 maps counts learning.state (.captured capture)
      learning.history = Function.update learning.history learning.state.curLearnKeycode
        (some (capture.wave mask41)) := by
    rw [noteCapture, hstore]
    exact if_pos ⟨rfl, hverdict⟩
  intro keyCode other hother
  rw [learningStep, Machine.trackedStep, hlearned, ircStep, stored_ircHalEventHandle mask41 hstore]
  dsimp only
  by_cases hkey : keyCode = learning.state.curLearnKeycode
  · have hname : other = name := by
      rw [hkey, hselected] at hother
      exact (Option.some.inj hother).symm
    rw [if_pos hname, hkey, Function.update_self]
    rfl
  · have hname : other ≠ name := by
      rintro rfl
      exact hkey (actsGetNvKeycode_inj hother hselected)
    rw [if_neg hname, Function.update_of_ne hkey]
    exact hkeeps keyCode other hother

/-- With a capture that does not count the key has learned nothing, and the capture is stored all
the same. -/
theorem keepsLearned_uncounted_iff (hkeeps : KeepsLearned maps nvram learning)
    {capture : Capture} {name : String}
    (hstore : storeName maps learning.state capture = some name)
    (hverdict : ¬counts (capture.check mask41).1) :
    KeepsLearned maps nvram (learningStep mask41 maps counts learning (.captured capture)) ↔
      learning.state.stored name = some (capture.wave mask41) := by
  have hselected := actsGetNvKeycode_of_storeName hstore
  have hstored := stored_ircHalEventHandle mask41 hstore
  have hlearned : noteCapture mask41 maps counts learning.state (.captured capture)
      learning.history = learning.history := by
    rw [noteCapture]
    exact if_neg fun hboth => hverdict hboth.2
  rw [learningStep, Machine.trackedStep, hlearned, ircStep]
  constructor
  · intro hafter
    have hnow := hafter _ name hselected
    rw [hstored, if_pos rfl] at hnow
    rw [hkeeps _ name hselected, ← hnow]
  · intro hrepeat keyCode other hother
    rw [hstored]
    dsimp only
    by_cases hname : other = name
    · rw [if_pos hname, ← hrepeat, ← hname]
      exact hkeeps keyCode other hother
    · rw [if_neg hname]
      exact hkeeps keyCode other hother

/-- A capture keeps the contract exactly if it is not stored, counts, or repeats what the key
has. -/
theorem keepsLearned_captured_iff (hkeeps : KeepsLearned maps nvram learning) (capture : Capture) :
    KeepsLearned maps nvram (learningStep mask41 maps counts learning (.captured capture)) ↔
      ∀ name, storeName maps learning.state capture = some name →
        counts (capture.check mask41).1 ∨
          learning.state.stored name = some (capture.wave mask41) := by
  cases hstore : storeName maps learning.state capture with
  | none =>
      have hsame : learningStep mask41 maps counts learning (.captured capture) = learning := by
        rw [learningStep, Machine.trackedStep, ircStep, ircHalEventHandle, noteCapture, hstore,
          if_neg (by simp)]
      rw [hsame]
      exact iff_of_true hkeeps fun name hname => absurd hname (by simp)
  | some name =>
      by_cases hverdict : counts (capture.check mask41).1
      · exact iff_of_true (keepsLearned_of_counted hkeeps hstore hverdict)
          fun _ _ => .inl hverdict
      · rw [keepsLearned_uncounted_iff hkeeps hstore hverdict]
        constructor
        · intro hrepeat found hfound
          obtain rfl := Option.some.inj hfound
          exact .inr hrepeat
        · intro hcounted
          exact (hcounted name rfl).resolve_left hverdict

theorem keepsLearned_of_not_captured (hkeeps : KeepsLearned maps nvram learning)
    {action : IrcAction} (hother : ∀ capture, action ≠ .captured capture) :
    KeepsLearned maps nvram (learningStep mask41 maps counts learning action) := by
  intro keyCode name hname
  rw [learningStep, Machine.trackedStep, Irc.stored,
    ircStep_nvram_of_not_captured mask41 maps _ hother, noteCapture_of_not_captured _ _ hother]
  exact hkeeps keyCode name hname

/-- A press transmits the buffer, which is the stored table only if there is one. -/
theorem outputs_sendLearnKey_iff {irc : Irc} {keyCode : UInt32} {name : String}
    (hname : actsGetNvKeycode maps keyCode = some name) (hmode : irc.swIrLearnMode = false) :
    (ircStep mask41 maps irc (.sendLearnKey keyCode irKeyDown)).outputs =
        irc.outputs ++ [⟨keyCode.toUInt16, irKeyDown.toUInt32, irc.stored name⟩] ↔
      (irc.nvram name).isSome := by
  have houtputs : (ircStep mask41 maps irc (.sendLearnKey keyCode irKeyDown)).outputs =
      irc.outputs ++
        [⟨keyCode.toUInt16, irKeyDown.toUInt32, some (loadPulseTab name irc).wave⟩] := by
    rw [ircStep, ircDeviceSendLearnKey, hname]
    simp [hmode]
  rw [houtputs, List.append_cancel_left_eq, List.cons.injEq, and_iff_left rfl, IrOutput.mk.injEq,
    Irc.stored, loadPulseTab]
  cases irc.nvram name with
  | none => simp
  | some flash => simp

theorem transmitsStored_sendLearnKey_iff (irc : Irc) (keyCode : UInt32) (keyState : UInt8) :
    TransmitsStored mask41 maps (fun _ _ => True) irc (.sendLearnKey keyCode keyState) ↔
      Recognised mask41 maps irc (.sendLearnKey keyCode keyState) := by
  rw [TransmitsStored, Recognised]
  refine forall_congr' fun name => forall_congr' fun hname => forall_congr' fun hmode =>
    forall_congr' fun hdown => ?_
  rw [hdown, forall_const]
  exact outputs_sendLearnKey_iff hname hmode

theorem step_iff (hkeeps : KeepsLearned maps nvram learning) (action : IrcAction) :
    KeepsLearned maps nvram (learningStep mask41 maps (· = .success) learning action) ∧
        TransmitsStored mask41 maps (fun _ _ => True) learning.state action ↔
      Recognised mask41 maps learning.state action := by
  cases action with
  | captured capture =>
      exact (and_iff_left trivial).trans (keepsLearned_captured_iff hkeeps capture)
  | sendLearnKey keyCode keyState =>
      exact (and_iff_right (keepsLearned_of_not_captured hkeeps (by simp))).trans
        (transmitsStored_sendLearnKey_iff learning.state keyCode keyState)
  | enableRx => exact iff_of_true ⟨keepsLearned_of_not_captured hkeeps (by simp), trivial⟩ trivial
  | disableRx => exact iff_of_true ⟨keepsLearned_of_not_captured hkeeps (by simp), trivial⟩ trivial
  | learnTimeout =>
      exact iff_of_true ⟨keepsLearned_of_not_captured hkeeps (by simp), trivial⟩ trivial
  | exitLearnMode =>
      exact iff_of_true ⟨keepsLearned_of_not_captured hkeeps (by simp), trivial⟩ trivial

theorem keepsLearned_opened : KeepsLearned maps nvram (openedLearning nvram) :=
  fun _ _ _ => rfl

/-- A run stores what was recognised last and transmits its own code for every press exactly if
every capture that is stored was recognised, or repeats what the key has, and every key
pressed outside learn mode has a code. -/
theorem learnsFaithfully_iff (mask41 : UInt32) (maps : NvKeyMaps)
    (nvram : String → Option FlashPulseTab) (actions : List IrcAction) :
    LearnsFaithfully mask41 maps nvram actions ↔
      Machine.Along (ircStep mask41 maps) (Recognised mask41 maps) (opened nvram) actions := by
  let tracked := openedLearning nvram
  rw [LearnsFaithfully, Machine.throughout_iff_along, and_iff_right keepsLearned_opened]
  change _ ∧ Machine.Along _ _ tracked.state _ ↔ Machine.Along _ _ tracked.state _
  rw [← Machine.along_trackedStep, ← Machine.along_and, ← Machine.along_trackedStep]
  apply Machine.along_congr_of_invariant (KeepsLearned maps nvram)
  · exact fun learning action hkeeps => step_iff hkeeps action
  · exact fun learning action hkeeps hrecognised =>
      ((step_iff hkeeps action).mpr hrecognised).1
  · exact keepsLearned_opened

/-- Every run stores for a key the capture accepted last, whatever its verdict, and transmits
the stored code for every press of a key that has one. -/
theorem learned_codes_kept (mask41 : UInt32) (maps : NvKeyMaps)
    (nvram : String → Option FlashPulseTab) (actions : List IrcAction) :
    Machine.Throughout (learningStep mask41 maps fun _ => True) (KeepsLearned maps nvram)
        (openedLearning nvram) actions ∧
      Machine.Along (ircStep mask41 maps)
        (TransmitsStored mask41 maps fun irc name => (irc.nvram name).isSome) (opened nvram)
        actions := by
  constructor
  · refine Machine.throughout_of_step _ (fun learning action hkeeps => ?_) keepsLearned_opened
      actions
    cases action with
    | captured capture =>
        exact (keepsLearned_captured_iff hkeeps capture).mpr fun _ _ => .inl trivial
    | _ => exact keepsLearned_of_not_captured hkeeps (by simp)
  · refine Machine.Along.imp ?_ (Machine.along_of_forall_mem fun _ _ => trivial)
    intro irc action _
    cases action with
    | sendLearnKey keyCode keyState =>
        rintro name hname hmode rfl hstored
        exact (outputs_sendLearnKey_iff hname hmode).mpr hstored
    | _ => trivial

end Runs

/-! ## A failed learn -/

/-- A board with one key that learns. -/
def oneKeyMap : NvKeyMaps := ⟨[(0x41, "KEY_POWER")], by decide⟩

/-- A code is stored for the key. -/
def powerStored : String → Option FlashPulseTab :=
  Function.update (fun _ => none) "KEY_POWER"
    (some ⟨nec.generateWave 0x00FF02FD ((1 : UInt32) <<< 31) fun _ => 0, 67⟩)

/-- Twenty pulses of no protocol. -/
def noise : Capture := ⟨.pulseTab, fun _ => 1, 20, by decide⟩

def learnNoise : List IrcAction := [.enableRx, .sendLearnKey 0x41 1, .captured noise]

theorem failed_learn_destroys_code :
    (noise.check 0).1 = .failed ∧ ¬LearnsFaithfully 0 oneKeyMap powerStored learnNoise := by
  have hverdict : (noise.check 0).1 = .failed := by decide
  refine ⟨hverdict, ?_⟩
  rintro ⟨hkeeps, -⟩
  have hlast := hkeeps.last 0x41 "KEY_POWER" (by decide)
  revert hlast
  decide

end CubieBle.Hal
