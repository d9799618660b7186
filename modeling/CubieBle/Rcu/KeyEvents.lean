import CubieBle.Machine.Presses
import CubieBle.Rcu.AdcKey

/-! # The events of the key drivers

The driver of the matrix keypad remembers the words of the last scan and the key that they stood
for, and reports a release if the words change. The driver of the converter compares the keys
themselves. Both streams of events are presses one after the other.
-/

namespace CubieBle.Rcu

open Machine

namespace MxKeypad

open AdcKey (KeyReport)

/-- The three words of a scan. -/
abbrev ScanKey := Vector UInt32 3

def ScanKey.none : ScanKey := #v[0, 0, 0]

/-- The driver data, and `save_scan_key`. -/
structure ActsMxKeypadData where
  saveScanKey : ScanKey
  lastKeyDown : ScanKey
  prevStableKeycode : UInt16
deriving DecidableEq

def ActsMxKeypadData.zero : ActsMxKeypadData where
  saveScanKey := .none
  lastKeyDown := .none
  prevStableKeycode := 0

/-- An interrupt with the words of the controller, or the poll timer. -/
inductive KeypadAction
  | isr (info : ScanKey)
  | poll

section Driver

-- `mxkeypad_acts_get_keycode` is in the ROM.
variable (getKeycode : ScanKey → UInt16)

def mxKeypadActsScanKeyNew (keypad : ActsMxKeypadData) : ActsMxKeypadData × List KeyReport :=
  let keyDown := keypad.saveScanKey
  let keycode := getKeycode keyDown
  ({ saveScanKey := .none, lastKeyDown := keyDown, prevStableKeycode := keycode },
    (if keypad.prevStableKeycode ≠ 0 ∧ keypad.lastKeyDown ≠ keyDown then
      [.up keypad.prevStableKeycode] else []) ++
    (if keycode ≠ 0 then [.down keycode] else []))

def mxKeypadActsPollNew (keypad : ActsMxKeypadData) : ActsMxKeypadData × List KeyReport :=
  mxKeypadActsScanKeyNew getKeycode keypad

def mxKeypadActsIsrNew (keypad : ActsMxKeypadData) (info : ScanKey) :
    ActsMxKeypadData × List KeyReport :=
  mxKeypadActsScanKeyNew getKeycode { keypad with saveScanKey := info }

def keypadCall (keypad : ActsMxKeypadData) : KeypadAction → ActsMxKeypadData × List KeyReport
  | .isr info => mxKeypadActsIsrNew getKeycode keypad info
  | .poll => mxKeypadActsPollNew getKeycode keypad

/-- One call, with the events so far. -/
def keypadStep : Tracked ActsMxKeypadData (List KeyReport) → KeypadAction →
    Tracked ActsMxKeypadData (List KeyReport) :=
  trackedStep (fun keypad action => (keypadCall getKeycode keypad action).1)
    (fun keypad action events => events ++ (keypadCall getKeycode keypad action).2)

end Driver

/-- The key that is held is the one of the last words. -/
structure KeypadInv (getKeycode : ScanKey → UInt16)
    (current : Tracked ActsMxKeypadData (List KeyReport)) : Prop where
  last : current.state.prevStableKeycode ≠ 0 →
    current.state.prevStableKeycode = getKeycode current.state.lastKeyDown
  held : Held KeyReport.down KeyReport.up 0 current.state.prevStableKeycode current.history

theorem keypadCall_eq (getKeycode : ScanKey → UInt16) (keypad : ActsMxKeypadData)
    (action : KeypadAction) :
    ∃ keyDown, keypadCall getKeycode keypad action =
      mxKeypadActsScanKeyNew getKeycode { keypad with saveScanKey := keyDown } := by
  cases action with
  | isr info => exact ⟨info, rfl⟩
  | poll => exact ⟨keypad.saveScanKey, rfl⟩

theorem KeypadInv.step {getKeycode : ScanKey → UInt16}
    {current : Tracked ActsMxKeypadData (List KeyReport)} (hinv : KeypadInv getKeycode current)
    (action : KeypadAction) : KeypadInv getKeycode (keypadStep getKeycode current action) := by
  obtain ⟨keyDown, hcall⟩ := keypadCall_eq getKeycode current.state action
  rw [keypadStep, trackedStep, hcall]
  refine ⟨fun _ => rfl, ?_⟩
  apply hinv.held.change
  -- the same words stand for the same key
  intro hsame hheld
  rw [hinv.last hheld, not_not.mp hsame]
  rfl

end MxKeypad

namespace AdcKey

section Driver

variable (margin : UInt16 → UInt16) (cfg : ActsAdcKeyConfig)

/-- One sample, with the events so far. -/
def eventStep : Tracked ActsAdcKeyData (List KeyReport) → Sample →
    Tracked ActsAdcKeyData (List KeyReport) :=
  trackedStep (fun adckey sample => (adcKeyActsPollNew margin cfg adckey sample).1)
    (fun adckey sample events => events ++ (adcKeyActsPollNew margin cfg adckey sample).2)

end Driver

/-- The key that is held is the stable one. -/
def StableHeld (current : Tracked ActsAdcKeyData (List KeyReport)) : Prop :=
  Held KeyReport.down KeyReport.up keyReserved current.state.prevStableKeycode current.history

theorem StableHeld.step {current : Tracked ActsAdcKeyData (List KeyReport)}
    (hheld : StableHeld current) (margin : UInt16 → UInt16) (cfg : ActsAdcKeyConfig)
    (sample : Sample) : StableHeld (eventStep margin cfg current sample) := by
  rw [eventStep, trackedStep, adcKeyActsPollNew, StableHeld]
  have hpolled := polled cfg current.state (adcKeyActsGetKeycodeNew margin cfg sample)
  generalize pollKeycode cfg current.state _ = result at hpolled ⊢
  cases hpolled with
  | passedOver hcode hstable => simpa [StableHeld] using hheld
  | counted hcode hprev hcount => simpa [StableHeld] using hheld
  | changed hcode hprev => simpa [StableHeld] using hheld
  | stable hcode hprev hcount =>
      apply Held.change hheld
      intro hsame _
      exact not_not.mp hsame

end AdcKey

/-- For every sequence of samples on a channel, and every sequence of interrupts and polls of the
keypad, the events are a beginning of presses: a key is reported down once or more and then up,
and no other in between. -/
theorem key_drivers_report_presses (margin : UInt16 → UInt16) (cfg : AdcKey.ActsAdcKeyConfig)
    (samples : List AdcKey.Sample) (getKeycode : MxKeypad.ScanKey → UInt16)
    (actions : List MxKeypad.KeypadAction) :
    PressStream AdcKey.KeyReport.down AdcKey.KeyReport.up AdcKey.keyReserved
        (run (AdcKey.eventStep margin cfg) ⟨.zero, []⟩ samples).history ∧
      PressStream AdcKey.KeyReport.down AdcKey.KeyReport.up 0
        (run (MxKeypad.keypadStep getKeycode) ⟨.zero, []⟩ actions).history := by
  constructor
  · have hstart : AdcKey.StableHeld ⟨.zero, []⟩ := held_nil _ _ _
    have hall := throughout_of_step AdcKey.StableHeld
      (fun _ sample hheld => hheld.step margin cfg sample) hstart samples
    exact Held.pressStream hall.last
  · have hstart : MxKeypad.KeypadInv getKeycode ⟨.zero, []⟩ :=
      ⟨fun hkey => absurd rfl hkey, held_nil _ _ _⟩
    have hall := throughout_of_step (MxKeypad.KeypadInv getKeycode)
      (fun _ action hinv => hinv.step action) hstart actions
    exact hall.last.held.pressStream

end CubieBle.Rcu
