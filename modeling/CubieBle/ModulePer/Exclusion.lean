import CubieBle.ModulePer.Modes

/-! # When the modes exclude each other

Each mode is entered after the other one is left, but nothing checks that the mode to
leave is the one that is active.
-/

namespace CubieBle.ModulePer

open Machine Storage

/-- Command mode, with the identifiers that belong to it. -/
structure InAtCmdMode (modes : Modes) : Prop where
  atCmdThread : modes.atCmdThread = { running := true, id := true }
  dataThread : modes.dataThread = { running := false, id := false }
  uart : modes.uart = .atCmd
  recreated : modes.recreated = 0

/-- Data mode, which needs a connection. -/
structure InDataMode (modes : Modes) : Prop where
  atCmdThread : modes.atCmdThread = { running := false, id := false }
  dataThread : modes.dataThread = { running := true, id := true }
  uart : modes.uart = .data
  recreated : modes.recreated = 0
  pconn : modes.pconn = true

def InOneMode (modes : Modes) : Prop := InAtCmdMode modes ∨ InDataMode modes

theorem InOneMode.exclusive {modes : Modes} (hmode : InOneMode modes) : Exclusive modes := by
  rcases hmode with hmode | hmode
  · refine ⟨?_, ?_, hmode.recreated⟩
    · rw [hmode.atCmdThread, hmode.dataThread]
      rfl
    · rw [hmode.uart, hmode.dataThread]
      rfl
  · refine ⟨?_, ?_, hmode.recreated⟩
    · rw [hmode.atCmdThread, hmode.dataThread]
      rfl
    · rw [hmode.uart, hmode.dataThread]
      rfl

/-! ## Changes of the mode -/

theorem inAtCmdMode_btReady (nvram : Nvram) : InAtCmdMode (btReady nvram) :=
  ⟨rfl, rfl, rfl, rfl⟩

/-- From command mode with a connection, data mode is reached. -/
theorem InAtCmdMode.toData {modes : Modes} (hmode : InAtCmdMode modes)
    (hconn : modes.pconn = true) : InDataMode (enterIntoDataMode (exitOutAtCmdMode modes)) := by
  refine ⟨?_, rfl, rfl, ?_, hconn⟩
  · dsimp only [enterIntoDataMode, exitOutAtCmdMode]
    rw [hmode.atCmdThread]
    rfl
  · have hstopped : modes.dataThread.running ≠ true := by
      rw [hmode.dataThread]
      nofun
    exact (if_neg hstopped).trans hmode.recreated

/-- From data mode, command mode is reached. -/
theorem InDataMode.toAtCmd {modes : Modes} (hdata : modes.dataThread = kThreadCreate)
    (hat : modes.atCmdThread = { running := false, id := false })
    (hrecreated : modes.recreated = 0) :
    InAtCmdMode (enterIntoAtCmdMode (exitOutDataMode modes)) := by
  refine ⟨rfl, ?_, rfl, ?_⟩
  · dsimp only [enterIntoAtCmdMode, exitOutDataMode]
    rw [hdata]
    rfl
  · have hstopped : modes.atCmdThread.running ≠ true := by
      rw [hat]
      nofun
    exact (if_neg hstopped).trans hrecreated

/-- In data mode, its thread is created again if data mode is entered. -/
theorem recreated_enterIntoDataMode {modes : Modes} (hdata : modes.dataThread.running = true)
    (hrecreated : modes.recreated = 0) :
    (enterIntoDataMode (exitOutAtCmdMode modes)).recreated = 1 := by
  exact (if_pos hdata).trans (congrArg (· + 1) hrecreated)

theorem recreated_enterIntoAtCmdMode {modes : Modes} (hat : modes.atCmdThread.running = true)
    (hrecreated : modes.recreated = 0) :
    (enterIntoAtCmdMode (exitOutDataMode modes)).recreated = 1 := by
  exact (if_pos hat).trans (congrArg (· + 1) hrecreated)

theorem not_exclusive_of_recreated {modes : Modes} (hrecreated : modes.recreated = 1) :
    ¬ Exclusive modes := by
  intro hexclusive
  rw [hexclusive.created] at hrecreated
  cases hrecreated

/-! ## One step -/

theorem inOneMode_connected {modes : Modes} (hmode : InOneMode modes) :
    InOneMode (connected modes) := by
  unfold connected
  split
  next => exact hmode
  next hconn =>
    rcases hmode with hmode | hmode
    · have hnext : InAtCmdMode { modes with pconn := true } :=
        ⟨hmode.atCmdThread, hmode.dataThread, hmode.uart, hmode.recreated⟩
      dsimp only
      split
      · exact .inr (hnext.toData rfl)
      · exact .inl hnext
    · exact absurd hmode.pconn hconn

theorem inOneMode_execRssiSet {modes : Modes} (hmode : InOneMode modes) (rssi : Int8)
    (sent : Bool) (para : List UInt8) : InOneMode (execRssiSet rssi sent para modes) := by
  unfold execRssiSet
  split
  · rcases hmode with hmode | hmode
    · exact .inl ⟨hmode.atCmdThread, hmode.dataThread, hmode.uart, hmode.recreated⟩
    · exact .inr ⟨hmode.atCmdThread, hmode.dataThread, hmode.uart, hmode.recreated, hmode.pconn⟩
  · exact hmode

/-- The end of a connection leads to command mode if it was used for data, and else the
thread for the commands is created again. -/
theorem disconnected_cases {modes : Modes} (hmode : InOneMode modes) :
    (ModeKept modes .disconnected ∧ InOneMode (disconnected modes)) ∨
      (¬ ModeKept modes .disconnected ∧ ¬ Exclusive (disconnected modes)) := by
  unfold disconnected
  split
  next hconn =>
    rcases hmode with hmode | hmode
    · refine .inr ⟨?_, not_exclusive_of_recreated (recreated_enterIntoAtCmdMode ?_ ?_)⟩
      · intro hkept
        have hrunning := hkept hconn
        rw [hmode.dataThread] at hrunning
        cases hrunning
      · dsimp only
        rw [hmode.atCmdThread]
      · exact hmode.recreated
    · refine .inl ⟨fun _ => by rw [hmode.dataThread], .inl ?_⟩
      exact InDataMode.toAtCmd hmode.dataThread hmode.atCmdThread hmode.recreated
  next hconn => exact .inl ⟨fun h => absurd h hconn, hmode⟩

/-- The message leads to data mode from command mode, and else the thread for the data is
created again. -/
theorem handleExitRssiMode_cases {modes : Modes} (hmode : InOneMode modes) :
    (ModeKept modes .exitRssiMode ∧ InOneMode (handleExitRssiMode modes)) ∨
      (¬ ModeKept modes .exitRssiMode ∧ ¬ Exclusive (handleExitRssiMode modes)) := by
  unfold handleExitRssiMode appCfgEventHandle
  split
  next hmsgs => exact .inl ⟨fun h => absurd hmsgs h, hmode⟩
  next hmsgs =>
    dsimp only
    split
    next hboth =>
      obtain ⟨hrssi, hconn⟩ := hboth
      rcases hmode with hmode | hmode
      · refine .inl ⟨fun _ _ _ => by rw [hmode.atCmdThread], .inr ?_⟩
        apply InAtCmdMode.toData
        · exact ⟨hmode.atCmdThread, hmode.dataThread, hmode.uart, hmode.recreated⟩
        · exact hconn
      · refine .inr ⟨?_, not_exclusive_of_recreated (recreated_enterIntoDataMode ?_ ?_)⟩
        · intro hkept
          have hrunning := hkept hmsgs hrssi hconn
          rw [hmode.atCmdThread] at hrunning
          cases hrunning
        · dsimp only
          rw [hmode.dataThread]
        · exact hmode.recreated
    next hboth =>
      refine .inl ⟨fun _ hrssi hconn => absurd ⟨hrssi, hconn⟩ hboth, ?_⟩
      rcases hmode with hmode | hmode
      · exact .inl ⟨hmode.atCmdThread, hmode.dataThread, hmode.uart, hmode.recreated⟩
      · exact .inr ⟨hmode.atCmdThread, hmode.dataThread, hmode.uart, hmode.recreated,
          hmode.pconn⟩

/-- A step from one of the modes leads to one of them, or it breaks the exclusion. -/
theorem modeStep_cases {modes : Modes} (hmode : InOneMode modes) (action : ModeAction) :
    (ModeKept modes action ∧ InOneMode (modeStep modes action)) ∨
      (¬ ModeKept modes action ∧ ¬ Exclusive (modeStep modes action)) := by
  cases action with
  | connected => exact .inl ⟨trivial, inOneMode_connected hmode⟩
  | disconnected => exact disconnected_cases hmode
  | rssiSet rssi sent para => exact .inl ⟨trivial, inOneMode_execRssiSet hmode rssi sent para⟩
  | exitRssiMode => exact handleExitRssiMode_cases hmode

theorem inOneMode_modeStep (modes : Modes) (action : ModeAction) (hmode : InOneMode modes)
    (hkept : ModeKept modes action) : InOneMode (modeStep modes action) := by
  rcases modeStep_cases hmode action with ⟨_, hnext⟩ | ⟨hnot, _⟩
  · exact hnext
  · exact absurd hkept hnot

theorem exclusive_modeStep_iff (modes : Modes) (action : ModeAction) (hmode : InOneMode modes) :
    Exclusive (modeStep modes action) ↔ ModeKept modes action := by
  rcases modeStep_cases hmode action with ⟨hkept, hnext⟩ | ⟨hnot, hbroken⟩
  · exact iff_of_true hnext.exclusive hkept
  · exact iff_of_false hbroken hnot

/-! ## All runs -/

/-- The modes exclude each other throughout a run exactly if every connection ends in data
mode and every message is handled in command mode or without effect. -/
theorem modes_exclusive_iff (nvram : Nvram) (actions : List ModeAction) :
    Throughout modeStep Exclusive (btReady nvram) actions ↔
      Along modeStep ModeKept (btReady nvram) actions := by
  have hstart : InOneMode (btReady nvram) := .inl (inAtCmdMode_btReady nvram)
  rw [throughout_iff_along,
    along_congr_of_invariant InOneMode exclusive_modeStep_iff inOneMode_modeStep hstart]
  exact and_iff_right hstart.exclusive

/-- A connection that is made and lost while the signal strength can be asked for. -/
def rssiConnection : List ModeAction :=
  [.rssiSet 0 true [0x31], .connected, .disconnected]

theorem rssiConnection_recreates :
    ¬ Throughout modeStep Exclusive (btReady Nvram.empty) rssiConnection := by
  intro hall
  have hcreated := hall.last.created
  revert hcreated
  decide

end CubieBle.ModulePer
