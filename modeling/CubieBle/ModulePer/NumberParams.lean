import CubieBle.BleModule.RoleCommands
import CubieBle.ModulePer.Config

/-! # Parameters that are numbers

The commands of both modules that take a number convert it to a byte before they look at it. So
they take 256 for 0, and every other number whose low byte is in the range of the command.
-/

namespace CubieBle.ModulePer

open Machine Storage

/-- The module with the index of its transmit power and how often it was restarted. -/
structure PerModule where
  app : App
  txPowerLevelIndex : UInt8
  reboots : Nat

/-- `AT+TXPW` -/
def atCmdTxPowerSet (para : List UInt8) (mod : PerModule) : PerModule :=
  let txPowerIndex := lowByte para
  if !isDecimalString para || 7 < txPowerIndex then { mod with app := mod.app.answer .error }
  else
    { app := { mod.app with
        nvram := nvramConfigSet "TX_POWER" [txPowerIndex] mod.app.nvram }.answer
          (.ok "OK+TXPW-" para)
      txPowerLevelIndex := txPowerIndex
      reboots := mod.reboots + 1 }

inductive PerNumber where
  | adst
  | adit
  | baud
  | cnit
  | txpw
  | rssi
deriving DecidableEq

/-- The callbacks of the commands. What the controller answers to the last one, and whether a
message can be sent, are given. -/
def PerNumber.set (rssi : Int8) (sent : Bool) (number : PerNumber) (para : List UInt8)
    (mod : PerModule) : PerModule :=
  match number with
  | .adst => { mod with app := atCmdAdvSet para mod.app }
  | .adit => { mod with app := atCmdAdvIntervalSet para mod.app }
  | .baud => { mod with app := atCmdAdvBaudrateSet para mod.app }
  | .cnit => { mod with app := atCmdConnIntervalSet para mod.app }
  | .txpw => atCmdTxPowerSet para mod
  | .rssi => { mod with app := atCmdRssiSet rssi sent para mod.app }

def PerNumber.bound : PerNumber → Nat
  | .adst => 2
  | .adit => 7
  | .baud => 4
  | .cnit => 8
  | .txpw => 7
  | .rssi => 2

/-- What the commands do with a number. -/
def PerNumber.carryOut (rssi : Int8) (sent : Bool) (number : PerNumber) (v : Nat)
    (para : List UInt8) (mod : PerModule) : PerModule :=
  let app := mod.app
  match number with
  | .adst =>
      let app : App := { app with
        config := { bleExecAdvOp (UInt8.ofNat v) app.config with advState := UInt8.ofNat v }
        nvram := nvramConfigSet "ADV_STATE" [UInt8.ofNat v] app.nvram }
      { mod with app := app.answer (.ok "OK+ADST-" para) }
  | .adit =>
      let interval := UInt16.ofNat (advIntervalArray.getD v 0 * 1000 / 625)
      let app : App := { app with
        config := bleExecAdvOp app.config.advState
          { app.config with advIntervalMin := interval, advIntervalMax := interval }
        nvram := nvramConfigSet "ADV_INTERVAL" (wordBytes interval) app.nvram }
      { mod with app := app.answer (.ok "OK+ADIT-" para) }
  | .baud =>
      let app : App := { app with
        config := { app.config with baudIndex := UInt8.ofNat v }
        nvram := nvramConfigSet "UART_BAUDRATE" [UInt8.ofNat v] app.nvram }
      { mod with app := app.answer (.ok "OK+BAUD-" para) }
  | .cnit =>
      let interval := UInt16.ofNat (connIntervalArray.getD v 0 * 100 / 125)
      let app : App := { app with
        config := { app.config with connIntervalMin := interval, connIntervalMax := interval }
        nvram := nvramConfigSet "CONN_INTERVAL" (wordBytes interval) app.nvram }
      { mod with app := app.answer (.ok "OK+CNIT-" para) }
  | .txpw =>
      let app : App := { app with
        nvram := nvramConfigSet "TX_POWER" [UInt8.ofNat v] app.nvram }
      { app := app.answer (.ok "OK+TXPW-" para)
        txPowerLevelIndex := UInt8.ofNat v
        reboots := mod.reboots + 1 }
  | .rssi =>
      if v = 0 then
        let app : App := { app with
          config := { app.config with rssiMode := 0 }
          nvram := nvramConfigSet "RSSI_MODE" [0] app.nvram
          exitRssiMsgs := if sent then app.exitRssiMsgs + 1 else app.exitRssiMsgs }
        { mod with app := app.answer (.rssi 0) }
      else if v = 1 then
        let app : App := { app with
          config := { app.config with rssiMode := 1 }
          nvram := nvramConfigSet "RSSI_MODE" [1] app.nvram }
        { mod with app := app.answer (.rssi 1) }
      else { mod with app := app.answer (.rssi rssi) }

def PerNumber.command (rssi : Int8) (sent : Bool) (number : PerNumber) :
    NumberCommand PerModule where
  bound := number.bound
  carryOut := number.carryOut rssi sent
  refuse mod := { mod with app := mod.app.answer .error }

section Commands

variable (rssi : Int8) (sent : Bool) (number : PerNumber) (para : List UInt8) (mod : PerModule)

/-- The test that all the commands make, with their own bounds. -/
theorem refuses_iff {bound : Nat} (limit : UInt8) (hlimit : limit.toNat = bound) :
    (!isDecimalString para || bound < (lowByte para).toNat) = true ↔
      (!isDecimalString para || limit < lowByte para) = true := by
  simp only [UInt8.lt_iff_toNat_lt, hlimit]

theorem perNumber_set_of_refused
    (hrefused : (!isDecimalString para || number.bound < (lowByte para).toNat) = true) :
    number.set rssi sent para mod = { mod with app := mod.app.answer .error } := by
  cases number with
  | adst =>
      have htest := (refuses_iff para 2 rfl).mp hrefused
      rw [PerNumber.set, atCmdAdvSet, if_pos htest]
  | adit =>
      have htest := (refuses_iff para 7 rfl).mp hrefused
      rw [PerNumber.set, atCmdAdvIntervalSet, if_pos htest]
  | baud =>
      have htest := (refuses_iff para 4 rfl).mp hrefused
      rw [PerNumber.set, atCmdAdvBaudrateSet, if_pos htest]
  | cnit =>
      have htest := (refuses_iff para 8 rfl).mp hrefused
      rw [PerNumber.set, atCmdConnIntervalSet, if_pos htest]
  | txpw =>
      have htest := (refuses_iff para 7 rfl).mp hrefused
      rw [PerNumber.set, atCmdTxPowerSet, if_pos htest]
  | rssi =>
      have htest := (refuses_iff para 2 rfl).mp hrefused
      rw [PerNumber.set, atCmdRssiSet, if_pos htest]

theorem perNumber_set_of_not_refused
    (hrefused : ¬(!isDecimalString para || number.bound < (lowByte para).toNat) = true) :
    number.set rssi sent para mod =
      number.carryOut rssi sent (lowByte para).toNat para mod := by
  have hbyte : UInt8.ofNat (lowByte para).toNat = lowByte para := UInt8.ofNat_toNat
  cases number with
  | adst =>
      have htest := fun h => hrefused ((refuses_iff para 2 rfl).mpr h)
      rw [PerNumber.set, atCmdAdvSet, if_neg htest, PerNumber.carryOut, hbyte]
  | adit =>
      have htest := fun h => hrefused ((refuses_iff para 7 rfl).mpr h)
      rw [PerNumber.set, atCmdAdvIntervalSet, if_neg htest]
      rfl
  | baud =>
      have htest := fun h => hrefused ((refuses_iff para 4 rfl).mpr h)
      rw [PerNumber.set, atCmdAdvBaudrateSet, if_neg htest, PerNumber.carryOut, hbyte]
  | cnit =>
      have htest := fun h => hrefused ((refuses_iff para 8 rfl).mpr h)
      rw [PerNumber.set, atCmdConnIntervalSet, if_neg htest]
      rfl
  | txpw =>
      have htest := fun h => hrefused ((refuses_iff para 7 rfl).mpr h)
      rw [PerNumber.set, atCmdTxPowerSet, if_neg htest, PerNumber.carryOut, hbyte]
  | rssi =>
      have htest := fun h => hrefused ((refuses_iff para 2 rfl).mpr h)
      have hzero : lowByte para = 0 ↔ (lowByte para).toNat = 0 := UInt8.toNat_inj.symm
      have hone : lowByte para = 1 ↔ (lowByte para).toNat = 1 := UInt8.toNat_inj.symm
      rw [PerNumber.set, atCmdRssiSet, if_neg htest, PerNumber.carryOut]
      by_cases h : (lowByte para).toNat = 0
      · rw [if_pos (hzero.mpr h), if_pos h]
      · rw [if_neg (mt hzero.mp h), if_neg h]
        by_cases h' : (lowByte para).toNat = 1
        · rw [if_pos (hone.mpr h'), if_pos h']
        · rw [if_neg (mt hone.mp h'), if_neg h']

theorem app_answer_ne (app other : App) {answer : Answer} (hanswer : answer ≠ .error) :
    app.answer answer ≠ other.answer .error := by
  intro heq
  have hlast := congrArg (fun app => app.answers.getLast?) heq
  simp only [App.answer, List.getLast?_append, List.getLast?_singleton, Option.some_or] at hlast
  exact hanswer (Option.some.inj hlast)

theorem perNumber_differ (v : Nat) :
    number.carryOut rssi sent v para mod ≠ { mod with app := mod.app.answer .error } := by
  intro heq
  have happ := congrArg PerModule.app heq
  cases number with
  | adst => exact app_answer_ne _ _ Answer.noConfusion happ
  | adit => exact app_answer_ne _ _ Answer.noConfusion happ
  | baud => exact app_answer_ne _ _ Answer.noConfusion happ
  | cnit => exact app_answer_ne _ _ Answer.noConfusion happ
  | txpw => exact app_answer_ne _ _ Answer.noConfusion happ
  | rssi =>
      rw [PerNumber.carryOut] at happ
      split_ifs at happ
      all_goals exact app_answer_ne _ _ Answer.noConfusion happ

theorem perNumber_acceptsExactly_iff :
    (number.command rssi sent).AcceptsExactly (number.set rssi sent) para mod ↔
      NotWrapped number.bound para := by
  refine (number.command rssi sent).acceptsExactly_iff ?_ ?_ fun v _ =>
    perNumber_differ rssi sent number para mod v
  · rw [NumberCommand.exec]
    split
    next hrefused => exact perNumber_set_of_refused rssi sent number para mod hrefused
    next hrefused => exact perNumber_set_of_not_refused rssi sent number para mod hrefused
  · cases number
    all_goals exact of_decide_eq_true rfl

end Commands

open BleModule in
/-- The commands of both modules accept exactly the numbers in their ranges if and only if the
parameter is not a number that is too large and wraps into the range. -/
theorem numbers_accepted_iff (rssi : Int8) (sent : Bool) (setup : RoleSetup)
    (para : List UInt8) :
    (∀ (number : PerNumber) (mod : PerModule),
        (number.command rssi sent).AcceptsExactly (number.set rssi sent) para mod ↔
          NotWrapped number.bound para) ∧
      ∀ (number : RoleNumber) (mod : RoleModule), number.Allowed mod →
        ((number.command setup).AcceptsExactly (number.set setup) para mod ↔
          NotWrapped (number.command setup).bound para) := by
  constructor
  · intro number mod
    exact perNumber_acceptsExactly_iff rssi sent number para mod
  · intro number mod hallowed
    exact roleNumber_acceptsExactly_iff setup number para hallowed

/-- A module as it starts with an empty store. -/
def PerModule.start : PerModule where
  app := .start Nvram.empty
  txPowerLevelIndex := 1
  reboots := 0

open BleModule in
def masterModule : RoleModule where
  role := .master
  autoConn := false
  state := .ready
  nvram := Nvram.empty
  radio := []
  answers := []

open BleModule in
theorem one_accepted :
    (RoleNumber.command ⟨false, true⟩ .autoConn).AcceptsExactly
      (RoleNumber.set ⟨false, true⟩ .autoConn) [0x31] masterModule := by
  refine ((numbers_accepted_iff 0 true ⟨false, true⟩ [0x31]).2 .autoConn masterModule
    fun _ => rfl).mpr ?_
  intro v hnumeral hlt
  have hvalue : 1 = v := hnumeral.value
  exact absurd hlt (by rw [← hvalue]; exact Nat.lt_irrefl 1)

/-- `AT+ADST-256` is carried out as if it were `AT+ADST-0`. -/
theorem large_number_accepted :
    ¬∀ (number : PerNumber) (para : List UInt8) (mod : PerModule),
      (number.command 0 true).AcceptsExactly (number.set 0 true) para mod := by
  intro hall
  have hrefused := (hall .adst [0x32, 0x35, 0x36] .start).refused.mpr fun v hle hnumeral => by
    have hvalue : 256 = v := hnumeral.value
    rw [← hvalue] at hle
    exact absurd hle (by decide)
  have hanswers := congrArg (fun mod => mod.app.answers) hrefused
  exact absurd hanswers (by decide)

end CubieBle.ModulePer
