import CubieBle.BleModule.Inquiry
import CubieBle.Machine.NumberCommand
import CubieBle.Storage.Nvram

/-! # The role and the automatic connection

Two commands of the module that take a number: its role, and whether a master connects to the
strongest device it has found.
-/

namespace CubieBle.BleModule

open Machine Storage

/-- What the commands ask of the Bluetooth stack. -/
inductive RadioOp where
  | scanStop
  | advStart
  | advStop
  | disconnect
deriving DecidableEq

inductive RoleAnswer where
  | error
  /-- A text, the parameter, and `OK`. -/
  | ok (text : String) (para : List UInt8)
deriving DecidableEq

/-- The part of `ble_param` that the commands use, the factory region of the store, what was
asked of the stack, and the answers. -/
structure RoleModule where
  role : BleRole
  autoConn : Bool
  state : BleState
  nvram : Nvram
  radio : List RadioOp
  answers : List RoleAnswer

def RoleModule.answer (mod : RoleModule) (answer : RoleAnswer) : RoleModule :=
  { mod with answers := mod.answers ++ [answer] }

def RoleModule.ask (mod : RoleModule) (op : RadioOp) : RoleModule :=
  { mod with radio := mod.radio ++ [op] }

def stopScan (mod : RoleModule) : RoleModule := { mod.ask .scanStop with state := .ready }

def startAdv (advStarts : Bool) (mod : RoleModule) : RoleModule :=
  if advStarts then { mod.ask .advStart with state := .advertising } else mod.ask .advStart

/-- `BLE_ROLE_SLAVE` is 0. -/
def bleRole (value : UInt8) : BleRole := if value = 0 then .slave else .master

/-- The options of a build and how the stack answers. -/
structure RoleSetup where
  autoReconnect : Bool
  advStarts : Bool

def switchRole (setup : RoleSetup) (newRole : BleRole) (mod : RoleModule) : RoleModule :=
  let mod : RoleModule :=
    match newRole with
    | .slave =>
        startAdv setup.advStarts
          (if mod.state = .inquiring ∨ setup.autoReconnect ∧ mod.state = .reconnting then
            stopScan mod
          else mod)
    | .master => if mod.state = .advertising then mod.ask .advStop else mod
  let mod : RoleModule := if mod.state = .connecting then mod.ask .disconnect else mod
  { mod with role := newRole }

/-- `AT+ROLE` -/
def atCmdRoleSet (setup : RoleSetup) (para : List UInt8) (mod : RoleModule) : RoleModule :=
  let role := lowByte para
  if !isDecimalString para || (role ≠ 0 && role ≠ 1) then mod.answer .error
  else
    let mod :=
      if bleRole role ≠ mod.role then
        { switchRole setup (bleRole role) mod with state := .ready }
      else mod
    { mod with nvram := nvramConfigSet "BT_ROLE" [role] mod.nvram }.answer (.ok "+ROLE=" para)

/-- `AT+AUTOCONN` -/
def atCmdAutoConnSet (setup : RoleSetup) (para : List UInt8) (mod : RoleModule) : RoleModule :=
  let autoConn := lowByte para
  if mod.role ≠ .master ∨ !isDecimalString para then mod.answer .error
  else
    let switched (mod : RoleModule) : RoleModule :=
      { mod with nvram := nvramConfigSet "BT_AUTOCONN" [autoConn] mod.nvram }.answer
        (.ok "+AUTOCONN=" para)
    if autoConn = 0 then
      let mod := { mod with autoConn := false }
      switched (if setup.autoReconnect ∧ mod.state = .reconnting then stopScan mod else mod)
    else if autoConn = 1 then switched { mod with autoConn := true }
    else mod.answer .error

/-! ## The numbers they take -/

/-- What `AT+ROLE` does with a number. -/
def roleCommand (setup : RoleSetup) : NumberCommand RoleModule where
  bound := 1
  carryOut v para mod :=
    let mod :=
      if bleRole (UInt8.ofNat v) ≠ mod.role then
        { switchRole setup (bleRole (UInt8.ofNat v)) mod with state := .ready }
      else mod
    { mod with nvram := nvramConfigSet "BT_ROLE" [UInt8.ofNat v] mod.nvram }.answer
      (.ok "+ROLE=" para)
  refuse mod := mod.answer .error

/-- What `AT+AUTOCONN` does with a number. -/
def autoConnCommand (setup : RoleSetup) : NumberCommand RoleModule where
  bound := 1
  carryOut v para mod :=
    let mod : RoleModule := { mod with autoConn := v = 1 }
    let mod :=
      if v = 0 ∧ setup.autoReconnect ∧ mod.state = .reconnting then stopScan mod else mod
    { mod with nvram := nvramConfigSet "BT_AUTOCONN" [UInt8.ofNat v] mod.nvram }.answer
      (.ok "+AUTOCONN=" para)
  refuse mod := mod.answer .error

theorem one_lt_toNat_iff (value : UInt8) : 1 < value.toNat ↔ value ≠ 0 ∧ value ≠ 1 := by
  have hzero : (0 : UInt8).toNat = 0 := rfl
  have hone : (1 : UInt8).toNat = 1 := rfl
  rw [ne_eq, ne_eq, ← UInt8.toNat_inj, ← UInt8.toNat_inj]
  omega

section Commands

variable (setup : RoleSetup) (para : List UInt8) (mod : RoleModule)

theorem atCmdRoleSet_eq : atCmdRoleSet setup para mod = (roleCommand setup).exec para mod := by
  have hcond : (!isDecimalString para || (lowByte para ≠ 0 && lowByte para ≠ 1)) =
      (!isDecimalString para || (roleCommand setup).bound < (lowByte para).toNat) := by
    rw [roleCommand, ← Bool.decide_and]
    simp only [one_lt_toNat_iff]
  rw [atCmdRoleSet, NumberCommand.exec, hcond]
  split
  next => rfl
  next => simp only [roleCommand, UInt8.ofNat_toNat]

/-- A master takes the number. -/
theorem atCmdAutoConnSet_eq (hrole : mod.role = .master) :
    atCmdAutoConnSet setup para mod = (autoConnCommand setup).exec para mod := by
  rw [atCmdAutoConnSet, NumberCommand.exec]
  cases isDecimalString para with
  | false => simp [autoConnCommand]
  | true =>
      rw [if_neg (by simp [hrole])]
      by_cases hzero : lowByte para = 0
      · simp [autoConnCommand, hzero]
      · by_cases hone : lowByte para = 1
        · simp [autoConnCommand, hone]
        · have hlarge : (autoConnCommand setup).bound < (lowByte para).toNat :=
            (one_lt_toNat_iff _).mpr ⟨hzero, hone⟩
          rw [if_neg hzero, if_neg hone, if_pos (by simp [hlarge])]
          rfl

theorem answer_ne_answer (mod other : RoleModule) (text : String) :
    mod.answer (.ok text para) ≠ other.answer .error := by
  intro heq
  have hlast := congrArg (fun mod => mod.answers.getLast?) heq
  simp [RoleModule.answer] at hlast

end Commands

/-- The command with its number, for a module in the role it requires. -/
inductive RoleNumber where
  | role
  | autoConn
deriving DecidableEq

def RoleNumber.set (setup : RoleSetup) : RoleNumber → List UInt8 → RoleModule → RoleModule
  | .role => atCmdRoleSet setup
  | .autoConn => atCmdAutoConnSet setup

def RoleNumber.command (setup : RoleSetup) : RoleNumber → NumberCommand RoleModule
  | .role => roleCommand setup
  | .autoConn => autoConnCommand setup

def RoleNumber.Allowed (number : RoleNumber) (mod : RoleModule) : Prop :=
  number = .autoConn → mod.role = .master

theorem roleNumber_acceptsExactly_iff (setup : RoleSetup) (number : RoleNumber)
    (para : List UInt8) {mod : RoleModule} (hallowed : number.Allowed mod) :
    (number.command setup).AcceptsExactly (number.set setup) para mod ↔
      NotWrapped (number.command setup).bound para := by
  cases number with
  | role =>
      exact (roleCommand setup).acceptsExactly_iff (atCmdRoleSet_eq setup para mod)
        (show 1 < 255 by decide)
        fun v _ => answer_ne_answer para _ mod "+ROLE="
  | autoConn =>
      exact (autoConnCommand setup).acceptsExactly_iff
        (atCmdAutoConnSet_eq setup para mod (hallowed rfl)) (show 1 < 255 by decide)
        fun v _ => answer_ne_answer para _ mod "+AUTOCONN="

end CubieBle.BleModule
