import CubieBle.At.Tokenizer
import CubieBle.BleModule.DataHandler

/-! # Commands without an equal sign

The line is searched for the names of the commands in the order of their table. What stands
behind the first place of the first name that is found is its parameter.
-/

namespace CubieBle.BleModule

open Machine
open At (atText einval)

/-! ## The commands -/

inductive SetCb where
  | atCmdRoleSet
  | atCmdConnSet
  | atCmdConaSet
  | atCmdAutoConnSet
  | atCmdAdvNameSet
  | atCmdLaddrSet
deriving DecidableEq

inductive ExecCb where
  | atCmdRoleGet
  | atCmdInq
  | atCmdAutoConnGet
  | atCmdClear
  | atCmdReset
  | atCmdDefault
  | atCmdAdvNameGet
  | atCmdLaddrGet
  | atCmdDisconnect
  | atCmdOta
deriving DecidableEq

/-- No command has a callback in `get_cb`. -/
abbrev AtCmd := At.AtCmd SetCb Empty ExecCb

def atCmdCommands : List AtCmd := [
  ⟨ascii ['R', 'O', 'L', 'E'], some .atCmdRoleSet, none, some .atCmdRoleGet⟩,
  ⟨ascii ['I', 'N', 'Q'], none, none, some .atCmdInq⟩,
  ⟨ascii ['C', 'O', 'N', 'N'], some .atCmdConnSet, none, none⟩,
  ⟨ascii ['C', 'O', 'N', 'A'], some .atCmdConaSet, none, none⟩,
  ⟨ascii ['A', 'U', 'T', 'O', 'C', 'O', 'N', 'N'], some .atCmdAutoConnSet, none,
    some .atCmdAutoConnGet⟩,
  ⟨ascii ['C', 'L', 'E', 'A', 'R'], none, none, some .atCmdClear⟩,
  ⟨ascii ['R', 'E', 'S', 'E', 'T'], none, none, some .atCmdReset⟩,
  ⟨ascii ['D', 'E', 'F', 'A', 'U', 'L', 'T'], none, none, some .atCmdDefault⟩,
  ⟨ascii ['N', 'A', 'M', 'E'], some .atCmdAdvNameSet, none, some .atCmdAdvNameGet⟩,
  ⟨ascii ['L', 'A', 'D', 'D', 'R'], some .atCmdLaddrSet, none, some .atCmdLaddrGet⟩,
  ⟨ascii ['D', 'I', 'S', 'C', 'O', 'N', 'N', 'E', 'C', 'T'], none, none, some .atCmdDisconnect⟩,
  ⟨ascii ['O', 'T', 'A'], none, none, some .atCmdOta⟩]

structure AtCmdStruct where
  name : List UInt8
  cmd : List UInt8
  cmdLen : UInt8
  paramLen : UInt8
deriving DecidableEq

def atCmdsHj : List AtCmdStruct := [
  ⟨atText, [], 2, 0⟩,
  ⟨ascii ['A', 'T', '+', 'R', 'O', 'L', 'E'], ascii ['R', 'O', 'L', 'E'], 7, 1⟩,
  ⟨ascii ['A', 'T', '+', 'I', 'N', 'Q'], ascii ['I', 'N', 'Q'], 6, 0⟩,
  ⟨ascii ['A', 'T', '+', 'C', 'O', 'N', 'N'], ascii ['C', 'O', 'N', 'N'], 7, 1⟩,
  ⟨ascii ['A', 'T', '+', 'C', 'O', 'N', 'A'], ascii ['C', 'O', 'N', 'A'], 7, 14⟩,
  ⟨ascii ['A', 'T', '+', 'A', 'U', 'T', 'O', 'C', 'O', 'N', 'N'],
    ascii ['A', 'U', 'T', 'O', 'C', 'O', 'N', 'N'], 11, 1⟩,
  ⟨ascii ['A', 'T', '+', 'C', 'L', 'E', 'A', 'R'], ascii ['C', 'L', 'E', 'A', 'R'], 8, 0⟩,
  ⟨ascii ['A', 'T', '+', 'R', 'E', 'S', 'E', 'T'], ascii ['R', 'E', 'S', 'E', 'T'], 8, 0⟩,
  ⟨ascii ['A', 'T', '+', 'D', 'E', 'F', 'A', 'U', 'L', 'T'],
    ascii ['D', 'E', 'F', 'A', 'U', 'L', 'T'], 10, 0⟩,
  ⟨ascii ['A', 'T', '+', 'N', 'A', 'M', 'E'], ascii ['N', 'A', 'M', 'E'], 7, 0xff⟩,
  ⟨ascii ['A', 'T', '+', 'L', 'A', 'D', 'D', 'R'], ascii ['L', 'A', 'D', 'D', 'R'], 8, 14⟩,
  ⟨ascii ['A', 'T', '+', 'D', 'I', 'S', 'C', 'O', 'N', 'N', 'E', 'C', 'T'],
    ascii ['D', 'I', 'S', 'C', 'O', 'N', 'N', 'E', 'C', 'T'], 13, 0⟩,
  ⟨ascii ['A', 'T', '+', 'O', 'T', 'A'], ascii ['O', 'T', 'A'], 5, 0⟩]

/-! ## A line -/

/-- What a line does: an answer, or the call of a callback. -/
inductive AtEvent where
  | ok
  | error
  | set (callback : SetCb) (param : List UInt8)
  | exec (callback : ExecCb)
deriving DecidableEq

def skipSpaces (str : List UInt8) : List UInt8 := str.dropWhile fun char => char = 0x20

/-- The loop over the names, with the text from the place of the first one that is found. -/
def nameLoop (str : List UInt8) : Option (AtCmdStruct × List UInt8) :=
  atCmdsHj.tail.findSome? fun entry => (strstr str entry.name).map (entry, ·)

/-- The number of arguments, or an error, and the arguments. -/
def line2argv (str : List UInt8) : Int × List (List UInt8) :=
  if str = [] then (0, [])
  else
    let str := skipSpaces str
    if str = [] then (0, [])
    else if str = atText then (1, [atText])
    else
      match nameLoop str with
      | none => (einval, [])
      | some (entry, strCmd) =>
          -- What is in front of the name does not matter.
          if entry.paramLen ≠ 0 then
            if entry.cmdLen.toNat < strCmd.length then
              (3, [atText, entry.cmd, strCmd.drop entry.cmdLen.toNat])
            else (2, [atText, entry.cmd])
          else if strCmd ≠ entry.name then (einval, [atText, entry.cmd])
          else (2, [atText, entry.cmd])

def execCb (argc : Int) (argv : List (List UInt8)) : List AtEvent :=
  if argv.getD 0 [] = [] then [.error]
  else if argv.getD 0 [] ≠ atText then [.error]
  else if argc = 1 then [.ok]
  else
    match atCmdCommands.find? fun command => command.atCmdName = argv.getD 1 [] with
    | none => [.error]
    | some command =>
        if argc = 2 then [(command.execCb.map .exec).getD .error]
        else if argc = 3 then [(command.setCb.map (.set · (argv.getD 2 []))).getD .error]
        else []

/-- The result, below 0 if the caller is to answer with an error, and what was done. -/
def atCmdExec (line : List UInt8) : Int × List AtEvent :=
  let (argc, argv) := line2argv line
  if argc ≤ 0 then (argc, []) else (argc, execCb argc argv)

/-! ## Dispatch by the beginning of the line -/

/-- The callback of a command for a parameter: one that has no argument if there is none. -/
def callbackFor (command : AtCmd) (param : List UInt8) : Option AtEvent :=
  if param = [] then command.execCb.map .exec else command.setCb.map (.set · param)

def Runs (line : List UInt8) (command : AtCmd) (param : List UInt8) : Prop :=
  ∃ callback ∈ (atCmdExec line).2, callbackFor command param = some callback

/-- Nothing is allowed behind a command that has no parameter. -/
def Allowed (name param : List UInt8) : Prop :=
  ∀ entry ∈ atCmdsHj, entry.cmd = name → entry.paramLen = 0 → param = []

/-- Behind its leading spaces the line starts with a command and has a parameter for it. -/
def Begins (line : List UInt8) (command : AtCmd) (param : List UInt8) : Prop :=
  skipSpaces line = ascii ['A', 'T', '+'] ++ command.atCmdName ++ param ∧
    Allowed command.atCmdName param

/-- A line runs the command it starts with, and no other. -/
structure DispatchedByBeginning (line : List UInt8) : Prop where
  own : ∀ command ∈ atCmdCommands, ∀ param, Runs line command param ↔ Begins line command param
  foreign : ¬atText <+: skipSpaces line →
    ∀ event ∈ (atCmdExec line).2, event = .ok ∨ event = .error

/-- The first command of the table whose name stands somewhere in the text, and what is behind
the first place where it stands. -/
def FirstNamed (text : List UInt8) (entry : AtCmdStruct) (param : List UInt8) : Prop :=
  ∃ earlier later, atCmdsHj.tail = earlier ++ entry :: later ∧
    (∀ other ∈ earlier, ¬other.name <:+: text) ∧
    strstr text entry.name = some (entry.name ++ param)

/-- The commands that connect have no callback without a parameter. -/
def HasCallback (name param : List UInt8) : Prop :=
  param = [] → name ≠ ascii ['C', 'O', 'N', 'N'] ∧ name ≠ ascii ['C', 'O', 'N', 'A']

/-- If the command that is found first is not the one at the beginning, then neither of the two
may run. -/
def Unmistakable (line : List UInt8) : Prop :=
  ∀ entry param, FirstNamed (skipSpaces line) entry param →
    if entry.name <+: skipSpaces line then
      Allowed entry.cmd param → HasCallback entry.cmd param
    else
      ¬(Allowed entry.cmd param ∧ HasCallback entry.cmd param) ∧
        ∀ command ∈ atCmdCommands, ∀ own, ¬Begins line command own

/-! ## The tables -/

theorem atCmdsHj_name {entry : AtCmdStruct} (hentry : entry ∈ atCmdsHj.tail) :
    entry.name = ascii ['A', 'T', '+'] ++ entry.cmd :=
  (by decide : ∀ entry ∈ atCmdsHj.tail, entry.name = ascii ['A', 'T', '+'] ++ entry.cmd)
    entry hentry

/-- The length that is given is right where it is used. -/
theorem atCmdsHj_cmdLen {entry : AtCmdStruct} (hentry : entry ∈ atCmdsHj.tail)
    (hparam : entry.paramLen ≠ 0) : entry.cmdLen.toNat = entry.name.length :=
  (by decide : ∀ entry ∈ atCmdsHj.tail, entry.paramLen ≠ 0 →
    entry.cmdLen.toNat = entry.name.length) entry hentry hparam

/-- Every name is that of a command, which can be called as its length of parameter says. -/
theorem exists_command {entry : AtCmdStruct} (hentry : entry ∈ atCmdsHj.tail) :
    ∃ command ∈ atCmdCommands, command.atCmdName = entry.cmd ∧
      if entry.paramLen = 0 then command.execCb.isSome else command.setCb.isSome :=
  (by decide : ∀ entry ∈ atCmdsHj.tail, ∃ command ∈ atCmdCommands,
    command.atCmdName = entry.cmd ∧
      if entry.paramLen = 0 then command.execCb.isSome else command.setCb.isSome) entry hentry

theorem exists_entry {command : AtCmd} (hcommand : command ∈ atCmdCommands) :
    ∃ entry ∈ atCmdsHj.tail, entry.cmd = command.atCmdName :=
  (by decide : ∀ command ∈ atCmdCommands, ∃ entry ∈ atCmdsHj.tail,
    entry.cmd = command.atCmdName) command hcommand

theorem paramLen_eq {entry other : AtCmdStruct} (hentry : entry ∈ atCmdsHj.tail)
    (hother : other ∈ atCmdsHj) (hcmd : other.cmd = entry.cmd) :
    other.paramLen = entry.paramLen :=
  (by decide : ∀ entry ∈ atCmdsHj.tail, ∀ other ∈ atCmdsHj, other.cmd = entry.cmd →
    other.paramLen = entry.paramLen) entry hentry other hother hcmd

theorem find_command {command : AtCmd} (hcommand : command ∈ atCmdCommands) :
    (atCmdCommands.find? fun other => other.atCmdName = command.atCmdName) = some command :=
  (by decide : ∀ command ∈ atCmdCommands,
    (atCmdCommands.find? fun other => other.atCmdName = command.atCmdName) = some command)
    command hcommand

/-- No name starts another. -/
theorem eq_of_name_starts {command other : AtCmd} (hcommand : command ∈ atCmdCommands)
    (hother : other ∈ atCmdCommands) (hstarts : command.atCmdName <+: other.atCmdName) :
    command = other :=
  (by decide : ∀ command ∈ atCmdCommands, ∀ other ∈ atCmdCommands,
    command.atCmdName <+: other.atCmdName → command = other) command hcommand other hother hstarts

/-- No callback belongs to two commands. -/
theorem callback_distinct {command other : AtCmd} (hcommand : command ∈ atCmdCommands)
    (hother : other ∈ atCmdCommands) :
    (command.execCb = other.execCb → command.execCb.isSome → command = other) ∧
      (command.setCb = other.setCb → command.setCb.isSome → command = other) :=
  (by decide : ∀ command ∈ atCmdCommands, ∀ other ∈ atCmdCommands,
    (command.execCb = other.execCb → command.execCb.isSome → command = other) ∧
      (command.setCb = other.setCb → command.setCb.isSome → command = other))
    command hcommand other hother

theorem execCb_eq_none_iff {command : AtCmd} (hcommand : command ∈ atCmdCommands) :
    command.execCb = none ↔ command.atCmdName = ascii ['C', 'O', 'N', 'N'] ∨
      command.atCmdName = ascii ['C', 'O', 'N', 'A'] :=
  (by decide : ∀ command ∈ atCmdCommands, command.execCb = none ↔
    command.atCmdName = ascii ['C', 'O', 'N', 'N'] ∨
      command.atCmdName = ascii ['C', 'O', 'N', 'A']) command hcommand

/-! ## Runs -/

section Dispatch

variable {line text param : List UInt8} {entry : AtCmdStruct} {command : AtCmd}

theorem FirstNamed.mem (hfirst : FirstNamed text entry param) : entry ∈ atCmdsHj.tail := by
  obtain ⟨earlier, later, htable, -, -⟩ := hfirst
  rw [htable]
  exact List.mem_append_right _ List.mem_cons_self

theorem allowed_iff (hentry : entry ∈ atCmdsHj.tail) :
    Allowed entry.cmd param ↔ (entry.paramLen = 0 → param = []) := by
  constructor
  · intro hallowed
    exact hallowed entry (List.mem_of_mem_tail hentry) rfl
  · intro hparam other hother hcmd hlen
    exact hparam (paramLen_eq hentry hother hcmd ▸ hlen)

/-- What the loop finds is the first name, and what it does not find is not there. -/
theorem nameLoop_eq_some_iff {strCmd : List UInt8} :
    nameLoop text = some (entry, strCmd) ↔
      ∃ param, strCmd = entry.name ++ param ∧ FirstNamed text entry param := by
  rw [nameLoop, List.findSome?_eq_some_iff]
  constructor
  · rintro ⟨earlier, other, later, htable, hfound, hearlier⟩
    obtain ⟨found, hstrstr, hpair⟩ := Option.map_eq_some_iff.mp hfound
    obtain ⟨rfl, rfl⟩ := Prod.mk.inj hpair
    obtain ⟨param, hparam⟩ := (strstr_spec hstrstr).1
    refine ⟨param, hparam.symm, earlier, later, htable, ?_, hparam ▸ hstrstr⟩
    intro other hother
    exact strstr_eq_none_iff.mp (Option.map_eq_none_iff.mp (hearlier other hother))
  · rintro ⟨param, rfl, earlier, later, htable, hearlier, hfound⟩
    refine ⟨earlier, entry, later, htable, by rw [hfound]; rfl, ?_⟩
    intro other hother
    rw [strstr_eq_none_iff.mpr (hearlier other hother)]
    rfl

theorem nameLoop_eq_none_iff :
    nameLoop text = none ↔ ∀ entry ∈ atCmdsHj.tail, ¬entry.name <:+: text := by
  rw [nameLoop, List.findSome?_eq_none_iff]
  refine forall₂_congr fun entry _ => ?_
  rw [Option.map_eq_none_iff, strstr_eq_none_iff]

/-- A text in which a name stands is longer than `"AT"`. -/
theorem FirstNamed.ne (hfirst : FirstNamed text entry param) : text ≠ [] ∧ text ≠ atText := by
  have hname := atCmdsHj_name hfirst.mem
  obtain ⟨-, -, -, -, hfound⟩ := hfirst
  have hlen : 3 ≤ text.length := by
    have hsuffix := (strstr_spec hfound).2.length_le
    rw [hname] at hsuffix
    simp [ascii] at hsuffix
    omega
  constructor
  · rintro rfl
    exact absurd hlen (by decide)
  · rintro rfl
    exact absurd hlen (by decide)

/-- Two arguments call the callback without a parameter, three the one with the third. -/
theorem execCb_command (param : List UInt8) (hcommand : command ∈ atCmdCommands) :
    execCb 2 [atText, command.atCmdName] = [(command.execCb.map .exec).getD .error] ∧
      execCb 3 [atText, command.atCmdName, param] =
        [(command.setCb.map (.set · param)).getD .error] := by
  have hnil : atText ≠ [] := by decide
  constructor
  · simp only [execCb, List.getD_cons_zero, List.getD_cons_succ, find_command hcommand,
      if_neg hnil, ne_eq, not_true_eq_false, if_false]
    rfl
  · simp only [execCb, List.getD_cons_zero, List.getD_cons_succ, find_command hcommand,
      if_neg hnil, ne_eq, not_true_eq_false, if_false]
    rfl

theorem line2argv_of_firstNamed (hfirst : FirstNamed (skipSpaces line) entry param) :
    line2argv line =
      if entry.paramLen ≠ 0 then
        if param = [] then (2, [atText, entry.cmd]) else (3, [atText, entry.cmd, param])
      else if param = [] then (2, [atText, entry.cmd]) else (einval, [atText, entry.cmd]) := by
  have hloop := nameLoop_eq_some_iff.mpr ⟨param, rfl, hfirst⟩
  have hline : line ≠ [] := by
    rintro rfl
    exact hfirst.ne.1 rfl
  rw [line2argv, if_neg hline]
  dsimp only
  rw [if_neg hfirst.ne.1, if_neg hfirst.ne.2, hloop]
  dsimp only
  by_cases hlen : entry.paramLen = 0
  · rw [if_neg (not_not.mpr hlen), if_neg (not_not.mpr hlen)]
    by_cases hparam : param = []
    · rw [if_pos hparam, hparam, List.append_nil, if_neg (not_not.mpr rfl)]
    · rw [if_neg hparam, if_pos (mt List.append_right_eq_self.mp hparam)]
  · rw [if_pos hlen, if_pos hlen, atCmdsHj_cmdLen hfirst.mem hlen, List.drop_left,
      List.length_append]
    by_cases hparam : param = []
    · rw [if_pos hparam, hparam, List.length_nil, Nat.add_zero, if_neg (Nat.lt_irrefl _)]
    · rw [if_neg hparam, if_pos (Nat.lt_add_of_pos_right (List.length_pos_of_ne_nil hparam))]

/-- A line in which a name is found calls that command, if what is behind the name is allowed. -/
theorem atCmdExec_of_firstNamed (hfirst : FirstNamed (skipSpaces line) entry param)
    (hcommand : command ∈ atCmdCommands) (hname : command.atCmdName = entry.cmd) :
    (atCmdExec line).2 =
      if entry.paramLen = 0 ∧ param ≠ [] then []
      else [(callbackFor command param).getD .error] := by
  rw [atCmdExec, line2argv_of_firstNamed hfirst, ← hname]
  by_cases hparam : param = []
  · rw [if_pos hparam, if_pos hparam, ite_self, if_neg fun hboth => hboth.2 hparam, callbackFor,
      if_pos hparam]
    exact (execCb_command [] hcommand).1
  · rw [if_neg hparam, if_neg hparam, callbackFor, if_neg hparam]
    by_cases hlen : entry.paramLen = 0
    · rw [if_neg (not_not.mpr hlen), if_pos ⟨hlen, hparam⟩]
      rfl
    · rw [if_pos hlen, if_neg fun hboth => hlen hboth.1]
      exact (execCb_command param hcommand).2

theorem callbackFor_eq {callback : AtEvent}
    (hcallback : callbackFor command param = some callback) :
    callback ≠ .ok ∧ callback ≠ .error := by
  rw [callbackFor] at hcallback
  split_ifs at hcallback
  all_goals
    obtain ⟨-, -, rfl⟩ := Option.map_eq_some_iff.mp hcallback
    exact ⟨AtEvent.noConfusion, AtEvent.noConfusion⟩

/-- A callback with its parameter tells which command was called. -/
theorem callbackFor_injective {other : AtCmd} {otherParam : List UInt8} {callback : AtEvent}
    (hcommand : command ∈ atCmdCommands) (hother : other ∈ atCmdCommands)
    (hcallback : callbackFor command param = some callback)
    (hsame : callbackFor other otherParam = some callback) :
    command = other ∧ param = otherParam := by
  have hdistinct := callback_distinct hcommand hother
  rw [callbackFor] at hcallback hsame
  split_ifs at hcallback hsame with hparam hotherParam hotherParam
  · obtain ⟨exec, hexec, rfl⟩ := Option.map_eq_some_iff.mp hcallback
    obtain ⟨exec', hexec', heq⟩ := Option.map_eq_some_iff.mp hsame
    obtain rfl := AtEvent.exec.inj heq
    exact ⟨hdistinct.1 (hexec.trans hexec'.symm) (hexec ▸ rfl), hparam.trans hotherParam.symm⟩
  · obtain ⟨exec, -, rfl⟩ := Option.map_eq_some_iff.mp hcallback
    obtain ⟨set, -, heq⟩ := Option.map_eq_some_iff.mp hsame
    exact AtEvent.noConfusion heq
  · obtain ⟨set, -, rfl⟩ := Option.map_eq_some_iff.mp hcallback
    obtain ⟨exec, -, heq⟩ := Option.map_eq_some_iff.mp hsame
    exact AtEvent.noConfusion heq
  · obtain ⟨set, hset, rfl⟩ := Option.map_eq_some_iff.mp hcallback
    obtain ⟨set', hset', heq⟩ := Option.map_eq_some_iff.mp hsame
    obtain ⟨rfl, rfl⟩ := AtEvent.set.inj heq
    exact ⟨hdistinct.2 (hset.trans hset'.symm) (hset ▸ rfl), rfl⟩

/-- An allowed parameter has a callback, if it is there or the command has one without. -/
theorem callbackFor_isSome (hentry : entry ∈ atCmdsHj.tail) (hcommand : command ∈ atCmdCommands)
    (hname : command.atCmdName = entry.cmd) (hallowed : Allowed entry.cmd param) :
    (callbackFor command param).isSome ↔ HasCallback entry.cmd param := by
  obtain ⟨other, hother, hotherName, hcall⟩ := exists_command hentry
  obtain rfl : other = command :=
    eq_of_name_starts hother hcommand (by rw [hotherName, hname])
  rw [HasCallback, ← hname, callbackFor]
  by_cases hparam : param = []
  · rw [if_pos hparam, Option.isSome_map, Option.isSome_iff_ne_none, Ne,
      execCb_eq_none_iff hcommand, not_or]
    exact ⟨fun hboth _ => hboth, fun hboth => hboth hparam⟩
  · have hlen : entry.paramLen ≠ 0 := fun hlen => hparam ((allowed_iff hentry).mp hallowed hlen)
    rw [if_neg hlen] at hcall
    rw [if_neg hparam, Option.isSome_map]
    exact ⟨fun _ hnil => (hparam hnil).elim, fun _ => hcall⟩

theorem line2argv_of_none (hnone : nameLoop (skipSpaces line) = none) :
    line2argv line = (0, []) ∨ line2argv line = (1, [atText]) ∨ line2argv line = (einval, []) := by
  rw [line2argv]
  dsimp only
  rw [hnone]
  split_ifs
  · exact .inl rfl
  · exact .inl rfl
  · exact .inr (.inl rfl)
  · exact .inr (.inr rfl)

/-- Without a name only `"AT"` is answered. -/
theorem atCmdExec_of_none (hnone : nameLoop (skipSpaces line) = none) {event : AtEvent}
    (hevent : event ∈ (atCmdExec line).2) : event = .ok := by
  rw [atCmdExec] at hevent
  rcases line2argv_of_none hnone with hzero | hone | hinval
  · rw [hzero] at hevent
    exact (List.not_mem_nil hevent).elim
  · rw [hone] at hevent
    have hok : execCb 1 [atText] = [.ok] := by decide
    exact List.mem_singleton.mp (hok ▸ hevent)
  · rw [hinval] at hevent
    exact (List.not_mem_nil hevent).elim

/-- What a line does is an answer or the callback of a command. -/
theorem event_cases {event : AtEvent} (hevent : event ∈ (atCmdExec line).2) :
    event = .ok ∨ event = .error ∨ ∃ entry command param,
      FirstNamed (skipSpaces line) entry param ∧ command ∈ atCmdCommands ∧
        command.atCmdName = entry.cmd ∧ Allowed entry.cmd param ∧
        callbackFor command param = some event := by
  cases hloop : nameLoop (skipSpaces line) with
  | none => exact .inl (atCmdExec_of_none hloop hevent)
  | some found =>
      obtain ⟨entry, strCmd⟩ := found
      obtain ⟨param, rfl, hfirst⟩ := nameLoop_eq_some_iff.mp hloop
      obtain ⟨command, hcommand, hname, -⟩ := exists_command hfirst.mem
      rw [atCmdExec_of_firstNamed hfirst hcommand hname] at hevent
      split_ifs at hevent with hrefused
      · exact (List.not_mem_nil hevent).elim
      · have hallowed : Allowed entry.cmd param := (allowed_iff hfirst.mem).mpr fun hlen =>
          not_not.mp fun hparam => hrefused ⟨hlen, hparam⟩
        obtain rfl := List.mem_singleton.mp hevent
        cases hcallback : callbackFor command param with
        | none => exact .inr (.inl rfl)
        | some callback =>
            exact .inr (.inr ⟨entry, command, param, hfirst, hcommand, hname, hallowed, hcallback⟩)

/-- A command runs exactly if its name is the first that is found, the rest is allowed, and it
has a callback for it. -/
theorem runs_iff (hcommand : command ∈ atCmdCommands) :
    Runs line command param ↔ ∃ entry, FirstNamed (skipSpaces line) entry param ∧
      command.atCmdName = entry.cmd ∧ Allowed entry.cmd param ∧ HasCallback entry.cmd param := by
  constructor
  · rintro ⟨callback, hmem, hcallback⟩
    rcases event_cases hmem with hok | herror |
      ⟨entry, called, own, hfirst, hcalled, hname, hallowed, hown⟩
    · exact ((callbackFor_eq hcallback).1 hok).elim
    · exact ((callbackFor_eq hcallback).2 herror).elim
    · obtain ⟨rfl, rfl⟩ := callbackFor_injective hcalled hcommand hown hcallback
      exact ⟨entry, hfirst, hname, hallowed,
        (callbackFor_isSome hfirst.mem hcalled hname hallowed).mp (hown ▸ rfl)⟩
  · rintro ⟨entry, hfirst, hname, hallowed, hcall⟩
    have hsome := (callbackFor_isSome hfirst.mem hcommand hname hallowed).mpr hcall
    obtain ⟨callback, hcallback⟩ := Option.isSome_iff_exists.mp hsome
    refine ⟨callback, ?_, hcallback⟩
    rw [atCmdExec_of_firstNamed hfirst hcommand hname, hcallback, if_neg]
    · exact List.mem_singleton_self callback
    · rintro ⟨hlen, hparam⟩
      exact hparam ((allowed_iff hfirst.mem).mp hallowed hlen)

theorem Begins.starts (hbegins : Begins line command param)
    (hentry : entry ∈ atCmdsHj.tail) (hname : entry.cmd = command.atCmdName) :
    entry.name <+: skipSpaces line := by
  rw [hbegins.1, ← hname, ← atCmdsHj_name hentry]
  exact List.prefix_append entry.name param

/-- The first name stands at the beginning: the line starts with that command only. -/
theorem begins_iff_of_starts (hfirst : FirstNamed (skipSpaces line) entry param)
    (hstarts : entry.name <+: skipSpaces line) (hcommand : command ∈ atCmdCommands)
    {own : List UInt8} :
    Begins line command own ↔
      command.atCmdName = entry.cmd ∧ own = param ∧ Allowed entry.cmd param := by
  have hline : skipSpaces line = entry.name ++ param := by
    obtain ⟨-, -, -, -, hfound⟩ := hfirst
    rw [strstr_of_starts hstarts] at hfound
    exact Option.some.inj hfound
  have hentry := atCmdsHj_name hfirst.mem
  obtain ⟨other, hother, hotherName, -⟩ := exists_command hfirst.mem
  constructor
  · rintro ⟨hown, hallowed⟩
    rw [hline, hentry, List.append_assoc, List.append_assoc] at hown
    have hrest := List.append_cancel_left hown
    have hsame : other = command := by
      rcases List.prefix_or_prefix_of_prefix (hrest ▸ List.prefix_append _ _)
        (List.prefix_append _ _ : command.atCmdName <+: command.atCmdName ++ own) with hle | hle
      · exact eq_of_name_starts hother hcommand (hotherName ▸ hle)
      · exact (eq_of_name_starts hcommand hother (hotherName ▸ hle)).symm
    subst hsame
    rw [hotherName] at hrest hallowed
    obtain rfl := List.append_cancel_left hrest
    exact ⟨hotherName, rfl, hallowed⟩
  · rintro ⟨hname, rfl, hallowed⟩
    refine ⟨?_, hname ▸ hallowed⟩
    rw [hname, ← hentry]
    exact hline

theorem FirstNamed.unique {other : AtCmdStruct} {otherParam : List UInt8}
    (hfirst : FirstNamed text entry param) (hother : FirstNamed text other otherParam) :
    entry = other ∧ param = otherParam := by
  have hloop := nameLoop_eq_some_iff.mpr ⟨param, rfl, hfirst⟩
  rw [nameLoop_eq_some_iff.mpr ⟨otherParam, rfl, hother⟩] at hloop
  obtain ⟨rfl, hparam⟩ := Prod.mk.inj (Option.some.inj hloop)
  exact ⟨rfl, (List.append_cancel_left hparam).symm⟩

/-- A line that starts with a command has a first name. -/
theorem Begins.exists_firstNamed (hbegins : Begins line command param)
    (hcommand : command ∈ atCmdCommands) :
    ∃ first firstParam, FirstNamed (skipSpaces line) first firstParam := by
  obtain ⟨entry, hentry, hname⟩ := exists_entry hcommand
  cases hloop : nameLoop (skipSpaces line) with
  | none => exact (nameLoop_eq_none_iff.mp hloop entry hentry
      (hbegins.starts hentry hname).isInfix).elim
  | some found =>
      obtain ⟨firstParam, -, hfirst⟩ := nameLoop_eq_some_iff.mp hloop
      exact ⟨found.1, firstParam, hfirst⟩

end Dispatch

/-- A line runs the command it starts with, and no other, exactly if the first name of the table
that stands in it is the one at its beginning or neither of the two may run. -/
theorem dispatchedByBeginning_iff (line : List UInt8) :
    DispatchedByBeginning line ↔ Unmistakable line := by
  constructor
  · intro hdispatched entry param hfirst
    -- The command that is found is the one at the beginning, or a line starts with another one.
    obtain ⟨command, hcommand, hname, -⟩ := exists_command hfirst.mem
    by_cases hstarts : entry.name <+: skipSpaces line
    · rw [if_pos hstarts]
      intro hallowed
      have hbegins := (begins_iff_of_starts hfirst hstarts hcommand).mpr ⟨hname, rfl, hallowed⟩
      obtain ⟨other, hother, -, -, hcall⟩ :=
        (runs_iff hcommand).mp ((hdispatched.own command hcommand param).mpr hbegins)
      obtain ⟨rfl, -⟩ := hfirst.unique hother
      exact hcall
    · rw [if_neg hstarts]
      constructor
      · rintro ⟨hallowed, hcall⟩
        have hruns := (runs_iff hcommand).mpr ⟨entry, hfirst, hname, hallowed, hcall⟩
        exact hstarts (((hdispatched.own command hcommand param).mp hruns).starts hfirst.mem
          hname.symm)
      · intro own hown ownParam hbegins
        obtain ⟨other, hother, hotherName, -, -⟩ :=
          (runs_iff hown).mp ((hdispatched.own own hown ownParam).mpr hbegins)
        obtain ⟨rfl, -⟩ := hfirst.unique hother
        exact hstarts (hbegins.starts hfirst.mem hotherName.symm)
  · intro hline
    have hown : ∀ command ∈ atCmdCommands, ∀ param,
        Runs line command param ↔ Begins line command param := by
      intro command hcommand param
      rw [runs_iff hcommand]
      constructor
      · rintro ⟨entry, hfirst, hname, hallowed, hcall⟩
        have hsafe := hline entry param hfirst
        split_ifs at hsafe with hstarts
        · exact (begins_iff_of_starts hfirst hstarts hcommand).mpr ⟨hname, rfl, hallowed⟩
        · exact (hsafe.1 ⟨hallowed, hcall⟩).elim
      · intro hbegins
        obtain ⟨entry, firstParam, hfirst⟩ := hbegins.exists_firstNamed hcommand
        have hsafe := hline entry firstParam hfirst
        split_ifs at hsafe with hstarts
        · obtain ⟨hname, rfl, hallowed⟩ := (begins_iff_of_starts hfirst hstarts hcommand).mp hbegins
          exact ⟨entry, hfirst, hname, hallowed, hsafe hallowed⟩
        · exact (hsafe.2 command hcommand param hbegins).elim
    refine ⟨hown, ?_⟩
    intro hforeign event hevent
    rcases event_cases hevent with hok | herror |
      ⟨entry, command, param, -, hcommand, -, -, hcallback⟩
    · exact .inl hok
    · exact .inr herror
    · have hbegins := (hown command hcommand param).mp ⟨event, hevent, hcallback⟩
      refine (hforeign ?_).elim
      rw [hbegins.1]
      exact ⟨ascii ['+'] ++ command.atCmdName ++ param, by simp [atText, ascii]⟩

/-- A name that is set must not hold a command. -/
theorem name_runs_reset :
    ¬DispatchedByBeginning (ascii ['A', 'T', '+', 'N', 'A', 'M', 'E', 'A', 'T', '+', 'R', 'E', 'S',
      'E', 'T']) := by
  intro hdispatched
  have hreset := (hdispatched.own ⟨ascii ['R', 'E', 'S', 'E', 'T'], none, none, some .atCmdReset⟩
    (by decide) []).mp ⟨.exec .atCmdReset, by decide, rfl⟩
  exact absurd hreset.1 (by decide)

end CubieBle.BleModule
