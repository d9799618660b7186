import Mathlib.Data.UInt
import CubieBle.Machine.CString
import CubieBle.Machine.Pieces

/-! # The tokenizers of the AT commands

Both modules cut a line in place: at a plus sign, and behind it at a sign of their own. The two
loops share the pointer that is searched from, and the inner one leaves it at NULL when it finds
no further separator. A search from NULL is recorded, and finds nothing.
-/

namespace CubieBle.At

open Machine

def argcMax : Nat := 10

/-- `-EINVAL` -/
def einval : Int := -22

/-- `"AT"` -/
def atText : List UInt8 := ascii ['A', 'T']

/-- A command with its callbacks, which the two modules have of their own. -/
structure AtCmd (SetCb GetCb ExecCb : Type) where
  atCmdName : List UInt8
  setCb : Option SetCb
  getCb : Option GetCb
  execCb : Option ExecCb
deriving DecidableEq

def plus : UInt8 := 0x2b

def isBlank (char : UInt8) : Bool := char = 0x20

/-- What the two tokenizers do differently. -/
structure Tokenizer where
  /-- The separator of the inner loop. -/
  separator : UInt8
  /-- What is returned if the line ends behind a separator. Without it the loop is left. -/
  onBlank : Option Int
  /-- What is returned if there are too many pieces. -/
  onFull : Int
  separator_ne : separator ≠ 0
  separator_notSpace : isBlank separator = false
  onBlank_le : ∀ result ∈ onBlank, result ≤ 0
  onFull_le : onFull ≤ 0

/-- The memory from the start of the line on, the pointers in `argv`, where `argv` was written,
and the pointers that `strchr` was called with. -/
structure Scan where
  memory : List UInt8
  argv : List Nat := []
  stores : List Nat := []
  searches : List (Option Nat) := []

/-- How a loop ends: with what is left in the pointer, or by a return. -/
inductive Exit where
  | left (str : Option Nat)
  | returned (result : Int)

inductive Round where
  | exit (exit : Exit)
  | next (str : Nat)

namespace Scan

/-- `argv[argc++] = str` -/
def store (scan : Scan) (str : Nat) : Scan :=
  { scan with argv := scan.argv ++ [str], stores := scan.stores ++ [scan.argv.length] }

/-- `argv[argc] = NULL` -/
def close (scan : Scan) : Scan :=
  { scan with stores := scan.stores ++ [scan.argv.length] }

def strchr (scan : Scan) (str : Option Nat) (char : UInt8) : Option Nat × Scan :=
  (str.bind fun p => Machine.strchr scan.memory p char,
    { scan with searches := scan.searches ++ [str] })

/-- `*str++ = '\0'`, and the loop over the spaces behind it. -/
def cut (scan : Scan) (str : Nat) : Nat × Scan :=
  let memory := scan.memory.set str 0
  (skip isBlank memory (str + 1), { scan with memory := memory })

end Scan

/-- The end of the function behind the loops: `argv` is closed. -/
def ofExit : Exit × Scan → Int × Scan
  | (.left _, scan) => (scan.argv.length, scan.close)
  | (.returned result, scan) => (result, scan)

namespace Tokenizer

variable (tokenizer : Tokenizer) (size : Nat)

/-- The exit of a loop when the line ends behind a separator. -/
def blankExit (str : Nat) : Exit :=
  match tokenizer.onBlank with
  | none => .left (some str)
  | some result => .returned result

/-- The condition of a loop, and its body up to where the inner loop stands in the outer one. -/
def round (separator : UInt8) (str : Option Nat) (scan : Scan) : Round × Scan :=
  match scan.strchr str separator with
  | (none, scan) => (.exit (.left none), scan)
  | (some str, scan) =>
      let (str, scan) := scan.cut str
      if charAt scan.memory str = 0 then (.exit (tokenizer.blankExit str), scan)
      else
        let scan := scan.store str
        if scan.argv.length = size then (.exit (.returned tokenizer.onFull), scan)
        else (.next str, scan)

def innerLoop : Nat → Option Nat → Scan → Option (Exit × Scan)
  | 0, _, _ => none
  | fuel + 1, str, scan =>
      match tokenizer.round size tokenizer.separator str scan with
      | (.exit exit, scan) => some (exit, scan)
      | (.next str, scan) => innerLoop fuel (some str) scan

def outerLoop : Nat → Option Nat → Scan → Option (Exit × Scan)
  | 0, _, _ => none
  | fuel + 1, str, scan =>
      match tokenizer.round size plus str scan with
      | (.exit exit, scan) => some (exit, scan)
      | (.next str, scan) =>
          match tokenizer.innerLoop size fuel (some str) scan with
          | none => none
          | some (.returned result, scan) => some (.returned result, scan)
          -- The pointer is NULL if the inner loop found no further separator.
          | some (.left str, scan) => outerLoop fuel str scan

/-- The result and the scan, if the fuel is enough. -/
def line2argv (fuel : Nat) (memory : List UInt8) : Option (Int × Scan) :=
  if cstr memory 0 = [] then some (0, { memory := memory })
  else
    let str := skip isBlank memory 0
    if charAt memory str = 0 then some (0, { memory := memory })
    else
      (tokenizer.outerLoop size fuel (some str) (Scan.store { memory := memory } str)).map ofExit

end Tokenizer

/-- `line2argv` of the peripheral module. -/
def dashTokenizer : Tokenizer where
  separator := 0x2d
  onBlank := none
  onFull := 0
  separator_ne := by decide
  separator_notSpace := by decide
  onBlank_le := by decide
  onFull_le := by decide

/-- `line2argv` of the module, with an equal sign. -/
def equalTokenizer : Tokenizer where
  separator := 0x3d
  onBlank := some einval
  onFull := einval
  separator_ne := by decide
  separator_notSpace := by decide
  onBlank_le := by decide
  onFull_le := by decide

/-- The size of `argv` in `at_cmd_exec`. -/
def argvSize : Nat := argcMax + 1

/-- What the caller gets: the number of arguments and their texts, or an error. -/
def outcome (found : Int × Scan) : Int × List (List UInt8) :=
  (found.1, if 0 < found.1 then found.2.argv.map (cstr found.2.memory) else [])

/-- A search starts at a pointer into the line, and `argv` is written inside its size. -/
structure StaysInside (size : Nat) (line : List UInt8) (scan : Scan) : Prop where
  searches : ∀ search ∈ scan.searches, ∃ p ≤ line.length, search = some p
  stores : ∀ index ∈ scan.stores, index < size

/-- The tokenizer comes to an end on the line and stays inside, and it finds the same whatever is
behind the line in the memory. -/
def SafeOn (tokenizer : Tokenizer) (size : Nat) (line : List UInt8) : Prop :=
  ∃ enough result, ∀ fuel ≥ enough, ∀ rest, ∃ found,
    tokenizer.line2argv size fuel (line ++ 0 :: rest) = some found ∧
      StaysInside size line found.2 ∧ outcome found = result

/-- What is behind the first plus sign of the line, without leading spaces. -/
def behindPlus (line : List UInt8) : List UInt8 :=
  (((line.dropWhile isBlank).dropWhile fun char => char ≠ plus).drop 1).dropWhile isBlank

/-- Behind the first plus sign there is nothing, or the last separator has only spaces behind it,
or `argv` is full before the line ends. -/
def NeverFromNull (separator : UInt8) (size : Nat) (line : List UInt8) : Prop :=
  behindPlus line = [] ∨ EndsBlank separator isBlank (behindPlus line) ∨
    size ≤ goingOn separator isBlank (behindPlus line) + 2

end CubieBle.At
