import CubieBle.At.Tokens

/-! # Lines of the peripheral module

A line is cut into tokens, and the command that the second one names is called. The handler does
not look at the result.
-/

namespace CubieBle.ModulePer

open Machine At

inductive SetCb where
  | atCmdAdvSet
  | atCmdAdvIntervalSet
  | atCmdAdvNameSet
  | atCmdAdvBaudrateSet
  | atCmdConnIntervalSet
  | atCmdTxPowerSet
  | atCmdAdvDataSet
  | atCmdDataSrvUuidSet
  | atCmdDrvSrvUuidSet
  | atCmdDataTxCharUuidSet
  | atCmdDataRxCharUuidSet
  | atCmdDrvAdcCharUuidSet
  | atCmdDrvPwmCharUuidSet
  | atCmdRssiSet
  | atCmdRtsFuncSet
deriving DecidableEq

inductive GetCb where
  | atCmdAdvGet
  | atCmdAdvIntervalGet
  | atCmdAdvBaudrateGet
  | atCmdConnIntervalGet
  | atCmdTxPowerGet
  | atCmdAdvDataGet
  | atCmdDataSrvUuidGet
  | atCmdDrvSrvUuidGet
  | atCmdDataTxCharUuidGet
  | atCmdDataRxCharUuidGet
  | atCmdDrvAdcCharUuidGet
  | atCmdDrvPwmCharUuidGet
  | atCmdRssiGet
  | atCmdRtsFuncGet
deriving DecidableEq

inductive ExecCb where
  | atCmdReset
  | atCmdBtAddr
  | atCmdVerInfo
deriving DecidableEq

abbrev AtCmd := At.AtCmd SetCb GetCb ExecCb

def atCmdCommands : List AtCmd := [
  ⟨ascii ['S', 'T', 'R', 'S'], none, none, some .atCmdReset⟩,
  ⟨ascii ['A', 'D', 'S', 'T'], some .atCmdAdvSet, some .atCmdAdvGet, none⟩,
  ⟨ascii ['A', 'D', 'I', 'T'], some .atCmdAdvIntervalSet, some .atCmdAdvIntervalGet, none⟩,
  ⟨ascii ['N', 'A', 'M', 'E'], some .atCmdAdvNameSet, none, none⟩,
  ⟨ascii ['B', 'A', 'U', 'D'], some .atCmdAdvBaudrateSet, some .atCmdAdvBaudrateGet, none⟩,
  ⟨ascii ['C', 'N', 'I', 'T'], some .atCmdConnIntervalSet, some .atCmdConnIntervalGet, none⟩,
  ⟨ascii ['T', 'X', 'P', 'W'], some .atCmdTxPowerSet, some .atCmdTxPowerGet, none⟩,
  ⟨ascii ['G', 'M', 'A', 'C'], none, none, some .atCmdBtAddr⟩,
  ⟨ascii ['M', 'A', 'F', 'D'], some .atCmdAdvDataSet, some .atCmdAdvDataGet, none⟩,
  ⟨ascii ['S', 'E', 'R', 'N'], some .atCmdDataSrvUuidSet, some .atCmdDataSrvUuidGet, none⟩,
  ⟨ascii ['S', 'E', 'R', 'D'], some .atCmdDrvSrvUuidSet, some .atCmdDrvSrvUuidGet, none⟩,
  ⟨ascii ['C', 'H', 'A', 'T'], some .atCmdDataTxCharUuidSet, some .atCmdDataTxCharUuidGet, none⟩,
  ⟨ascii ['C', 'H', 'A', 'R'], some .atCmdDataRxCharUuidSet, some .atCmdDataRxCharUuidGet, none⟩,
  ⟨ascii ['C', 'H', 'A', 'D'], some .atCmdDrvAdcCharUuidSet, some .atCmdDrvAdcCharUuidGet, none⟩,
  ⟨ascii ['C', 'H', 'A', 'P'], some .atCmdDrvPwmCharUuidSet, some .atCmdDrvPwmCharUuidGet, none⟩,
  ⟨ascii ['C', 'O', 'D', 'V'], none, none, some .atCmdVerInfo⟩,
  ⟨ascii ['R', 'S', 'S', 'I'], some .atCmdRssiSet, some .atCmdRssiGet, none⟩,
  ⟨ascii ['C', 'R', 'T', 'S'], some .atCmdRtsFuncSet, some .atCmdRtsFuncGet, none⟩]

inductive AtEvent where
  | ok
  | error
  | set (callback : SetCb) (param : List UInt8)
  | get (callback : GetCb)
  | exec (callback : ExecCb)
deriving DecidableEq

/-- The call of a command with so many arguments, the third of which is its parameter. -/
def callCommand (command : AtCmd) (argc : Int) (param : List UInt8) : List AtEvent :=
  if argc = 2 then [(command.execCb.map .exec).getD .error]
  else if argc = 3 then
    if charAt param 0 = 0x3f then [(command.getCb.map .get).getD .error]
    else [(command.setCb.map (.set · param)).getD .error]
  -- More than one parameter: neither a callback nor an answer.
  else []

def execCb (argc : Int) (argv : List (List UInt8)) : List AtEvent :=
  if argv.getD 0 [] = [] then [.error]
  else if argv.getD 0 [] ≠ atText then [.error]
  else if argc = 1 then [.ok]
  else
    match atCmdCommands.find? fun command => command.atCmdName = argv.getD 1 [] with
    | none => [.error]
    | some command => callCommand command argc (argv.getD 2 [])

/-- The result and what was done. -/
def atCmdExec (fuel : Nat) (memory : List UInt8) : Option (Int × List AtEvent) :=
  (dashTokenizer.line2argv argvSize fuel memory).map fun found =>
    let (argc, argv) := outcome found
    if argc = 0 then (einval, []) else (argc, execCb argc argv)

/-- A round of the handler. The result is not used. -/
def atCmdHandler (fuel : Nat) (memory : List UInt8) : Option (List AtEvent) :=
  (atCmdExec fuel memory).map Prod.snd

/-! ## Verdicts -/

/-- The tokens behind the first one: the name of a command and its parameters. -/
def Named (line : List UInt8) (tokens : List (List UInt8)) : Prop :=
  ∃ ending, Cut 0x2d isBlank (behindPlus line) tokens ending

/-- The callbacks of the command that the second token names. -/
inductive OwnCallback (line : List UInt8) : AtEvent → Prop where
  | exec {command : AtCmd} {callback : ExecCb} (hcommand : command ∈ atCmdCommands)
      (hcallback : command.execCb = some callback) (hnamed : Named line [command.atCmdName]) :
      OwnCallback line (.exec callback)
  | get {command : AtCmd} {callback : GetCb} {param : List UInt8}
      (hcommand : command ∈ atCmdCommands) (hcallback : command.getCb = some callback)
      (hnamed : Named line [command.atCmdName, param]) (hparam : param.head? = some 0x3f) :
      OwnCallback line (.get callback)
  | set {command : AtCmd} {callback : SetCb} {param : List UInt8}
      (hcommand : command ∈ atCmdCommands) (hcallback : command.setCb = some callback)
      (hnamed : Named line [command.atCmdName, param]) (hparam : param.head? ≠ some 0x3f) :
      OwnCallback line (.set callback param)

/-- One answer is printed or one callback is run, the right one. -/
def Verdict (line : List UInt8) (events : List AtEvent) : Prop :=
  ∃ event, events = [event] ∧ (event = .ok ∨ event = .error ∨ OwnCallback line event)

/-- The handler comes to a verdict, whatever is behind the line in the memory. -/
def Answered (line : List UInt8) : Prop :=
  ∃ enough events, (∀ fuel ≥ enough, ∀ rest, atCmdHandler fuel (line ++ 0 :: rest) = some events) ∧
    Verdict line events

def firstToken (line : List UInt8) : List UInt8 :=
  (line.dropWhile isBlank).takeWhile fun char => char ≠ plus

def secondToken (line : List UInt8) : List UInt8 :=
  (behindPlus line).takeWhile fun char => char ≠ 0x2d

/-- How many parameters stand behind the command. -/
def params (line : List UInt8) : Nat := goingOn 0x2d isBlank (behindPlus line)

/-- There is at most one parameter, or there are fewer than nine for no command. -/
def Answerable (line : List UInt8) : Prop :=
  params line ≤ 1 ∨ params line < 9 ∧
    ¬(firstToken line = atText ∧ ∃ command ∈ atCmdCommands, command.atCmdName = secondToken line)

section Verdicts

variable {line first : List UInt8} {pieces : List (List UInt8)}

theorem verdict_error : Verdict line [.error] := ⟨.error, rfl, .inr (.inl rfl)⟩

theorem not_verdict_nil : ¬Verdict line [] := by
  rintro ⟨event, hevents, -⟩
  exact List.cons_ne_nil _ _ hevents.symm

theorem charAt_zero_eq_iff (param : List UInt8) :
    charAt param 0 = 0x3f ↔ param.head? = some 0x3f := by
  cases param with
  | nil => decide
  | cons char rest => exact Option.some_inj.symm

/-- A missing callback is answered with an error. -/
theorem verdict_callback {Callback : Type} {callback : Option Callback}
    {event : Callback → AtEvent}
    (hown : ∀ found, callback = some found → OwnCallback line (event found)) :
    Verdict line [(callback.map event).getD .error] := by
  cases hcallback : callback with
  | none => exact verdict_error
  | some found => exact ⟨event found, rfl, .inr (.inr (hown found hcallback))⟩

/-- A command with at most one parameter comes to a verdict, one with more is passed over. -/
theorem verdict_callCommand {command : AtCmd} {params : List (List UInt8)}
    (hcommand : command ∈ atCmdCommands) (hnamed : Named line (command.atCmdName :: params)) :
    Verdict line (callCommand command (params.length + 2) (params.getD 0 [])) ↔
      params.length ≤ 1 := by
  match params with
  | [] =>
      refine iff_of_true ?_ (Nat.zero_le 1)
      exact verdict_callback fun callback hcallback => .exec hcommand hcallback hnamed
  | [param] =>
      refine iff_of_true ?_ le_rfl
      have hcall : callCommand command (([param].length : Int) + 2) ([param].getD 0 []) =
          if charAt param 0 = 0x3f then [(command.getCb.map .get).getD .error]
          else [(command.setCb.map (.set · param)).getD .error] := rfl
      rw [hcall]
      split_ifs with hget
      · exact verdict_callback fun callback hcallback =>
          .get hcommand hcallback hnamed ((charAt_zero_eq_iff param).mp hget)
      · exact verdict_callback fun callback hcallback =>
          .set hcommand hcallback hnamed (mt (charAt_zero_eq_iff param).mpr hget)
  | first :: second :: rest =>
      have hlength : (first :: second :: rest).length = rest.length + 2 := rfl
      refine iff_of_false ?_ (by omega)
      rw [callCommand, if_neg (by omega), if_neg (by omega)]
      exact not_verdict_nil

/-- What is done for tokens that follow from the line. -/
theorem verdict_execCb (hnamed : Named line pieces) :
    Verdict line (execCb (pieces.length + 1) (first :: pieces)) ↔
      pieces.length ≤ 2 ∨
        ¬(first = atText ∧ ∃ command ∈ atCmdCommands, some command.atCmdName = pieces.head?) := by
  obtain ⟨ending, hcut⟩ := hnamed
  obtain ⟨name, params, rfl⟩ := List.exists_cons_of_ne_nil hcut.pieces_ne_nil
  rw [execCb, List.getD_cons_zero, List.getD_cons_succ, List.getD_cons_zero, List.getD_cons_succ,
    List.getD_cons_succ, List.head?_cons]
  by_cases hfirst : first = atText
  · have hcount : ((name :: params).length : Int) + 1 = params.length + 2 := by
      rw [List.length_cons]
      omega
    rw [if_neg (by rw [hfirst]; decide), if_neg (not_not.mpr hfirst), hcount, if_neg (by omega)]
    cases hfind : atCmdCommands.find? fun command => command.atCmdName = name with
    | none =>
        refine iff_of_true verdict_error (.inr ?_)
        rintro ⟨-, command, hcommand, hname⟩
        have hnone := List.find?_eq_none.mp hfind command hcommand
        exact hnone (decide_eq_true (Option.some.inj hname))
    | some command =>
        have hcommand := List.mem_of_find?_eq_some hfind
        have hname := List.find?_some hfind
        obtain rfl : command.atCmdName = name := of_decide_eq_true hname
        rw [verdict_callCommand hcommand ⟨ending, hcut⟩, List.length_cons]
        constructor
        · exact fun hle => .inl (Nat.succ_le_succ hle)
        · rintro (hle | hunknown)
          · exact Nat.le_of_succ_le_succ hle
          · exact (hunknown ⟨hfirst, command, hcommand, rfl⟩).elim
  · refine iff_of_true ?_ (.inr fun hboth => hfirst hboth.1)
    by_cases hnil : first = []
    · rw [if_pos hnil]
      exact verdict_error
    · rw [if_neg hnil, if_pos hfirst]
      exact verdict_error

/-- The result is the number of the tokens, or 0 for a line that is given up. -/
theorem result_nonneg {result : Int} {tokens : List (List UInt8)} {fromNull : Bool}
    (htokenized : Tokenized dashTokenizer argvSize line result tokens fromNull) : 0 ≤ result := by
  cases htokenized with
  | empty hline => exact Int.le_refl 0
  | single hline hne htext => exact Int.zero_le_ofNat 1
  | bare hline hfirst htail => exact Int.zero_le_ofNat 1
  | full hline hfirst htail hcut hfull => exact Int.le_refl 0
  | @exhausted first tail pieces hline hfirst htail hcut hroom =>
      exact Int.natCast_nonneg (pieces.length + 1)
  | @blank first tail pieces hline hfirst htail hcut hroom =>
      exact Int.natCast_nonneg (pieces.length + 1)

theorem atCmdHandler_tokenized {result : Int} {tokens : List (List UInt8)} {fromNull : Bool}
    (hzero : (0 : UInt8) ∉ line)
    (htokenized : Tokenized dashTokenizer argvSize line result tokens fromNull) :
    ∃ enough, ∀ fuel ≥ enough, ∀ rest, atCmdHandler fuel (line ++ 0 :: rest) =
      some (if result = 0 then [] else execCb result tokens) := by
  obtain ⟨enough, hrun⟩ := htokenized.run (by decide) hzero
  refine ⟨enough, fun fuel hfuel rest => ?_⟩
  obtain ⟨found, hfound, hspec⟩ := hrun fuel hfuel rest
  rw [atCmdHandler, atCmdExec, hfound, Option.map_some, Option.map_some, outcome, hspec.value]
  dsimp only
  by_cases hresult : result = 0
  · rw [if_pos hresult, if_pos hresult]
  · have hnonneg := result_nonneg htokenized
    have hpos : 0 < result := by omega
    rw [if_neg hresult, if_neg hresult, if_pos hpos, hspec.texts hpos]

theorem answered_iff_verdict {result : Int} {tokens : List (List UInt8)} {fromNull : Bool}
    (hzero : (0 : UInt8) ∉ line)
    (htokenized : Tokenized dashTokenizer argvSize line result tokens fromNull) :
    Answered line ↔ Verdict line (if result = 0 then [] else execCb result tokens) := by
  obtain ⟨enough, hhandler⟩ := atCmdHandler_tokenized hzero htokenized
  constructor
  · rintro ⟨enough', events, hevents, hverdict⟩
    have hsame := hevents (max enough enough') (le_max_right _ _) []
    rw [hhandler (max enough enough') (le_max_left _ _) []] at hsame
    exact Option.some.inj hsame ▸ hverdict
  · exact fun hverdict => ⟨enough, _, hhandler, hverdict⟩

/-- A line without a name is answered. -/
theorem verdict_single : Verdict line (execCb 1 [first]) := by
  rw [execCb, List.getD_cons_zero]
  split_ifs with hnil hat hone
  · exact verdict_error
  · exact verdict_error
  · exact ⟨.ok, rfl, .inl rfl⟩
  · exact (hone rfl).elim

theorem firstToken_eq {tail : List UInt8} (hline : line.dropWhile isBlank = first ++ plus :: tail)
    (hfirst : plus ∉ first) : firstToken line = first := by
  have hpiece : ∀ char ∈ first, decide (char ≠ plus) = true := fun char hchar =>
    decide_eq_true fun heq => hfirst (heq ▸ hchar)
  rw [firstToken, hline, List.takeWhile_append_of_pos hpiece, List.takeWhile_cons_of_neg (by simp),
    List.append_nil]

/-- The verdict on a line whose tokens fit. -/
theorem verdict_pieces {tail : List UInt8} {ending : Ending}
    (hline : line.dropWhile isBlank = first ++ plus :: tail) (hfirst : plus ∉ first)
    (hcut : Cut 0x2d isBlank (tail.dropWhile isBlank) pieces ending)
    (hroom : pieces.length + 1 < argvSize) :
    Verdict line (execCb (pieces.length + 1) (first :: pieces)) ↔ Answerable line := by
  have hspace : isBlank 0x2d = false := by decide
  have hbehind := behindPlus_eq hline hfirst
  have hlength := hcut.length hspace
  have hsecond : pieces.head? = some (secondToken line) := by
    rw [hcut.head, secondToken, hbehind]
  have hsize : argvSize = 11 := rfl
  have hfew : goingOn 0x2d isBlank (tail.dropWhile isBlank) < 9 := by omega
  rw [verdict_execCb ⟨ending, hbehind ▸ hcut⟩, Answerable, params, hbehind,
    firstToken_eq hline hfirst, hsecond, hlength, Nat.succ_le_succ_iff]
  simp only [Option.some.injEq, hfew, true_and]

/-- A line without a text behind a plus sign has no parameter. -/
theorem answerable_of_behindPlus (hbehind : behindPlus line = []) : Answerable line := by
  refine .inl ?_
  rw [params, hbehind]
  exact Nat.zero_le 1

theorem answered_iff_of_tokenized {result : Int} {tokens : List (List UInt8)} {fromNull : Bool}
    (hzero : (0 : UInt8) ∉ line) (hline : ∃ char ∈ line, isBlank char = false)
    (htokenized : Tokenized dashTokenizer argvSize line result tokens fromNull) :
    Answered line ↔ Answerable line := by
  rw [answered_iff_verdict hzero htokenized]
  cases htokenized with
  | empty hblank =>
      obtain ⟨char, hmem, hchar⟩ := hline
      rw [List.dropWhile_eq_nil_iff.mp hblank char hmem] at hchar
      exact Bool.noConfusion hchar
  | single hline hne htext =>
      exact iff_of_true verdict_single
        (answerable_of_behindPlus (behindPlus_of_not_mem (hline ▸ htext)))
  | bare hline hfirst htail =>
      exact iff_of_true verdict_single
        (answerable_of_behindPlus ((behindPlus_eq hline hfirst).trans htail))
  | @full first tail pieces ending hline hfirst htail hcut hfull =>
      refine iff_of_false not_verdict_nil ?_
      have hlength := hcut.length dashTokenizer.separator_notSpace
      have hmany : 9 ≤ params line := by
        have hsize : argvSize = 11 := rfl
        have hparams : params line =
            goingOn dashTokenizer.separator isBlank (tail.dropWhile isBlank) := by
          rw [params, behindPlus_eq hline hfirst]
          rfl
        omega
      rintro (hone | ⟨hfew, -⟩)
      · omega
      · omega
  | @exhausted first tail pieces hline hfirst htail hcut hroom =>
      rw [if_neg (by omega)]
      exact verdict_pieces hline hfirst hcut hroom
  | @blank first tail pieces hline hfirst htail hcut hroom =>
      have hresult : dashTokenizer.onBlank.getD ((pieces.length : Int) + 1) = pieces.length + 1 :=
        rfl
      rw [hresult, if_neg (by omega)]
      exact verdict_pieces hline hfirst hcut hroom

end Verdicts

/-- A line that is not blank is answered exactly if it has at most one parameter, or fewer than
nine behind something that is no command. -/
theorem answered_iff_answerable (line : List UInt8) (hzero : (0 : UInt8) ∉ line)
    (hline : ∃ char ∈ line, isBlank char = false) : Answered line ↔ Answerable line := by
  obtain ⟨result, tokens, fromNull, htokenized⟩ := exists_tokenized dashTokenizer argvSize line
  exact answered_iff_of_tokenized hzero hline htokenized

/-- `"AT+NAME-a"` has one parameter. -/
theorem one_parameter_answered :
    Answered [0x41, 0x54, 0x2b, 0x4e, 0x41, 0x4d, 0x45, 0x2d, 0x61] :=
  (answered_iff_answerable _ (by decide) ⟨0x41, by decide, by decide⟩).mpr (.inl (by decide))

/-- `"AT+NAME-a-b"` is passed over. -/
theorem two_parameters_not_answered :
    ¬Answered [0x41, 0x54, 0x2b, 0x4e, 0x41, 0x4d, 0x45, 0x2d, 0x61, 0x2d, 0x62] := by
  obtain ⟨result, tokens, fromNull, htokenized⟩ := exists_tokenized dashTokenizer argvSize
    [0x41, 0x54, 0x2b, 0x4e, 0x41, 0x4d, 0x45, 0x2d, 0x61, 0x2d, 0x62]
  rw [answered_iff_of_tokenized (by decide) ⟨0x41, by decide, by decide⟩ htokenized]
  unfold Answerable
  decide

end CubieBle.ModulePer
