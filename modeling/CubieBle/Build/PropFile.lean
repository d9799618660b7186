import Mathlib.Data.List.DropRight
import Mathlib.Data.List.Nodup

/-! # Property files

A property is a line with a name, `=` and a value; blank lines and comments are skipped. The
properties are kept in the order in which their names came first, and are written back as they
are.
-/

namespace CubieBle.Build

/-! ## Text -/

abbrev Text := List Char

/-- `str.isspace` of a character. -/
def isSpace (c : Char) : Bool :=
  (9 ≤ c.toNat ∧ c.toNat ≤ 13) ∨ (28 ≤ c.toNat ∧ c.toNat ≤ 32) ∨ c.toNat = 0x85 ∨
    c.toNat = 0xa0 ∨ c.toNat = 0x1680 ∨ (0x2000 ≤ c.toNat ∧ c.toNat ≤ 0x200a) ∨
    c.toNat = 0x2028 ∨ c.toNat = 0x2029 ∨ c.toNat = 0x202f ∨ c.toNat = 0x205f ∨ c.toNat = 0x3000

/-- `str.strip`. -/
def strip (text : Text) : Text := (text.dropWhile isSpace).rdropWhile isSpace

/-- The end of a line is `\n` for every file that is opened as a text. -/
def universalNewlines : Text → Text
  | '\r' :: '\n' :: rest => '\n' :: universalNewlines rest
  | '\r' :: rest => '\n' :: universalNewlines rest
  | c :: rest => c :: universalNewlines rest
  | [] => []

/-- The lines of a text with their ends. -/
def splitLines : Text → List Text
  | [] => []
  | c :: rest =>
      if c = '\n' then ['\n'] :: splitLines rest
      else
        match splitLines rest with
        | [] => [[c]]
        | line :: lines => (c :: line) :: lines

def readlines (text : Text) : List Text := splitLines (universalNewlines text)

/-! ## The class `PropFile` -/

/-- A `dict` in the order of insertion. -/
abbrev Props := List (Text × Text)

def propNameMax : Nat := 127

def propValueMax : Nat := 1023

def validateProp (name value : Text) : Bool :=
  name ≠ [] ∧ name.length ≤ propNameMax ∧ value.length ≤ propValueMax

/-- `props[name] = value`. -/
def Props.assign (props : Props) (name value : Text) : Props :=
  if name ∈ props.map Prod.fst then
    props.map fun prop => if prop.1 = name then (name, value) else prop
  else props ++ [(name, value)]

def Props.set (props : Props) (name value : Text) : Props :=
  let name := strip name
  let value := strip value
  if validateProp name value then props.assign name value else props

/-- One line of `__to_dict`. -/
def Props.addLine (props : Props) (line : Text) : Props :=
  if line = [] ∨ line.head? = some '#' then props
  else if '=' ∈ line then
    props.set (line.takeWhile (· ≠ '=')) ((line.dropWhile (· ≠ '=')).drop 1)
  else props

def propFile (lines : List Text) : Props := (lines.map strip).foldl Props.addLine []

def writeProp (prop : Text × Text) : Text := prop.1 ++ '=' :: prop.2 ++ ['\n']

/-- The text that `write` writes. -/
def Props.write (props : Props) : Text := props.flatMap writeProp ++ ['\n']

/-! ## Stripped texts -/

structure Stripped (text : Text) : Prop where
  first : ∀ c ∈ text.head?, isSpace c = false
  last : ∀ c ∈ text.getLast?, isSpace c = false

theorem dropWhile_of_head {text : Text} (hfirst : ∀ c ∈ text.head?, isSpace c = false) :
    text.dropWhile isSpace = text := by
  cases text with
  | nil => rfl
  | cons c rest => rw [List.dropWhile_cons_of_neg (by simp [hfirst c rfl])]

theorem rdropWhile_of_last {text : Text} (hlast : ∀ c ∈ text.getLast?, isSpace c = false) :
    text.rdropWhile isSpace = text := by
  rw [List.rdropWhile_eq_self_iff]
  intro hne
  rw [hlast _ (List.getLast?_eq_some_getLast hne)]
  decide

theorem Stripped.strip_eq {text : Text} (hstripped : Stripped text) : strip text = text := by
  rw [strip, dropWhile_of_head hstripped.first, rdropWhile_of_last hstripped.last]

theorem Stripped.strip_newline {text : Text} (hstripped : Stripped text) (hne : text ≠ []) :
    strip (text ++ ['\n']) = text := by
  have hfirst : ∀ c ∈ (text ++ ['\n']).head?, isSpace c = false := by
    rw [List.head?_append_of_ne_nil _ hne]
    exact hstripped.first
  rw [strip, dropWhile_of_head hfirst, List.rdropWhile_concat_pos _ _ _ (by decide),
    rdropWhile_of_last hstripped.last]

theorem strip_front (text : Text) : strip text <+: text.dropWhile isSpace :=
  List.rdropWhile_prefix isSpace _

theorem mem_of_mem_strip {text : Text} {c : Char} (hmem : c ∈ strip text) : c ∈ text := by
  have hdrop := (strip_front text).subset hmem
  exact (List.dropWhile_suffix isSpace).subset hdrop

theorem head?_of_isPrefix {first second : Text} (hfront : first <+: second) (hne : first ≠ []) :
    first.head? = second.head? := by
  obtain ⟨rest, rfl⟩ := hfront
  rw [List.head?_append_of_ne_nil _ hne]

theorem stripped_strip (text : Text) : Stripped (strip text) where
  first := by
    intro c hc
    have hne : strip text ≠ [] := List.ne_nil_of_mem (List.mem_of_mem_head? hc)
    rw [head?_of_isPrefix (strip_front text) hne] at hc
    have hnot := List.head?_dropWhile_not isSpace text
    rw [hc] at hnot
    simpa using hnot
  last := by
    intro c hc
    have hne : strip text ≠ [] := List.ne_nil_of_mem (List.mem_of_mem_getLast? hc)
    rw [List.getLast?_eq_some_getLast hne] at hc
    obtain rfl := Option.some.inj hc
    exact Bool.eq_false_iff.mpr (List.rdropWhile_last_not isSpace _ hne)

/-- What is left starts with the first character, if that is kept. -/
theorem head?_strip_of_head {text : Text} {c : Char} (hhead : text.head? = some c)
    (hc : isSpace c = false) : (strip text).head? = some c := by
  have hmem : c ∈ text := List.mem_of_mem_head? hhead
  have hdrop : text.dropWhile isSpace = text := by
    apply dropWhile_of_head
    intro other hother
    rw [hhead] at hother
    obtain rfl := Option.some.inj hother
    exact hc
  have hne : strip text ≠ [] := by
    rw [strip, hdrop]
    intro hnil
    have hspace := List.rdropWhile_eq_nil_iff.mp hnil c hmem
    rw [hc] at hspace
    exact absurd hspace (by decide)
  rw [head?_of_isPrefix (strip_front text) hne, hdrop, hhead]

/-! ## The properties of a file -/

/-- A line as `readlines` gives it: its end is the only one in it. -/
structure IsLine (line : Text) : Prop where
  noReturn : '\r' ∉ line
  noNewline : '\n' ∉ line.dropLast

/-- A property that is valid and can be written in one line. -/
structure GoodProp (prop : Text × Text) : Prop where
  name : Stripped prop.1
  value : Stripped prop.2
  valid : validateProp prop.1 prop.2 = true
  noEquals : '=' ∉ prop.1
  noComment : prop.1.head? ≠ some '#'

theorem limits_of_validateProp {name value : Text} (hvalid : validateProp name value = true) :
    name ≠ [] ∧ name.length ≤ propNameMax ∧ value.length ≤ propValueMax :=
  of_decide_eq_true hvalid

/-- Names are different. -/
structure Props.Valid (props : Props) : Prop where
  good : ∀ prop ∈ props, GoodProp prop
  names : (props.map Prod.fst).Nodup

theorem Props.Valid.assign {props : Props} (hprops : props.Valid) {name value : Text}
    (hgood : GoodProp (name, value)) : (props.assign name value).Valid := by
  rw [Props.assign]
  by_cases hmem : name ∈ props.map Prod.fst
  · rw [if_pos hmem]
    constructor
    · intro prop hprop
      obtain ⟨old, hold, rfl⟩ := List.mem_map.mp hprop
      by_cases hname : old.1 = name
      · rw [if_pos hname]
        exact hgood
      · rw [if_neg hname]
        exact hprops.good old hold
    · have hsame :
          (props.map fun prop => if prop.1 = name then (name, value) else prop).map Prod.fst =
          props.map Prod.fst := by
        rw [List.map_map]
        apply List.map_congr_left
        intro old _
        by_cases hname : old.1 = name
        · simp [hname]
        · simp [hname]
      rw [hsame]
      exact hprops.names
  · rw [if_neg hmem]
    constructor
    · intro prop hprop
      rcases List.mem_append.mp hprop with hold | hnew
      · exact hprops.good prop hold
      · rw [List.mem_singleton.mp hnew]
        exact hgood
    · rw [List.map_append, List.nodup_append]
      refine ⟨hprops.names, by simp, ?_⟩
      intro old hold new hnew
      obtain rfl : new = name := by simpa using hnew
      intro hsame
      exact hmem (hsame ▸ hold)

theorem mem_name_takeWhile {line : Text} {c : Char} (hmem : c ∈ line.takeWhile (· ≠ '=')) :
    c ∈ line ∧ c ≠ '=' := by
  refine ⟨(List.takeWhile_prefix _).subset hmem, ?_⟩
  simpa using List.mem_takeWhile_imp hmem

/-- The name starts as its line does, so it is no comment. -/
theorem head?_name {line : Text} (hline : Stripped line)
    (hname : strip (line.takeWhile (· ≠ '=')) ≠ []) :
    (strip (line.takeWhile (· ≠ '='))).head? = line.head? := by
  cases line with
  | nil => rfl
  | cons c rest =>
      by_cases hc : c = '='
      · rw [List.takeWhile_cons_of_neg (by simp [hc])] at hname
        exact absurd rfl hname
      · have hhead : ((c :: rest).takeWhile (· ≠ '=')).head? = some c := by
          rw [List.takeWhile_cons_of_pos (by simp [hc])]
          rfl
        rw [head?_strip_of_head hhead (hline.first c rfl)]
        rfl

theorem Props.Valid.addLine {props : Props} (hprops : props.Valid) {line : Text}
    (hline : Stripped line) : (props.addLine line).Valid := by
  rw [Props.addLine]
  by_cases hskip : line = [] ∨ line.head? = some '#'
  · rw [if_pos hskip]
    exact hprops
  rw [if_neg hskip]
  by_cases hequals : '=' ∈ line
  · rw [if_pos hequals, Props.set]
    by_cases hvalid : validateProp (strip (line.takeWhile (· ≠ '=')))
        (strip ((line.dropWhile (· ≠ '=')).drop 1)) = true
    · rw [if_pos hvalid]
      apply hprops.assign
      refine ⟨stripped_strip _, stripped_strip _, hvalid, ?_, ?_⟩
      · intro hmem
        exact (mem_name_takeWhile (mem_of_mem_strip hmem)).2 rfl
      · rw [head?_name hline (limits_of_validateProp hvalid).1]
        exact fun hcomment => hskip (.inr hcomment)
    · rw [if_neg hvalid]
      exact hprops
  · rw [if_neg hequals]
    exact hprops

theorem propFile_valid (lines : List Text) : (propFile lines).Valid := by
  rw [propFile]
  have hstart : Props.Valid [] := ⟨fun _ hprop => absurd hprop List.not_mem_nil, List.nodup_nil⟩
  generalize ([] : Props) = props at hstart ⊢
  induction lines generalizing props with
  | nil => exact hstart
  | cons line rest ih => exact ih _ (hstart.addLine (stripped_strip line))

/-! ## Where the characters come from -/

theorem mem_assign {props : Props} {name value : Text} {prop : Text × Text}
    (hprop : prop ∈ props.assign name value) : prop ∈ props ∨ prop = (name, value) := by
  rw [Props.assign] at hprop
  by_cases hmem : name ∈ props.map Prod.fst
  · rw [if_pos hmem] at hprop
    obtain ⟨old, hold, rfl⟩ := List.mem_map.mp hprop
    by_cases hname : old.1 = name
    · rw [if_pos hname]
      exact .inr rfl
    · rw [if_neg hname]
      exact .inl hold
  · rw [if_neg hmem, List.mem_append, List.mem_singleton] at hprop
    exact hprop

theorem mem_addLine {props : Props} {line : Text} {prop : Text × Text}
    (hprop : prop ∈ props.addLine line) :
    prop ∈ props ∨ ∀ c, c ∈ prop.1 ∨ c ∈ prop.2 → c ∈ line := by
  rw [Props.addLine] at hprop
  split at hprop
  · exact .inl hprop
  split at hprop
  · rw [Props.set] at hprop
    split at hprop
    · rcases mem_assign hprop with hold | rfl
      · exact .inl hold
      · right
        intro c hc
        rcases hc with hname | hvalue
        · exact (mem_name_takeWhile (mem_of_mem_strip hname)).1
        · have hdrop := List.mem_of_mem_drop (mem_of_mem_strip hvalue)
          exact (List.dropWhile_suffix _).subset hdrop
    · exact .inl hprop
  · exact .inl hprop

/-- A text that fits into one line. -/
def OneLine (text : Text) : Prop := '\r' ∉ text ∧ '\n' ∉ text

theorem mem_dropLast_of_isInfix {inner outer : Text} (hinside : inner <:+: outer) {c : Char}
    (hmem : c ∈ inner.dropLast) : c ∈ outer.dropLast := by
  obtain ⟨before, after, rfl⟩ := hinside
  have hne : inner ≠ [] := by
    intro hnil
    rw [hnil] at hmem
    exact absurd hmem List.not_mem_nil
  have hsplit : before ++ inner ++ after =
      (before ++ inner.dropLast) ++ (inner.getLast hne :: after) := by
    rw [List.append_assoc, List.append_assoc, ← List.singleton_append,
      ← List.append_assoc inner.dropLast, List.dropLast_concat_getLast hne]
  rw [hsplit, List.dropLast_append_of_ne_nil (by simp)]
  simp [hmem]

/-- The end of a line is stripped. -/
theorem IsLine.oneLine_strip {line : Text} (hline : IsLine line) : OneLine (strip line) := by
  refine ⟨fun hmem => hline.noReturn (mem_of_mem_strip hmem), fun hmem => ?_⟩
  have hne : strip line ≠ [] := List.ne_nil_of_mem hmem
  have hlast : (strip line).getLast hne ≠ '\n' := by
    intro hnewline
    have hspace := (stripped_strip line).last _ (List.getLast?_eq_some_getLast hne)
    rw [hnewline] at hspace
    exact absurd hspace (by decide)
  have hinner : '\n' ∈ (strip line).dropLast := by
    rw [← List.dropLast_concat_getLast hne, List.mem_append, List.mem_singleton] at hmem
    exact hmem.resolve_right (Ne.symm hlast)
  have hinside : strip line <:+: line :=
    (strip_front line).isInfix.trans (List.dropWhile_suffix isSpace).isInfix
  exact hline.noNewline (mem_dropLast_of_isInfix hinside hinner)

theorem propFile_oneLine {lines : List Text} (hlines : ∀ line ∈ lines, IsLine line) :
    ∀ prop ∈ propFile lines, OneLine prop.1 ∧ OneLine prop.2 := by
  rw [propFile]
  have hstart : ∀ prop ∈ ([] : Props), OneLine prop.1 ∧ OneLine prop.2 :=
    fun _ hprop => absurd hprop List.not_mem_nil
  generalize ([] : Props) = props at hstart ⊢
  induction lines generalizing props with
  | nil => exact hstart
  | cons line rest ih =>
      apply ih (fun other hother => hlines other (List.mem_cons_of_mem _ hother))
      intro prop hprop
      rcases mem_addLine hprop with hold | hnew
      · exact hstart prop hold
      · obtain ⟨hreturn, hnewline⟩ := (hlines line List.mem_cons_self).oneLine_strip
        exact ⟨⟨fun h => hreturn (hnew _ (.inl h)), fun h => hnewline (hnew _ (.inl h))⟩,
          ⟨fun h => hreturn (hnew _ (.inr h)), fun h => hnewline (hnew _ (.inr h))⟩⟩

/-! ## Reading what was written -/

theorem universalNewlines_of_noReturn {text : Text} (hreturn : '\r' ∉ text) :
    universalNewlines text = text := by
  fun_induction universalNewlines text with
  | case1 rest ih => exact absurd hreturn (by simp)
  | case2 rest _ ih => exact absurd hreturn (by simp)
  | case3 c rest _ _ ih => rw [ih (fun h => hreturn (List.mem_cons_of_mem _ h))]
  | case4 => rfl

theorem splitLines_line {line : Text} (hnewline : '\n' ∉ line) (rest : Text) :
    splitLines (line ++ '\n' :: rest) = (line ++ ['\n']) :: splitLines rest := by
  induction line with
  | nil => rfl
  | cons c line ih =>
      rw [List.cons_append, splitLines, if_neg (fun h => hnewline (by simp [h])),
        ih (fun h => hnewline (List.mem_cons_of_mem _ h))]
      rfl

theorem noReturn_universalNewlines (text : Text) : '\r' ∉ universalNewlines text := by
  fun_induction universalNewlines text with
  | case1 rest ih => simpa using ih
  | case2 rest _ ih => simpa using ih
  | case3 c rest _ hreturn ih =>
      intro hmem
      rcases List.mem_cons.mp hmem with hc | hrest
      · exact hreturn hc.symm
      · exact ih hrest
  | case4 => exact List.not_mem_nil

theorem mem_splitLines (text : Text) :
    ∀ line ∈ splitLines text, line ≠ [] ∧ '\n' ∉ line.dropLast ∧ ∀ c ∈ line, c ∈ text := by
  fun_induction splitLines text with
  | case1 => exact fun _ hline => absurd hline List.not_mem_nil
  | case2 rest ih =>
      intro line hline
      rcases List.mem_cons.mp hline with rfl | hrest
      · simp
      · obtain ⟨hne, hnewline, hmem⟩ := ih line hrest
        exact ⟨hne, hnewline, fun c hc => List.mem_cons_of_mem _ (hmem c hc)⟩
  | case3 c rest hc hlast ih =>
      intro line hline
      obtain rfl := List.mem_singleton.mp hline
      simp
  | case4 c rest hc first others hsplit ih =>
      rw [hsplit] at ih
      intro line hline
      rcases List.mem_cons.mp hline with rfl | hrest
      · obtain ⟨hne, hnewline, hmem⟩ := ih first List.mem_cons_self
        refine ⟨by simp, ?_, ?_⟩
        · rw [List.dropLast_cons_of_ne_nil hne, List.mem_cons, not_or]
          exact ⟨Ne.symm hc, hnewline⟩
        · intro other hother
          rcases List.mem_cons.mp hother with rfl | hfirst
          · exact List.mem_cons_self
          · exact List.mem_cons_of_mem _ (hmem other hfirst)
      · obtain ⟨hne, hnewline, hmem⟩ := ih line (List.mem_cons_of_mem _ hrest)
        exact ⟨hne, hnewline, fun other hother => List.mem_cons_of_mem _ (hmem other hother)⟩

/-- The script passes lines of files. -/
theorem isLine_of_mem_readlines {text line : Text} (hline : line ∈ readlines text) :
    IsLine line := by
  obtain ⟨-, hnewline, hmem⟩ := mem_splitLines _ line hline
  exact ⟨fun hreturn => noReturn_universalNewlines text (hmem _ hreturn), hnewline⟩

/-- The line of a property without its end. -/
def propLine (prop : Text × Text) : Text := prop.1 ++ '=' :: prop.2

theorem readlines_write {props : Props}
    (hprops : ∀ prop ∈ props, OneLine prop.1 ∧ OneLine prop.2) :
    readlines props.write = (props.map fun prop => propLine prop ++ ['\n']) ++ [['\n']] := by
  have hreturn : '\r' ∉ props.write := by
    intro hmem
    simp only [Props.write, writeProp, List.mem_append, List.mem_flatMap, List.mem_cons,
      List.not_mem_nil, or_false] at hmem
    rcases hmem with ⟨prop, hprop, (hname | hequals | hvalue) | hend⟩ | hend
    · exact (hprops prop hprop).1.1 hname
    · exact absurd hequals (by decide)
    · exact (hprops prop hprop).2.1 hvalue
    · exact absurd hend (by decide)
    · exact absurd hend (by decide)
  rw [readlines, universalNewlines_of_noReturn hreturn, Props.write]
  clear hreturn
  induction props with
  | nil => rfl
  | cons prop rest ih =>
      have hnewline : '\n' ∉ propLine prop := by
        intro hmem
        simp only [propLine, List.mem_append, List.mem_cons] at hmem
        rcases hmem with hname | hequals | hvalue
        · exact (hprops prop List.mem_cons_self).1.2 hname
        · exact absurd hequals (by decide)
        · exact (hprops prop List.mem_cons_self).2.2 hvalue
      have hsplit : (prop :: rest).flatMap writeProp ++ ['\n'] =
          propLine prop ++ '\n' :: (rest.flatMap writeProp ++ ['\n']) := by
        simp [writeProp, propLine]
      rw [hsplit, splitLines_line hnewline,
        ih (fun other hother => hprops other (List.mem_cons_of_mem _ hother))]
      rfl

theorem GoodProp.stripped_propLine {prop : Text × Text} (hgood : GoodProp prop) :
    Stripped (propLine prop) where
  first := by
    intro c hc
    have hne := (limits_of_validateProp hgood.valid).1
    rw [propLine, List.head?_append_of_ne_nil _ hne] at hc
    exact hgood.name.first c hc
  last := by
    intro c hc
    rw [propLine, List.getLast?_append_of_ne_nil _ (by simp)] at hc
    cases hvalue : prop.2 with
    | nil =>
        rw [hvalue] at hc
        obtain rfl : '=' = c := by simpa using hc
        decide
    | cons first rest =>
        rw [hvalue, List.getLast?_cons_cons, ← hvalue] at hc
        exact hgood.value.last c hc

/-- The line of a new property is read as that property. -/
theorem GoodProp.addLine {prop : Text × Text} (hgood : GoodProp prop) {props : Props}
    (hnew : prop.1 ∉ props.map Prod.fst) : props.addLine (propLine prop) = props ++ [prop] := by
  have hname : (propLine prop).takeWhile (· ≠ '=') = prop.1 := by
    rw [propLine, List.takeWhile_append_of_pos]
    · simp
    · intro c hc
      simp only [ne_eq, decide_not, Bool.not_eq_eq_eq_not, Bool.not_true, decide_eq_false_iff_not]
      intro hequals
      exact hgood.noEquals (hequals ▸ hc)
  have hvalue : ((propLine prop).dropWhile (· ≠ '=')).drop 1 = prop.2 := by
    rw [propLine, List.dropWhile_append_of_pos]
    · simp
    · intro c hc
      simp only [ne_eq, decide_not, Bool.not_eq_eq_eq_not, Bool.not_true, decide_eq_false_iff_not]
      intro hequals
      exact hgood.noEquals (hequals ▸ hc)
  have hne := (limits_of_validateProp hgood.valid).1
  have hskip : ¬ (propLine prop = [] ∨ (propLine prop).head? = some '#') := by
    rintro (hnil | hcomment)
    · simp [propLine] at hnil
    · rw [propLine, List.head?_append_of_ne_nil _ hne] at hcomment
      exact hgood.noComment hcomment
  rw [Props.addLine, if_neg hskip, if_pos (by simp [propLine]), hname, hvalue, Props.set,
    hgood.name.strip_eq, hgood.value.strip_eq, if_pos hgood.valid, Props.assign, if_neg hnew]

theorem foldl_addLine (props : Props) (hgood : ∀ prop ∈ props, GoodProp prop) (before : Props)
    (hnames : ((before ++ props).map Prod.fst).Nodup) :
    (props.map propLine).foldl Props.addLine before = before ++ props := by
  induction props generalizing before with
  | nil => exact (List.append_nil before).symm
  | cons prop rest ih =>
      have hnew : prop.1 ∉ before.map Prod.fst := by
        intro hmem
        rw [List.map_append, List.nodup_append] at hnames
        exact hnames.2.2 prop.1 hmem prop.1 (by simp) rfl
      rw [List.map_cons, List.foldl_cons, (hgood prop List.mem_cons_self).addLine hnew,
        ih (fun other hother => hgood other (List.mem_cons_of_mem _ hother))]
      · rw [List.append_assoc]
        rfl
      · rw [List.append_assoc]
        exact hnames

/-- The properties that are written are those that are read again. -/
theorem propFile_write {lines : List Text} (hlines : ∀ line ∈ lines, IsLine line) :
    propFile (readlines (propFile lines).write) = propFile lines := by
  have hvalid := propFile_valid lines
  have hstrip : ((propFile lines).map fun prop => propLine prop ++ ['\n']).map strip =
      (propFile lines).map propLine := by
    rw [List.map_map]
    apply List.map_congr_left
    intro prop hprop
    apply (hvalid.good prop hprop).stripped_propLine.strip_newline
    simp [propLine]
  rw [readlines_write (propFile_oneLine hlines)]
  generalize propFile lines = props at hvalid hstrip ⊢
  rw [propFile, List.map_append, hstrip, List.foldl_append,
    foldl_addLine props hvalid.good [] hvalid.names, List.nil_append]
  rfl

end CubieBle.Build
