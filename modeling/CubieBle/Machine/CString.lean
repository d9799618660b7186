import Mathlib.Data.List.Infix

/-! # Strings that end with a zero

A string lies in a memory and goes up to the first zero. Pointers into it are positions of the
memory. Searching for a text inside a string needs no memory.
-/

namespace Machine

/-- The bytes of a text. -/
def ascii (text : List Char) : List UInt8 := text.map fun char => UInt8.ofNat char.toNat

universe uChar

variable {Char : Type uChar}

def charAt [Zero Char] (memory : List Char) (p : Nat) : Char := memory.getD p 0

theorem charAt_append [Zero Char] {before rest : List Char} {char : Char} :
    charAt (before ++ char :: rest) before.length = char := by
  rw [charAt, List.getD_eq_getElem?_getD, List.getElem?_append_right le_rfl]
  simp

variable [DecidableEq Char]

/-! ## Texts inside a text -/

/-- The text from the first place on where the pattern stands. -/
def strstr : List Char → List Char → Option (List Char)
  | [], pattern => if pattern <+: [] then some [] else none
  | char :: rest, pattern =>
      if pattern <+: char :: rest then some (char :: rest) else strstr rest pattern

section Search

variable {text pattern found : List Char}

theorem strstr_of_starts (hstarts : pattern <+: text) : strstr text pattern = some text := by
  cases text with
  | nil => exact if_pos hstarts
  | cons char rest => exact if_pos hstarts

theorem strstr_of_not_starts {char : Char} {rest : List Char}
    (hstarts : ¬pattern <+: char :: rest) :
    strstr (char :: rest) pattern = strstr rest pattern := if_neg hstarts

theorem strstr_eq_none_iff : strstr text pattern = none ↔ ¬pattern <:+: text := by
  induction text with
  | nil =>
      rw [List.infix_nil, ← List.prefix_nil]
      by_cases hstarts : pattern <+: []
      · rw [strstr_of_starts hstarts]
        exact iff_of_false (Option.some_ne_none _) (not_not.mpr hstarts)
      · exact iff_of_true (if_neg hstarts) hstarts
  | cons char rest ih =>
      by_cases hstarts : pattern <+: char :: rest
      · rw [strstr_of_starts hstarts]
        exact iff_of_false (Option.some_ne_none _) (not_not.mpr hstarts.isInfix)
      · rw [strstr_of_not_starts hstarts, ih, List.infix_cons_iff]
        exact ⟨fun hrest => not_or.mpr ⟨hstarts, hrest⟩, fun hboth => (not_or.mp hboth).2⟩

/-- What is found is an end of the text that starts with the pattern. -/
theorem strstr_spec (hfound : strstr text pattern = some found) :
    pattern <+: found ∧ found <:+ text := by
  induction text with
  | nil =>
      rw [strstr] at hfound
      split_ifs at hfound with hstarts
      obtain rfl := Option.some.inj hfound
      exact ⟨hstarts, List.suffix_rfl⟩
  | cons char rest ih =>
      by_cases hstarts : pattern <+: char :: rest
      · rw [strstr_of_starts hstarts] at hfound
        obtain rfl := Option.some.inj hfound
        exact ⟨hstarts, List.suffix_rfl⟩
      · rw [strstr_of_not_starts hstarts] at hfound
        exact ⟨(ih hfound).1, (ih hfound).2.trans (List.suffix_cons char rest)⟩

end Search

/-! ## Strings in a memory -/

variable [Zero Char]

/-- The string at a pointer. -/
def cstr (memory : List Char) (p : Nat) : List Char :=
  (memory.drop p).takeWhile fun char => char ≠ 0

/-- The first place of a character in the string at a pointer. -/
def strchr (memory : List Char) (p : Nat) (char : Char) : Option Nat :=
  if char ∈ cstr memory p then some (p + (cstr memory p).idxOf char) else none

/-- The pointer moved over the characters of a kind. -/
def skip (kind : Char → Bool) (memory : List Char) (p : Nat) : Nat :=
  p + ((cstr memory p).takeWhile kind).length

section Memory

variable {before text rest : List Char}

/-- The string behind some part of the memory. -/
theorem cstr_append (htext : (0 : Char) ∉ text) :
    cstr (before ++ (text ++ 0 :: rest)) before.length = text := by
  rw [cstr, List.drop_left, List.takeWhile_append_of_pos, List.takeWhile_cons_of_neg]
  · exact List.append_nil text
  · simp
  · intro char hchar
    exact decide_eq_true fun hzero => htext (hzero ▸ hchar)

theorem strchr_of_not_mem {char : Char} (htext : (0 : Char) ∉ text) (hchar : char ∉ text) :
    strchr (before ++ (text ++ 0 :: rest)) before.length char = none := by
  rw [strchr, cstr_append htext, if_neg hchar]

theorem strchr_append {char : Char} {tail : List Char}
    (htext : (0 : Char) ∉ text ++ char :: tail) (hchar : char ∉ text) :
    strchr (before ++ (text ++ char :: tail ++ 0 :: rest)) before.length char =
      some (before.length + text.length) := by
  rw [strchr, cstr_append htext, if_pos (List.mem_append_right _ List.mem_cons_self),
    List.idxOf_append_of_notMem hchar, List.idxOf_cons_self, Nat.add_zero]

theorem skip_append (kind : Char → Bool) (htext : (0 : Char) ∉ text) :
    skip kind (before ++ (text ++ 0 :: rest)) before.length =
      before.length + (text.takeWhile kind).length := by
  rw [skip, cstr_append htext]

/-- A string that ends is not changed by what is behind it. -/
theorem cstr_append_of_mem {memory : List Char} {p : Nat} (hzero : (0 : Char) ∈ memory.drop p) :
    cstr (memory ++ rest) p = cstr memory p := by
  have hle : p ≤ memory.length := by
    by_contra hlt
    rw [List.drop_of_length_le (by omega)] at hzero
    exact List.not_mem_nil hzero
  obtain ⟨string, behind, hsplit, hstring⟩ := List.eq_append_cons_of_mem hzero
  have hpos : ∀ char ∈ string, decide (char ≠ 0) = true := fun char hchar =>
    decide_eq_true fun hzero => hstring (hzero ▸ hchar)
  rw [cstr, cstr, List.drop_append_of_le_length hle, hsplit, List.append_assoc,
    List.takeWhile_append_of_pos hpos, List.takeWhile_append_of_pos hpos]
  simp

end Memory

end Machine
