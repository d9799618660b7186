import Mathlib.Data.List.TakeWhile

/-! # Texts cut at a separator

The blanks behind a separator are skipped. If nothing but blanks is left, the text ends there
without a further piece.
-/

namespace Machine

universe uChar

/-- What follows the last piece: no separator, or a separator and blanks. -/
inductive Ending where
  | exhausted
  | blank
deriving DecidableEq

variable {Char : Type uChar}

/-- A text, its pieces and how it ends. -/
inductive Cut (separator : Char) (blank : Char → Bool) :
    List Char → List (List Char) → Ending → Prop where
  | exhausted {piece : List Char} (hpiece : separator ∉ piece) :
      Cut separator blank piece [piece] .exhausted
  | blank {piece tail : List Char} (hpiece : separator ∉ piece)
      (htail : ∀ char ∈ tail, blank char) :
      Cut separator blank (piece ++ separator :: tail) [piece] .blank
  | next {piece tail : List Char} {pieces : List (List Char)} {ending : Ending}
      (hpiece : separator ∉ piece) (htail : tail.dropWhile blank ≠ [])
      (hrest : Cut separator blank (tail.dropWhile blank) pieces ending) :
      Cut separator blank (piece ++ separator :: tail) (piece :: pieces) ending

/-- How many separators have something other than blanks behind them. -/
def goingOn [DecidableEq Char] (separator : Char) (blank : Char → Bool) : List Char → Nat
  | [] => 0
  | char :: rest =>
      (if char = separator ∧ ¬rest.all blank then 1 else 0) + goingOn separator blank rest

/-- The last separator has nothing but blanks behind it. -/
def EndsBlank (separator : Char) (blank : Char → Bool) (text : List Char) : Prop :=
  ∃ head tail, text = head ++ separator :: tail ∧ ∀ char ∈ tail, blank char

section Cutting

variable {separator : Char} {blank : Char → Bool} {text piece tail : List Char}
  {pieces : List (List Char)} {ending : Ending}

theorem exists_cut (separator : Char) (blank : Char → Bool) (text : List Char) :
    ∃ pieces ending, Cut separator blank text pieces ending := by
  by_cases hmem : separator ∈ text
  · obtain ⟨piece, tail, rfl, hpiece⟩ := List.eq_append_cons_of_mem hmem
    by_cases htail : tail.dropWhile blank = []
    · exact ⟨_, _, .blank hpiece (List.dropWhile_eq_nil_iff.mp htail)⟩
    · have hshorter : (tail.dropWhile blank).length < (piece ++ separator :: tail).length := by
        have hle := (List.dropWhile_suffix (l := tail) blank).length_le
        rw [List.length_append, List.length_cons]
        omega
      obtain ⟨pieces, ending, hcut⟩ := exists_cut separator blank (tail.dropWhile blank)
      exact ⟨_, _, .next hpiece htail hcut⟩
  · exact ⟨_, _, .exhausted hmem⟩
termination_by text.length

theorem Cut.pieces_ne_nil (hcut : Cut separator blank text pieces ending) : pieces ≠ [] := by
  cases hcut
  all_goals exact List.cons_ne_nil _ _

theorem Cut.head [DecidableEq Char] (hcut : Cut separator blank text pieces ending) :
    pieces.head? = some (text.takeWhile fun char => char ≠ separator) := by
  have hpiece : ∀ {piece : List Char}, separator ∉ piece →
      ∀ char ∈ piece, decide (char ≠ separator) = true := fun hpiece char hchar =>
    decide_eq_true fun heq => hpiece (heq ▸ hchar)
  cases hcut with
  | exhausted hmem => rw [List.takeWhile_eq_self_iff.mpr (hpiece hmem), List.head?_cons]
  | blank hmem htail =>
      rw [List.takeWhile_append_of_pos (hpiece hmem), List.takeWhile_cons_of_neg (by simp),
        List.append_nil, List.head?_cons]
  | next hmem htail hrest =>
      rw [List.takeWhile_append_of_pos (hpiece hmem), List.takeWhile_cons_of_neg (by simp),
        List.append_nil, List.head?_cons]

theorem not_mem_of_blank (hblank : blank separator = false) (htail : ∀ char ∈ tail, blank char) :
    separator ∉ tail := fun hmem => by
  rw [htail separator hmem] at hblank
  exact Bool.noConfusion hblank

theorem endsBlank_cons (hpiece : separator ∉ piece) :
    EndsBlank separator blank (piece ++ separator :: tail) ↔
      (∀ char ∈ tail, blank char) ∨ EndsBlank separator blank tail := by
  constructor
  · rintro ⟨head, behind, hsplit, hbehind⟩
    rcases List.append_eq_append_iff.mp hsplit with ⟨skipped, rfl, htail⟩ | ⟨skipped, rfl, htail⟩
    · cases skipped with
      | nil =>
          obtain rfl := (List.cons.inj htail).2
          exact .inl hbehind
      | cons char skipped =>
          obtain ⟨-, rfl⟩ := List.cons.inj htail
          exact .inr ⟨skipped, behind, rfl, hbehind⟩
    · cases skipped with
      | nil =>
          obtain rfl := (List.cons.inj htail).2
          exact .inl hbehind
      | cons char skipped =>
          obtain ⟨rfl, -⟩ := List.cons.inj htail
          exact (hpiece (List.mem_append_right _ List.mem_cons_self)).elim
  · rintro (htail | ⟨head, behind, rfl, hbehind⟩)
    · exact ⟨piece, tail, rfl, htail⟩
    · exact ⟨piece ++ separator :: head, behind, by simp, hbehind⟩

theorem endsBlank_dropWhile (hblank : blank separator = false) :
    EndsBlank separator blank (tail.dropWhile blank) ↔ EndsBlank separator blank tail := by
  constructor
  · rintro ⟨head, behind, hsplit, hbehind⟩
    refine ⟨tail.takeWhile blank ++ head, behind, ?_, hbehind⟩
    rw [List.append_assoc, ← hsplit, List.takeWhile_append_dropWhile]
  · rintro ⟨head, behind, rfl, hbehind⟩
    refine ⟨head.dropWhile blank, behind, ?_, hbehind⟩
    rw [List.dropWhile_append]
    split_ifs with hempty
    · rw [List.isEmpty_iff.mp hempty, List.dropWhile_cons_of_neg (by simp [hblank])]
      rfl
    · rfl

/-- The text ends with blanks exactly if the last of its separators does. -/
theorem Cut.ending_eq_blank_iff (hblank : blank separator = false)
    (hcut : Cut separator blank text pieces ending) :
    ending = .blank ↔ EndsBlank separator blank text := by
  induction hcut with
  | exhausted hpiece =>
      refine iff_of_false Ending.noConfusion ?_
      rintro ⟨head, tail, rfl, -⟩
      exact hpiece (List.mem_append_right _ List.mem_cons_self)
  | @blank piece tail hpiece htail => exact iff_of_true rfl ⟨piece, tail, rfl, htail⟩
  | next hpiece htail hrest ih =>
      rw [ih, endsBlank_cons hpiece, endsBlank_dropWhile hblank, ← List.dropWhile_eq_nil_iff]
      exact ⟨.inr, fun hends => hends.resolve_left htail⟩

section Counting

variable [DecidableEq Char]

theorem goingOn_append_of_not_mem (hpiece : separator ∉ piece) :
    goingOn separator blank (piece ++ text) = goingOn separator blank text := by
  induction piece with
  | nil => rfl
  | cons char piece ih =>
      obtain ⟨hne, hrest⟩ := not_or.mp (mt List.mem_cons.mpr hpiece)
      rw [List.cons_append, goingOn, if_neg fun hboth => hne hboth.1.symm, Nat.zero_add, ih hrest]

theorem goingOn_of_not_mem (hpiece : separator ∉ piece) : goingOn separator blank piece = 0 := by
  rw [← List.append_nil piece, goingOn_append_of_not_mem hpiece, goingOn]

theorem goingOn_dropWhile (hblank : blank separator = false) :
    goingOn separator blank (tail.dropWhile blank) = goingOn separator blank tail := by
  have hmem : separator ∉ tail.takeWhile blank :=
    not_mem_of_blank hblank fun char hchar => List.mem_takeWhile_imp hchar
  rw [← goingOn_append_of_not_mem hmem, List.takeWhile_append_dropWhile]

/-- Every piece but the first has a separator in front of it that goes on. -/
theorem Cut.length (hblank : blank separator = false)
    (hcut : Cut separator blank text pieces ending) :
    pieces.length = goingOn separator blank text + 1 := by
  induction hcut with
  | exhausted hpiece => rw [goingOn_of_not_mem hpiece, List.length_singleton]
  | @blank piece tail hpiece htail =>
      rw [goingOn_append_of_not_mem hpiece, goingOn,
        if_neg fun hboth => hboth.2 (List.all_eq_true.mpr htail),
        goingOn_of_not_mem (not_mem_of_blank hblank htail), List.length_singleton]
  | @next piece tail pieces ending hpiece htail hrest ih =>
      have hgoes : ¬tail.all blank := fun hall =>
        htail (List.dropWhile_eq_nil_iff.mpr (List.all_eq_true.mp hall))
      rw [goingOn_append_of_not_mem hpiece, goingOn, if_pos ⟨rfl, hgoes⟩, List.length_cons, ih,
        goingOn_dropWhile hblank, Nat.add_comm 1]

end Counting

end Cutting

end Machine
