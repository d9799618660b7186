import Mathlib.Data.List.Basic

/-! # Alternating sequences

A sequence of switch positions that changes at every entry, such as the opening and
closing marks of sessions or the presses and releases of one key.
-/

namespace Machine

/-- The entries switch from one to the next, and the first of them is `next`. -/
def Alternates : Bool → List Bool → Prop
  | _, [] => True
  | next, value :: rest => value = next ∧ Alternates (!next) rest

/-- The entry that continues an alternating sequence. -/
def awaited (next : Bool) (values : List Bool) : Bool :=
  values.foldl (fun _ value => !value) next

@[simp] theorem awaited_nil (next : Bool) : awaited next [] = next := rfl

@[simp] theorem awaited_append_singleton (next value : Bool) (values : List Bool) :
    awaited next (values ++ [value]) = !value := by
  simp [awaited]

instance decidableAlternates : ∀ next values, Decidable (Alternates next values)
  | _, [] => inferInstanceAs (Decidable True)
  | next, value :: rest =>
      haveI := decidableAlternates (!next) rest
      inferInstanceAs (Decidable (value = next ∧ _))

/-- Sequences are extended at their end, by the awaited entry only. -/
theorem alternates_append_singleton {next value : Bool} {values : List Bool} :
    Alternates next (values ++ [value]) ↔
      Alternates next values ∧ value = awaited next values := by
  induction values generalizing next with
  | nil => simp [Alternates]
  | cons first rest ih =>
      rw [List.cons_append, Alternates, Alternates, ih, and_assoc]
      constructor
      · rintro ⟨rfl, hrest, hvalue⟩
        exact ⟨rfl, hrest, hvalue⟩
      · rintro ⟨rfl, hrest, hvalue⟩
        exact ⟨rfl, hrest, hvalue⟩

end Machine
