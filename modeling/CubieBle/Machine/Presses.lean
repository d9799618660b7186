import Mathlib.Data.List.Basic

/-! # Presses of keys

A press of a key is reported once or more, and then its release. A stream of reports is a
beginning of presses one after the other, so that no two keys are pressed at a time. One key
stands for none.
-/

namespace Machine

universe uKey uEvent

variable {Key : Type uKey} {Event : Type uEvent}

/-- The press of a key is reported once and `repeats` times more. -/
def pressEvents (down up : Key → Event) (key : Key) (repeats : Nat) : List Event :=
  List.replicate (repeats + 1) (down key) ++ [up key]

/-- One press after the other. -/
def presses (down up : Key → Event) (keys : List (Key × Nat)) : List Event :=
  keys.flatMap fun press => pressEvents down up press.1 press.2

/-- The events are a beginning of presses, none of them of the key that stands for none. -/
def PressStream (down up : Key → Event) (reserved : Key) (events : List Event) : Prop :=
  ∃ keys, (∀ press ∈ keys, press.1 ≠ reserved) ∧ events <+: presses down up keys

/-- After the events the given key is pressed, or none. -/
def Held (down up : Key → Event) (reserved held : Key) (events : List Event) : Prop :=
  ∃ keys, (∀ press ∈ keys, press.1 ≠ reserved) ∧
    ((held = reserved ∧ events = presses down up keys) ∨
      (held ≠ reserved ∧ ∃ repeats, events =
        presses down up keys ++ List.replicate (repeats + 1) (down held)))

section Held

variable {down up : Key → Event} {reserved held : Key} {events : List Event}

theorem held_nil (down up : Key → Event) (reserved : Key) : Held down up reserved reserved [] :=
  ⟨[], by simp, .inl ⟨rfl, rfl⟩⟩

theorem presses_append_singleton (down up : Key → Event) (keys : List (Key × Nat)) (key : Key)
    (repeats : Nat) :
    presses down up (keys ++ [(key, repeats)]) =
      presses down up keys ++ pressEvents down up key repeats := by
  rw [presses, presses, List.flatMap_append, List.flatMap_singleton]

theorem Held.release (hheld : Held down up reserved held events) (hkey : held ≠ reserved) :
    Held down up reserved reserved (events ++ [up held]) := by
  obtain ⟨keys, hkeys, ⟨hnone, -⟩ | ⟨-, repeats, hevents⟩⟩ := hheld
  · exact absurd hnone hkey
  · refine ⟨keys ++ [(held, repeats)], ?_, .inl ⟨rfl, ?_⟩⟩
    · intro press hpress
      rcases List.mem_append.mp hpress with hbefore | hlast
      · exact hkeys press hbefore
      · rw [List.mem_singleton.mp hlast]
        exact hkey
    · rw [hevents, presses_append_singleton, pressEvents, List.append_assoc]

theorem Held.press (hheld : Held down up reserved reserved events) {key : Key}
    (hkey : key ≠ reserved) : Held down up reserved key (events ++ [down key]) := by
  obtain ⟨keys, hkeys, ⟨-, hevents⟩ | ⟨hsome, -⟩⟩ := hheld
  · exact ⟨keys, hkeys, .inr ⟨hkey, 0, by rw [hevents]; rfl⟩⟩
  · exact absurd rfl hsome

theorem Held.again (hheld : Held down up reserved held events) (hkey : held ≠ reserved) :
    Held down up reserved held (events ++ [down held]) := by
  obtain ⟨keys, hkeys, ⟨hnone, -⟩ | ⟨-, repeats, hevents⟩⟩ := hheld
  · exact absurd hnone hkey
  · refine ⟨keys, hkeys, .inr ⟨hkey, repeats + 1, ?_⟩⟩
    rw [hevents, List.append_assoc, ← List.replicate_succ']

/-- A key that was found anew is reported; before it the one before is released if something
changed. Without a change it is the same key. -/
theorem Held.change [DecidableEq Key] (hheld : Held down up reserved held events) {key : Key}
    {changed : Prop} [Decidable changed] (hsame : ¬changed → held ≠ reserved → key = held) :
    Held down up reserved key (events ++
      ((if held ≠ reserved ∧ changed then [up held] else []) ++
        (if key ≠ reserved then [down key] else []))) := by
  by_cases hkey : held = reserved
  · rw [if_neg (fun hreleased => hreleased.1 hkey), List.nil_append]
    rw [hkey] at hheld
    split_ifs with hpressed
    · exact hheld.press hpressed
    · rw [not_not.mp hpressed, List.append_nil]
      exact hheld
  · by_cases hchanged : changed
    · rw [if_pos ⟨hkey, hchanged⟩, ← List.append_assoc]
      have hreleased := hheld.release hkey
      split_ifs with hpressed
      · exact hreleased.press hpressed
      · rw [not_not.mp hpressed, List.append_nil]
        exact hreleased
    · rw [if_neg (fun hreleased => hchanged hreleased.2), List.nil_append,
        hsame hchanged hkey, if_pos hkey]
      exact hheld.again hkey

theorem Held.pressStream (hheld : Held down up reserved held events) :
    PressStream down up reserved events := by
  obtain ⟨keys, hkeys, ⟨-, hevents⟩ | ⟨hkey, repeats, hevents⟩⟩ := hheld
  · rw [hevents]
    exact ⟨keys, hkeys, List.prefix_refl _⟩
  · refine ⟨keys ++ [(held, repeats)], ?_, ?_⟩
    · intro press hpress
      rcases List.mem_append.mp hpress with hbefore | hlast
      · exact hkeys press hbefore
      · rw [List.mem_singleton.mp hlast]
        exact hkey
    · rw [hevents, presses_append_singleton, pressEvents, ← List.append_assoc]
      exact List.prefix_append _ _

end Held

end Machine
