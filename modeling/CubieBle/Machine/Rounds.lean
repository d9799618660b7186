import CubieBle.Machine.Run

/-! # Runs in rounds

A number ranks the states that a system goes through. An action either keeps the number, and with
it the actions that would lower it, or lowers it, and in every state there is one that lowers it
until it is zero. In what order the actions come does not matter, as long as each round has them
all.
-/

namespace Machine

universe uState uAction

variable {State : Type uState} {Action : Type uAction} {step : State → Action → State}
variable {Ranked : State → Nat → Prop} {allowed : Action → Prop} {helps : State → Action → Prop}

/-- An action that helps makes progress, and no action that is allowed undoes it. -/
def Progresses (step : State → Action → State) (Ranked : State → Nat → Prop)
    (allowed : Action → Prop) (helps : State → Action → Prop) : Prop :=
  ∀ state left action, Ranked state left → allowed action →
    (Ranked (step state action) left ∧
        (∀ other, helps state other → helps (step state action) other) ∧
        (0 < left → ¬helps state action)) ∨
      ∃ left' < left, Ranked (step state action) left'

/-- A round that does not lower the number has no action that helps. -/
theorem Progresses.round (hprogress : Progresses step Ranked allowed helps) {state : State}
    {left : Nat} (hranked : Ranked state left) {round : List Action}
    (hallowed : ∀ action ∈ round, allowed action) :
    (Ranked (run step state round) left ∧
        (0 < left → ∀ action ∈ round, ¬helps state action)) ∨
      ∃ left' < left, Ranked (run step state round) left' := by
  induction round generalizing state left with
  | nil => exact .inl ⟨hranked, fun _ => nofun⟩
  | cons action rest ih =>
      obtain ⟨haction, hrest⟩ := List.forall_mem_cons.mp hallowed
      rw [run_cons]
      rcases hprogress state left action hranked haction with
        ⟨hsame, hkept, hother⟩ | ⟨middle, hlt, hnext⟩
      · refine (ih hsame hrest).imp_left fun ⟨hlast, hnone⟩ => ⟨hlast, fun hleft => ?_⟩
        refine List.forall_mem_cons.mpr ⟨hother hleft, fun later hmem hhelps => ?_⟩
        exact hnone hleft later hmem (hkept later hhelps)
      · right
        rcases ih hnext hrest with ⟨hlast, -⟩ | ⟨left', hlt', hlast⟩
        · exact ⟨middle, hlt, hlast⟩
        · exact ⟨left', Nat.lt_trans hlt' hlt, hlast⟩

/-- Each round in which an action helps, whatever the state is, lowers the number. -/
theorem Progresses.rounds (hprogress : Progresses step Ranked allowed helps) {state : State}
    {left : Nat} (hranked : Ranked state left) {rounds : List (List Action)}
    (hallowed : ∀ round ∈ rounds, ∀ action ∈ round, allowed action)
    (hhelps : ∀ round ∈ rounds, ∀ state, ∃ action ∈ round, helps state action) :
    ∃ left' ≤ left - rounds.length, Ranked (run step state rounds.flatten) left' := by
  induction rounds generalizing state left with
  | nil => exact ⟨left, Nat.le_refl _, hranked⟩
  | cons round rest ih =>
      obtain ⟨hround, hrest⟩ := List.forall_mem_cons.mp hallowed
      obtain ⟨hhelp, hhelpRest⟩ := List.forall_mem_cons.mp hhelps
      rw [List.flatten_cons, run_append, List.length_cons]
      rcases hprogress.round hranked hround with ⟨hsame, hnone⟩ | ⟨middle, hlt, hnext⟩
      · have hzero : left = 0 := by
          rcases Nat.eq_zero_or_pos left with hzero | hpos
          · exact hzero
          · obtain ⟨action, hmem, hhelpful⟩ := hhelp state
            exact absurd hhelpful (hnone hpos action hmem)
        obtain ⟨left', hle, hlast⟩ := ih hsame hrest hhelpRest
        exact ⟨left', by omega, hlast⟩
      · obtain ⟨left', hle, hlast⟩ := ih hnext hrest hhelpRest
        exact ⟨left', by omega, hlast⟩

end Machine
