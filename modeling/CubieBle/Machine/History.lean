import CubieBle.Machine.Run

/-! # Histories

A history lists what was observed, the oldest first. Two properties of it are enough to say that
something is done only after something else: a fact of the past that no later observation has
undone, and what every observation needs before it.
-/

namespace Machine

universe uObservation

variable {Observation : Type uObservation}

/-- Something was observed, and nothing that undoes it since. -/
def Since (undoes : Observation → Prop) (occurs : List Observation → Observation → Prop)
    (history : List Observation) : Prop :=
  ∃ before observation after, history = before ++ observation :: after ∧
    occurs before observation ∧ ∀ later ∈ after, ¬ undoes later

/-- Every observation has what it needs in the history before it. -/
def Justified (needs : Observation → List Observation → Prop) (history : List Observation) : Prop :=
  ∀ before observation after, history = before ++ observation :: after → needs observation before

variable {undoes : Observation → Prop} {occurs : List Observation → Observation → Prop}
variable {needs : Observation → List Observation → Prop} {history : List Observation}

theorem Since.now {observation : Observation} (hoccurs : occurs history observation) :
    Since undoes occurs (history ++ [observation]) :=
  ⟨history, observation, [], rfl, hoccurs, fun _ hlater => absurd hlater List.not_mem_nil⟩

theorem Since.append (hsince : Since undoes occurs history) {more : List Observation}
    (hmore : ∀ later ∈ more, ¬ undoes later) : Since undoes occurs (history ++ more) := by
  obtain ⟨before, observation, after, rfl, hoccurs, hafter⟩ := hsince
  refine ⟨before, observation, after ++ more, by simp, hoccurs, ?_⟩
  intro later hlater
  rcases List.mem_append.mp hlater with hold | hnew
  · exact hafter later hold
  · exact hmore later hnew

theorem Since.exists_mem (hsince : Since undoes occurs history) :
    ∃ before, ∃ observation ∈ history, occurs before observation := by
  obtain ⟨before, observation, after, rfl, hoccurs, -⟩ := hsince
  exact ⟨before, observation, by simp, hoccurs⟩

theorem justified_nil : Justified needs [] := by
  intro before observation after hsplit
  exact absurd hsplit (by simp)

theorem Justified.snoc (hall : Justified needs history) {observation : Observation}
    (hneeds : needs observation history) : Justified needs (history ++ [observation]) := by
  intro before other after hsplit
  rcases List.eq_nil_or_concat after with rfl | ⟨rest, last, rfl⟩
  · obtain ⟨rfl, hlast⟩ := List.append_inj' hsplit rfl
    obtain rfl := List.cons.inj hlast |>.1
    exact hneeds
  · apply hall before other rest
    rw [List.concat_eq_append, ← List.cons_append, ← List.append_assoc] at hsplit
    exact (List.append_inj' hsplit rfl).1

end Machine
