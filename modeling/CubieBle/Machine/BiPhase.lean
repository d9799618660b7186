import Mathlib.Data.List.Basic

/-! # Bi-phase sequences

A line keeps each level for some units of time. The runs are read one unit at a time, and a
sequence of units carries bits if each pair of them is unequal. A run that cannot be read is one
unit without a level.
-/

namespace Machine

variable {Level : Type}

/-- The units of a run. -/
def runUnits : Option (Nat × Level) → List (Option Level)
  | none => [none]
  | some (len, level) => List.replicate len (some level)

def units (runs : List (Option (Nat × Level))) : List (Option Level) := runs.flatMap runUnits

/-- Each pair of units is unequal, and none is left over. -/
def UnequalPairs : List Level → Prop
  | [] => True
  | [_] => False
  | first :: second :: rest => first ≠ second ∧ UnequalPairs rest

/-- One more unit at the end, if the number of units is odd. -/
def padPairs (pad : Level) (levels : List Level) : List Level :=
  if levels.length % 2 = 0 then levels else levels ++ [pad]

@[simp] theorem units_nil : units ([] : List (Option (Nat × Level))) = [] := rfl

theorem units_cons (run : Option (Nat × Level)) (runs : List (Option (Nat × Level))) :
    units (run :: runs) = runUnits run ++ units runs := List.flatMap_cons

/-- Reading the next unit of a run: what is left begins in the same run or with the next one. -/
theorem drop_units_cons {len used : Nat} (level : Level) (runs : List (Option (Nat × Level)))
    (hused : used < len) :
    (units (some (len, level) :: runs)).drop used =
      some level ::
        if len ≤ used + 1 then units runs
        else (units (some (len, level) :: runs)).drop (used + 1) := by
  have hdrop : ∀ count ≤ len, (units (some (len, level) :: runs)).drop count =
      List.replicate (len - count) (some level) ++ units runs := by
    intro count hcount
    rw [units_cons, runUnits, List.drop_append_of_le_length (by rwa [List.length_replicate]),
      List.drop_replicate]
  rw [hdrop used (Nat.le_of_lt hused)]
  obtain ⟨left, hleft⟩ : ∃ left, len - used = left + 1 := ⟨len - used - 1, by omega⟩
  rw [hleft, List.replicate_succ, List.cons_append]
  split_ifs with hlast
  · have hzero : left = 0 := by omega
    rw [hzero, List.replicate_zero, List.nil_append]
  · have hnext : len - (used + 1) = left := by omega
    rw [hdrop (used + 1) (by omega), hnext]

/-- No unit lacks a level exactly if every run can be read. -/
theorem none_not_mem_units {runs : List (Option (Nat × Level))} :
    none ∉ units runs ↔ ∀ run ∈ runs, run ≠ none := by
  rw [units, List.mem_flatMap, not_exists]
  constructor
  · intro hnone run hrun heq
    exact hnone run ⟨hrun, by rw [heq]; exact List.mem_singleton_self _⟩
  · rintro hruns run ⟨hrun, hmem⟩
    rcases run with _ | ⟨len, level⟩
    · exact hruns none hrun rfl
    · exact Option.some_ne_none _ (List.eq_of_mem_replicate hmem).symm

theorem units_map_some (runs : List (Nat × Level)) :
    units (runs.map some) = (runs.flatMap fun run => List.replicate run.1 run.2).map some := by
  induction runs with
  | nil => rfl
  | cons run runs ih =>
      rw [List.map_cons, units_cons, ih, List.flatMap_cons, List.map_append, runUnits,
        List.map_replicate]

theorem padPairs_cons_cons (pad first second : Level) (rest : List Level) :
    padPairs pad (first :: second :: rest) = first :: second :: padPairs pad rest := by
  have hparity : (first :: second :: rest).length % 2 = rest.length % 2 :=
    Nat.add_mod_right rest.length 2
  rw [padPairs, padPairs, hparity]
  split
  · rfl
  · rfl

/-- All of what is read are levels, and each pair is unequal when the last is completed. -/
def ReadsPairs (pad : Level) (read : List (Option Level)) : Prop :=
  ∃ levels, read = levels.map some ∧ UnequalPairs (padPairs pad levels)

theorem readsPairs_nil (pad : Level) : ReadsPairs pad [] := ⟨[], rfl, trivial⟩

theorem padPairs_append (pad : Level) {front : List Level} (heven : front.length % 2 = 0)
    (back : List Level) : padPairs pad (front ++ back) = front ++ padPairs pad back := by
  have hparity : (front ++ back).length % 2 = back.length % 2 := by
    rw [List.length_append]
    omega
  rw [padPairs, padPairs, hparity]
  split
  · rfl
  · rw [List.append_assoc]

theorem length_le_padPairs (pad : Level) (levels : List Level) :
    levels.length ≤ (padPairs pad levels).length := by
  rw [padPairs]
  split
  · exact Nat.le_refl _
  · rw [List.length_append]
    exact Nat.le_add_right _ _

theorem none_not_mem_map_some (levels : List Level) : none ∉ levels.map some := by
  intro hnone
  obtain ⟨level, -, hlevel⟩ := List.mem_map.mp hnone
  exact Option.some_ne_none level hlevel

theorem not_readsPairs_of_none {pad : Level} {read : List (Option Level)} (hnone : none ∈ read) :
    ¬ReadsPairs pad read := by
  rintro ⟨levels, rfl, -⟩
  exact none_not_mem_map_some levels hnone

theorem readsPairs_singleton {pad level : Level} :
    ReadsPairs pad [some level] ↔ level ≠ pad := by
  constructor
  · rintro ⟨levels, hlevels, hpairs⟩
    rcases levels with _ | ⟨only, _ | ⟨second, rest⟩⟩
    · cases hlevels
    · cases hlevels
      exact hpairs.1
    · cases hlevels
  · intro hne
    exact ⟨[level], rfl, hne, trivial⟩

theorem readsPairs_cons_cons {pad first second : Level} {read : List (Option Level)} :
    ReadsPairs pad (some first :: some second :: read) ↔
      first ≠ second ∧ ReadsPairs pad read := by
  constructor
  · rintro ⟨levels, hlevels, hpairs⟩
    rcases levels with _ | ⟨head, _ | ⟨next, rest⟩⟩
    · cases hlevels
    · cases hlevels
    · cases hlevels
      rw [padPairs_cons_cons] at hpairs
      exact ⟨hpairs.1, rest, rfl, hpairs.2⟩
  · rintro ⟨hne, levels, rfl, hpairs⟩
    refine ⟨first :: second :: levels, rfl, ?_⟩
    rw [padPairs_cons_cons]
    exact ⟨hne, hpairs⟩

end Machine
