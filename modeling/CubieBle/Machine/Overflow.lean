import Mathlib.Data.List.Basic

/-! # Queues that lose their oldest values

Values arrive one by one at a queue and leave it from the front, in batches of any size. A queue
that is full when a value arrives loses its oldest one. What has left and what is queued are
the values that arrived, in their order, without the lost ones.
-/

namespace Machine

universe uValue

variable {Value : Type uValue}

/-- The values without those at the dropped positions, counted from a start. -/
def keptFrom (dropped : List Nat) (start : Nat) (values : List Value) : List Value :=
  ((values.zipIdx start).filter fun value => value.2 ∉ dropped).map Prod.fst

/-- The values that arrived, and the positions of those that were lost. -/
structure OverflowLog (Value : Type uValue) where
  arrived : List Value
  dropped : List Nat

def OverflowLog.kept (log : OverflowLog Value) : List Value :=
  keptFrom log.dropped 0 log.arrived

def OverflowLog.arrive (log : OverflowLog Value) (value : Value) : OverflowLog Value :=
  { log with arrived := log.arrived ++ [value] }

/-- The oldest of the values in the queue is lost. -/
def OverflowLog.loseOldest (log : OverflowLog Value) (queued : Nat) : OverflowLog Value :=
  { log with dropped := log.dropped ++ [log.arrived.length - queued] }

/-! ## Dropped positions -/

section Kept

variable {dropped : List Nat} {start : Nat} {values : List Value}

theorem keptFrom_append (first second : List Value) :
    keptFrom dropped start (first ++ second) =
      keptFrom dropped start first ++ keptFrom dropped (start + first.length) second := by
  rw [keptFrom, List.zipIdx_append, List.filter_append, List.map_append]
  rfl

/-- Nothing is missing behind the dropped positions. -/
theorem keptFrom_of_lt (hbefore : ∀ position ∈ dropped, position < start) :
    keptFrom dropped start values = values := by
  have hall : ∀ value ∈ values.zipIdx start, (decide (value.2 ∉ dropped)) = true := by
    intro value hvalue
    apply decide_eq_true
    intro hdropped
    exact absurd (hbefore value.2 hdropped) (Nat.not_lt.mpr (List.le_snd_of_mem_zipIdx hvalue))
  rw [keptFrom, List.filter_eq_self.mpr hall, List.zipIdx_map_fst]

/-- A position behind the values changes nothing. -/
theorem keptFrom_snoc {position : Nat} (hbehind : start + values.length ≤ position) :
    keptFrom (dropped ++ [position]) start values = keptFrom dropped start values := by
  rw [keptFrom, keptFrom]
  congr 1
  apply List.filter_congr
  intro value hvalue
  have hlt : value.2 < values.length + start := List.snd_lt_of_mem_zipIdx hvalue
  have hne : value.2 ≠ position := by omega
  simp [hne]

end Kept

/-! ## Streams -/

/-- The values that left and the values in the queue, of those that arrived. -/
def Streamed (log : OverflowLog Value) (left queued : List Value) : Prop :=
  ∃ gone, log.arrived = gone ++ queued ∧ left = keptFrom log.dropped 0 gone ∧
    ∀ position ∈ log.dropped, position < gone.length

theorem streamed_nil : Streamed (⟨[], []⟩ : OverflowLog Value) [] [] :=
  ⟨[], rfl, rfl, nofun⟩

section Streamed

variable {log : OverflowLog Value} {left queued : List Value}

theorem Streamed.arrive (hstreamed : Streamed log left queued) (value : Value) :
    Streamed (log.arrive value) left (queued ++ [value]) := by
  obtain ⟨gone, harrived, hleft, hdropped⟩ := hstreamed
  refine ⟨gone, ?_, hleft, hdropped⟩
  rw [OverflowLog.arrive, harrived, List.append_assoc]

/-- Values that leave from the front. -/
theorem Streamed.leave {batch : List Value} (hstreamed : Streamed log left (batch ++ queued)) :
    Streamed log (left ++ batch) queued := by
  obtain ⟨gone, harrived, hleft, hdropped⟩ := hstreamed
  refine ⟨gone ++ batch, ?_, ?_, ?_⟩
  · rw [harrived, List.append_assoc]
  · rw [keptFrom_append, ← hleft, Nat.zero_add, keptFrom_of_lt hdropped]
  · intro position hposition
    rw [List.length_append]
    exact Nat.lt_add_right _ (hdropped position hposition)

theorem Streamed.loseOldest (hstreamed : Streamed log left queued) (hqueued : queued ≠ []) :
    Streamed (log.loseOldest queued.length) left queued.tail := by
  obtain ⟨gone, harrived, hleft, hdropped⟩ := hstreamed
  obtain ⟨oldest, rest, rfl⟩ := List.exists_cons_of_ne_nil hqueued
  have hposition : log.arrived.length - (oldest :: rest).length = gone.length := by
    rw [harrived, List.length_append, Nat.add_sub_cancel]
  refine ⟨gone ++ [oldest], ?_, ?_, ?_⟩
  · rw [OverflowLog.loseOldest, harrived, List.append_assoc]
    rfl
  · have hlost : keptFrom (log.dropped ++ [gone.length]) gone.length [oldest] = [] := by
      simp [keptFrom]
    rw [OverflowLog.loseOldest, hposition, keptFrom_append, keptFrom_snoc (by omega), Nat.zero_add,
      hlost, List.append_nil, hleft]
  · intro position hmem
    rw [OverflowLog.loseOldest, hposition] at hmem
    rw [List.length_append]
    rcases List.mem_append.mp hmem with hold | hnew
    · exact Nat.lt_add_right _ (hdropped position hold)
    · rw [List.mem_singleton.mp hnew]
      exact Nat.lt_succ_self _

/-- The queue holds the values that arrived last. -/
theorem Streamed.queued_eq (hstreamed : Streamed log left queued) :
    queued = log.arrived.drop (log.arrived.length - queued.length) := by
  obtain ⟨gone, harrived, -, -⟩ := hstreamed
  rw [harrived, List.length_append, Nat.add_sub_cancel, List.drop_left]

/-- Nothing but the lost values is missing. -/
theorem Streamed.kept (hstreamed : Streamed log left queued) : left ++ queued = log.kept := by
  obtain ⟨gone, harrived, hleft, hdropped⟩ := hstreamed
  rw [OverflowLog.kept, harrived, keptFrom_append, ← hleft, Nat.zero_add, keptFrom_of_lt hdropped]

end Streamed

end Machine
