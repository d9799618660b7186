import Mathlib.Data.List.Basic

/-! # Blocks of one size

A list is a sequence of blocks of one size, and the `j`-th block is found at `j` times the size.
Parts that stand behind each block can be taken out again.
-/

namespace Machine

universe uValue

variable {Value : Type uValue}

/-- The block with the index `j`. -/
def block (size : Nat) (values : List Value) (j : Nat) : List Value :=
  (values.drop (size * j)).take size

/-- `keep` values and not the next `skip` ones, over and over. -/
def keepBlocks (keep skip : Nat) : Nat → List Value → List Value
  | 0, _ => []
  | count + 1, values =>
      values.take keep ++ keepBlocks keep skip count (values.drop (keep + skip))

section Blocks

variable {size count : Nat} {blocks : Nat → List Value}

theorem flatMap_range_succ (count : Nat) (blocks : Nat → List Value) :
    (List.range (count + 1)).flatMap blocks =
      blocks 0 ++ (List.range count).flatMap (fun j => blocks (j + 1)) := by
  rw [List.range_succ_eq_map, List.flatMap_cons, List.flatMap_map]

theorem length_flatMap_range (hsize : ∀ j < count, (blocks j).length = size) :
    ((List.range count).flatMap blocks).length = size * count := by
  induction count with
  | zero => rfl
  | succ count ih =>
      have hbefore := ih (fun j hj => hsize j (Nat.lt_succ_of_lt hj))
      rw [List.range_succ, List.flatMap_append, List.length_append, hbefore,
        List.flatMap_singleton, hsize count (Nat.lt_succ_self count), Nat.mul_succ]

/-- Each block is found at its place. -/
theorem block_flatMap_range (hsize : ∀ j < count, (blocks j).length = size) {j : Nat}
    (hj : j < count) : block size ((List.range count).flatMap blocks) j = blocks j := by
  induction count generalizing blocks j with
  | zero => exact absurd hj (Nat.not_lt_zero j)
  | succ count ih =>
      have hfirst : (blocks 0).length = size := hsize 0 (Nat.succ_pos count)
      rw [flatMap_range_succ]
      cases j with
      | zero =>
          rw [block, Nat.mul_zero, List.drop_zero, ← hfirst, List.take_left]
      | succ j =>
          have hrest : block size ((List.range count).flatMap fun j => blocks (j + 1)) j =
              blocks (j + 1) :=
            ih (fun i hi => hsize (i + 1) (Nat.succ_lt_succ hi)) (Nat.lt_of_succ_lt_succ hj)
          rw [block, Nat.mul_succ, Nat.add_comm, ← List.drop_drop]
          conv_lhs => rw [← hfirst, List.drop_left, hfirst]
          exact hrest

/-- What stands behind the blocks is taken out. -/
theorem keepBlocks_flatMap_range {keep skip : Nat} {kept skipped : Nat → List Value}
    (hkept : ∀ j < count, (kept j).length = keep)
    (hskipped : ∀ j < count, (skipped j).length = skip) :
    keepBlocks keep skip count ((List.range count).flatMap fun j => kept j ++ skipped j) =
      (List.range count).flatMap kept := by
  induction count generalizing kept skipped with
  | zero => rfl
  | succ count ih =>
      have hfirst := hkept 0 (Nat.succ_pos count)
      have hbehind := hskipped 0 (Nat.succ_pos count)
      rw [flatMap_range_succ, flatMap_range_succ, keepBlocks]
      have htake : (kept 0 ++ skipped 0 ++ (List.range count).flatMap
          fun j => kept (j + 1) ++ skipped (j + 1)).take keep = kept 0 := by
        rw [List.append_assoc, ← hfirst, List.take_left]
      have hdrop : (kept 0 ++ skipped 0 ++ (List.range count).flatMap
          fun j => kept (j + 1) ++ skipped (j + 1)).drop (keep + skip) =
          (List.range count).flatMap fun j => kept (j + 1) ++ skipped (j + 1) := by
        have hlength : keep + skip = (kept 0 ++ skipped 0).length := by
          rw [List.length_append, hfirst, hbehind]
        rw [hlength, List.drop_left]
      rw [htake, hdrop, ih (fun j hj => hkept (j + 1) (Nat.succ_lt_succ hj))
        (fun j hj => hskipped (j + 1) (Nat.succ_lt_succ hj))]

/-- A list is the sequence of its blocks. -/
theorem flatMap_block {values : List Value} (hlength : values.length = size * count) :
    (List.range count).flatMap (block size values) = values := by
  induction count generalizing values with
  | zero =>
      have hnil : values = [] := List.length_eq_zero_iff.mp (by rw [hlength, Nat.mul_zero])
      rw [hnil]
      rfl
  | succ count ih =>
      have hrest : (values.drop size).length = size * count := by
        rw [List.length_drop, hlength, Nat.mul_succ, Nat.add_sub_cancel]
      have hblocks : (fun j => block size values (j + 1)) = block size (values.drop size) := by
        funext j
        rw [block, block, List.drop_drop, Nat.mul_succ, Nat.add_comm]
      rw [flatMap_range_succ, hblocks, ih hrest, block, Nat.mul_zero, List.drop_zero,
        List.take_append_drop]

end Blocks

end Machine
