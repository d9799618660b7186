import Mathlib.Data.List.Basic
import Mathlib.Data.Vector.Basic

/-! # Arrays of which the lowest entries are in use

An array of a fixed size and the number of its entries that are in use stand for a list.
-/

namespace Machine

universe u

variable {α : Type u} {size : Nat} {entries : Vector α size} {count : Nat}

/-- The entries in use. -/
def inUse (entries : Vector α size) (count : Nat) : List α := entries.toList.take count

@[simp] theorem inUse_zero : inUse entries 0 = [] := rfl

theorem length_inUse (hcount : count ≤ size) : (inUse entries count).length = count := by
  rw [inUse, List.length_take, Vector.length_toList, Nat.min_eq_left hcount]

theorem inUse_getElem? {i : Nat} (hi : i < count) (hcount : count ≤ size) :
    (inUse entries count)[i]? = some (entries.get ⟨i, hi.trans_le hcount⟩) := by
  rw [inUse, List.getElem?_take_of_lt hi]
  simp only [Vector.getElem?_toList, Vector.getElem?_eq_getElem (hi.trans_le hcount)]
  rfl

/-- The next entry is taken into use. -/
theorem inUse_set_next (hcount : count < size) (value : α) :
    inUse (entries.set count value) (count + 1) = inUse entries count ++ [value] := by
  rw [inUse, inUse, Vector.toList_set, List.take_succ_eq_append_getElem (by simpa using hcount),
    List.getElem_set_self, List.take_set_of_le (Nat.le_refl count)]

/-- An entry in use is replaced. -/
theorem inUse_set {i : Nat} (hi : i < size) (value : α) :
    inUse (entries.set i value) count = (inUse entries count).set i value := by
  rw [inUse, inUse, Vector.toList_set, List.take_set]

end Machine
