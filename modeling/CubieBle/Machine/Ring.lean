import Mathlib.Data.List.Rotate
import Mathlib.Data.Nat.ModEq

/-! # Rings

Readings are stored one after the other in a ring of cells. The cells hold the last ones, in an
order that is theirs up to a rotation.
-/

namespace Machine

universe uReading

variable {Reading : Type uReading} {size : Nat}

/-- The cells hold the last readings, each at its number modulo the size of the ring. -/
def RingHolds (cells : Vector Reading size) (readings : List Reading) : Prop :=
  ∀ k < readings.length, readings.length ≤ k + size → cells[k % size]? = readings[k]?

section Readings

variable {cells : Vector Reading size} {readings : List Reading}

theorem ringHolds_nil (cells : Vector Reading size) : RingHolds cells [] :=
  fun _ hlt => (Nat.not_lt_zero _ hlt).elim

/-- Storing a reading in its cell overwrites the oldest one only. -/
theorem RingHolds.push (hholds : RingHolds cells readings) (hsize : 0 < size)
    (reading : Reading) :
    RingHolds (cells.setIfInBounds (readings.length % size) reading)
      (readings ++ [reading]) := by
  intro k hlt hlast
  rw [List.length_append, List.length_singleton] at hlt hlast
  rcases Nat.lt_succ_iff_lt_or_eq.mp hlt with hold | rfl
  · have hcell : readings.length % size ≠ k % size := by
      intro hmod
      have hdvd : size ∣ readings.length - k := (Nat.modEq_iff_dvd' hold.le).mp hmod.symm
      have hle := Nat.le_of_dvd (Nat.sub_pos_of_lt hold) hdvd
      omega
    rw [Vector.getElem?_setIfInBounds_ne hcell, List.getElem?_append_left hold]
    exact hholds k hold (by omega)
  · rw [Vector.getElem?_setIfInBounds_self_of_lt (Nat.mod_lt _ hsize),
      List.getElem?_append_right (Nat.le_refl _), Nat.sub_self]
    rfl

/-- The cells that are in use hold exactly the last readings. -/
theorem RingHolds.perm (hholds : RingHolds cells readings) :
    (cells.toList.take (min readings.length size)).Perm
      (readings.drop (readings.length - size)) := by
  by_cases hfew : readings.length ≤ size
  · rw [Nat.min_eq_left hfew, Nat.sub_eq_zero_of_le hfew, List.drop_zero]
    refine List.Perm.of_eq (List.ext_getElem? fun k => ?_)
    by_cases hlt : k < readings.length
    · rw [List.getElem?_take_of_lt hlt, ← hholds k hlt (by omega),
        Nat.mod_eq_of_lt (lt_of_lt_of_le hlt hfew), Vector.getElem?_toList]
    · rw [List.getElem?_eq_none (by rw [List.length_take]; omega),
        List.getElem?_eq_none (Nat.le_of_not_lt hlt)]
  · -- the ring is full, and the oldest reading is where the next one goes
    rw [Nat.min_eq_right (by omega), List.take_of_length_le (by rw [Vector.length_toList])]
    have hrotate : cells.toList.rotate (readings.length - size) =
        readings.drop (readings.length - size) := by
      refine List.ext_getElem? fun k => ?_
      by_cases hlt : k < size
      · rw [List.getElem?_rotate (by rwa [Vector.length_toList]), Vector.length_toList,
          Vector.getElem?_toList, hholds (k + (readings.length - size)) (by omega) (by omega),
          List.getElem?_drop, Nat.add_comm]
      · rw [List.getElem?_eq_none (by rw [List.length_rotate, Vector.length_toList]; omega),
          List.getElem?_eq_none (by rw [List.length_drop]; omega)]
    rw [← hrotate]
    exact (List.rotate_perm _ _).symm

end Readings

end Machine
