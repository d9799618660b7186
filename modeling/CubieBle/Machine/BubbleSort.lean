import Mathlib.Data.List.Basic
import Mathlib.Order.Lattice

/-! # Bubble sort in place

Each round carries the least of the elements that are left to their end. What was carried there
is sorted and not above anything in front of it.
-/

namespace Machine

universe uElement

variable {Element : Type uElement} [LinearOrder Element]

/-- Two neighbours change places if the first one is less. -/
def sortStep (a : List Element) (i : Nat) : List Element :=
  match a[i]?, a[i + 1]? with
  | some first, some second => if first < second then (a.set i second).set (i + 1) first else a
  | _, _ => a

/-- The inner loop up to an index. -/
def sortPass (a : List Element) : Nat → List Element
  | 0 => a
  | i + 1 => sortStep (sortPass a i) i

/-- The outer loop over the first `n` elements. -/
def sortRounds (n : Nat) (a : List Element) : Nat → List Element
  | 0 => a
  | j + 1 => sortPass (sortRounds n a j) (n - 1 - j)

def sortDown (a : List Element) (n : Nat) : List Element := sortRounds n a (n - 1)

section Rounds

variable {a front : List Element}

theorem sortStep_append (front : List Element) (first second : Element)
    (rest : List Element) :
    sortStep (front ++ first :: second :: rest) front.length =
      if first < second then front ++ second :: first :: rest
      else front ++ first :: second :: rest := by
  have hfirst : (front ++ first :: second :: rest)[front.length]? = some first := by simp
  have hsecond : (front ++ first :: second :: rest)[front.length + 1]? = some second := by simp
  rw [sortStep, hfirst, hsecond]
  dsimp only
  split
  next => simp
  next => rfl

/-- The inner loop carries the least element to the end. -/
theorem exists_sortPass {m : Nat} (hlength : front.length = m + 1) (rest : List Element) :
    ∃ init last, sortPass (front ++ rest) m = init ++ last :: rest ∧
      (init ++ [last]).Perm front ∧ ∀ x ∈ init, last ≤ x := by
  induction m generalizing front rest with
  | zero =>
      obtain ⟨only, rfl⟩ := List.length_eq_one_iff.mp hlength
      exact ⟨[], only, rfl, List.Perm.refl _, by simp⟩
  | succ m ih =>
      obtain ⟨start, next, rfl⟩ : ∃ start next, front = start ++ [next] :=
        ⟨_, _, (List.dropLast_append_getLast
          (List.ne_nil_of_length_eq_add_one hlength)).symm⟩
      have hstart : start.length = m + 1 := by
        rw [List.length_append, List.length_singleton] at hlength
        omega
      obtain ⟨init, last, hpass, hperm, hleast⟩ := ih hstart (next :: rest)
      have hinit : init.length = m := by
        have hsame := hperm.length_eq
        rw [List.length_append, List.length_singleton] at hsame
        omega
      rw [List.append_assoc, List.singleton_append, sortPass, hpass, ← hinit,
        sortStep_append]
      split
      next hless =>
        -- the least element goes on
        refine ⟨init ++ [next], last, by simp, ?_, ?_⟩
        · have hswap : (init ++ [next] ++ [last]).Perm (init ++ [last] ++ [next]) := by
            rw [List.append_assoc, List.append_assoc]
            exact List.perm_append_comm.append_left init
          exact hswap.trans (hperm.append_right [next])
        · intro x hx
          rcases List.mem_append.mp hx with hinit | hnext
          · exact hleast x hinit
          · rw [List.mem_singleton.mp hnext]
            exact hless.le
      next hless =>
        refine ⟨init ++ [last], next, by simp, hperm.append_right [next], ?_⟩
        intro x hx
        have hle : next ≤ last := not_lt.mp hless
        rcases List.mem_append.mp hx with hinit | hlast
        · exact hle.trans (hleast x hinit)
        · rw [List.mem_singleton.mp hlast]
          exact hle

/-- After some rounds, what they carried to the end is sorted and not above the rest. -/
theorem exists_sortRounds {n j : Nat} (hn : n ≤ a.length) (hj : j < n ∨ j = 0) :
    ∃ front back, sortRounds n a j = front ++ back ++ a.drop n ∧ back.length = j ∧
      (front ++ back).Perm (a.take n) ∧ back.Pairwise (· ≥ ·) ∧
        ∀ x ∈ front, ∀ y ∈ back, y ≤ x := by
  induction j with
  | zero => exact ⟨a.take n, [], by simp [sortRounds], rfl, by simp, List.Pairwise.nil, by simp⟩
  | succ j ih =>
      have hlt : j + 1 < n := hj.resolve_right (Nat.succ_ne_zero j)
      obtain ⟨front, back, hrounds, hback, hperm, hsorted, hle⟩ := ih (.inl (by omega))
      have hfront : front.length = n - 1 - j + 1 := by
        have hsame := hperm.length_eq
        rw [List.length_append, List.length_take, hback] at hsame
        omega
      obtain ⟨init, last, hpass, hcarried, hleast⟩ :=
        exists_sortPass hfront (back ++ a.drop n)
      have hmem : ∀ x ∈ init ++ [last], x ∈ front := fun x hx => hcarried.mem_iff.mp hx
      refine ⟨init, last :: back, ?_, by rw [List.length_cons, hback], ?_, ?_, ?_⟩
      · rw [sortRounds, hrounds, List.append_assoc, hpass]
        simp
      · have happend : init ++ last :: back = init ++ [last] ++ back := by simp
        rw [happend]
        exact (hcarried.append_right back).trans hperm
      · refine List.pairwise_cons.mpr ⟨fun y hy => ?_, hsorted⟩
        exact hle last (hmem last (by simp)) y hy
      · intro x hx y hy
        rcases List.mem_cons.mp hy with rfl | hy
        · exact hleast x hx
        · exact hle x (hmem x (List.mem_append_left _ hx)) y hy

/-- The first elements are sorted from the greatest to the least, and the others are left
alone. -/
theorem exists_sortDown {n : Nat} (hn : n ≤ a.length) :
    ∃ sorted, sortDown a n = sorted ++ a.drop n ∧ sorted.Perm (a.take n) ∧
      sorted.Pairwise (· ≥ ·) := by
  obtain ⟨front, back, hrounds, hback, hperm, hsorted, hle⟩ :=
    exists_sortRounds hn (show n - 1 < n ∨ n - 1 = 0 by omega)
  refine ⟨front ++ back, hrounds, hperm, List.pairwise_append.mpr ⟨?_, hsorted, hle⟩⟩
  -- at most one element is left in front
  have hshort : front.length ≤ 1 := by
    have hsame := hperm.length_eq
    rw [List.length_append, List.length_take, hback] at hsame
    omega
  cases front with
  | nil => exact List.Pairwise.nil
  | cons first rest =>
      obtain rfl : rest = [] := List.eq_nil_of_length_eq_zero
        (Nat.le_zero.mp (Nat.le_of_succ_le_succ hshort))
      exact List.pairwise_singleton _ _

theorem length_sortDown {n : Nat} (hn : n ≤ a.length) :
    (sortDown a n).length = a.length := by
  obtain ⟨sorted, hsort, hperm, -⟩ := exists_sortDown hn
  rw [hsort, List.length_append, hperm.length_eq, ← List.length_append, List.take_append_drop]

/-- What is sorted to the front is the greatest of the first elements. -/
theorem head?_sortDown {n : Nat} (hn : n ≤ a.length) {x : Element}
    (hhead : (sortDown a n).head? = some x) (hpos : 0 < n) :
    x ∈ a.take n ∧ ∀ y ∈ a.take n, y ≤ x := by
  obtain ⟨sorted, hsort, hperm, hsorted⟩ := exists_sortDown hn
  cases sorted with
  | nil =>
      have hsame := hperm.length_eq
      rw [List.length_nil, List.length_take] at hsame
      omega
  | cons first rest =>
      rw [hsort, List.cons_append, List.head?_cons] at hhead
      obtain rfl := Option.some.inj hhead
      refine ⟨hperm.mem_iff.mp List.mem_cons_self, fun y hy => ?_⟩
      rcases List.mem_cons.mp (hperm.mem_iff.mpr hy) with rfl | hrest
      · exact le_rfl
      · exact List.rel_of_pairwise_cons hsorted hrest

end Rounds

end Machine
