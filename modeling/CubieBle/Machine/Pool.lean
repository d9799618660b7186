import Mathlib.Data.List.Count

/-! # Buffers and the places that hold them

A fixed set of buffers moves between queues and single slots. Counting the occurrences
of each buffer over all the places says that none is lost and none is held twice.
-/

namespace Machine

variable {Buf : Type} [DecidableEq Buf]

/-- A slot holds the buffer in it and no other one. -/
theorem count_toList (slot : Option Buf) (buf : Buf) :
    slot.toList.count buf = if slot = some buf then 1 else 0 := by
  cases slot with
  | none => rfl
  | some held =>
      rw [Option.toList_some, List.count_singleton]
      simp only [beq_iff_eq, Option.some.injEq]

/-- Every buffer is in exactly one place. -/
def Partitioned (places : List Buf) : Prop := ∀ buf, places.count buf = 1

/-- Moving buffers between the places keeps the partition. -/
theorem Partitioned.perm {places next : List Buf} (hpartitioned : Partitioned places)
    (hperm : next.Perm places) : Partitioned next := by
  intro buf
  rw [hperm.count_eq, hpartitioned]

theorem Partitioned.ne {first second : List Buf} (hpartitioned : Partitioned (first ++ second))
    {buf other : Buf} (hfirst : buf ∈ first) (hsecond : other ∈ second) : buf ≠ other := by
  rintro rfl
  have hcount := hpartitioned buf
  have hpos := List.count_pos_iff.mpr hfirst
  have hpos' := List.count_pos_iff.mpr hsecond
  rw [List.count_append] at hcount
  omega

/-! ## Buffers of a handler

The places are the free buffers, the queued ones, those in use elsewhere and the one that a
handler has.
-/

/-- The handler takes the first queued buffer. -/
theorem perm_takeQueued (avail rest others : List Buf) (buf : Buf) :
    (avail ++ rest ++ others ++ (some buf).toList).Perm
      (avail ++ buf :: rest ++ others ++ none.toList) := by
  rw [List.perm_iff_count]
  intro other
  simp only [List.count_append, List.count_cons, List.count_nil, Option.toList_some,
    Option.toList_none]
  omega

/-- The handler gives its buffer back. -/
theorem perm_giveBack (avail queue others : List Buf) (buf : Buf) :
    (avail ++ [buf] ++ queue ++ others ++ none.toList).Perm
      (avail ++ queue ++ others ++ (some buf).toList) := by
  rw [List.perm_iff_count]
  intro other
  simp only [List.count_append, List.count_cons, List.count_nil, Option.toList_some,
    Option.toList_none]
  omega

end Machine
