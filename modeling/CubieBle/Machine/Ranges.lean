import Mathlib.Data.List.Chain
import Mathlib.Data.List.Sort
import Mathlib.Order.CompletePartialOrder
import Mathlib.Order.Interval.Set.Disjoint

/-! # Ranges that do not overlap

Half-open ranges are given by their two ends. Whether any two of a list overlap, and whether
all lie inside some range, is a matter of neighbours once the nonempty ones are put in order.
-/

namespace Machine

universe uIndex

variable {Index : Type uIndex} [LinearOrder Index]

/-- What a range covers. -/
def covered (range : Index × Index) : Set Index := Set.Ico range.1 range.2

/-- No two ranges overlap. -/
def Separate (ranges : List (Index × Index)) : Prop :=
  ranges.Pairwise fun first second => Disjoint (covered first) (covered second)

/-- All ranges lie inside a range. -/
def Inside (low high : Index) (ranges : List (Index × Index)) : Prop :=
  ∀ range ∈ ranges, covered range ⊆ covered (low, high)

/-- One range starts no later than another. -/
def StartsBy (first second : Index × Index) : Prop := first.1 ≤ second.1

instance (first second : Index × Index) : Decidable (StartsBy first second) :=
  inferInstanceAs (Decidable (first.1 ≤ second.1))

instance : Std.Total (@StartsBy Index _) where
  total first second := le_total first.1 second.1

instance : IsTrans (Index × Index) StartsBy where
  trans _ _ _ hfirst hsecond := le_trans hfirst hsecond

/-- The nonempty ranges by where they start. -/
def inOrder (ranges : List (Index × Index)) : List (Index × Index) :=
  (ranges.filter fun range => range.1 < range.2).insertionSort StartsBy

/-- Each range ends before the next one starts, and the first and the last stay inside. -/
structure Consecutive (low high : Index) (ranges : List (Index × Index)) : Prop where
  chain : ranges.IsChain fun first second => first.2 ≤ second.1
  first : ∀ range ∈ ranges.head?, low ≤ range.1
  last : ∀ range ∈ ranges.getLast?, range.2 ≤ high

variable {ranges : List (Index × Index)} {low high : Index}

theorem covered_eq_empty {range : Index × Index} (hempty : ¬range.1 < range.2) :
    covered range = ∅ :=
  Set.Ico_eq_empty hempty

/-- A nonempty range lies inside another exactly if its two ends do. -/
theorem covered_subset_iff {range : Index × Index} (hnonempty : range.1 < range.2) :
    covered range ⊆ covered (low, high) ↔ low ≤ range.1 ∧ range.2 ≤ high :=
  Set.Ico_subset_Ico_iff hnonempty

/-- An empty range overlaps with none. -/
theorem separate_filter_iff :
    Separate (ranges.filter fun range => range.1 < range.2) ↔ Separate ranges := by
  constructor
  · intro hfilter
    rw [Separate, List.pairwise_filter] at hfilter
    refine hfilter.imp ?_
    intro first second hdisjoint
    by_cases hfirst : first.1 < first.2
    · by_cases hsecond : second.1 < second.2
      · exact hdisjoint (decide_eq_true hfirst) (decide_eq_true hsecond)
      · rw [covered_eq_empty hsecond]
        exact Set.disjoint_empty _
    · rw [covered_eq_empty hfirst]
      exact Set.empty_disjoint _
  · intro hseparate
    exact List.Pairwise.filter _ hseparate

theorem inside_filter_iff :
    Inside low high (ranges.filter fun range => range.1 < range.2) ↔ Inside low high ranges := by
  constructor
  · intro hfilter range hrange
    by_cases hnonempty : range.1 < range.2
    · exact hfilter range (List.mem_filter.mpr ⟨hrange, decide_eq_true hnonempty⟩)
    · rw [covered_eq_empty hnonempty]
      exact Set.empty_subset _
  · intro hinside range hrange
    exact hinside range (List.mem_filter.mp hrange).1

theorem inOrder_perm (ranges : List (Index × Index)) :
    (inOrder ranges).Perm (ranges.filter fun range => range.1 < range.2) :=
  List.perm_insertionSort _ _

theorem nonempty_of_mem_inOrder {range : Index × Index} (hrange : range ∈ inOrder ranges) :
    range.1 < range.2 :=
  of_decide_eq_true (List.mem_filter.mp ((inOrder_perm ranges).mem_iff.mp hrange)).2

theorem sorted_inOrder (ranges : List (Index × Index)) : (inOrder ranges).Pairwise StartsBy :=
  List.pairwise_insertionSort _ _

/-- Of two nonempty ranges that do not overlap, the one that starts first ends first. -/
theorem disjoint_iff_le {first second : Index × Index} (hsecond : second.1 < second.2)
    (hle : StartsBy first second) :
    Disjoint (covered first) (covered second) ↔ first.2 ≤ second.1 := by
  rw [covered, covered, Set.Ico_disjoint_Ico, max_eq_right hle, min_le_iff]
  constructor
  · rintro (hend | hend)
    · exact hend
    · exact absurd hend (not_le.mpr hsecond)
  · intro hend
    exact .inl hend

/-- Ranges in order do not overlap exactly if each ends before all that follow. -/
theorem separate_inOrder_iff :
    Separate (inOrder ranges) ↔
      (inOrder ranges).Pairwise fun first second => first.2 ≤ second.1 := by
  have hsorted := sorted_inOrder ranges
  constructor
  · intro hseparate
    refine (hseparate.and hsorted).imp_of_mem ?_
    rintro first second - hsecond ⟨hdisjoint, hle⟩
    exact (disjoint_iff_le (nonempty_of_mem_inOrder hsecond) hle).mp hdisjoint
  · intro hbefore
    refine (hbefore.and hsorted).imp_of_mem ?_
    rintro first second - hsecond ⟨hend, hle⟩
    exact (disjoint_iff_le (nonempty_of_mem_inOrder hsecond) hle).mpr hend

/-- A range ends before a nonempty one starts. -/
def Before (first second : Index × Index) : Prop :=
  first.2 ≤ second.1 ∧ second.1 < second.2

instance : Trans (@Before Index _) Before Before where
  trans := fun hfirst hsecond => ⟨hfirst.1.trans (hfirst.2.le.trans hsecond.1), hsecond.2⟩

/-- Among nonempty ranges it is enough to look at neighbours. -/
theorem isChain_iff_pairwise_le (hnonempty : ∀ range ∈ ranges, range.1 < range.2) :
    (ranges.IsChain fun first second => first.2 ≤ second.1) ↔
      ranges.Pairwise fun first second => first.2 ≤ second.1 := by
  constructor
  · intro hchain
    have hstrict : ranges.IsChain Before := by
      refine hchain.imp_of_mem_imp ?_
      intro first second _ hsecond hle
      exact ⟨hle, hnonempty second hsecond⟩
    exact (List.isChain_iff_pairwise.mp hstrict).imp And.left
  · exact List.Pairwise.isChain

/-- Ranges in order stay inside if the first and the last of them do. -/
theorem inside_iff_ends (hnonempty : ∀ range ∈ ranges, range.1 < range.2)
    (hbefore : ranges.Pairwise fun first second => first.2 ≤ second.1) :
    Inside low high ranges ↔
      (∀ range ∈ ranges.head?, low ≤ range.1) ∧ ∀ range ∈ ranges.getLast?, range.2 ≤ high := by
  have hends : Inside low high ranges ↔ ∀ range ∈ ranges, low ≤ range.1 ∧ range.2 ≤ high :=
    forall₂_congr fun range hrange => covered_subset_iff (hnonempty range hrange)
  rw [hends]
  constructor
  · intro hall
    exact ⟨fun range hrange => (hall range (List.mem_of_mem_head? hrange)).1,
      fun range hrange => (hall range (List.mem_of_mem_getLast? hrange)).2⟩
  · rintro ⟨hfirst, hlast⟩ range hrange
    constructor
    · cases ranges with
      | nil => cases hrange
      | cons head rest =>
          have hhead := hfirst head rfl
          rcases List.mem_cons.mp hrange with rfl | hrest
          · exact hhead
          · have hend := (List.pairwise_cons.mp hbefore).1 range hrest
            exact hhead.trans ((hnonempty head List.mem_cons_self).le.trans hend)
    · cases ranges using List.reverseRecOn with
      | nil => cases hrange
      | append_singleton rest final _ =>
          have hfinal := hlast final (by simp)
          rcases List.mem_append.mp hrange with hrest | hrange
          · have hend := (List.pairwise_append.mp hbefore).2.2 range hrest final (by simp)
            exact hend.trans ((hnonempty final (by simp)).le.trans hfinal)
          · obtain rfl := List.mem_singleton.mp hrange
            exact hfinal

/-- Ranges are separate and inside exactly if the nonempty ones are consecutive in order. -/
theorem separate_inside_iff_consecutive :
    Separate ranges ∧ Inside low high ranges ↔ Consecutive low high (inOrder ranges) := by
  have hnonempty : ∀ range ∈ inOrder ranges, range.1 < range.2 :=
    fun _ => nonempty_of_mem_inOrder
  have hseparate : Separate ranges ↔
      (inOrder ranges).Pairwise fun first second => first.2 ≤ second.1 := by
    rw [← separate_filter_iff, ← separate_inOrder_iff]
    exact ((inOrder_perm ranges).pairwise_iff fun hdisjoint => hdisjoint.symm).symm
  have hinside : Inside low high ranges ↔ Inside low high (inOrder ranges) := by
    rw [← inside_filter_iff]
    exact forall_congr' fun range => imp_congr_left (inOrder_perm ranges).mem_iff.symm
  rw [hseparate, hinside]
  constructor
  · rintro ⟨hbefore, hends⟩
    obtain ⟨hfirst, hlast⟩ := (inside_iff_ends hnonempty hbefore).mp hends
    exact ⟨(isChain_iff_pairwise_le hnonempty).mpr hbefore, hfirst, hlast⟩
  · rintro ⟨hchain, hfirst, hlast⟩
    have hbefore := (isChain_iff_pairwise_le hnonempty).mp hchain
    exact ⟨hbefore, (inside_iff_ends hnonempty hbefore).mpr ⟨hfirst, hlast⟩⟩

/-! ## Ranges without gaps -/

/-- From one end to another, each range starts where the one before it ends. -/
def Gapless : Index → List (Index × Index) → Index → Prop
  | start, [], stop => start = stop
  | start, range :: rest, stop => range.1 = start ∧ start ≤ range.2 ∧ Gapless range.2 rest stop

theorem Gapless.le {start stop : Index} (hgapless : Gapless start ranges stop) :
    start ≤ stop := by
  induction ranges generalizing start with
  | nil => exact le_of_eq hgapless
  | cons range rest ih => exact hgapless.2.1.trans (ih hgapless.2.2)

theorem Gapless.snoc {start middle stop : Index} (hgapless : Gapless start ranges middle)
    (hle : middle ≤ stop) : Gapless start (ranges ++ [(middle, stop)]) stop := by
  induction ranges generalizing start with
  | nil =>
      cases hgapless
      exact ⟨rfl, hle, rfl⟩
  | cons range rest ih => exact ⟨hgapless.1, hgapless.2.1, ih hgapless.2.2⟩

theorem Gapless.inside {start stop : Index} (hgapless : Gapless start ranges stop) :
    Inside start stop ranges := by
  induction ranges generalizing start with
  | nil =>
      intro range hrange
      cases hrange
  | cons head rest ih =>
      obtain ⟨hstart, hle, hrest⟩ := hgapless
      intro range hrange
      rcases List.mem_cons.mp hrange with rfl | hmem
      · exact Set.Ico_subset_Ico (le_of_eq hstart.symm) hrest.le
      · exact (ih hrest range hmem).trans (Set.Ico_subset_Ico hle (le_refl stop))

theorem Gapless.separate {start stop : Index} (hgapless : Gapless start ranges stop) :
    Separate ranges := by
  induction ranges generalizing start with
  | nil => exact List.Pairwise.nil
  | cons head rest ih =>
      obtain ⟨-, -, hrest⟩ := hgapless
      refine List.Pairwise.cons ?_ (ih hrest)
      intro range hrange
      -- all that follow lie behind the first
      apply Set.disjoint_of_subset_right (hrest.inside range hrange)
      exact Set.Ico_disjoint_Ico_same

end Machine
