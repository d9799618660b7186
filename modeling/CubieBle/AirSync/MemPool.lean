import Mathlib.Data.List.Perm.Basic
import CubieBle.Machine.Run

/-! # The buffer pool of AirSync

`malloc` and `free` of the protocol code are a slab of ten blocks. The size of a request is
compared with zero only, and each change of the subscription makes all blocks free again.
-/

namespace CubieBle.AirSync

open Machine

def memPoolBufNum : Nat := 10
def memPoolBufSize : Nat := 96

/-- The blocks of `mem_pool`. -/
abbrev Block := Fin memPoolBufNum

/-! ## The slab -/

/-- `wechat_mem`: its free list, the next block to be given out first. -/
structure KMemSlab where
  freeList : List Block
deriving DecidableEq

/-- `k_mem_slab_init`; each block is put in front of those before it. -/
def kMemSlabInit : KMemSlab where
  freeList := (List.finRange memPoolBufNum).reverse

def kMemSlabAlloc (slab : KMemSlab) : KMemSlab × Option Block :=
  match slab.freeList with
  | [] => (slab, none)
  | block :: rest => ({ slab with freeList := rest }, some block)

def kMemSlabFree (slab : KMemSlab) (block : Block) : KMemSlab :=
  { slab with freeList := block :: slab.freeList }

/-! ## The pool -/

def memInit : KMemSlab := kMemSlabInit

def memMalloc (slab : KMemSlab) (size : Nat) : KMemSlab × Option Block :=
  if size = 0 then (slab, none) else kMemSlabAlloc slab

def memFree (slab : KMemSlab) : Option Block → KMemSlab
  | none => slab
  | some block => kMemSlabFree slab block

/-! ## Runs -/

inductive PoolAction
  | init
  | malloc (size : Nat)
  | free (buf : Option Block)
deriving DecidableEq

def poolCall (slab : KMemSlab) : PoolAction → KMemSlab
  | .init => memInit
  | .malloc size => (memMalloc slab size).1
  | .free buf => memFree slab buf

/-- The allocations in use: those given out and not freed. -/
def observeLive (slab : KMemSlab) (action : PoolAction) (live : List Block) : List Block :=
  match action with
  | .init => live
  | .malloc size => (memMalloc slab size).2.toList ++ live
  | .free none => live
  | .free (some block) => live.erase block

/-- The slab, and the allocations in use. -/
abbrev PoolRun := Tracked KMemSlab (List Block)

def poolStep : PoolRun → PoolAction → PoolRun := trackedStep poolCall observeLive

/-- Before the first `mem_init` the slab is zero. -/
def poolStart : PoolRun where
  state := { freeList := [] }
  history := []

/-- Only `NULL` and allocations in use are freed. -/
def FreesLive (current : PoolRun) : PoolAction → Prop
  | .free (some block) => block ∈ current.history
  | _ => True

/-- A block that is given out has the size of the request and belongs to no allocation in use, and
no block is on the free list twice. -/
structure Exclusive (current : PoolRun) (action : PoolAction) : Prop where
  block : ∀ size block, action = .malloc size →
    (memMalloc current.state size).2 = some block →
      size ≤ memPoolBufSize ∧ block ∉ current.history
  freeList : (poolStep current action).state.freeList.Nodup

/-- The pool is set up only while no allocation is in use, and no block is given out for a request
that is larger than a block. -/
def Careful (current : PoolRun) : PoolAction → Prop
  | .init => current.history = []
  | .malloc size => size ≤ memPoolBufSize ∨ current.state.freeList = []
  | .free _ => True

/-! ## One call -/

/-- No block is on the free list twice, or in use twice, or both. -/
def PoolInv (current : PoolRun) : Prop := (current.state.freeList ++ current.history).Nodup

section Call

variable {current : PoolRun}

/-- What a request does: it gives out the first block, or nothing. -/
theorem memMalloc_cases (slab : KMemSlab) (size : Nat) :
    memMalloc slab size = (slab, none) ∨
      ∃ block rest, slab.freeList = block :: rest ∧
        memMalloc slab size = ({ slab with freeList := rest }, some block) := by
  rw [memMalloc]
  split_ifs with hzero
  · exact .inl rfl
  · cases hfree : slab.freeList with
    | nil => exact .inl (by rw [kMemSlabAlloc, hfree])
    | cons block rest => exact .inr ⟨block, rest, rfl, by rw [kMemSlabAlloc, hfree]⟩

theorem nodup_kMemSlabInit : kMemSlabInit.freeList.Nodup :=
  (List.reverse_perm (List.finRange memPoolBufNum)).nodup_iff.mpr
    (List.nodup_finRange memPoolBufNum)

theorem mem_kMemSlabInit (block : Block) : block ∈ kMemSlabInit.freeList :=
  List.mem_reverse.mpr (List.mem_finRange block)

theorem PoolInv.step (hinv : PoolInv current) {action : PoolAction}
    (hlegal : FreesLive current action) (hcareful : Careful current action) :
    PoolInv (poolStep current action) := by
  cases action with
  | init =>
      have hempty : current.history = [] := hcareful
      change (kMemSlabInit.freeList ++ current.history).Nodup
      rw [hempty, List.append_nil]
      exact nodup_kMemSlabInit
  | malloc size =>
      change ((memMalloc current.state size).1.freeList ++
        ((memMalloc current.state size).2.toList ++ current.history)).Nodup
      rcases memMalloc_cases current.state size with hnone | ⟨block, rest, hfree, hsome⟩
      · rw [hnone]
        exact hinv
      · -- the block moves from the free list to the allocations in use
        rw [PoolInv, hfree] at hinv
        rw [hsome]
        exact (List.perm_middle.nodup_iff).mpr hinv
  | free buf =>
      cases buf with
      | none => exact hinv
      | some block =>
          have hlive : block ∈ current.history := hlegal
          change (block :: current.state.freeList ++ current.history.erase block).Nodup
          have hperm : (block :: current.state.freeList ++ current.history.erase block).Perm
              (current.state.freeList ++ current.history) :=
            List.perm_middle.symm.trans
              ((List.perm_cons_erase hlive).symm.append_left current.state.freeList)
          exact hperm.nodup_iff.mpr hinv

theorem PoolInv.exclusive (hinv : PoolInv current) {action : PoolAction}
    (hlegal : FreesLive current action) (hcareful : Careful current action) :
    Exclusive current action where
  freeList := (List.nodup_append.mp (hinv.step hlegal hcareful)).1
  block := by
    rintro size block rfl hgiven
    rcases memMalloc_cases current.state size with hnone | ⟨first, rest, hfree, hsome⟩
    · rw [hnone] at hgiven
      cases hgiven
    · rw [hsome] at hgiven
      obtain rfl := Option.some.inj hgiven
      constructor
      · exact hcareful.resolve_right (by rw [hfree]; exact List.cons_ne_nil first rest)
      · intro hlive
        rw [PoolInv, hfree] at hinv
        exact (List.nodup_cons.mp hinv).1 (List.mem_append_right rest hlive)

/-- A call without care goes wrong at once, or when an allocation in use is freed. -/
theorem exists_not_exclusive {action : PoolAction} (hcareless : ¬Careful current action) :
    ∃ more, Along poolStep FreesLive current (action :: more) ∧
      ¬Along poolStep Exclusive current (action :: more) := by
  cases action with
  | free buf => exact absurd trivial hcareless
  | malloc size =>
      obtain ⟨hlarge, hfree⟩ := not_or.mp hcareless
      refine ⟨[], ⟨trivial, trivial⟩, ?_⟩
      rintro ⟨hexclusive, -⟩
      obtain ⟨block, rest, hlist⟩ := List.exists_cons_of_ne_nil hfree
      have hpos : size ≠ 0 := by
        intro hzero
        exact hlarge (hzero ▸ Nat.zero_le _)
      apply hlarge
      refine (hexclusive.block size block rfl ?_).1
      rw [memMalloc, if_neg hpos, kMemSlabAlloc, hlist]
  | init =>
      -- a block in use is on the free list now, and freeing it puts it there again
      obtain ⟨block, rest, hlive⟩ := List.exists_cons_of_ne_nil hcareless
      have hmem : block ∈ current.history := by
        rw [hlive]
        exact List.mem_cons_self
      refine ⟨[.free (some block)], ⟨trivial, hmem, trivial⟩, ?_⟩
      rintro ⟨-, hexclusive, -⟩
      have hnodup := hexclusive.freeList
      change (block :: kMemSlabInit.freeList).Nodup at hnodup
      exact (List.nodup_cons.mp hnodup).1 (mem_kMemSlabInit block)

end Call

/-! ## All calls -/

theorem along_exclusive {current : PoolRun} {actions : List PoolAction} (hinv : PoolInv current)
    (hlegal : Along poolStep FreesLive current actions)
    (hcareful : Along poolStep Careful current actions) :
    Along poolStep Exclusive current actions := by
  induction actions generalizing current with
  | nil => trivial
  | cons action rest ih =>
      exact ⟨hinv.exclusive hlegal.1 hcareful.1,
        ih (hinv.step hlegal.1 hcareful.1) hlegal.2 hcareful.2⟩

/-- In every run that frees nothing but allocations in use, the blocks are exclusive if all calls
are careful; and after every run a call without care leads to a violation. -/
theorem pool_exclusive {actions : List PoolAction}
    (hlegal : Along poolStep FreesLive poolStart actions) :
    (Along poolStep Careful poolStart actions → Along poolStep Exclusive poolStart actions) ∧
      ∀ action, ¬Careful (run poolStep poolStart actions) action →
        ∃ more, Along poolStep FreesLive poolStart (actions ++ action :: more) ∧
          ¬Along poolStep Exclusive poolStart (actions ++ action :: more) := by
  constructor
  · exact along_exclusive List.nodup_nil hlegal
  · intro action hcareless
    obtain ⟨more, hmore, hviolated⟩ := exists_not_exclusive hcareless
    refine ⟨more, along_append.mpr ⟨hlegal, hmore⟩, ?_⟩
    intro hall
    exact hviolated (along_append.mp hall).2

/-- The block that is given out first. -/
def lastBlock : Block := ⟨9, by decide⟩

/-- A packet is allocated and freed. -/
theorem pool_exclusive_packet :
    Along poolStep Exclusive poolStart [.init, .malloc 96, .free (some lastBlock)] := by
  have hlegal : Along poolStep FreesLive poolStart [.init, .malloc 96, .free (some lastBlock)] :=
    ⟨trivial, trivial, List.mem_singleton_self lastBlock, trivial⟩
  exact (pool_exclusive hlegal).1 ⟨rfl, .inl (by decide), trivial, trivial⟩

/-- A block is given out for a request that is larger. -/
theorem large_request_given_block :
    ¬∀ actions, Along poolStep FreesLive poolStart actions →
      Along poolStep Exclusive poolStart actions := by
  intro hall
  obtain ⟨-, hlarge, -⟩ := hall [.init, .malloc 97] ⟨trivial, trivial, trivial⟩
  have hsize := (hlarge.block 97 lastBlock rfl (by decide)).1
  exact absurd hsize (by decide)

end CubieBle.AirSync
