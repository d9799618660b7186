import Mathlib.Algebra.Group.Nat.Defs
import Mathlib.Data.List.FinRange
import Mathlib.Logic.Function.Basic
import CubieBle.Storage.Keys

/-! # The key pool in RAM

Without a configuration memory the storage keeps the keys of two peers in a pool. A peer that
finds the pool full takes over the entry of another one, in turn. The switches over the key
kinds miss a `break` after the remote signature key, so that its data also goes into the long
term key and its reader gets the long term key.
-/

namespace CubieBle.Storage.KeyPool

open Machine

/-! ## Entries -/

structure AddrLe where
  type : UInt8
  a : Vector UInt8 6
deriving DecidableEq

/-- `BT_ADDR_LE_ANY`. -/
def AddrLe.any : AddrLe := ⟨0, .replicate 6 0⟩

/-- `bt_addr_le_is_rpa`: a random address whose two most significant bits are 01. -/
def AddrLe.isRpa (addr : AddrLe) : Bool := addr.type == 1 && addr.a[5] &&& 0xc0 == 0x40

/-- The bytes of a `struct bt_ltk`. -/
abbrev Ltk := Vector UInt8 32

/-- The bytes of a `struct bt_csrk`. -/
abbrev Csrk := Vector UInt8 20

structure Irk where
  val : Vector UInt8 16
  rpa : Vector UInt8 6
deriving DecidableEq

structure BtKeys where
  addr : AddrLe
  encSize : UInt8
  flags : UInt32
  keys : UInt16
  ltk : Ltk
  irk : Irk
  localCsrk : Csrk
  remoteCsrk : Csrk
  slaveLtk : Ltk
deriving DecidableEq

/-- An entry of zeros. -/
def BtKeys.zero : BtKeys where
  addr := .any
  encSize := 0
  flags := 0
  keys := 0
  ltk := .replicate 32 0
  irk := ⟨.replicate 16 0, .replicate 6 0⟩
  localCsrk := .replicate 20 0
  remoteCsrk := .replicate 20 0
  slaveLtk := .replicate 32 0

def btKeysIrk : UInt16 := 2

/-! ## The pool -/

def keyPoolCount : Nat := 2

structure KeyStorage where
  storageKeyPool : Fin keyPoolCount → BtKeys
  storageLocalBtAddr : AddrLe
  storageLocalIrk : Vector UInt8 16
  removeCnt : Nat

def KeyStorage.setEntry (storage : KeyStorage) (i : Fin keyPoolCount) (entry : BtKeys) :
    KeyStorage :=
  { storage with storageKeyPool := Function.update storage.storageKeyPool i entry }

/-- The state after `storage_init`. -/
def storageInit : KeyStorage where
  storageKeyPool := fun _ => .zero
  storageLocalBtAddr := ⟨1, #v[0xaa, 0xbb, 0xcc, 0xdd, 0xee, 0xff]⟩
  storageLocalIrk := .ofFn fun i => UInt8.ofNat i
  removeCnt := 0

/-- The first entry with an address. -/
def entryIndex (storage : KeyStorage) (addr : AddrLe) : Option (Fin keyPoolCount) :=
  (List.finRange keyPoolCount).find? fun i => (storage.storageKeyPool i).addr = addr

inductive StorageAccess
  | read
  | write
deriving DecidableEq

section Code

variable (rpaIrkMatches : Vector UInt8 16 → Vector UInt8 6 → Bool)

/-- The search for an address that is resolved with the keys of the entries. -/
def resolveBtKeys (storage : KeyStorage) (addr : AddrLe) :
    Option (Fin keyPoolCount × KeyStorage) := do
  let i ← (List.finRange keyPoolCount).find? fun i =>
    let entry := storage.storageKeyPool i
    entry.keys &&& btKeysIrk ≠ 0 ∧ (addr.a = entry.irk.rpa ∨ rpaIrkMatches entry.irk.val addr.a)
  let entry := storage.storageKeyPool i
  return (i, storage.setEntry i { entry with irk := { entry.irk with rpa := addr.a } })

/-- A new entry for an address: a free one, or else the next one in turn, whose keys stay.
There is no result when the counter overflows. -/
def takeBtKeys (storage : KeyStorage) (addr : AddrLe) :
    Option (Fin keyPoolCount × KeyStorage) :=
  match entryIndex storage .any with
  | some i => some (i, storage.setEntry i { storage.storageKeyPool i with addr := addr })
  | none =>
      if storage.removeCnt = 2 ^ 31 - 1 then none
      else
        let i := ⟨storage.removeCnt % keyPoolCount, Nat.mod_lt _ (by decide)⟩
        let storage := storage.setEntry i { storage.storageKeyPool i with addr := addr }
        some (i, { storage with removeCnt := storage.removeCnt + 1 })

def findBtKeys (storage : KeyStorage) (addr : AddrLe) (access : StorageAccess) :
    Option (Option (Fin keyPoolCount) × KeyStorage) :=
  let found :=
    if !addr.isRpa then (entryIndex storage addr).map fun i => (i, storage)
    else resolveBtKeys rpaIrkMatches storage addr
  match found with
  | some (i, storage) => some (some i, storage)
  | none =>
      match access with
      | .read => some (none, storage)
      | .write => (takeBtKeys storage addr).map fun taken => (some taken.1, taken.2)

/-- `find_bt_keys` for an address that may be `NULL`. -/
def findBtKeys? (storage : KeyStorage) (addr : Option AddrLe) (access : StorageAccess) :
    Option (Option (Fin keyPoolCount) × KeyStorage) :=
  match addr with
  | none => some (none, storage)
  | some addr => findBtKeys rpaIrkMatches storage addr access

/-! ## Reading, writing and clearing -/

/-- What a read puts into the caller's buffer. -/
inductive ReadData
  | nothing
  | addr (addr : AddrLe)
  | bytes (bytes : List UInt8)
  | keys (keys : BtKeys)
deriving DecidableEq

/-- Data for the key kinds, of the size of the field. -/
inductive KeyWrite
  | idAddr (data : AddrLe)
  | localIrk (data : Vector UInt8 16)
  | slaveLtk (data : Ltk)
  | ltk (data : Ltk)
  | localCsrk (data : Csrk)
  | remoteCsrk (data : Csrk)
  | ltkP256 (data : Ltk)
  | btKeys (data : BtKeys)
deriving DecidableEq

/-- `memcpy` of shorter data over a field. -/
def overlay {m n : Nat} (data : Vector UInt8 m) (old : Vector UInt8 n) : Vector UInt8 n :=
  .ofFn fun i => data.toList.getD i (old.get i)

/-- The switch of `storage_read` over the key kinds. -/
def readEntry (storage : KeyStorage) (key : Key) (entry : Option BtKeys) : ReadData :=
  match key, entry with
  | .idAddr, _ => .addr storage.storageLocalBtAddr
  -- without a `break`, the slave key is copied over the local key
  | .localIrk, none => .bytes storage.storageLocalIrk.toList
  | .localIrk, some entry => .bytes entry.slaveLtk.toList
  | .slaveLtk, some entry => .bytes entry.slaveLtk.toList
  | .ltk, some entry => .bytes entry.ltk.toList
  | .localCsrk, some entry => .bytes entry.localCsrk.toList
  -- without a `break`, the long term key is copied over the signature key
  | .remoteCsrk, some entry => .bytes entry.ltk.toList
  | .ltkP256, some entry => .bytes entry.ltk.toList
  | .btKeys, some entry => .keys entry
  | _, _ => .nothing

def storageRead (storage : KeyStorage) (addr : Option AddrLe) (key : Key) :
    Option (ReadData × KeyStorage) := do
  let (found, storage) ← findBtKeys? rpaIrkMatches storage addr .read
  return (readEntry storage key (found.map storage.storageKeyPool), storage)

/-- What the switch of `storage_write` does to the entry. -/
def KeyWrite.apply (write : KeyWrite) (entry : BtKeys) : BtKeys :=
  match write with
  | .idAddr _ => entry
  | .localIrk data => { entry with slaveLtk := overlay data entry.slaveLtk }
  | .slaveLtk data => { entry with slaveLtk := data }
  | .ltk data => { entry with ltk := data }
  | .localCsrk data => { entry with localCsrk := data }
  | .remoteCsrk data => { entry with remoteCsrk := data, ltk := overlay data entry.ltk }
  | .ltkP256 data => { entry with ltk := data }
  | .btKeys data => data

/-- What it does to the local keys. -/
def KeyWrite.applyLocal (write : KeyWrite) (storage : KeyStorage) : KeyStorage :=
  match write with
  | .idAddr data => { storage with storageLocalBtAddr := data }
  | .localIrk data => { storage with storageLocalIrk := data }
  | _ => storage

def storageWrite (storage : KeyStorage) (addr : Option AddrLe) (write : KeyWrite) :
    Option KeyStorage := do
  let (found, storage) ← findBtKeys? rpaIrkMatches storage addr .write
  let storage := write.applyLocal storage
  match found with
  | none => return storage
  | some i => return storage.setEntry i (write.apply (storage.storageKeyPool i))

def storageClear (storage : KeyStorage) (addr : Option AddrLe) : Option KeyStorage := do
  let (found, storage) ← findBtKeys? rpaIrkMatches storage addr .read
  match found with
  | none => return storage
  | some i => return storage.setEntry i .zero

end Code

/-! ## Calls for peers -/

inductive KeyCall
  | write (addr : AddrLe) (write : KeyWrite)
  | clear (addr : AddrLe)

def keyStep (rpaIrkMatches : Vector UInt8 16 → Vector UInt8 6 → Bool)
    (storage : Option KeyStorage) (call : KeyCall) : Option KeyStorage :=
  storage.bind fun storage =>
    match call with
    | .write addr write => storageWrite rpaIrkMatches storage (some addr) write
    | .clear addr => storageClear rpaIrkMatches storage (some addr)

/-- An address of a peer that is not resolved. -/
def IsPeer (addr : AddrLe) : Prop := addr.isRpa = false ∧ addr ≠ .any

/-- A call for a peer with one of its key kinds, where a whole entry has the peer's address. -/
def KeyCall.Sound : KeyCall → Prop
  | .write _ (.idAddr _) => False
  | .write _ (.localIrk _) => False
  | .write addr (.btKeys data) => IsPeer addr ∧ data.addr = addr
  | .write addr _ => IsPeer addr
  | .clear addr => IsPeer addr

/-- The fields of an entry, with those that have no kind of their own as one. -/
inductive KeyField
  | slaveLtk
  | ltk
  | localCsrk
  | remoteCsrk
  | other
deriving DecidableEq

def KeyField.Value : KeyField → Type
  | .slaveLtk => Ltk
  | .ltk => Ltk
  | .localCsrk => Csrk
  | .remoteCsrk => Csrk
  | .other => UInt8 × UInt32 × UInt16 × Irk

def BtKeys.get (entry : BtKeys) : (field : KeyField) → field.Value
  | .slaveLtk => entry.slaveLtk
  | .ltk => entry.ltk
  | .localCsrk => entry.localCsrk
  | .remoteCsrk => entry.remoteCsrk
  | .other => (entry.encSize, entry.flags, entry.keys, entry.irk)

/-- The value that a write determines for a field. -/
def KeyWrite.value? : KeyWrite → (field : KeyField) → Option field.Value
  | .slaveLtk data, .slaveLtk => some data
  | .ltk data, .ltk => some data
  | .ltkP256 data, .ltk => some data
  | .localCsrk data, .localCsrk => some data
  | .remoteCsrk data, .remoteCsrk => some data
  | .btKeys data, field => some (data.get field)
  | _, _ => none

/-- The fields that a write is for, and the long term key beside the remote signature key. -/
def KeyWrite.Touches : KeyWrite → KeyField → Prop
  | .remoteCsrk _, .ltk => True
  | write, field => (write.value? field).isSome

/-- The entry of a peer. -/
def entryOf (storage : KeyStorage) (addr : AddrLe) : Option BtKeys :=
  (entryIndex storage addr).map storage.storageKeyPool

/-- The write for one peer takes over the entry of another: the peer has no entry, none is
free, and it is the other's turn. -/
def Replaces (storage : KeyStorage) (addr replaced : AddrLe) : Prop :=
  entryIndex storage addr = none ∧ entryIndex storage .any = none ∧
    (storage.storageKeyPool ⟨storage.removeCnt % keyPoolCount, Nat.mod_lt _ (by decide)⟩).addr =
      replaced

/-- A call leaves a field of a peer alone: it does not clear the peer, write the field or
take over the entry. -/
def Keeps (addr : AddrLe) (field : KeyField) (storage : Option KeyStorage) (call : KeyCall) :
    Prop :=
  match call with
  | .clear other => other ≠ addr
  | .write other write =>
      (other = addr → ¬write.Touches field) ∧
        ∀ current, storage = some current → ¬Replaces current other addr

section Laws

variable (rpaIrkMatches : Vector UInt8 16 → Vector UInt8 6 → Bool)

/-- The key kinds of a field read a value. What the remote signature key reads is left out. -/
def ReadsKinds (storage : KeyStorage) (addr : AddrLe) : (field : KeyField) → field.Value → Prop
  | .slaveLtk, value => storageRead rpaIrkMatches storage (some addr) .slaveLtk =
      some (.bytes (Vector.toList value), storage)
  | .ltk, value => ∀ key ∈ [Key.ltk, Key.ltkP256],
      storageRead rpaIrkMatches storage (some addr) key =
        some (.bytes (Vector.toList value), storage)
  | .localCsrk, value => storageRead rpaIrkMatches storage (some addr) .localCsrk =
      some (.bytes (Vector.toList value), storage)
  | _, _ => True

/-- A field of a peer is read with a value, as part of the whole entry and by its kinds. -/
structure Reads (storage : KeyStorage) (addr : AddrLe) (field : KeyField) (value : field.Value) :
    Prop where
  entry : ∃ entry, storageRead rpaIrkMatches storage (some addr) .btKeys =
    some (.keys entry, storage) ∧ entry.addr = addr ∧ entry.get field = value
  kinds : ReadsKinds rpaIrkMatches storage addr field value

/-- The addresses in use are distinct. -/
def Distinct (storage : KeyStorage) : Prop :=
  ∀ i j, (storage.storageKeyPool i).addr = (storage.storageKeyPool j).addr →
    (storage.storageKeyPool i).addr ≠ .any → i = j

/-- A write leaves the entries of other peers alone, but for the one that it replaces, and the
fields of its own peer that it is not for. -/
structure Frame (storage next : KeyStorage) (addr : AddrLe) (write : KeyWrite) : Prop where
  others : ∀ other ≠ addr, other ≠ .any → ∀ entry, entryOf storage other = some entry →
    entryOf next other = some entry ∨ Replaces storage addr other
  fields : ∀ entry, entryOf storage addr = some entry →
    ∃ after, entryOf next addr = some after ∧
      ∀ field, ¬write.Touches field → after.get field = entry.get field

/-! ## Finding entries -/

section Find

variable {storage : KeyStorage} {addr : AddrLe} {i : Fin keyPoolCount}

theorem addr_of_entryIndex (hfound : entryIndex storage addr = some i) :
    (storage.storageKeyPool i).addr = addr := by
  have hpred := List.find?_some hfound
  exact of_decide_eq_true hpred

theorem entryIndex_eq_none_iff :
    entryIndex storage addr = none ↔ ∀ i, (storage.storageKeyPool i).addr ≠ addr := by
  rw [entryIndex, List.find?_eq_none]
  simp only [List.mem_finRange, decide_eq_true_eq, forall_const]

theorem entryIndex_of_addr (hdistinct : Distinct storage) (hany : addr ≠ .any)
    (haddr : (storage.storageKeyPool i).addr = addr) : entryIndex storage addr = some i := by
  cases hfound : entryIndex storage addr with
  | none => exact absurd haddr (entryIndex_eq_none_iff.mp hfound i)
  | some j =>
      have hj := addr_of_entryIndex hfound
      rw [hdistinct j i (hj.trans haddr.symm) (hj.symm ▸ hany)]

end Find

/-! ## What the calls do -/

theorem addr_apply {addr : AddrLe} {write : KeyWrite} (hsound : (KeyCall.write addr write).Sound)
    {entry : BtKeys} (hentry : entry.addr = addr) : (write.apply entry).addr = addr := by
  cases write with
  | btKeys data => exact hsound.2
  | _ => simp only [KeyWrite.apply, hentry]

theorem get_apply_of_value {write : KeyWrite} {field : KeyField} {value : field.Value}
    (hvalue : write.value? field = some value) (entry : BtKeys) :
    (write.apply entry).get field = value := by
  cases write with
  | btKeys data => exact Option.some.inj hvalue
  | _ =>
      cases field
      all_goals first
        | exact Option.some.inj hvalue
        | cases hvalue

theorem get_apply_of_not_touches {addr : AddrLe} {write : KeyWrite}
    (hsound : (KeyCall.write addr write).Sound) {field : KeyField}
    (hnot : ¬write.Touches field) (entry : BtKeys) :
    (write.apply entry).get field = entry.get field := by
  cases write with
  | idAddr data => cases hsound
  | localIrk data => cases hsound
  | btKeys data => exact absurd rfl hnot
  | remoteCsrk data =>
      cases field with
      | ltk => exact absurd trivial hnot
      | remoteCsrk => exact absurd rfl hnot
      | _ =>
          -- `rfl` alone would compare the entries field by field
          simp only [KeyWrite.apply, BtKeys.get]
          rfl
  | _ =>
      cases field
      all_goals first
        | rfl
        | exact absurd rfl hnot

/-- What a write for a peer does: the entry of the peer, a free one or the next one in turn
gets the address and the data. -/
structure Wrote (storage next : KeyStorage) (addr : AddrLe) (write : KeyWrite)
    (i : Fin keyPoolCount) : Prop where
  pool : next.storageKeyPool = Function.update storage.storageKeyPool i
    (write.apply { storage.storageKeyPool i with addr := addr })
  place : entryIndex storage addr = some i ∨ entryIndex storage addr = none ∧
    (entryIndex storage .any = some i ∨ entryIndex storage .any = none ∧
      i = ⟨storage.removeCnt % keyPoolCount, Nat.mod_lt _ (by decide)⟩)

theorem findBtKeys_of_found {storage : KeyStorage} {addr : AddrLe} (hpeer : IsPeer addr)
    {i : Fin keyPoolCount} (hfound : entryIndex storage addr = some i) (access : StorageAccess) :
    findBtKeys rpaIrkMatches storage addr access = some (some i, storage) := by
  unfold findBtKeys
  rw [hpeer.1, hfound]
  rfl

theorem findBtKeys_of_not_found {storage : KeyStorage} {addr : AddrLe} (hpeer : IsPeer addr)
    (hnone : entryIndex storage addr = none) :
    findBtKeys rpaIrkMatches storage addr .read = some (none, storage) ∧
      findBtKeys rpaIrkMatches storage addr .write =
        (takeBtKeys storage addr).map fun taken => (some taken.1, taken.2) := by
  rw [findBtKeys, findBtKeys, hpeer.1, hnone]
  exact ⟨rfl, rfl⟩

theorem isPeer_of_sound {addr : AddrLe} {write : KeyWrite}
    (hsound : (KeyCall.write addr write).Sound) : IsPeer addr := by
  cases write with
  | idAddr data => cases hsound
  | localIrk data => cases hsound
  | btKeys data => exact hsound.1
  | _ => exact hsound

theorem applyLocal_of_sound {addr : AddrLe} {write : KeyWrite}
    (hsound : (KeyCall.write addr write).Sound) (storage : KeyStorage) :
    write.applyLocal storage = storage := by
  cases write with
  | idAddr data => cases hsound
  | localIrk data => cases hsound
  | _ => rfl

theorem write_cases {storage next : KeyStorage} {addr : AddrLe} {write : KeyWrite}
    (hsound : (KeyCall.write addr write).Sound)
    (hstep : keyStep rpaIrkMatches (some storage) (.write addr write) = some next) :
    ∃ i, Wrote storage next addr write i := by
  have hpeer := isPeer_of_sound hsound
  change storageWrite rpaIrkMatches storage (some addr) write = some next at hstep
  rw [storageWrite, findBtKeys?] at hstep
  cases hfound : entryIndex storage addr with
  | some i =>
      rw [findBtKeys_of_found rpaIrkMatches hpeer hfound] at hstep
      obtain rfl := Option.some.inj hstep
      refine ⟨i, ?_, .inl hfound⟩
      have hsame : { storage.storageKeyPool i with addr := addr } = storage.storageKeyPool i := by
        rw [← addr_of_entryIndex hfound]
      rw [applyLocal_of_sound hsound, hsame]
      rfl
  | none =>
      rw [(findBtKeys_of_not_found rpaIrkMatches hpeer hfound).2, takeBtKeys] at hstep
      cases hany : entryIndex storage .any with
      | some i =>
          rw [hany] at hstep
          obtain rfl := Option.some.inj hstep
          refine ⟨i, ?_, .inr ⟨hfound, .inl hany⟩⟩
          rw [applyLocal_of_sound hsound]
          simp only [KeyStorage.setEntry, Function.update_idem, Function.update_self]
      | none =>
          rw [hany] at hstep
          dsimp only at hstep
          by_cases hlast : storage.removeCnt = 2 ^ 31 - 1
          · rw [if_pos hlast] at hstep
            cases hstep
          · rw [if_neg hlast] at hstep
            obtain rfl := Option.some.inj hstep
            refine ⟨_, ?_, .inr ⟨hfound, .inr ⟨hany, rfl⟩⟩⟩
            rw [applyLocal_of_sound hsound]
            simp only [KeyStorage.setEntry, Function.update_idem, Function.update_self]

theorem clear_cases {storage next : KeyStorage} {addr : AddrLe}
    (hsound : (KeyCall.clear addr).Sound)
    (hstep : keyStep rpaIrkMatches (some storage) (.clear addr) = some next) :
    next = storage ∨ ∃ i, entryIndex storage addr = some i ∧ next = storage.setEntry i .zero := by
  change storageClear rpaIrkMatches storage (some addr) = some next at hstep
  rw [storageClear, findBtKeys?] at hstep
  cases hfound : entryIndex storage addr with
  | some i =>
      rw [findBtKeys_of_found rpaIrkMatches hsound hfound] at hstep
      exact .inr ⟨i, rfl, (Option.some.inj hstep).symm⟩
  | none =>
      rw [(findBtKeys_of_not_found rpaIrkMatches hsound hfound).1] at hstep
      exact .inl (Option.some.inj hstep).symm

/-! ## Invariants -/

theorem distinct_init : Distinct storageInit := fun _ _ _ hany => absurd rfl hany

/-- An address in the pool after a write is that of the write in its place, or an old one in
another place. -/
theorem Wrote.addr {storage next : KeyStorage} {addr : AddrLe} {write : KeyWrite}
    {i : Fin keyPoolCount} (hwrote : Wrote storage next addr write i)
    (hsound : (KeyCall.write addr write).Sound) (j : Fin keyPoolCount) :
    (next.storageKeyPool j).addr = if j = i then addr else (storage.storageKeyPool j).addr := by
  rw [hwrote.pool]
  by_cases hj : j = i
  · rw [if_pos hj, hj, Function.update_self]
    exact addr_apply hsound rfl
  · rw [if_neg hj, Function.update_of_ne hj]

/-- In no other place than that of a write has the peer an entry. -/
theorem Wrote.ne_addr {storage next : KeyStorage} {addr : AddrLe} {write : KeyWrite}
    {i : Fin keyPoolCount} (hwrote : Wrote storage next addr write i)
    (hdistinct : Distinct storage) (hany : addr ≠ .any) {j : Fin keyPoolCount} (hj : j ≠ i) :
    (storage.storageKeyPool j).addr ≠ addr := by
  rcases hwrote.place with hfound | ⟨hnone, -⟩
  · intro haddr
    have hi := addr_of_entryIndex hfound
    exact hj (hdistinct j i (haddr.trans hi.symm) (haddr.symm ▸ hany))
  · exact entryIndex_eq_none_iff.mp hnone j

theorem distinct_step {storage next : KeyStorage} {call : KeyCall} (hsound : call.Sound)
    (hdistinct : Distinct storage) (hstep : keyStep rpaIrkMatches (some storage) call = some next) :
    Distinct next := by
  intro j k heq hany
  cases call with
  | write addr write =>
      obtain ⟨i, hwrote⟩ := write_cases rpaIrkMatches hsound hstep
      have hpeer := isPeer_of_sound hsound
      rw [hwrote.addr hsound] at heq hany
      rw [hwrote.addr hsound] at heq
      by_cases hj : j = i
      · by_cases hk : k = i
        · rw [hj, hk]
        · rw [if_pos hj, if_neg hk] at heq
          exact absurd heq.symm (hwrote.ne_addr hdistinct hpeer.2 hk)
      · rw [if_neg hj] at heq hany
        by_cases hk : k = i
        · rw [if_pos hk] at heq
          exact absurd heq (hwrote.ne_addr hdistinct hpeer.2 hj)
        · rw [if_neg hk] at heq
          exact hdistinct j k heq hany
  | clear addr =>
      rcases clear_cases rpaIrkMatches hsound hstep with rfl | ⟨i, -, rfl⟩
      · exact hdistinct j k heq hany
      · simp only [KeyStorage.setEntry] at heq hany
        by_cases hj : j = i
        · rw [hj, Function.update_self] at hany
          exact absurd rfl hany
        · rw [Function.update_of_ne hj] at heq hany
          by_cases hk : k = i
          · rw [hk, Function.update_self] at heq
            exact absurd heq hany
          · rw [Function.update_of_ne hk] at heq
            exact hdistinct j k heq hany

/-- The entry of a peer has a value in a field. -/
def Holds (storage : KeyStorage) (addr : AddrLe) (field : KeyField) (value : field.Value) : Prop :=
  ∃ i, (storage.storageKeyPool i).addr = addr ∧ (storage.storageKeyPool i).get field = value

theorem holds_write {storage next : KeyStorage} {addr : AddrLe} {write : KeyWrite}
    (hsound : (KeyCall.write addr write).Sound)
    (hstep : keyStep rpaIrkMatches (some storage) (.write addr write) = some next)
    {field : KeyField} {value : field.Value} (hvalue : write.value? field = some value) :
    Holds next addr field value := by
  obtain ⟨i, hwrote⟩ := write_cases rpaIrkMatches hsound hstep
  refine ⟨i, ?_, ?_⟩
  · rw [hwrote.addr hsound, if_pos rfl]
  · rw [hwrote.pool, Function.update_self]
    exact get_apply_of_value hvalue _

theorem holds_step {storage next : KeyStorage} {call : KeyCall} (hsound : call.Sound)
    (hstep : keyStep rpaIrkMatches (some storage) call = some next) {addr : AddrLe}
    (hany : addr ≠ .any) {field : KeyField} {value : field.Value}
    (hkeeps : Keeps addr field (some storage) call) (hholds : Holds storage addr field value) :
    Holds next addr field value := by
  obtain ⟨j, haddr, hget⟩ := hholds
  refine ⟨j, ?_⟩
  cases call with
  | write other write =>
      obtain ⟨hfield, hreplaces⟩ := hkeeps
      obtain ⟨i, hwrote⟩ := write_cases rpaIrkMatches hsound hstep
      by_cases hj : j = i
      · subst hj
        rcases hwrote.place with hfound | ⟨hnone, hfree | ⟨hfull, hturn⟩⟩
        · -- a write for another field of this peer
          have hother : other = addr := (addr_of_entryIndex hfound).symm.trans haddr
          refine ⟨?_, ?_⟩
          · rw [hwrote.addr hsound, if_pos rfl, hother]
          · rw [hwrote.pool, Function.update_self,
              get_apply_of_not_touches hsound (hfield hother), ← hget]
            cases field with
            | _ => rfl
        · exact absurd ((addr_of_entryIndex hfree).symm.trans haddr).symm hany
        · exact absurd ⟨hnone, hfull, hturn ▸ haddr⟩ (hreplaces storage rfl)
      · rw [hwrote.addr hsound, if_neg hj, hwrote.pool, Function.update_of_ne hj]
        exact ⟨haddr, hget⟩
  | clear other =>
      rcases clear_cases rpaIrkMatches hsound hstep with rfl | ⟨i, hfound, rfl⟩
      · exact ⟨haddr, hget⟩
      · have hj : j ≠ i := by
          rintro rfl
          exact hkeeps ((addr_of_entryIndex hfound).symm.trans haddr)
        simp only [KeyStorage.setEntry, Function.update_of_ne hj]
        exact ⟨haddr, hget⟩

theorem reads_of_holds {storage : KeyStorage} (hdistinct : Distinct storage) {addr : AddrLe}
    (hpeer : IsPeer addr) {field : KeyField} {value : field.Value}
    (hholds : Holds storage addr field value) : Reads rpaIrkMatches storage addr field value := by
  obtain ⟨i, haddr, hget⟩ := hholds
  have hfind := findBtKeys_of_found rpaIrkMatches hpeer
    (entryIndex_of_addr hdistinct hpeer.2 haddr) .read
  have hread : ∀ key, storageRead rpaIrkMatches storage (some addr) key =
      some (readEntry storage key (some (storage.storageKeyPool i)), storage) := by
    intro key
    rw [storageRead, findBtKeys?, hfind]
    rfl
  constructor
  · exact ⟨storage.storageKeyPool i, hread _, haddr, hget⟩
  · cases field with
    | slaveLtk =>
        rw [ReadsKinds, ← hget]
        exact hread _
    | ltk =>
        rw [ReadsKinds, ← hget]
        intro key hkey
        rcases List.mem_pair.mp hkey with rfl | rfl
        · exact hread _
        · exact hread _
    | localCsrk =>
        rw [ReadsKinds, ← hget]
        exact hread _
    | remoteCsrk => trivial
    | other => trivial

theorem frame_write {storage next : KeyStorage} (hdistinct : Distinct storage) {addr : AddrLe}
    {write : KeyWrite} (hsound : (KeyCall.write addr write).Sound)
    (hstep : keyStep rpaIrkMatches (some storage) (.write addr write) = some next) :
    Frame storage next addr write := by
  have hpeer := isPeer_of_sound hsound
  have hafter := distinct_step rpaIrkMatches hsound hdistinct hstep
  obtain ⟨i, hwrote⟩ := write_cases rpaIrkMatches hsound hstep
  constructor
  · intro other hother hany entry hentry
    obtain ⟨j, hfound, rfl⟩ := Option.map_eq_some_iff.mp hentry
    have haddr := addr_of_entryIndex hfound
    by_cases hj : j = i
    · right
      subst hj
      rcases hwrote.place with hown | ⟨hnone, hfree | ⟨hfull, hturn⟩⟩
      · exact absurd (haddr.symm.trans (addr_of_entryIndex hown)) hother
      · exact absurd (haddr.symm.trans (addr_of_entryIndex hfree)) hany
      · exact ⟨hnone, hfull, hturn ▸ haddr⟩
    · left
      have hsame : next.storageKeyPool j = storage.storageKeyPool j := by
        rw [hwrote.pool, Function.update_of_ne hj]
      rw [entryOf, entryIndex_of_addr hafter hany (hsame ▸ haddr), Option.map_some, hsame]
  · intro entry hentry
    obtain ⟨j, hfound, rfl⟩ := Option.map_eq_some_iff.mp hentry
    have haddr := addr_of_entryIndex hfound
    have hj : j = i := by
      by_contra hne
      exact hwrote.ne_addr hdistinct hpeer.2 hne haddr
    subst hj
    have hnext : (next.storageKeyPool j).addr = addr := by
      rw [hwrote.addr hsound, if_pos rfl]
    refine ⟨next.storageKeyPool j, ?_, ?_⟩
    · rw [entryOf, entryIndex_of_addr hafter hpeer.2 hnext, Option.map_some]
    · intro field hnot
      rw [hwrote.pool, Function.update_self, get_apply_of_not_touches hsound hnot]
      cases field with
      | _ => rfl

/-! ## Runs -/

theorem keyStep_none (calls : List KeyCall) : run (keyStep rpaIrkMatches) none calls = none := by
  induction calls with
  | nil => rfl
  | cons call rest ih => exact ih

/-- A run that has a result went through a state in its middle. -/
theorem run_append_eq_some {storage : Option KeyStorage} {first second : List KeyCall}
    {final : KeyStorage}
    (hrun : run (keyStep rpaIrkMatches) storage (first ++ second) = some final) :
    ∃ mid, run (keyStep rpaIrkMatches) storage first = some mid ∧
      run (keyStep rpaIrkMatches) (some mid) second = some final := by
  rw [run_append] at hrun
  cases hmid : run (keyStep rpaIrkMatches) storage first with
  | none =>
      rw [hmid, keyStep_none] at hrun
      cases hrun
  | some mid =>
      rw [hmid] at hrun
      exact ⟨mid, rfl, hrun⟩

theorem run_cons_eq_some {storage : Option KeyStorage} {call : KeyCall} {rest : List KeyCall}
    {final : KeyStorage}
    (hrun : run (keyStep rpaIrkMatches) storage (call :: rest) = some final) :
    ∃ next, keyStep rpaIrkMatches storage call = some next ∧
      run (keyStep rpaIrkMatches) (some next) rest = some final := by
  rw [← List.singleton_append] at hrun
  exact run_append_eq_some rpaIrkMatches hrun

theorem distinct_run {calls : List KeyCall} (hsound : ∀ call ∈ calls, call.Sound)
    {storage final : KeyStorage} (hdistinct : Distinct storage)
    (hrun : run (keyStep rpaIrkMatches) (some storage) calls = some final) : Distinct final := by
  induction calls generalizing storage with
  | nil =>
      obtain rfl := Option.some.inj hrun
      exact hdistinct
  | cons call rest ih =>
      obtain ⟨next, hstep, hrest⟩ := run_cons_eq_some rpaIrkMatches hrun
      exact ih (fun other hother => hsound other (List.mem_cons_of_mem _ hother))
        (distinct_step rpaIrkMatches (hsound call List.mem_cons_self) hdistinct hstep) hrest

theorem holds_run {calls : List KeyCall} (hsound : ∀ call ∈ calls, call.Sound)
    {storage final : KeyStorage} {addr : AddrLe} (hany : addr ≠ .any) {field : KeyField}
    {value : field.Value} (hholds : Holds storage addr field value)
    (hkeeps : Along (keyStep rpaIrkMatches) (Keeps addr field) (some storage) calls)
    (hrun : run (keyStep rpaIrkMatches) (some storage) calls = some final) :
    Holds final addr field value := by
  induction calls generalizing storage with
  | nil =>
      obtain rfl := Option.some.inj hrun
      exact hholds
  | cons call rest ih =>
      obtain ⟨next, hstep, hrest⟩ := run_cons_eq_some rpaIrkMatches hrun
      have hnext := holds_step rpaIrkMatches (hsound call List.mem_cons_self) hstep hany hkeeps.1
        hholds
      refine ih (fun other hother => hsound other (List.mem_cons_of_mem _ hother)) hnext ?_ hrest
      have htail := hkeeps.2
      rwa [show keyStep rpaIrkMatches (some storage) call = some next from hstep] at htail

/-- Only a write for which the counter would overflow has no result. -/
theorem keyStep_eq_some {storage : KeyStorage} {call : KeyCall} (hsound : call.Sound)
    (hcount : storage.removeCnt < 2 ^ 31 - 1) :
    ∃ next, keyStep rpaIrkMatches (some storage) call = some next ∧
      next.removeCnt ≤ storage.removeCnt + 1 := by
  cases call with
  | clear addr =>
      change ∃ next, storageClear rpaIrkMatches storage (some addr) = some next ∧ _
      rw [storageClear, findBtKeys?]
      cases hfound : entryIndex storage addr with
      | some i =>
          rw [findBtKeys_of_found rpaIrkMatches hsound hfound]
          exact ⟨_, rfl, Nat.le_succ _⟩
      | none =>
          rw [(findBtKeys_of_not_found rpaIrkMatches hsound hfound).1]
          exact ⟨_, rfl, Nat.le_succ _⟩
  | write addr write =>
      have hpeer := isPeer_of_sound hsound
      change ∃ next, storageWrite rpaIrkMatches storage (some addr) write = some next ∧ _
      rw [storageWrite, findBtKeys?]
      cases hfound : entryIndex storage addr with
      | some i =>
          rw [findBtKeys_of_found rpaIrkMatches hpeer hfound]
          refine ⟨_, rfl, ?_⟩
          rw [applyLocal_of_sound hsound]
          exact Nat.le_succ _
      | none =>
          rw [(findBtKeys_of_not_found rpaIrkMatches hpeer hfound).2, takeBtKeys]
          cases entryIndex storage .any with
          | some i =>
              refine ⟨_, rfl, ?_⟩
              rw [applyLocal_of_sound hsound]
              exact Nat.le_succ _
          | none =>
              dsimp only
              rw [if_neg (by omega)]
              refine ⟨_, rfl, ?_⟩
              rw [applyLocal_of_sound hsound]
              exact Nat.le_refl _

theorem run_keyStep_eq_some {calls : List KeyCall} (hsound : ∀ call ∈ calls, call.Sound)
    {storage : KeyStorage} (hcount : storage.removeCnt + calls.length < 2 ^ 31) :
    ∃ final, run (keyStep rpaIrkMatches) (some storage) calls = some final := by
  induction calls generalizing storage with
  | nil => exact ⟨storage, rfl⟩
  | cons call rest ih =>
      rw [List.length_cons] at hcount
      obtain ⟨next, hstep, hnext⟩ :=
        keyStep_eq_some rpaIrkMatches (hsound call List.mem_cons_self)
          (show storage.removeCnt < 2 ^ 31 - 1 by omega)
      rw [run_cons, hstep]
      exact ih (fun other hother => hsound other (List.mem_cons_of_mem _ hother)) (by omega)

/-- In every run of calls for peers the addresses in use are distinct; the last write for a
field of a peer is what is read, as long as the peer is not cleared and its entry not taken
over; and a write leaves everything else alone, but for one entry that it takes over. -/
theorem key_pool_keeps_apart (calls : List KeyCall) (hsound : ∀ call ∈ calls, call.Sound)
    {final : KeyStorage}
    (hrun : run (keyStep rpaIrkMatches) (some storageInit) calls = some final) :
    Distinct final ∧
      (∀ before addr write later, calls = before ++ .write addr write :: later →
        ∀ field value, write.value? field = some value →
          Along (keyStep rpaIrkMatches) (Keeps addr field)
            (run (keyStep rpaIrkMatches) (some storageInit) (before ++ [.write addr write])) later →
          Reads rpaIrkMatches final addr field value) ∧
      ∀ addr write, (KeyCall.write addr write).Sound → ∀ next,
        keyStep rpaIrkMatches (some final) (.write addr write) = some next →
          Frame final next addr write := by
  have hdistinct := distinct_run rpaIrkMatches hsound distinct_init hrun
  refine ⟨hdistinct, ?_, ?_⟩
  · rintro before addr write later rfl field value hvalue hkeeps
    have hcall : (KeyCall.write addr write).Sound := hsound _ (by simp)
    have hpeer := isPeer_of_sound hcall
    obtain ⟨mid, hbefore, hafter⟩ := run_append_eq_some rpaIrkMatches hrun
    obtain ⟨next, hstep, hlater⟩ := run_cons_eq_some rpaIrkMatches hafter
    rw [run_append, hbefore, run_cons, run_nil, hstep] at hkeeps
    have hholds := holds_run rpaIrkMatches
      (fun other hother => hsound other (by simp [hother])) hpeer.2
      (holds_write rpaIrkMatches hcall hstep hvalue) hkeeps hlater
    exact reads_of_holds rpaIrkMatches hdistinct hpeer hholds
  · intro addr write hcall next hstep
    exact frame_write rpaIrkMatches hdistinct hcall hstep

end Laws

def samplePeer (n : UInt8) : AddrLe := ⟨0, .replicate 6 n⟩

def writeLtk (peer key : UInt8) : KeyCall := .write (samplePeer peer) (.ltk (.replicate 32 key))

/-- The long term key of a sample peer after some calls. -/
def readLtkAfter (calls : List KeyCall) (peer : UInt8) : Option ReadData :=
  (run (keyStep fun _ _ => false) (some storageInit) calls).bind fun final =>
    (storageRead (fun _ _ => false) final (some (samplePeer peer)) .ltk).map Prod.fst

theorem writeLtk_sound {peer key : UInt8} (hpeer : peer ≠ 0) : (writeLtk peer key).Sound := by
  refine ⟨rfl, ?_⟩
  intro hany
  exact hpeer (congrArg (fun addr : AddrLe => addr.a[0]) hany)

theorem key_pool_keeps_apart_two_peers :
    readLtkAfter [writeLtk 1 7, writeLtk 2 8, writeLtk 1 9] 1 =
      some (.bytes (List.replicate 32 9)) := by
  have hsound : ∀ call ∈ [writeLtk 1 7, writeLtk 2 8, writeLtk 1 9], call.Sound := by
    intro call hcall
    simp only [List.mem_cons, List.not_mem_nil, or_false] at hcall
    rcases hcall with rfl | rfl | rfl
    all_goals exact writeLtk_sound (by decide)
  obtain ⟨final, hrun⟩ := run_keyStep_eq_some (fun _ _ => false) hsound
    (show storageInit.removeCnt + 3 < 2 ^ 31 by decide)
  obtain ⟨-, hreads, -⟩ := key_pool_keeps_apart (fun _ _ => false) _ hsound hrun
  have hread := (hreads [writeLtk 1 7, writeLtk 2 8] _ _ [] rfl .ltk _ rfl trivial).kinds .ltk
    (by decide)
  rw [readLtkAfter, hrun, Option.bind_some, hread]
  rfl

/-- After the last write for the first peer only the third one is added, and it takes over the
first entry. After the third peer is added in the place of one that was cleared, only the
fourth one is, and it takes over the entry of the third. -/
theorem key_lost_after_one_peer :
    readLtkAfter [writeLtk 1 7, writeLtk 2 8, writeLtk 1 9, writeLtk 3 10] 1 = some .nothing ∧
      readLtkAfter [writeLtk 1 7, writeLtk 2 8, .clear (samplePeer 1), writeLtk 3 10,
        writeLtk 4 11] 3 = some .nothing := by
  decide

end CubieBle.Storage.KeyPool
