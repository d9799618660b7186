import Mathlib.Data.Set.Card
import CubieBle.Machine.Bytes
import CubieBle.Storage.KeyPool

/-! # Subscriptions that survive a reboot

The client characteristic configurations of the bonded peer are kept in a small table with a
count, which is stored in the configuration memory whenever an entry changes, and from which
the attributes are set when the system starts.
-/

namespace CubieBle.Host

open Machine
open Storage.KeyPool (AddrLe)

/-! ## Data -/

structure CccStore where
  handle : UInt16
  value : UInt16
deriving DecidableEq

/-- The table has room for `CONFIG_CCC_STORE_MAX` entries. -/
structure CccSave (cccStoreMax : Nat) where
  addr : AddrLe
  store : Vector CccStore cccStoreMax
  count : Nat
deriving DecidableEq

def CccSave.zero (cccStoreMax : Nat) : CccSave cccStoreMax where
  addr := .any
  store := .replicate cccStoreMax ⟨0, 0⟩
  count := 0

/-- The entries in use. -/
def CccSave.entries {cccStoreMax : Nat} (save : CccSave cccStoreMax) : List CccStore :=
  save.store.toList.take save.count

structure CccCfg where
  peer : AddrLe
  value : UInt16
deriving DecidableEq

/-- `struct _bt_gatt_ccc`, whose configurations are at least one. -/
structure Ccc where
  cfg0 : CccCfg
  cfgs : List CccCfg
  value : UInt16
deriving DecidableEq

/-- An attribute; `ccc` is `none` unless it is written with `bt_gatt_attr_write_ccc`. -/
structure Attr where
  handle : UInt16
  ccc : Option Ccc
deriving DecidableEq

/-- A call of `cfg_changed`. -/
structure CfgChanged where
  handle : UInt16
  value : UInt16
deriving DecidableEq

structure Gatt (cccStoreMax : Nat) where
  cccSaveStorage : CccSave cccStoreMax
  /-- the item `"BT_CCC"` -/
  nvram : Option (CccSave cccStoreMax)
  attrs : List Attr
  changes : List CfgChanged
deriving DecidableEq

/-! ## Storing -/

section Code

variable {cccStoreMax : Nat}

/-- The index of a handle, which is added while there is room. -/
def cccStoreFind (save : CccSave cccStoreMax) (handle : UInt16) :
    Option Nat × CccSave cccStoreMax :=
  match save.entries.findIdx? fun entry => entry.handle = handle with
  | some i => (some i, save)
  | none =>
      if save.count < cccStoreMax then (some save.count, { save with count := save.count + 1 })
      else (none, save)

/-- Another peer starts with an empty table. -/
def CccSave.forPeer (save : CccSave cccStoreMax) (addr : AddrLe) : CccSave cccStoreMax :=
  if addr ≠ save.addr then { CccSave.zero cccStoreMax with addr := addr } else save

def btGattStoreCcc (gatt : Gatt cccStoreMax) (addr : AddrLe) (entry : CccStore) :
    Gatt cccStoreMax :=
  match cccStoreFind (gatt.cccSaveStorage.forPeer addr) entry.handle with
  | (none, save) => { gatt with cccSaveStorage := save }
  | (some i, save) =>
      if save.store[i]? ≠ some entry then
        let save := { save with store := save.store.setIfInBounds i entry }
        { gatt with cccSaveStorage := save, nvram := some save }
      else { gatt with cccSaveStorage := save }

/-! ## Going through the attributes -/

/-- `bt_gatt_foreach_attr` from the handle 1 on. The callback changes an attribute, calls
`cfg_changed` and says whether to go on. -/
def btGattForeachAttr (visit : Attr → Attr × List CfgChanged × Bool) :
    List Attr → List Attr × List CfgChanged
  | [] => ([], [])
  | attr :: rest =>
      if attr.handle < 0x0001 then
        let (rest, changes) := btGattForeachAttr visit rest
        (attr :: rest, changes)
      else
        match visit attr with
        | (attr, changes, false) => (attr :: rest, changes)
        | (attr, changes, true) =>
            let (rest, more) := btGattForeachAttr visit rest
            (attr :: rest, changes ++ more)

def cccLoad (load : CccSave cccStoreMax) (attr : Attr) : Attr × List CfgChanged × Bool :=
  match attr.ccc with
  | none => (attr, [], true)
  | some ccc =>
      if load.count = 0 then (attr, [], false)
      else
        match load.entries.find? fun entry => entry.handle = attr.handle with
        | none => (attr, [], true)
        | some entry =>
            let cfg0 := { ccc.cfg0 with peer := load.addr, value := entry.value }
            ({ attr with ccc := some { ccc with cfg0 := cfg0, value := entry.value } },
              [⟨attr.handle, entry.value⟩], true)

def btGattLoadCcc (gatt : Gatt cccStoreMax) : Gatt cccStoreMax :=
  match gatt.nvram with
  | none => gatt
  | some save =>
      let (attrs, changes) := btGattForeachAttr (cccLoad save) gatt.attrs
      { gatt with cccSaveStorage := save, attrs := attrs, changes := gatt.changes ++ changes }

def cccClear (attr : Attr) : Attr × List CfgChanged × Bool :=
  match attr.ccc with
  | none => (attr, [], true)
  | some ccc =>
      if ccc.value ≠ 0 ∨ ccc.cfg0.value ≠ 0 then
        ({ attr with ccc := some { ccc with cfg0 := { ccc.cfg0 with value := 0 }, value := 0 } },
          [⟨attr.handle, 0⟩], true)
      else (attr, [], true)

def btGattClearCcc (gatt : Gatt cccStoreMax) : Gatt cccStoreMax :=
  let (attrs, changes) := btGattForeachAttr cccClear gatt.attrs
  { gatt with
    cccSaveStorage := .zero cccStoreMax, nvram := some (.zero cccStoreMax), attrs := attrs,
    changes := gatt.changes ++ changes }

/-- The greatest of the configured values. -/
def cccValue (cfg0 : CccCfg) (cfgs : List CccCfg) : UInt16 :=
  (cfg0 :: cfgs).foldl (fun value cfg => if value < cfg.value then cfg.value else value) 0

/-- `gatt_ccc_changed_new` for the attribute with an index, with the configurations as the
stack has set them. -/
def gattCccChangedNew (gatt : Gatt cccStoreMax) (index : Nat) (attr : Attr) (ccc : Ccc)
    (bonded : Bool) : Gatt cccStoreMax :=
  let value := cccValue ccc.cfg0 ccc.cfgs
  if value ≠ ccc.value then
    let gatt :=
      { gatt with
        attrs := gatt.attrs.set index { attr with ccc := some { ccc with value := value } }
        changes := gatt.changes ++ [⟨attr.handle, value⟩] }
    if bonded then btGattStoreCcc gatt ccc.cfg0.peer ⟨attr.handle, value⟩ else gatt
  else { gatt with attrs := gatt.attrs.set index { attr with ccc := some ccc } }

/-! ## Runs -/

inductive GattCall
  /-- The stack has set configurations of the attribute with an index. -/
  | changed (index : Nat) (cfg0 : CccCfg) (cfgs : List CccCfg) (bonded : Bool)
  | clear
  | reboot

/-- The start of the system, with the attributes as they are in the image. -/
def boot (image : List Attr) (nvram : Option (CccSave cccStoreMax)) : Gatt cccStoreMax :=
  btGattLoadCcc
    { cccSaveStorage := .zero cccStoreMax, nvram := nvram, attrs := image, changes := [] }

def gattStep (image : List Attr) (gatt : Gatt cccStoreMax) : GattCall → Gatt cccStoreMax
  | .changed index cfg0 cfgs bonded =>
      match gatt.attrs[index]? with
      | some ⟨handle, some ccc⟩ =>
          let ccc := { ccc with cfg0 := cfg0, cfgs := cfgs }
          gattCccChangedNew gatt index ⟨handle, some ccc⟩ ccc bonded
      | _ => gatt
  | .clear => btGattClearCcc gatt
  | .reboot => boot image gatt.nvram

end Code

/-! ## Subscriptions -/

/-- A peer and the values that it has set, by handle. -/
structure Subscriptions where
  peer : AddrLe
  values : UInt16 → Option UInt16

namespace Subscriptions

def empty : Subscriptions := ⟨.any, fun _ => none⟩

/-- The number of handles with a value. -/
noncomputable def size (subs : Subscriptions) : Nat :=
  {handle | (subs.values handle).isSome}.ncard

/-- The subscriptions of a peer start anew when it is another one. -/
def ofPeer (subs : Subscriptions) (peer : AddrLe) : Subscriptions :=
  if peer = subs.peer then subs else ⟨peer, fun _ => none⟩

/-- A value for a handle; a new handle is ignored when there are as many as fit. -/
noncomputable def set (cccStoreMax : Nat) (subs : Subscriptions) (handle value : UInt16) :
    Subscriptions :=
  if (subs.values handle).isSome ∨ subs.size < cccStoreMax then
    { subs with values := Function.update subs.values handle (some value) }
  else subs

end Subscriptions

section Laws

variable {cccStoreMax : Nat}

/-- What a call does to the subscriptions: only a change of the value counts, and only by a
bonded peer. -/
noncomputable def observeSubscriptions (gatt : Gatt cccStoreMax) (call : GattCall)
    (subs : Subscriptions) : Subscriptions :=
  match call with
  | .changed index cfg0 cfgs bonded =>
      match gatt.attrs[index]? with
      | some ⟨handle, some ccc⟩ =>
          if cccValue cfg0 cfgs ≠ ccc.value ∧ bonded then
            (subs.ofPeer cfg0.peer).set cccStoreMax handle (cccValue cfg0 cfgs)
          else subs
      | _ => subs
  | .clear => .empty
  | .reboot => subs

/-- The subscriptions in a record. -/
def CccSave.decode (save : CccSave cccStoreMax) : Subscriptions where
  peer := save.addr
  values := fun handle => (save.entries.find? fun entry => entry.handle = handle).map CccStore.value

/-- The subscriptions in the configuration memory; before the first record there are none. -/
def decodeNvram : Option (CccSave cccStoreMax) → Subscriptions
  | none => .empty
  | some save => save.decode

/-- A record as the code writes it: the handles in use are distinct, and the rest of the table
is zero. -/
structure WellFormed (save : CccSave cccStoreMax) : Prop where
  count : save.count ≤ cccStoreMax
  distinct : (save.entries.map CccStore.handle).Nodup
  zero : ∀ entry ∈ save.store.toList.drop save.count, entry = ⟨0, 0⟩

/-- An attribute as the subscriptions set it. -/
def restoreAttr (subs : Subscriptions) (attr : Attr) : Attr :=
  match attr.ccc, subs.values attr.handle with
  | some ccc, some value =>
      { attr with ccc := some { ccc with cfg0 := ⟨subs.peer, value⟩, value := value } }
  | _, _ => attr

/-- The call of `cfg_changed` for it. -/
def restoreChange (subs : Subscriptions) (attr : Attr) : Option CfgChanged :=
  match attr.ccc, subs.values attr.handle with
  | some _, some value => some ⟨attr.handle, value⟩
  | _, _ => none

/-- The attributes and calls after the start of the system. -/
structure Restored (image : List Attr) (subs : Subscriptions) (gatt : Gatt cccStoreMax) :
    Prop where
  attrs : gatt.attrs = image.map (restoreAttr subs)
  changes : gatt.changes = image.filterMap (restoreChange subs)

/-- The table in RAM is the record, which has the subscriptions. -/
structure Consistent (gatt : Gatt cccStoreMax) (subs : Subscriptions) : Prop where
  ram : gatt.cccSaveStorage = gatt.nvram.getD (.zero cccStoreMax)
  wellFormed : WellFormed gatt.cccSaveStorage
  decodes : gatt.cccSaveStorage.decode = subs
  handles : ∀ attr ∈ gatt.attrs, attr.handle ≠ 0

/-! ## Tables as maps -/

/-- The value of a handle in a list of entries. -/
def lookupValue (entries : List CccStore) (handle : UInt16) : Option UInt16 :=
  (entries.find? fun entry => entry.handle = handle).map CccStore.value

theorem lookupValue_isSome_iff {entries : List CccStore} {handle : UInt16} :
    (lookupValue entries handle).isSome ↔ handle ∈ entries.map CccStore.handle := by
  rw [lookupValue, Option.isSome_map, List.find?_isSome, List.mem_map]
  simp only [decide_eq_true_eq]

theorem lookupValue_cons (entry : CccStore) (entries : List CccStore) (handle : UInt16) :
    lookupValue (entry :: entries) handle =
      if entry.handle = handle then some entry.value else lookupValue entries handle := by
  rw [lookupValue, List.find?_cons]
  by_cases hhandle : entry.handle = handle
  · simp only [hhandle, decide_true, if_true, Option.map_some]
  · simp only [hhandle, decide_false, if_false, lookupValue]

/-- A new entry at the end. -/
theorem lookupValue_append {entries : List CccStore} {entry : CccStore}
    (hnew : entry.handle ∉ entries.map CccStore.handle) :
    lookupValue (entries ++ [entry]) =
      Function.update (lookupValue entries) entry.handle (some entry.value) := by
  funext handle
  induction entries with
  | nil =>
      rw [List.nil_append, lookupValue_cons, Function.update_apply]
      simp only [eq_comm]
  | cons first rest ih =>
      rw [List.map_cons, List.mem_cons, not_or] at hnew
      rw [List.cons_append, lookupValue_cons, ih hnew.2, Function.update_apply,
        Function.update_apply, lookupValue_cons]
      by_cases hfirst : first.handle = handle
      · rw [if_pos hfirst, if_pos hfirst, if_neg]
        rintro rfl
        exact hnew.1 hfirst.symm
      · rw [if_neg hfirst, if_neg hfirst]

/-- A new value in the place of a handle. -/
theorem lookupValue_set {entries : List CccStore} {entry : CccStore} {i : Nat}
    (hdistinct : (entries.map CccStore.handle).Nodup)
    (hplace : (entries[i]?).map CccStore.handle = some entry.handle) :
    lookupValue (entries.set i entry) =
      Function.update (lookupValue entries) entry.handle (some entry.value) := by
  funext handle
  induction entries generalizing i with
  | nil => cases hplace
  | cons first rest ih =>
      rw [List.map_cons, List.nodup_cons] at hdistinct
      cases i with
      | zero =>
          have hfirst : first.handle = entry.handle := Option.some.inj hplace
          rw [List.set_cons_zero, lookupValue_cons, Function.update_apply, lookupValue_cons, hfirst]
          by_cases hhandle : entry.handle = handle
          · rw [if_pos hhandle, if_pos hhandle.symm]
          · rw [if_neg hhandle, if_neg (Ne.symm hhandle), if_neg hhandle]
      | succ i =>
          rw [List.getElem?_cons_succ] at hplace
          have hmem : entry.handle ∈ rest.map CccStore.handle := by
            obtain ⟨old, hold, hsame⟩ := Option.map_eq_some_iff.mp hplace
            rw [← hsame]
            exact List.mem_map_of_mem (List.mem_of_getElem? hold)
          rw [List.set_cons_succ, lookupValue_cons, ih hdistinct.2 hplace, Function.update_apply,
            Function.update_apply, lookupValue_cons]
          by_cases hhandle : first.handle = handle
          · rw [if_pos hhandle, if_pos hhandle, if_neg]
            rintro rfl
            exact hdistinct.1 (hhandle ▸ hmem)
          · rw [if_neg hhandle, if_neg hhandle]

section Save

variable {save : CccSave cccStoreMax}

theorem decode_values : save.decode.values = lookupValue save.entries := rfl

theorem isSome_decode_iff {handle : UInt16} :
    (save.decode.values handle).isSome ↔ handle ∈ save.entries.map CccStore.handle :=
  lookupValue_isSome_iff

theorem WellFormed.length (hsave : WellFormed save) : save.entries.length = save.count := by
  rw [CccSave.entries, List.length_take, Vector.length_toList]
  exact Nat.min_eq_left hsave.count

/-- The handles with a value are as many as the entries. -/
theorem WellFormed.size (hsave : WellFormed save) : save.decode.size = save.count := by
  have hhandles : {handle | (save.decode.values handle).isSome} =
      ((save.entries.map CccStore.handle).toFinset : Set UInt16) := by
    ext handle
    rw [Set.mem_ofPred_eq, isSome_decode_iff, List.coe_toFinset]
    rfl
  rw [Subscriptions.size, hhandles, Set.ncard_coe_finset,
    List.toFinset_card_of_nodup hsave.distinct, List.length_map, hsave.length]

theorem wellFormed_zero (addr : AddrLe) :
    WellFormed { CccSave.zero cccStoreMax with addr := addr } where
  count := Nat.zero_le _
  distinct := List.nodup_nil
  zero := by
    intro entry hentry
    rw [CccSave.zero, List.drop_zero, Vector.toList_replicate] at hentry
    exact List.eq_of_mem_replicate hentry

/-- A new handle is added behind the entries in use, where the table is zero. -/
theorem WellFormed.append (hsave : WellFormed save) {entry : CccStore} (hhandle : entry.handle ≠ 0)
    (hnew : entry.handle ∉ save.entries.map CccStore.handle) (hroom : save.count < cccStoreMax) :
    save.store[save.count]? ≠ some entry ∧
      WellFormed { save with
        store := save.store.setIfInBounds save.count entry, count := save.count + 1 } ∧
      lookupValue ((save.store.setIfInBounds save.count entry).toList.take (save.count + 1)) =
        Function.update (lookupValue save.entries) entry.handle (some entry.value) := by
  have hlength : save.count < save.store.toList.length := by
    rw [Vector.length_toList]
    exact hroom
  have hentries : (save.store.setIfInBounds save.count entry).toList.take (save.count + 1) =
      save.entries ++ [entry] := by
    rw [Vector.toList_setIfInBounds]
    exact Machine.take_set_succ hlength entry
  refine ⟨?_, ⟨hroom, ?_, ?_⟩, ?_⟩
  · intro hsame
    have hmem : entry ∈ save.store.toList.drop save.count := by
      apply List.mem_of_getElem? (i := 0)
      rw [List.getElem?_drop, Nat.add_zero, Vector.getElem?_toList, hsame]
    rw [hsave.zero entry hmem] at hhandle
    exact hhandle rfl
  · rw [CccSave.entries, hentries, List.map_append, List.nodup_append]
    refine ⟨hsave.distinct, List.nodup_singleton _, ?_⟩
    intro handle hmem other hother
    rw [List.map_singleton, List.mem_singleton] at hother
    rintro rfl
    exact hnew (hother ▸ hmem)
  · intro other hother
    rw [Vector.toList_setIfInBounds, List.drop_set_of_lt (Nat.lt_succ_self _)] at hother
    exact hsave.zero other (List.drop_subset_drop_left _ (Nat.le_succ _) hother)
  · rw [hentries, lookupValue_append hnew]

/-- A value is set for a handle in use, or if there is room for a new one. -/
theorem WellFormed.decode_set (hsave : WellFormed save) {entry : CccStore}
    (hfits : entry.handle ∈ save.entries.map CccStore.handle ∨ save.count < cccStoreMax) :
    save.decode.set cccStoreMax entry.handle entry.value =
      ⟨save.addr, Function.update (lookupValue save.entries) entry.handle (some entry.value)⟩ := by
  rw [Subscriptions.set, hsave.size, if_pos (hfits.imp_left isSome_decode_iff.mpr)]
  rfl

theorem WellFormed.decode_set_full (hsave : WellFormed save) {entry : CccStore}
    (hnew : entry.handle ∉ save.entries.map CccStore.handle) (hfull : ¬save.count < cccStoreMax) :
    save.decode.set cccStoreMax entry.handle entry.value = save.decode := by
  rw [Subscriptions.set, hsave.size, if_neg]
  rintro (hused | hlt)
  · exact hnew (isSome_decode_iff.mp hused)
  · exact hfull hlt

/-- A handle in use gets its new value in its place. -/
theorem WellFormed.set (hsave : WellFormed save) {entry : CccStore} {i : Nat}
    (hfound : (save.entries.findIdx? fun other => other.handle = entry.handle) = some i) :
    save.store[i]? = save.entries[i]? ∧
      WellFormed { save with store := save.store.setIfInBounds i entry } ∧
      lookupValue ((save.store.setIfInBounds i entry).toList.take save.count) =
        Function.update (lookupValue save.entries) entry.handle (some entry.value) := by
  obtain ⟨hlt, hplace, -⟩ := List.findIdx?_eq_some_iff_getElem.mp hfound
  have hcount : i < save.count := by
    rw [← hsave.length]
    exact hlt
  have hhandle : save.entries[i].handle = entry.handle := of_decide_eq_true hplace
  have hentries : (save.store.setIfInBounds i entry).toList.take save.count =
      save.entries.set i entry := by
    rw [Vector.toList_setIfInBounds, List.take_set]
    rfl
  have hhandles : (save.entries.set i entry).map CccStore.handle =
      save.entries.map CccStore.handle := by
    rw [List.map_set, ← hhandle, ← List.map_set, List.set_getElem_self]
  refine ⟨?_, ⟨hsave.count, ?_, ?_⟩, ?_⟩
  · rw [CccSave.entries, List.getElem?_take_of_lt hcount, Vector.getElem?_toList]
  · rw [CccSave.entries, hentries, hhandles]
    exact hsave.distinct
  · intro other hother
    rw [Vector.toList_setIfInBounds, List.drop_set_of_lt hcount] at hother
    exact hsave.zero other hother
  · rw [hentries]
    apply lookupValue_set hsave.distinct
    rw [List.getElem?_eq_getElem hlt, Option.map_some, hhandle]

end Save

theorem setIfInBounds_self {store : Vector CccStore cccStoreMax} {i : Nat} {entry : CccStore}
    (hentry : store[i]? = some entry) : store.setIfInBounds i entry = store := by
  apply Vector.toList_inj.mp
  rw [Vector.toList_setIfInBounds]
  apply List.ext_getElem?
  intro j
  rw [List.getElem?_set, Vector.getElem?_toList]
  by_cases hij : i = j
  · subst hij
    rw [if_pos rfl, hentry]
    split
    next => rfl
    next hout =>
      rw [Vector.length_toList] at hout
      rw [Vector.getElem?_eq_none (by omega)] at hentry
      exact hentry
  · rw [if_neg hij]

/-! ## Steps -/

theorem decode_forPeer (save : CccSave cccStoreMax) (addr : AddrLe) :
    (save.forPeer addr).decode = save.decode.ofPeer addr := by
  rw [Subscriptions.ofPeer, CccSave.forPeer]
  by_cases haddr : addr = save.addr
  · rw [if_neg (not_not.mpr haddr), if_pos (by exact haddr)]
  · rw [if_pos haddr, if_neg (by exact haddr)]
    rfl

theorem WellFormed.forPeer {save : CccSave cccStoreMax} (hsave : WellFormed save) (addr : AddrLe) :
    WellFormed (save.forPeer addr) := by
  rw [CccSave.forPeer]
  split
  next => exact wellFormed_zero addr
  next => exact hsave

theorem forPeer_of_count {save : CccSave cccStoreMax} {addr : AddrLe}
    (hcount : (save.forPeer addr).count ≠ 0) : save.forPeer addr = save := by
  rw [CccSave.forPeer] at hcount ⊢
  split at hcount
  next => exact absurd rfl hcount
  next haddr => rw [if_neg haddr]

/-- Storing an entry sets its value in the subscriptions of the peer. The record is written
unless nothing changes, since a table that is new or larger than before gets a nonzero
handle. -/
theorem consistent_store (hmax : 0 < cccStoreMax) {gatt : Gatt cccStoreMax} {subs : Subscriptions}
    (hgatt : Consistent gatt subs) (addr : AddrLe) {entry : CccStore} (hhandle : entry.handle ≠ 0) :
    Consistent (btGattStoreCcc gatt addr entry)
      ((subs.ofPeer addr).set cccStoreMax entry.handle entry.value) := by
  obtain ⟨hram, hformed, rfl, hattrs⟩ := hgatt
  have hbase := hformed.forPeer addr
  have hsame : (gatt.cccSaveStorage.forPeer addr).count ≠ 0 → _ := forPeer_of_count
  rw [btGattStoreCcc, ← decode_forPeer, cccStoreFind]
  generalize gatt.cccSaveStorage.forPeer addr = base at hbase hsame ⊢
  cases hfound : base.entries.findIdx? fun other => other.handle = entry.handle with
  | some i =>
      obtain ⟨hlt, hplace, -⟩ := List.findIdx?_eq_some_iff_getElem.mp hfound
      obtain ⟨hindex, hset, hvalues⟩ := hbase.set hfound
      have hused : entry.handle ∈ base.entries.map CccStore.handle := by
        rw [← of_decide_eq_true hplace]
        exact List.mem_map_of_mem (List.getElem_mem hlt)
      rw [hbase.decode_set (.inl hused)]
      dsimp only
      split
      next hchanged => exact ⟨rfl, hset, congrArg (Subscriptions.mk base.addr) hvalues, hattrs⟩
      next hequal =>
        -- the same value in the same place
        have hbaseSame : base = gatt.cccSaveStorage := by
          apply hsame
          rw [← hbase.length]
          omega
        have hself : base.store.setIfInBounds i entry = base.store :=
          setIfInBounds_self (not_not.mp hequal)
        rw [hself] at hvalues
        rw [hbaseSame] at hvalues ⊢
        exact ⟨hram, hformed, congrArg (Subscriptions.mk _) hvalues, hattrs⟩
  | none =>
      have hnew : entry.handle ∉ base.entries.map CccStore.handle := by
        intro hused
        obtain ⟨other, hother, heq⟩ := List.mem_map.mp hused
        exact of_decide_eq_false (List.findIdx?_eq_none_iff.mp hfound other hother) heq
      by_cases hroom : base.count < cccStoreMax
      · obtain ⟨hchanged, happend, hvalues⟩ := hbase.append hhandle hnew hroom
        rw [hbase.decode_set (.inr hroom), if_pos hroom]
        dsimp only
        rw [if_pos hchanged]
        exact ⟨rfl, happend, congrArg (Subscriptions.mk base.addr) hvalues, hattrs⟩
      · have hbaseSame : base = gatt.cccSaveStorage := by
          apply hsame
          omega
        rw [hbase.decode_set_full hnew hroom, if_neg hroom, hbaseSame]
        exact ⟨hram, hformed, rfl, hattrs⟩

/-- Callbacks that keep the handle of an attribute keep the handles of all. -/
theorem handle_foreachAttr {visit : Attr → Attr × List CfgChanged × Bool}
    (hvisit : ∀ attr, (visit attr).1.handle = attr.handle) (attrs : List Attr) :
    (btGattForeachAttr visit attrs).1.map Attr.handle = attrs.map Attr.handle := by
  induction attrs with
  | nil => rfl
  | cons attr rest ih =>
      have hattr := hvisit attr
      rw [btGattForeachAttr]
      split
      next =>
        rw [List.map_cons, List.map_cons, ih]
      next =>
        rcases hresult : visit attr with ⟨after, changes, more⟩
        rw [hresult] at hattr
        cases more with
        | false => exact congrArg (· :: _) hattr
        | true => exact congrArg₂ List.cons hattr ih

theorem restoreAttr_of_none {subs : Subscriptions} {attr : Attr}
    (hnone : subs.values attr.handle = none) :
    restoreAttr subs attr = attr ∧ restoreChange subs attr = none := by
  rw [restoreAttr, restoreChange, hnone]
  cases attr.ccc with
  | none => exact ⟨rfl, rfl⟩
  | some ccc => exact ⟨rfl, rfl⟩

theorem restore_of_none {subs : Subscriptions} (hnone : ∀ handle, subs.values handle = none)
    (attrs : List Attr) :
    attrs.map (restoreAttr subs) = attrs ∧ attrs.filterMap (restoreChange subs) = [] := by
  induction attrs with
  | nil => exact ⟨rfl, rfl⟩
  | cons attr rest ih =>
      obtain ⟨hattr, hchange⟩ := restoreAttr_of_none (hnone attr.handle)
      constructor
      · rw [List.map_cons, hattr, ih.1]
      · rw [List.filterMap_cons_none hchange, ih.2]

theorem handle_restoreAttr (subs : Subscriptions) (attr : Attr) :
    (restoreAttr subs attr).handle = attr.handle := by
  rw [restoreAttr]
  split
  next => rfl
  next => rfl

theorem cccLoad_of_count_ne {save : CccSave cccStoreMax} (hcount : save.count ≠ 0) (attr : Attr) :
    cccLoad save attr =
      (restoreAttr save.decode attr, (restoreChange save.decode attr).toList, true) := by
  rw [cccLoad, restoreAttr, restoreChange]
  cases attr.ccc with
  | none => rfl
  | some ccc =>
      have hvalue : save.decode.values attr.handle =
          (save.entries.find? fun entry => entry.handle = attr.handle).map CccStore.value := rfl
      dsimp only
      rw [if_neg hcount, hvalue]
      cases save.entries.find? fun entry => entry.handle = attr.handle with
      | none => rfl
      | some entry => rfl

theorem foreachAttr_cons (visit : Attr → Attr × List CfgChanged × Bool) {attr : Attr}
    (hattr : attr.handle ≠ 0) (rest : List Attr) :
    btGattForeachAttr visit (attr :: rest) =
      match visit attr with
      | (attr, changes, false) => (attr :: rest, changes)
      | (attr, changes, true) =>
          let (rest, more) := btGattForeachAttr visit rest
          (attr :: rest, changes ++ more) := by
  have hvisited : ¬attr.handle < 0x0001 := by
    intro hlt
    apply hattr
    have hlt : attr.handle.toNat < 1 := hlt
    apply UInt16.toNat_inj.mp
    change attr.handle.toNat = 0
    omega
  rw [btGattForeachAttr, if_neg hvisited]

/-- With an empty table the loop stops at the first configuration. -/
theorem foreachAttr_load_of_count {save : CccSave cccStoreMax} (hcount : save.count = 0)
    {attrs : List Attr} (hattrs : ∀ attr ∈ attrs, attr.handle ≠ 0) :
    btGattForeachAttr (cccLoad save) attrs = (attrs, []) := by
  induction attrs with
  | nil => rfl
  | cons attr rest ih =>
      rw [foreachAttr_cons _ (hattrs attr List.mem_cons_self), cccLoad]
      cases attr.ccc with
      | none =>
          dsimp only
          rw [ih fun other hother => hattrs other (List.mem_cons_of_mem _ hother)]
          rfl
      | some ccc =>
          dsimp only
          rw [if_pos hcount]

/-- Loading a record sets the attributes as its subscriptions say. -/
theorem foreachAttr_load {attrs : List Attr} (hattrs : ∀ attr ∈ attrs, attr.handle ≠ 0)
    (save : CccSave cccStoreMax) :
    btGattForeachAttr (cccLoad save) attrs =
      (attrs.map (restoreAttr save.decode), attrs.filterMap (restoreChange save.decode)) := by
  by_cases hcount : save.count = 0
  · have hnone : ∀ handle, save.decode.values handle = none := by
      intro handle
      rw [decode_values, CccSave.entries, hcount, List.take_zero]
      rfl
    obtain ⟨hmap, hchanges⟩ := restore_of_none hnone attrs
    rw [hmap, hchanges]
    exact foreachAttr_load_of_count hcount hattrs
  · induction attrs with
    | nil => rfl
    | cons attr rest ih =>
        rw [foreachAttr_cons _ (hattrs attr List.mem_cons_self), cccLoad_of_count_ne hcount]
        dsimp only
        rw [ih fun other hother => hattrs other (List.mem_cons_of_mem _ hother), List.map_cons,
          List.filterMap_cons]
        cases restoreChange save.decode attr with
        | none => rfl
        | some change => rfl

theorem restored_boot {image : List Attr} (himage : ∀ attr ∈ image, attr.handle ≠ 0)
    (nvram : Option (CccSave cccStoreMax)) :
    Restored image (decodeNvram nvram) (boot image nvram) := by
  cases nvram with
  | none =>
      obtain ⟨hmap, hchanges⟩ :=
        restore_of_none (show ∀ handle, Subscriptions.empty.values handle = none from fun _ => rfl)
          image
      exact ⟨hmap.symm, hchanges.symm⟩
  | some save =>
      rw [boot, btGattLoadCcc]
      dsimp only
      rw [foreachAttr_load himage]
      exact ⟨rfl, List.nil_append _⟩

theorem consistent_boot {image : List Attr} (himage : ∀ attr ∈ image, attr.handle ≠ 0)
    {nvram : Option (CccSave cccStoreMax)} (hnvram : ∀ save ∈ nvram, WellFormed save) :
    Consistent (boot image nvram) (decodeNvram nvram) := by
  have hhandles : ∀ attr ∈ (boot image nvram).attrs, attr.handle ≠ 0 := by
    rw [(restored_boot himage nvram).attrs]
    intro attr hattr
    obtain ⟨initial, hinitial, rfl⟩ := List.mem_map.mp hattr
    rw [handle_restoreAttr]
    exact himage initial hinitial
  cases nvram with
  | none => exact ⟨rfl, wellFormed_zero .any, rfl, hhandles⟩
  | some save => exact ⟨rfl, hnvram save rfl, rfl, hhandles⟩

theorem Consistent.decodeNvram {gatt : Gatt cccStoreMax} {subs : Subscriptions}
    (hgatt : Consistent gatt subs) : decodeNvram gatt.nvram = subs := by
  have hram := hgatt.ram
  rw [← hgatt.decodes, hram]
  cases gatt.nvram with
  | none => rfl
  | some save => rfl

theorem Consistent.nvram {gatt : Gatt cccStoreMax} {subs : Subscriptions}
    (hgatt : Consistent gatt subs) : ∀ save ∈ gatt.nvram, WellFormed save := by
  intro save hsave
  have hformed := hgatt.wellFormed
  rw [hgatt.ram, Option.mem_def.mp hsave] at hformed
  exact hformed

theorem Consistent.withAttrs {gatt : Gatt cccStoreMax} {subs : Subscriptions}
    (hgatt : Consistent gatt subs) {attrs : List Attr} (changes : List CfgChanged)
    (hattrs : ∀ attr ∈ attrs, attr.handle ≠ 0) :
    Consistent { gatt with attrs := attrs, changes := changes } subs :=
  ⟨hgatt.ram, hgatt.wellFormed, hgatt.decodes, hattrs⟩

theorem consistent_changed (hmax : 0 < cccStoreMax) {gatt : Gatt cccStoreMax}
    {subs : Subscriptions} (hgatt : Consistent gatt subs) (index : Nat) {attr : Attr}
    (hattr : attr.handle ≠ 0) (ccc : Ccc) (bonded : Bool) :
    Consistent (gattCccChangedNew gatt index attr ccc bonded)
      (if cccValue ccc.cfg0 ccc.cfgs ≠ ccc.value ∧ bonded then
        (subs.ofPeer ccc.cfg0.peer).set cccStoreMax attr.handle (cccValue ccc.cfg0 ccc.cfgs)
      else subs) := by
  have hset : ∀ after : Option Ccc, ∀ other ∈ gatt.attrs.set index { attr with ccc := after },
      other.handle ≠ 0 := by
    intro after other hother
    rcases List.mem_or_eq_of_mem_set hother with hold | rfl
    · exact hgatt.handles other hold
    · exact hattr
  rw [gattCccChangedNew]
  by_cases hvalue : cccValue ccc.cfg0 ccc.cfgs ≠ ccc.value
  · dsimp only
    rw [if_pos hvalue]
    cases bonded with
    | true =>
        rw [if_pos rfl, if_pos ⟨hvalue, rfl⟩]
        exact consistent_store hmax (hgatt.withAttrs _ (hset _)) ccc.cfg0.peer
          (show (CccStore.mk attr.handle (cccValue ccc.cfg0 ccc.cfgs)).handle ≠ 0 from hattr)
    | false =>
        rw [if_neg Bool.false_ne_true, if_neg fun hboth => Bool.false_ne_true hboth.2]
        exact hgatt.withAttrs _ (hset _)
  · dsimp only
    rw [if_neg hvalue, if_neg fun hboth => hvalue hboth.1]
    exact hgatt.withAttrs gatt.changes (hset _)

theorem consistent_clear {gatt : Gatt cccStoreMax} {subs : Subscriptions}
    (hgatt : Consistent gatt subs) : Consistent (btGattClearCcc gatt) .empty := by
  have hvisit : ∀ attr, (cccClear attr).1.handle = attr.handle := by
    intro attr
    rw [cccClear]
    cases attr.ccc with
    | none => rfl
    | some ccc =>
        dsimp only
        split
        next => rfl
        next => rfl
  refine ⟨rfl, wellFormed_zero .any, rfl, ?_⟩
  intro attr hattr
  have hmem := List.mem_map_of_mem (f := Attr.handle) hattr
  rw [btGattClearCcc, handle_foreachAttr hvisit] at hmem
  obtain ⟨old, hold, hsame⟩ := List.mem_map.mp hmem
  rw [← hsame]
  exact hgatt.handles old hold

theorem consistent_step (hmax : 0 < cccStoreMax) {image : List Attr}
    (himage : ∀ attr ∈ image, attr.handle ≠ 0) {gatt : Gatt cccStoreMax} {subs : Subscriptions}
    (hgatt : Consistent gatt subs) (call : GattCall) :
    Consistent (gattStep image gatt call) (observeSubscriptions gatt call subs) := by
  cases call with
  | changed index cfg0 cfgs bonded =>
      rw [gattStep, observeSubscriptions]
      rcases hattr : gatt.attrs[index]? with _ | ⟨handle, _ | ccc⟩
      · exact hgatt
      · exact hgatt
      · have hhandle := hgatt.handles _ (List.mem_of_getElem? hattr)
        exact consistent_changed hmax hgatt index hhandle { ccc with cfg0 := cfg0, cfgs := cfgs }
          bonded
  | clear => exact consistent_clear hgatt
  | reboot =>
      rw [gattStep, observeSubscriptions, ← hgatt.decodeNvram]
      exact consistent_boot himage hgatt.nvram

/-- The system with the subscriptions that its calls make. -/
noncomputable def cccStep (image : List Attr) :
    Tracked (Gatt cccStoreMax) Subscriptions → GattCall →
      Tracked (Gatt cccStoreMax) Subscriptions :=
  trackedStep (gattStep image) observeSubscriptions

/-- After every call the record has the subscriptions, with distinct handles that fit; and
after every start the attributes are set as the subscriptions say, each with a call of
`cfg_changed`, and no others are changed. -/
theorem subscriptions_survive_reboot (hmax : 0 < cccStoreMax) (image : List Attr)
    (himage : ∀ attr ∈ image, attr.handle ≠ 0) (nvram : Option (CccSave cccStoreMax))
    (hnvram : ∀ save ∈ nvram, WellFormed save) (calls : List GattCall) :
    let final := run (cccStep image) ⟨boot image nvram, decodeNvram nvram⟩ calls
    decodeNvram final.state.nvram = final.history ∧
      (∀ save ∈ final.state.nvram,
        (save.entries.map CccStore.handle).Nodup ∧ save.count ≤ cccStoreMax) ∧
      (calls = [] ∨ (∃ before, calls = before ++ [.reboot]) →
        Restored image final.history final.state) := by
  intro final
  have hruns : ∀ calls : List GattCall, Consistent
      (run (cccStep image) ⟨boot image nvram, decodeNvram nvram⟩ calls).state
      (run (cccStep image) ⟨boot image nvram, decodeNvram nvram⟩ calls).history := by
    intro calls
    have hstep : ∀ (current : Tracked (Gatt cccStoreMax) Subscriptions) (call : GattCall),
        Consistent current.state current.history →
          Consistent (cccStep image current call).state (cccStep image current call).history :=
      fun current call hcurrent => consistent_step hmax himage hcurrent call
    exact (throughout_of_step (fun current : Tracked (Gatt cccStoreMax) Subscriptions =>
      Consistent current.state current.history) hstep (consistent_boot himage hnvram) calls).last
  have hfinal := hruns calls
  refine ⟨hfinal.decodeNvram, ?_, ?_⟩
  · intro save hsave
    exact ⟨(hfinal.nvram save hsave).distinct, (hfinal.nvram save hsave).count⟩
  · rintro (rfl | ⟨before, rfl⟩)
    · exact restored_boot himage nvram
    · have hbefore := (hruns before).decodeNvram
      have hlast : final = cccStep image
          (run (cccStep image) ⟨boot image nvram, decodeNvram nvram⟩ before) .reboot :=
        run_append _ before [.reboot]
      rw [hlast]
      change Restored image (run (cccStep image) _ before).history (boot image _)
      rw [← hbefore]
      exact restored_boot himage _

end Laws

/-- A service with one configuration, at the handle 3. -/
def sampleImage : List Attr := [⟨1, none⟩, ⟨2, none⟩, ⟨3, some ⟨⟨.any, 0⟩, [], 0⟩⟩]

/-- A bonded peer subscribes, and the system starts again. -/
def sampleCalls : List GattCall := [.changed 2 ⟨⟨0, .replicate 6 7⟩, 1⟩ [] true, .reboot]

theorem subscriptions_survive_reboot_sample :
    let final := run (cccStep sampleImage)
      ⟨boot sampleImage (none : Option (CccSave 10)), decodeNvram (none : Option (CccSave 10))⟩
      sampleCalls
    Restored sampleImage final.history final.state ∧
      final.state.attrs =
        [⟨1, none⟩, ⟨2, none⟩, ⟨3, some ⟨⟨⟨0, .replicate 6 7⟩, 1⟩, [], 1⟩⟩] := by
  intro final
  obtain ⟨-, -, hrestored⟩ := subscriptions_survive_reboot (by decide) sampleImage (by decide)
    (none : Option (CccSave 10)) nofun sampleCalls
  refine ⟨hrestored (.inr ⟨[_], rfl⟩), ?_⟩
  have hstate : final.state =
      run (gattStep sampleImage) (boot sampleImage (none : Option (CccSave 10))) sampleCalls :=
    run_trackedStep_state observeSubscriptions _ sampleCalls
  rw [hstate]
  decide

end CubieBle.Host
