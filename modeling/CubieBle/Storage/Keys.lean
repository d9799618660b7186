import CubieBle.Machine.Run
import CubieBle.Storage.Nvram

/-! # The storage of Bluetooth keys

The local storage keeps the values of three keys under names of the configuration
memory. The code for writing misses a `break`, so the local identity resolving key is
stored under the name of the bond.
-/

namespace CubieBle.Storage

open Machine

/-- The well known storage keys. -/
inductive Key where
  | idAddr | localIrk | addresses | slaveLtk | ltk | irk | localCsrk | remoteCsrk | ltkP256
  | btKeys
deriving DecidableEq

section Code

variable (sizeofBtKeys : Nat)

/-- Read from the local storage: the address is `NULL`. -/
def storageRead (key : Key) (length : Nat) (nvram : Nvram) : Option (List UInt8) :=
  match key with
  | .idAddr => nvramConfigGet "BT_ADDR" length nvram
  | .localIrk => nvramConfigGet "LOCAL_IRK" length nvram
  | .btKeys => nvramConfigGet "BT_KEYS" length nvram
  | _ => some []

/-- The comparison of `tmp_bt_keys`, whose bytes past the value read are those of the
stack, with the data, which may be followed by other memory. -/
def sameBytes (stored data : List UInt8) (stack beyond : Nat → UInt8) : Bool :=
  (List.range sizeofBtKeys).all fun i => stored.getD i (stack i) == data.getD i (beyond i)

/-- The branch of the switch for the bond. -/
def writeBtKeys (data : List UInt8) (stack beyond : Nat → UInt8) (nvram : Nvram) : Nvram :=
  match nvramConfigGet "BT_KEYS" sizeofBtKeys nvram with
  | some stored =>
      if sameBytes sizeofBtKeys stored data stack beyond then nvram
      else nvramConfigSet "BT_KEYS" data nvram
  | none => nvramConfigSet "BT_KEYS" data nvram

def storageWrite (key : Key) (data : List UInt8) (stack beyond : Nat → UInt8) (nvram : Nvram) :
    Nvram :=
  match key with
  | .idAddr => nvramConfigSet "BT_ADDR" data nvram
  -- the name `"LOCAL_IRK"` is replaced in the next branch
  | .localIrk => writeBtKeys sizeofBtKeys data stack beyond nvram
  | .btKeys => writeBtKeys sizeofBtKeys data stack beyond nvram
  | _ => nvram

def storageClear (nvram : Nvram) : Nvram :=
  nvramConfigSet "BT_KEYS" (List.replicate sizeofBtKeys 0) nvram

inductive Call where
  | write (key : Key) (data : List UInt8) (stack beyond : Nat → UInt8)
  | clear

def step (nvram : Nvram) : Call → Nvram
  | .write key data stack beyond => storageWrite sizeofBtKeys key data stack beyond nvram
  | .clear => storageClear sizeofBtKeys nvram

/-! ## What the storage is for -/

/-- The length of the values that the host has for a key; the other keys are not used. -/
def hostLength : Key → Option Nat
  | .idAddr => some 7
  | .localIrk => some 16
  | .btKeys => some sizeofBtKeys
  | _ => none

/-- A write of a value of the right length, or a clear. -/
def HostCall : Call → Prop
  | .write key data _ _ => hostLength sizeofBtKeys key = some data.length
  | .clear => True

/-- The values last written, as a map from keys. -/
abbrev Values := Key → Option (List UInt8)

def valuesStep (values : Values) : Call → Values
  | .write key data _ _ => Function.update values key (some data)
  | .clear => Function.update values .btKeys (some (List.replicate sizeofBtKeys 0))

def written (calls : List Call) : Values :=
  run (valuesStep sizeofBtKeys) (fun _ => none) calls

/-- The configuration memory after some calls. -/
def stored (nvram : Nvram) (calls : List Call) : Nvram :=
  run (step sizeofBtKeys) nvram calls

/-- At every point of a run each key reads as it was written last, and a write leaves
the other keys as they are. -/
structure Faithful (nvram : Nvram) (calls : List Call) : Prop where
  lastWrite : ∀ earlier later, calls = earlier ++ later →
    ∀ key length data, hostLength sizeofBtKeys key = some length →
      written sizeofBtKeys earlier key = some data →
        storageRead key length (stored sizeofBtKeys nvram earlier) = some data
  frame : ∀ earlier key data stack beyond later,
    calls = earlier ++ .write key data stack beyond :: later →
      ∀ other length, other ≠ key → hostLength sizeofBtKeys other = some length →
        storageRead other length (storageWrite sizeofBtKeys key data stack beyond
            (stored sizeofBtKeys nvram earlier)) =
          storageRead other length (stored sizeofBtKeys nvram earlier)

/-- What a memory may hold before: no code stores anything as the local identity resolving
key, and bonds are stored as a whole. -/
structure Earlier (nvram : Nvram) : Prop where
  localIrk : nvram "LOCAL_IRK" = none
  btKeys : ∀ bond, nvram "BT_KEYS" = some bond → sizeofBtKeys ≤ bond.length

def WritesIrk : Call → Prop
  | .write key _ _ _ => key = .localIrk
  | .clear => False

end Code

variable {sizeofBtKeys : Nat}

/-! ## Without the identity resolving key -/

theorem writeBtKeys_cases (data : List UInt8) (stack beyond : Nat → UInt8) (nvram : Nvram) :
    writeBtKeys sizeofBtKeys data stack beyond nvram = nvram ∨
      writeBtKeys sizeofBtKeys data stack beyond nvram = nvramConfigSet "BT_KEYS" data nvram := by
  unfold writeBtKeys
  split
  next =>
    split
    next => exact .inl rfl
    next => exact .inr rfl
  next => exact .inr rfl

theorem storageRead_setIdAddr {other : Key} (hother : other ≠ .idAddr) (length : Nat)
    (data : List UInt8) (nvram : Nvram) :
    storageRead other length (nvramConfigSet "BT_ADDR" data nvram) =
      storageRead other length nvram := by
  cases other with
  | idAddr => exact absurd rfl hother
  | localIrk => exact nvramConfigGet_set_of_ne (by decide) length data nvram
  | btKeys => exact nvramConfigGet_set_of_ne (by decide) length data nvram
  | _ => rfl

theorem storageRead_setBtKeys {other : Key} (hother : other ≠ .btKeys) (length : Nat)
    (data : List UInt8) (nvram : Nvram) :
    storageRead other length (nvramConfigSet "BT_KEYS" data nvram) =
      storageRead other length nvram := by
  cases other with
  | idAddr => exact nvramConfigGet_set_of_ne (by decide) length data nvram
  | localIrk => exact nvramConfigGet_set_of_ne (by decide) length data nvram
  | btKeys => exact absurd rfl hother
  | _ => rfl

theorem storageRead_writeBtKeys {other : Key} (hother : other ≠ .btKeys) (length : Nat)
    (data : List UInt8) (stack beyond : Nat → UInt8) (nvram : Nvram) :
    storageRead other length (writeBtKeys sizeofBtKeys data stack beyond nvram) =
      storageRead other length nvram := by
  rcases writeBtKeys_cases data stack beyond nvram with hsame | hchanged
  · rw [hsame]
  · rw [hchanged, storageRead_setBtKeys hother]

/-- A write that is not for the identity resolving key leaves the other keys alone. -/
theorem storageRead_storageWrite_of_ne {key other : Key} (hother : other ≠ key)
    (hirk : key ≠ .localIrk) (length : Nat) (data : List UInt8) (stack beyond : Nat → UInt8)
    (nvram : Nvram) :
    storageRead other length (storageWrite sizeofBtKeys key data stack beyond nvram) =
      storageRead other length nvram := by
  cases key with
  | idAddr => exact storageRead_setIdAddr hother length data nvram
  | localIrk => exact absurd rfl hirk
  | btKeys => exact storageRead_writeBtKeys hother length data stack beyond nvram
  | _ => rfl

/-- Values of the full size that compare equal are equal. -/
theorem eq_of_sameBytes {value data : List UInt8} {stack beyond : Nat → UInt8}
    (hvalue : value.length = sizeofBtKeys) (hdata : data.length = sizeofBtKeys)
    (hsame : sameBytes sizeofBtKeys value data stack beyond = true) : value = data := by
  apply List.ext_getElem (hvalue.trans hdata.symm)
  intro i hi hi'
  have hbyte := List.all_eq_true.mp hsame i (List.mem_range.mpr (hvalue ▸ hi))
  rw [beq_iff_eq, List.getD_eq_getElem?_getD, List.getD_eq_getElem?_getD,
    List.getElem?_eq_getElem hi, List.getElem?_eq_getElem hi'] at hbyte
  exact hbyte

theorem nvramConfigGet_set {name : String} {data : List UInt8} {length : Nat}
    (hdata : data.length = length) (nvram : Nvram) :
    nvramConfigGet name length (nvramConfigSet name data nvram) = some data := by
  rw [nvramConfigGet_nvramConfigSet, List.take_of_length_le (Nat.le_of_eq hdata)]

/-- The comparison before the write saves a write of the value that is there. -/
theorem nvramConfigGet_writeBtKeys {nvram : Nvram}
    (hbond : ∀ bond, nvram "BT_KEYS" = some bond → sizeofBtKeys ≤ bond.length)
    {data : List UInt8} (hdata : data.length = sizeofBtKeys) (stack beyond : Nat → UInt8) :
    nvramConfigGet "BT_KEYS" sizeofBtKeys
      (writeBtKeys sizeofBtKeys data stack beyond nvram) = some data := by
  unfold writeBtKeys
  split
  next value hvalue =>
    split
    next hsame =>
      obtain ⟨bond, hstored, rfl⟩ := Option.map_eq_some_iff.mp hvalue
      have hlength : (bond.take sizeofBtKeys).length = sizeofBtKeys :=
        List.length_take_of_le (hbond bond hstored)
      rw [hvalue, eq_of_sameBytes hlength hdata hsame]
    next => exact nvramConfigGet_set hdata nvram
  next => exact nvramConfigGet_set hdata nvram

/-- The values are read back, and the bond is stored as a whole. -/
structure Holds (sizeofBtKeys : Nat) (nvram : Nvram) (values : Values) : Prop where
  read : ∀ key length data, hostLength sizeofBtKeys key = some length →
    values key = some data → storageRead key length nvram = some data
  bond : ∀ bond, nvram "BT_KEYS" = some bond → sizeofBtKeys ≤ bond.length

/-- One key is written, and the others are left alone. -/
theorem Holds.update {nvram next : Nvram} {values : Values}
    (hholds : Holds sizeofBtKeys nvram values) {key : Key} {data : List UInt8}
    (hself : storageRead key data.length next = some data)
    (hlength : hostLength sizeofBtKeys key = some data.length)
    (hother : ∀ other length, other ≠ key →
      storageRead other length next = storageRead other length nvram)
    (hbond : ∀ bond, next "BT_KEYS" = some bond → sizeofBtKeys ≤ bond.length) :
    Holds sizeofBtKeys next (Function.update values key (some data)) where
  read other length value hhost hvalue := by
    by_cases heq : other = key
    · subst heq
      obtain rfl : data = value := by
        rw [Function.update_self] at hvalue
        exact Option.some.inj hvalue
      obtain rfl : data.length = length := Option.some.inj (hlength.symm.trans hhost)
      exact hself
    · rw [Function.update_of_ne heq] at hvalue
      rw [hother other length heq]
      exact hholds.read other length value hhost hvalue
  bond := hbond

theorem bond_set {data : List UInt8} (hdata : data.length = sizeofBtKeys) (nvram : Nvram) :
    ∀ bond, nvramConfigSet "BT_KEYS" data nvram "BT_KEYS" = some bond →
      sizeofBtKeys ≤ bond.length := by
  intro bond hbond
  rw [nvramConfigSet_self] at hbond
  obtain rfl := Option.some.inj hbond
  exact Nat.le_of_eq hdata.symm

theorem step_holds {nvram : Nvram} {values : Values} (hholds : Holds sizeofBtKeys nvram values)
    {call : Call} (hcall : HostCall sizeofBtKeys call) (hirk : ¬ WritesIrk call) :
    Holds sizeofBtKeys (step sizeofBtKeys nvram call) (valuesStep sizeofBtKeys values call) := by
  cases call with
  | clear =>
      have hlength : (List.replicate sizeofBtKeys (0 : UInt8)).length = sizeofBtKeys :=
        List.length_replicate
      apply hholds.update
      · rw [hlength, step, storageClear, storageRead]
        exact nvramConfigGet_set hlength nvram
      · rw [hlength]
        rfl
      · exact fun other length hother => storageRead_setBtKeys hother length _ nvram
      · exact bond_set hlength nvram
  | write key data stack beyond =>
      rw [step, valuesStep]
      have hother : ∀ other length, other ≠ key →
          storageRead other length (storageWrite sizeofBtKeys key data stack beyond nvram) =
            storageRead other length nvram :=
        fun other length hother =>
          storageRead_storageWrite_of_ne hother hirk length data stack beyond nvram
      cases key with
      | idAddr =>
          refine hholds.update ?_ hcall hother ?_
          · rw [storageRead, storageWrite]
            exact nvramConfigGet_set rfl nvram
          · rw [storageWrite, nvramConfigSet_of_ne (by decide)]
            exact hholds.bond
      | localIrk => exact absurd rfl hirk
      | btKeys =>
          have hdata : data.length = sizeofBtKeys := (Option.some.inj hcall).symm
          refine hholds.update ?_ hcall hother ?_
          · rw [hdata, storageRead, storageWrite]
            exact nvramConfigGet_writeBtKeys hholds.bond hdata stack beyond
          · rw [storageWrite]
            rcases writeBtKeys_cases data stack beyond nvram with hsame | hchanged
            · rw [hsame]
              exact hholds.bond
            · rw [hchanged]
              exact bond_set hdata nvram
      | _ => cases hcall

theorem holds_nothing {nvram : Nvram} (hearlier : Earlier sizeofBtKeys nvram) :
    Holds sizeofBtKeys nvram fun _ => none where
  read := nofun
  bond := hearlier.btKeys

theorem run_holds {nvram : Nvram} {values : Values} (hholds : Holds sizeofBtKeys nvram values)
    {calls : List Call} (hcalls : ∀ call ∈ calls, HostCall sizeofBtKeys call)
    (hirk : ∀ call ∈ calls, ¬ WritesIrk call) :
    Holds sizeofBtKeys (run (step sizeofBtKeys) nvram calls)
      (run (valuesStep sizeofBtKeys) values calls) := by
  induction calls generalizing nvram values with
  | nil => exact hholds
  | cons call rest ih =>
      obtain ⟨hcall, hrest⟩ := List.forall_mem_cons.mp hcalls
      obtain ⟨hnot, hnone⟩ := List.forall_mem_cons.mp hirk
      exact ih (step_holds hholds hcall hnot) hrest hnone

/-! ## With the identity resolving key -/

/-- No call stores anything under the name that the identity resolving key is read from. -/
theorem step_localIrk (nvram : Nvram) (call : Call) :
    step sizeofBtKeys nvram call "LOCAL_IRK" = nvram "LOCAL_IRK" := by
  have hset : ∀ data, nvramConfigSet "BT_KEYS" data nvram "LOCAL_IRK" = nvram "LOCAL_IRK" :=
    fun data => nvramConfigSet_of_ne (by decide) data nvram
  have hwrite : ∀ data stack beyond,
      writeBtKeys sizeofBtKeys data stack beyond nvram "LOCAL_IRK" = nvram "LOCAL_IRK" := by
    intro data stack beyond
    rcases writeBtKeys_cases data stack beyond nvram with hsame | hchanged
    · rw [hsame]
    · rw [hchanged, hset]
  cases call with
  | clear => exact hset (List.replicate sizeofBtKeys 0)
  | write key data stack beyond =>
      cases key with
      | idAddr =>
          rw [step, storageWrite, nvramConfigSet_of_ne (by decide)]
      | localIrk => exact hwrite data stack beyond
      | btKeys => exact hwrite data stack beyond
      | addresses => rfl
      | slaveLtk => rfl
      | ltk => rfl
      | irk => rfl
      | localCsrk => rfl
      | remoteCsrk => rfl
      | ltkP256 => rfl

theorem run_localIrk (nvram : Nvram) (calls : List Call) :
    run (step sizeofBtKeys) nvram calls "LOCAL_IRK" = nvram "LOCAL_IRK" := by
  induction calls generalizing nvram with
  | nil => rfl
  | cons call rest ih => rw [run_cons, ih, step_localIrk]

/-- A key that was written once always has a value. -/
theorem written_ne_none {values : Values} {key : Key} (hvalue : values key ≠ none)
    (calls : List Call) : run (valuesStep sizeofBtKeys) values calls key ≠ none := by
  induction calls generalizing values with
  | nil => exact hvalue
  | cons call rest ih =>
      apply ih
      have hupdate : ∀ other data, Function.update values other (some data) key ≠ none := by
        intro other data
        by_cases heq : key = other
        · subst heq
          rw [Function.update_self]
          nofun
        · rwa [Function.update_of_ne heq]
      cases call with
      | clear => exact hupdate _ _
      | write other data stack beyond => exact hupdate other data

/-- The storage is faithful exactly to the runs that do not write the local identity
resolving key. -/
theorem storage_faithful_iff (nvram : Nvram) (hearlier : Earlier sizeofBtKeys nvram)
    (calls : List Call) (hcalls : ∀ call ∈ calls, HostCall sizeofBtKeys call) :
    Faithful sizeofBtKeys nvram calls ↔ ∀ call ∈ calls, ¬ WritesIrk call := by
  constructor
  · intro hfaithful call hcall hirk
    obtain ⟨before, after, rfl⟩ := List.append_of_mem hcall
    cases call with
    | clear => exact hirk
    | write key data stack beyond =>
        obtain rfl : key = .localIrk := hirk
        -- a value was written, but nothing is read
        have hwritten : written sizeofBtKeys
            (before ++ .write .localIrk data stack beyond :: after) .localIrk ≠ none := by
          rw [written, run_append, run_cons]
          apply written_ne_none
          rw [valuesStep, Function.update_self]
          exact Option.some_ne_none data
        obtain ⟨value, hvalue⟩ := Option.ne_none_iff_exists'.mp hwritten
        have hread :=
          hfaithful.lastWrite _ [] (List.append_nil _).symm .localIrk 16 value rfl hvalue
        rw [storageRead, nvramConfigGet, stored, run_localIrk, hearlier.localIrk] at hread
        cases hread
  · intro hirk
    constructor
    · rintro earlier later rfl key length data hlength hwritten
      refine (run_holds (holds_nothing hearlier) ?_ ?_).read key length data hlength hwritten
      · exact fun call hcall => hcalls call (List.mem_append_left _ hcall)
      · exact fun call hcall => hirk call (List.mem_append_left _ hcall)
    · rintro earlier key data stack beyond later rfl other length hother -
      apply storageRead_storageWrite_of_ne hother
      exact hirk _ (List.mem_append_right _ List.mem_cons_self)

/-- An address and no bond are stored before. -/
def sampleNvram : Nvram := nvramConfigSet "BT_ADDR" [6, 5, 4, 3, 2, 1, 0] .empty

theorem bondAndAddr_faithful :
    Faithful 144 sampleNvram
      [.write .idAddr [1, 2, 3, 4, 5, 6, 0] (fun _ => 0) (fun _ => 0),
        .write .btKeys (List.replicate 144 7) (fun _ => 0) (fun _ => 0), .clear] := by
  apply (storage_faithful_iff sampleNvram ⟨rfl, nofun⟩ _ ?_).mpr
  · simp [WritesIrk]
  · simp [HostCall, hostLength]

/-- The identity resolving key replaces the bond and cannot be read back. -/
theorem localIrk_unfaithful :
    ¬ Faithful 144 .empty
      [.write .localIrk (List.replicate 16 1) (fun _ => 0) (fun _ => 0)] := by
  intro hfaithful
  have hread := hfaithful.lastWrite _ [] (List.append_nil _).symm .localIrk 16 _ rfl rfl
  cases hread

end CubieBle.Storage
