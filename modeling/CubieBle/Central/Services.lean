import Mathlib.Data.UInt
import CubieBle.Machine.Slots

/-! # The services that the central has found

The table has room for eight services and for twelve characteristics of each. A characteristic
belongs to the first service whose handles contain its handle.
-/

namespace CubieBle.Central

open Machine

def svcMaxCnt : Nat := 8
def chrcMaxCnt : Nat := 12

/-! ## The table -/

inductive Uuid where
  | uuid16 (val : UInt16)
  | uuid32 (val : UInt32)
  | uuid128 (val : Vector UInt8 16)
deriving DecidableEq

/-- The types of `bt_gatt_discover` that are used. -/
inductive DiscoverType where
  | primary
  | secondary
  | characteristic
deriving DecidableEq

/-- `struct ble_chrc` without the parameters of its subscription. -/
structure BleChrc where
  uuid : Uuid
  handle : UInt16
  properties : UInt8
deriving DecidableEq

structure BleService where
  type : DiscoverType
  uuid : Uuid
  startHandle : UInt16
  endHandle : UInt16
  chrcCnt : Nat
  chrc : Vector BleChrc chrcMaxCnt
  chrcCnt_le : chrcCnt ≤ chrcMaxCnt

/-- `ble_services` and `svc_cnt`. -/
structure ServiceTable where
  svcCnt : Nat
  bleServices : Vector BleService svcMaxCnt
  svcCnt_le : svcCnt ≤ svcMaxCnt

def BleService.contains (service : BleService) (handle : UInt16) : Bool :=
  service.startHandle ≤ handle ∧ handle ≤ service.endHandle

def serviceInit (table : ServiceTable) : ServiceTable where
  svcCnt := 0
  bleServices := table.bleServices.map fun service =>
    { service with chrcCnt := 0, chrcCnt_le := Nat.zero_le _ }
  svcCnt_le := Nat.zero_le _

/-- The entry keeps the number of its characteristics. -/
def parseService (table : ServiceTable) (uuid : Uuid) (handle endHandle : UInt16)
    (type : DiscoverType) : ServiceTable :=
  if hroom : table.svcCnt < svcMaxCnt then
    { svcCnt := table.svcCnt + 1
      bleServices := table.bleServices.set table.svcCnt
        { table.bleServices[table.svcCnt] with type, uuid, startHandle := handle, endHandle }
      svcCnt_le := hroom }
  else table

/-- The loop of `parse_charicteristic`. -/
def findService (table : ServiceTable) (handle : UInt16) : Option Nat :=
  (inUse table.bleServices table.svcCnt).findIdx? fun service => service.contains handle

def BleService.withChrc (service : BleService) (chrc : BleChrc) : BleService :=
  if hroom : service.chrcCnt < chrcMaxCnt then
    { service with
      chrcCnt := service.chrcCnt + 1
      chrc := service.chrc.set service.chrcCnt chrc
      chrcCnt_le := hroom }
  else service

def parseCharicteristic (table : ServiceTable) (chrc : BleChrc) : ServiceTable :=
  match findService table chrc.handle with
  | none => table
  | some i =>
      if hi : i < svcMaxCnt then
        { table with bleServices := table.bleServices.set i (table.bleServices[i].withChrc chrc) }
      else table

/-! ## The list -/

/-- A service with its characteristics. -/
structure Listed where
  type : DiscoverType
  uuid : Uuid
  startHandle : UInt16
  endHandle : UInt16
  chrcs : List BleChrc
deriving DecidableEq

def Listed.contains (service : Listed) (handle : UInt16) : Bool :=
  service.startHandle ≤ handle ∧ handle ≤ service.endHandle

def BleService.listed (service : BleService) : Listed where
  type := service.type
  uuid := service.uuid
  startHandle := service.startHandle
  endHandle := service.endHandle
  chrcs := inUse service.chrc service.chrcCnt

def ServiceTable.listed (table : ServiceTable) : List Listed :=
  (inUse table.bleServices table.svcCnt).map BleService.listed

/-- No characteristics are kept for services to come. -/
def ServiceTable.Fresh (table : ServiceTable) : Prop :=
  ∀ i (hi : i < svcMaxCnt), table.svcCnt ≤ i → table.bleServices[i].chrcCnt = 0

def addService (services : List Listed) (service : Listed) : List Listed :=
  if services.length < svcMaxCnt then services ++ [service] else services

def Listed.withChrc (service : Listed) (chrc : BleChrc) : Listed :=
  if service.chrcs.length < chrcMaxCnt then { service with chrcs := service.chrcs ++ [chrc] }
  else service

def addChrc : List Listed → BleChrc → List Listed
  | [], _ => []
  | service :: rest, chrc =>
      if service.contains chrc.handle then service.withChrc chrc :: rest
      else service :: addChrc rest chrc

/-! ## The table stands for the list -/

theorem length_listed (table : ServiceTable) : table.listed.length = table.svcCnt := by
  rw [ServiceTable.listed, List.length_map, length_inUse table.svcCnt_le]

theorem listed_getElem? (table : ServiceTable) {i : Nat} (hi : i < table.svcCnt) :
    table.listed[i]? =
      some (table.bleServices.get ⟨i, hi.trans_le table.svcCnt_le⟩).listed := by
  rw [ServiceTable.listed, List.getElem?_map, inUse_getElem? hi table.svcCnt_le, Option.map_some]

theorem listed_serviceInit (table : ServiceTable) : (serviceInit table).listed = [] := rfl

theorem fresh_serviceInit (table : ServiceTable) : (serviceInit table).Fresh := by
  intro i hi _
  simp [serviceInit]

theorem listed_parseService {table : ServiceTable} (hfresh : table.Fresh) (uuid : Uuid)
    (handle endHandle : UInt16) (type : DiscoverType) :
    (parseService table uuid handle endHandle type).listed =
        addService table.listed ⟨type, uuid, handle, endHandle, []⟩ ∧
      (parseService table uuid handle endHandle type).Fresh := by
  rw [parseService, addService, length_listed]
  by_cases hroom : table.svcCnt < svcMaxCnt
  · rw [dif_pos hroom, if_pos hroom]
    constructor
    · rw [ServiceTable.listed, inUse_set_next hroom, List.map_append, List.map_singleton]
      have hempty : table.bleServices[table.svcCnt].chrcCnt = 0 :=
        hfresh table.svcCnt hroom (Nat.le_refl _)
      simp only [BleService.listed, hempty, inUse_zero]
      rfl
    · intro i hi hle
      have hother : table.svcCnt ≠ i := Nat.ne_of_lt hle
      simp only [Vector.getElem_set_ne _ _ hother]
      exact hfresh i hi (Nat.le_of_succ_le hle)
  · rw [dif_neg hroom, if_neg hroom]
    exact ⟨rfl, hfresh⟩

theorem BleService.listed_withChrc (service : BleService) (chrc : BleChrc) :
    (service.withChrc chrc).listed = service.listed.withChrc chrc := by
  have hlength : service.listed.chrcs.length = service.chrcCnt := length_inUse service.chrcCnt_le
  rw [BleService.withChrc, Listed.withChrc, hlength]
  by_cases hroom : service.chrcCnt < chrcMaxCnt
  · rw [dif_pos hroom, if_pos hroom]
    simp only [BleService.listed, inUse_set_next hroom]
  · rw [dif_neg hroom, if_neg hroom]

/-- The first service that contains the handle is the one that is found. -/
theorem addChrc_eq (services : List Listed) (chrc : BleChrc) :
    addChrc services chrc =
      match services.findIdx? fun service => service.contains chrc.handle with
      | none => services
      | some i => services.modify i fun service => service.withChrc chrc := by
  induction services with
  | nil => rfl
  | cons service rest ih =>
      rw [addChrc, List.findIdx?_cons]
      by_cases hcontains : service.contains chrc.handle = true
      · rw [if_pos hcontains, if_pos hcontains]
        rfl
      · rw [if_neg hcontains, if_neg hcontains, ih]
        cases rest.findIdx? fun service => service.contains chrc.handle with
        | none => rfl
        | some i => rfl

theorem findService_listed (table : ServiceTable) (handle : UInt16) :
    findService table handle =
      table.listed.findIdx? fun service => service.contains handle := by
  rw [ServiceTable.listed, List.findIdx?_map]
  rfl

theorem listed_parseCharicteristic {table : ServiceTable} (hfresh : table.Fresh)
    (chrc : BleChrc) :
    (parseCharicteristic table chrc).listed = addChrc table.listed chrc ∧
      (parseCharicteristic table chrc).Fresh := by
  rw [parseCharicteristic, addChrc_eq, ← findService_listed]
  cases hfind : findService table chrc.handle with
  | none => exact ⟨rfl, hfresh⟩
  | some i =>
      have hin : i < table.svcCnt := by
        rw [findService, List.findIdx?_eq_some_iff_findIdx_eq,
          length_inUse table.svcCnt_le] at hfind
        exact hfind.1
      have hi : i < svcMaxCnt := hin.trans_le table.svcCnt_le
      dsimp only
      rw [dif_pos hi]
      constructor
      · rw [List.modify_eq_set_getElem?, listed_getElem? table hin, ServiceTable.listed,
          inUse_set hi, List.map_set, BleService.listed_withChrc]
        rfl
      · intro j hj hle
        have hother : i ≠ j := Nat.ne_of_lt (hin.trans_le hle)
        simp only [Vector.getElem_set_ne _ _ hother]
        exact hfresh j hj hle

/-! ## Many reports -/

/-- Each service takes the characteristics among its handles that no service before it has
taken, as many as it has room for. -/
def assign : List Listed → List BleChrc → List Listed
  | [], _ => []
  | service :: rest, chrcs =>
      { service with
        chrcs := (service.chrcs ++ chrcs.filter fun chrc =>
          service.contains chrc.handle).take chrcMaxCnt } ::
        assign rest (chrcs.filter fun chrc => !service.contains chrc.handle)

theorem foldl_addService (old found : List Listed) (hold : old.length ≤ svcMaxCnt) :
    found.foldl addService old = (old ++ found).take svcMaxCnt := by
  induction found generalizing old with
  | nil => rw [List.append_nil, List.foldl_nil, List.take_of_length_le hold]
  | cons service rest ih =>
      rw [List.foldl_cons, addService]
      by_cases hroom : old.length < svcMaxCnt
      · rw [if_pos hroom, ih _ (by rw [List.length_append, List.length_singleton]; omega),
          List.append_assoc, List.singleton_append]
      · have hfull : svcMaxCnt = old.length := by omega
        rw [if_neg hroom, ih old hold, hfull, List.take_left, List.take_left]

/-- The room that is left goes to the characteristics that come first. -/
theorem withChrc_take (service : Listed) (before : List BleChrc) (chrc : BleChrc) :
    Listed.withChrc { service with chrcs := before.take chrcMaxCnt } chrc =
      { service with chrcs := (before ++ [chrc]).take chrcMaxCnt } := by
  rw [Listed.withChrc, List.length_take]
  by_cases hroom : before.length < chrcMaxCnt
  · rw [if_pos (by omega), List.take_of_length_le hroom.le,
      List.take_of_length_le (by rw [List.length_append, List.length_singleton]; omega)]
  · rw [if_neg (by omega), List.take_append_of_le_length (Nat.le_of_not_lt hroom)]

theorem assign_nil (services : List Listed)
    (hroom : ∀ service ∈ services, service.chrcs.length ≤ chrcMaxCnt) :
    assign services [] = services := by
  induction services with
  | nil => rfl
  | cons service rest ih =>
      rw [assign, List.filter_nil, List.filter_nil, List.append_nil,
        List.take_of_length_le (hroom service (List.mem_cons_self ..)),
        ih fun other hother => hroom other (List.mem_cons_of_mem _ hother)]

theorem assign_append (services : List Listed) (chrcs : List BleChrc) (chrc : BleChrc) :
    assign services (chrcs ++ [chrc]) = addChrc (assign services chrcs) chrc := by
  induction services generalizing chrcs with
  | nil => rfl
  | cons service rest ih =>
      have hcontains : Listed.contains { service with
          chrcs := (service.chrcs ++ chrcs.filter fun chrc =>
            service.contains chrc.handle).take chrcMaxCnt } chrc.handle =
          service.contains chrc.handle := rfl
      rw [assign, assign, addChrc, hcontains, List.filter_append, List.filter_append]
      by_cases htaken : service.contains chrc.handle = true
      · rw [if_pos htaken, withChrc_take, List.filter_singleton, List.filter_singleton]
        simp [htaken]
      · rw [if_neg htaken, ← ih, List.filter_singleton, List.filter_singleton]
        simp [htaken]

/-- The table after all characteristics have been reported. -/
theorem foldl_addChrc (services : List Listed) (chrcs : List BleChrc)
    (hroom : ∀ service ∈ services, service.chrcs.length ≤ chrcMaxCnt) :
    chrcs.foldl addChrc services = assign services chrcs := by
  induction chrcs using List.reverseRecOn with
  | nil => exact (assign_nil services hroom).symm
  | append_singleton before chrc ih => rw [List.foldl_append, ih, assign_append]; rfl

end CubieBle.Central
