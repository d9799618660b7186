import CubieBle.Machine.Bytes
import CubieBle.Machine.Run
import Mathlib.Data.Fin.Tuple.Basic

/-! # The glucose record databases

`gls_db.c` and `cgms_db.c` are one program over two record types: an array of slots,
each with a flag, and a count. A deleted record frees its slot in place, while a
record is read and deleted by its position below the count, so the database is the
list of its live records only while these fill the lowest slots.
-/

namespace CubieBle.Gatt

open Machine

def einval : Int := 22
def enomem : Int := 12

structure DateTime where
  year : UInt16
  month : UInt8
  day : UInt8
  hours : UInt8
  minutes : UInt8
  seconds : UInt8
deriving DecidableEq

structure IeeeSfloat where
  exponent : Int8
  mantissa : Int16
deriving DecidableEq

structure GlsGlucoseMeas where
  flags : UInt8
  sequenceNumber : UInt16
  baseTime : DateTime
  timeOffset : Int16
  glucoseConcentration : IeeeSfloat
  type : UInt8
  sampleLocation : UInt8
  sensorStatusAnnunciation : UInt16
deriving DecidableEq

structure GlsMeasContext where
  flags : UInt8
  sequenceNumber : UInt16
  extendedFlags : UInt8
  carbohydrateId : UInt8
  carbohydrate : IeeeSfloat
  meal : UInt8
  testerAndHealth : UInt8
  exerciseDuration : UInt16
  exerciseIntensity : UInt8
  medicationId : UInt8
  medication : IeeeSfloat
  hba1c : IeeeSfloat
deriving DecidableEq

structure GlsRecord where
  meas : GlsGlucoseMeas
  context : GlsMeasContext
deriving DecidableEq

structure CgmsCgmMeasurement where
  size : UInt8
  flag : UInt8
  cgmGlucoseConcentration : IeeeSfloat
  timeOffset : UInt16
  sensorStatusAnnunciation : UInt32
  cgmTrendInformation : IeeeSfloat
  cgmQuality : IeeeSfloat
  e2eCrc : UInt16
deriving DecidableEq

structure CgmsRecord where
  meas : CgmsCgmMeasurement
deriving DecidableEq

variable {max : Nat} {Record : Type}

structure DatabaseEntry (Record : Type) where
  isInUse : Bool
  record : Record
deriving DecidableEq

structure Database (max : Nat) (Record : Type) where
  entries : Vector (DatabaseEntry Record) max
  recordsNum : UInt16
deriving DecidableEq

namespace Database

def init (db : Database max Record) : Database max Record where
  entries := db.entries.map fun entry => { entry with isInUse := false }
  recordsNum := 0

def numRecordsGet (db : Database max Record) : UInt16 :=
  db.recordsNum

/-- The outcome `none` is an access outside the array. -/
def recordGet (db : Database max Record) (recIdx : UInt8) : Option (Except Int Record) :=
  if db.recordsNum ≤ recIdx.toUInt16 then some (.error (-einval))
  else if h : recIdx.toNat < max then some (.ok (db.entries[recIdx.toNat]).record)
  else none

def setInUse (db : Database max Record) (slot : Fin max) (isInUse : Bool) :
    Vector (DatabaseEntry Record) max :=
  db.entries.set slot { db.entries[slot] with isInUse }

def recordAdd (db : Database max Record) (record : Record) : Int × Database max Record :=
  if db.recordsNum.toNat = max then (-enomem, db)
  else
    match Fin.find? fun slot : Fin max => !(db.entries[slot]).isInUse with
    | some slot =>
        -- the lowest free slot, which need not be behind the other records
        (0, { entries := db.entries.set slot { isInUse := true, record }
              recordsNum := db.recordsNum + 1 })
    | none => (-enomem, db)

/-- The outcome `none` is an access outside the array. -/
def recordDelete (db : Database max Record) (recIdx : UInt8) :
    Option (Int × Database max Record) :=
  if db.recordsNum ≤ recIdx.toUInt16 then some (-einval, db)
  else if h : recIdx.toNat < max then
    some (0, { entries := db.setInUse ⟨recIdx.toNat, h⟩ false
               recordsNum := db.recordsNum - 1 })
  else none

def recordDeleteFirst (db : Database max Record) : Int × Database max Record :=
  match Fin.find? fun slot : Fin max => (db.entries[slot]).isInUse with
  | some slot =>
      (0, { entries := db.setInUse slot false, recordsNum := db.recordsNum - 1 })
  | none => (-1, db)

/-- The loop counts upwards from the last slot: if that one is free, the next
access is outside the array, which is the outcome `none`. -/
def recordDeleteLast (db : Database max Record) : Option (Int × Database max Record) :=
  if h : 0 < max then
    if (db.entries[max - 1]).isInUse then
      some (0, { entries := db.setInUse ⟨max - 1, by omega⟩ false
                 recordsNum := db.recordsNum - 1 })
    else none
  else none

def recordDeleteAll (db : Database max Record) : Database max Record where
  entries := db.entries.map fun entry => { entry with isInUse := false }
  recordsNum := 0

/-! ## The count

The calls that the services make keep the count at the number of slots in use, so
a position below the count is inside the array.
-/

def Consistent (db : Database max Record) : Prop :=
  db.recordsNum.toNat = db.entries.toList.countP DatabaseEntry.isInUse

variable {db : Database max Record}

theorem Consistent.recordsNum_le (hdb : db.Consistent) : db.recordsNum.toNat ≤ max := by
  rw [hdb]
  exact List.countP_le_length.trans_eq (by simp)

theorem consistent_init (db : Database max Record) : db.init.Consistent := by
  unfold Consistent init
  rw [Vector.toList_map, List.countP_map, eq_comm]
  exact List.countP_eq_zero.mpr (by simp)

theorem consistent_deleteAll (db : Database max Record) : db.recordDeleteAll.Consistent :=
  consistent_init db

theorem countP_set_slot (db : Database max Record) (slot : Fin max)
    (entry : DatabaseEntry Record) :
    (db.entries.set slot entry).toList.countP DatabaseEntry.isInUse =
      db.entries.toList.countP DatabaseEntry.isInUse -
        (if (db.entries[slot]).isInUse then 1 else 0) + (if entry.isInUse then 1 else 0) := by
  rw [Vector.toList_set, List.countP_set (by simp)]
  simp

/-- A slot in use is counted. -/
theorem Consistent.recordsNum_pos (hdb : db.Consistent) {slot : Fin max}
    (hslot : (db.entries[slot]).isInUse = true) : 0 < db.recordsNum.toNat := by
  rw [hdb, List.countP_pos_iff]
  exact ⟨db.entries[slot], by simp, hslot⟩

theorem Consistent.free (hdb : db.Consistent) {slot : Fin max}
    (hslot : (db.entries[slot]).isInUse = true) :
    Consistent { entries := db.setInUse slot false, recordsNum := db.recordsNum - 1 } := by
  unfold Consistent setInUse
  rw [uint16_toNat_pred (hdb.recordsNum_pos hslot), hdb, countP_set_slot, hslot]
  simp

theorem Consistent.add (hmax : max < 2 ^ 16) (hdb : db.Consistent) (record : Record) :
    (db.recordAdd record).2.Consistent := by
  have hle := hdb.recordsNum_le
  unfold recordAdd
  split
  next => exact hdb
  next hroom =>
    split
    next slot hfind =>
      have hfree : (db.entries[slot]).isInUse = false := by
        simpa using Fin.eq_true_of_find?_eq_some hfind
      unfold Consistent
      rw [countP_set_slot, hfree, uint16_toNat_succ (by omega), hdb]
      simp
    next => exact hdb

theorem recordsNum_add (hmax : max < 2 ^ 16) (hdb : db.Consistent) (record : Record) :
    db.recordsNum.toNat ≤ (db.recordAdd record).2.recordsNum.toNat := by
  have hle := hdb.recordsNum_le
  unfold recordAdd
  split
  next => exact Nat.le_refl _
  next hroom =>
    split
    next =>
      rw [uint16_toNat_succ (by omega)]
      exact Nat.le_succ _
    next => exact Nat.le_refl _

theorem Consistent.deleteFirst (hdb : db.Consistent) : db.recordDeleteFirst.2.Consistent := by
  unfold recordDeleteFirst
  split
  next slot hfind => exact hdb.free (Fin.eq_true_of_find?_eq_some hfind)
  next => exact hdb

theorem Consistent.deleteLast (hdb : db.Consistent) {err : Int} {next : Database max Record}
    (hdelete : db.recordDeleteLast = some (err, next)) : next.Consistent := by
  unfold recordDeleteLast at hdelete
  split at hdelete
  next hmax =>
    split at hdelete
    next hslot =>
      cases hdelete
      exact hdb.free hslot
    next => cases hdelete
  next => cases hdelete

/-- Reading below the count succeeds. -/
theorem Consistent.recordGet (hdb : db.Consistent) {recIdx : UInt8}
    (hidx : recIdx.toNat < db.recordsNum.toNat) :
    ∃ record, db.recordGet recIdx = some (.ok record) := by
  have hslot : recIdx.toNat < max := hidx.trans_le hdb.recordsNum_le
  refine ⟨(db.entries[recIdx.toNat]).record, ?_⟩
  unfold Database.recordGet
  rw [if_neg (by rw [UInt16.le_iff_toNat_le, UInt8.toNat_toUInt16]; omega), dif_pos hslot]

end Database

def glsDbMaxRecords : Nat := 20

abbrev GlsDatabase := Database glsDbMaxRecords GlsRecord

def glsDbInit (db : GlsDatabase) : GlsDatabase := db.init
def glsDbNumRecordsGet (db : GlsDatabase) : UInt16 := db.numRecordsGet
def glsDbRecordGet (db : GlsDatabase) (recIdx : UInt8) : Option (Except Int GlsRecord) :=
  db.recordGet recIdx
def glsDbRecordAdd (db : GlsDatabase) (record : GlsRecord) : Int × GlsDatabase :=
  db.recordAdd record
def glsDbRecordDelete (db : GlsDatabase) (recIdx : UInt8) : Option (Int × GlsDatabase) :=
  db.recordDelete recIdx
def glsDbRecordDeleteFirst (db : GlsDatabase) : Int × GlsDatabase := db.recordDeleteFirst
def glsDbRecordDeleteLast (db : GlsDatabase) : Option (Int × GlsDatabase) :=
  db.recordDeleteLast
def glsDbRecordDeleteAll (db : GlsDatabase) : GlsDatabase := db.recordDeleteAll

/-- A measurement with context, told from others by its number. -/
def sampleGlsRecord (sequenceNumber : UInt16) : GlsRecord where
  meas :=
    { flags := 0x1f, sequenceNumber, baseTime := ⟨2018, 5, 1, 8, 0, 0⟩, timeOffset := 0
      glucoseConcentration := ⟨-3, 82⟩, type := 1, sampleLocation := 1
      sensorStatusAnnunciation := 0 }
  context :=
    { flags := 0, sequenceNumber, extendedFlags := 0, carbohydrateId := 0
      carbohydrate := ⟨0, 0⟩, meal := 0, testerAndHealth := 0, exerciseDuration := 0
      exerciseIntensity := 0, medicationId := 0, medication := ⟨0, 0⟩, hba1c := ⟨0, 0⟩ }

def sampleGlsDatabase : GlsDatabase where
  entries := Vector.replicate glsDbMaxRecords ⟨false, sampleGlsRecord 0⟩
  recordsNum := 0

def cgmsDbMaxRecords : Nat := 20

abbrev CgmsDatabase := Database cgmsDbMaxRecords CgmsRecord

def cgmsDbInit (db : CgmsDatabase) : CgmsDatabase := db.init
def cgmsDbNumRecordsGet (db : CgmsDatabase) : UInt16 := db.numRecordsGet
def cgmsDbRecordGet (db : CgmsDatabase) (recIdx : UInt8) : Option (Except Int CgmsRecord) :=
  db.recordGet recIdx
def cgmsDbRecordAdd (db : CgmsDatabase) (record : CgmsRecord) : Int × CgmsDatabase :=
  db.recordAdd record
def cgmsDbRecordDelete (db : CgmsDatabase) (recIdx : UInt8) : Option (Int × CgmsDatabase) :=
  db.recordDelete recIdx
def cgmsDbRecordDeleteFirst (db : CgmsDatabase) : Int × CgmsDatabase := db.recordDeleteFirst
def cgmsDbRecordDeleteLast (db : CgmsDatabase) : Option (Int × CgmsDatabase) :=
  db.recordDeleteLast
def cgmsDbRecordDeleteAll (db : CgmsDatabase) : CgmsDatabase := db.recordDeleteAll

end CubieBle.Gatt
