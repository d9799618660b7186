import CubieBle.Gatt.RecordDb

/-! # The record databases as bounded queues

The law is stated of the functions of a database file against the list of live
records, oldest first. It holds as long as records leave from the newest end.
-/

namespace CubieBle.Gatt

open Machine

variable {Db Record : Type} {max : Nat}

/-- The functions of a database file that the law is about. -/
structure RecordDb (Db Record : Type) where
  init : Db → Db
  numRecordsGet : Db → UInt16
  recordGet : Db → UInt8 → Option (Except Int Record)
  recordAdd : Db → Record → Int × Db
  recordDelete : Db → UInt8 → Option (Int × Db)
  recordDeleteFirst : Db → Int × Db
  recordDeleteAll : Db → Db

def glsDb : RecordDb GlsDatabase GlsRecord where
  init := glsDbInit
  numRecordsGet := glsDbNumRecordsGet
  recordGet := glsDbRecordGet
  recordAdd := glsDbRecordAdd
  recordDelete := glsDbRecordDelete
  recordDeleteFirst := glsDbRecordDeleteFirst
  recordDeleteAll := glsDbRecordDeleteAll

def cgmsDb : RecordDb CgmsDatabase CgmsRecord where
  init := cgmsDbInit
  numRecordsGet := cgmsDbNumRecordsGet
  recordGet := cgmsDbRecordGet
  recordAdd := cgmsDbRecordAdd
  recordDelete := cgmsDbRecordDelete
  recordDeleteFirst := cgmsDbRecordDeleteFirst
  recordDeleteAll := cgmsDbRecordDeleteAll

/-! ## The bounded queue -/

namespace Fifo

def get (live : List Record) (idx : Nat) : Except Int Record :=
  match live[idx]? with
  | some record => .ok record
  | none => .error (-einval)

def add (max : Nat) (live : List Record) (record : Record) : Int × List Record :=
  if live.length = max then (-enomem, live) else (0, live ++ [record])

def delete (live : List Record) (idx : Nat) : Int × List Record :=
  if idx < live.length then (0, live.eraseIdx idx) else (-einval, live)

def deleteFirst : List Record → Int × List Record
  | [] => (-1, [])
  | _ :: rest => (0, rest)

end Fifo

/-- What a caller sees of the database is what it would see of the live records. -/
structure FifoLaw (file : RecordDb Db Record) (max : Nat) (db : Db) (live : List Record) :
    Prop where
  num : (file.numRecordsGet db).toNat = live.length
  get : ∀ idx : UInt8, file.recordGet db idx = some (Fifo.get live idx.toNat)
  add : ∀ record, (file.recordAdd db record).1 = (Fifo.add max live record).1
  delete : ∀ idx : UInt8,
    (file.recordDelete db idx).map Prod.fst = some (Fifo.delete live idx.toNat).1
  deleteFirst : (file.recordDeleteFirst db).1 = (Fifo.deleteFirst live).1

/-! ## Runs -/

inductive DbCall (Record : Type) where
  | init
  | recordAdd (record : Record)
  | recordDelete (recIdx : UInt8)
  | recordDeleteFirst
  | recordDeleteAll
deriving DecidableEq

/-- A database that was accessed outside its array stays `none`. -/
def dbStep (file : RecordDb Db Record) (state : Option Db) (call : DbCall Record) : Option Db :=
  state.bind fun db =>
    match call with
    | .init => some (file.init db)
    | .recordAdd record => some (file.recordAdd db record).2
    | .recordDelete recIdx => (file.recordDelete db recIdx).map Prod.snd
    | .recordDeleteFirst => some (file.recordDeleteFirst db).2
    | .recordDeleteAll => some (file.recordDeleteAll db)

/-- The live records after a call. -/
def liveAfter (max : Nat) (_state : Option Db) (call : DbCall Record) (live : List Record) :
    List Record :=
  match call with
  | .init => []
  | .recordAdd record => (Fifo.add max live record).2
  | .recordDelete recIdx => (Fifo.delete live recIdx.toNat).2
  | .recordDeleteFirst => (Fifo.deleteFirst live).2
  | .recordDeleteAll => []

abbrev fifoStep (file : RecordDb Db Record) (max : Nat) :=
  trackedStep (dbStep file) (liveAfter max)

/-- The database was never accessed outside its array and obeys the law. -/
def Lawful (file : RecordDb Db Record) (max : Nat)
    (current : Tracked (Option Db) (List Record)) : Prop :=
  ∃ db, current.state = some db ∧ FifoLaw file max db current.history

/-- No call deletes a record while a newer one is live. -/
def NewestOnly (current : Tracked (Option Db) (List Record)) : DbCall Record → Prop
  | .recordDelete recIdx => current.history.length ≤ recIdx.toNat + 1
  | .recordDeleteFirst => current.history.length ≤ 1
  | _ => True

instance (current : Tracked (Option Db) (List Record)) :
    (call : DbCall Record) → Decidable (NewestOnly current call)
  | .recordDelete _ => Nat.decLe _ _
  | .recordDeleteFirst => Nat.decLe _ _
  | .init => isTrue trivial
  | .recordAdd _ => isTrue trivial
  | .recordDeleteAll => isTrue trivial

/-! ## Representation -/

/-- The live records fill the lowest slots, in order, and the other slots are free. -/
structure Holds (db : Database max Record) (live : List Record) : Prop where
  num : db.recordsNum.toNat = live.length
  le_max : live.length ≤ max
  isInUse : ∀ slot (_ : slot < max), (db.entries[slot]).isInUse = decide (slot < live.length)
  record : ∀ slot (_ : slot < max), slot < live.length →
    live[slot]? = some (db.entries[slot]).record

namespace Database

/-- The functions of both files, at their record types. -/
def file (max : Nat) (Record : Type) : RecordDb (Database max Record) Record where
  init := init
  numRecordsGet := numRecordsGet
  recordGet := recordGet
  recordAdd := recordAdd
  recordDelete := recordDelete
  recordDeleteFirst := recordDeleteFirst
  recordDeleteAll := recordDeleteAll

variable {db : Database max Record} {live : List Record}

theorem holds_init (db : Database max Record) : Holds db.init [] where
  num := rfl
  le_max := Nat.zero_le _
  isInUse := by simp [init]
  record := by simp

theorem recordsNum_le_iff (hholds : Holds db live) (recIdx : UInt8) :
    db.recordsNum ≤ recIdx.toUInt16 ↔ live.length ≤ recIdx.toNat := by
  rw [UInt16.le_iff_toNat_le, hholds.num, UInt8.toNat_toUInt16]

theorem recordGet_of_holds (hholds : Holds db live) (recIdx : UInt8) :
    db.recordGet recIdx = some (Fifo.get live recIdx.toNat) := by
  unfold recordGet Fifo.get
  split
  next hle => rw [List.getElem?_eq_none ((recordsNum_le_iff hholds recIdx).mp hle)]
  next hlt =>
    have hlive : recIdx.toNat < live.length := by
      rw [recordsNum_le_iff hholds] at hlt
      exact Nat.lt_of_not_le hlt
    have hslot : recIdx.toNat < max := hlive.trans_le hholds.le_max
    rw [dif_pos hslot, hholds.record _ hslot hlive]

/-- With room left, the first free slot is the one after the live records. -/
theorem find_free (hholds : Holds db live) (hroom : live.length < max) :
    (Fin.find? fun slot : Fin max => !(db.entries[slot]).isInUse) =
      some ⟨live.length, hroom⟩ := by
  rw [Fin.find?_eq_some_iff]
  constructor
  · simp [hholds.isInUse]
  · intro slot hslot
    have hused : slot.val < live.length := hslot
    simp [hholds.isInUse, hused]

/-- The first slot in use is the first one, if any. -/
theorem find_inUse (hholds : Holds db live) (hlive : 0 < live.length) :
    (Fin.find? fun slot : Fin max => (db.entries[slot]).isInUse) =
      some ⟨0, hlive.trans_le hholds.le_max⟩ := by
  rw [Fin.find?_eq_some_iff]
  constructor
  · simp [hholds.isInUse, hlive]
  · intro slot hslot
    exact absurd hslot (Nat.not_lt_zero _)

theorem recordDeleteFirst_empty (hholds : Holds db []) : db.recordDeleteFirst = (-1, db) := by
  have hnone : (Fin.find? fun slot : Fin max => (db.entries[slot]).isInUse) = none := by
    rw [Fin.find?_eq_none_iff]
    intro slot
    simp [hholds.isInUse]
  unfold recordDeleteFirst
  rw [hnone]

theorem recordAdd_full (hholds : Holds db live) (hfull : live.length = max) (record : Record) :
    db.recordAdd record = (-enomem, db) := by
  unfold recordAdd
  rw [if_pos (hholds.num.trans hfull)]

theorem recordAdd_room (hholds : Holds db live) (hroom : live.length < max) (record : Record) :
    db.recordAdd record =
      (0, { entries := db.entries.set live.length { isInUse := true, record }
            recordsNum := db.recordsNum + 1 }) := by
  unfold recordAdd
  rw [if_neg (by rw [hholds.num]; exact hroom.ne), find_free hholds hroom]

theorem holds_add (hmax : max < 2 ^ 16) (hholds : Holds db live) (record : Record) :
    Holds (db.recordAdd record).2 (Fifo.add max live record).2 := by
  unfold Fifo.add
  split
  next hfull =>
    rw [recordAdd_full hholds hfull]
    exact hholds
  next hne =>
    -- the lowest free slot is the one behind the live records
    have hroom : live.length < max := lt_of_le_of_ne hholds.le_max hne
    rw [recordAdd_room hholds hroom]
    refine ⟨?_, ?_, ?_, ?_⟩
    · have hnum := hholds.num
      rw [uint16_toNat_succ (by omega), hnum, List.length_append, List.length_singleton]
    · simp only [List.length_append, List.length_singleton]
      omega
    · intro slot hslot
      rcases eq_or_ne live.length slot with rfl | hother
      · simp
      · rw [Vector.getElem_set_ne _ _ hother, hholds.isInUse slot hslot]
        simp only [List.length_append, List.length_singleton, decide_eq_decide]
        omega
    · intro slot hslot hlive
      rcases eq_or_ne live.length slot with rfl | hother
      · simp
      · have hlive : slot < live.length := by
          rw [List.length_append, List.length_singleton] at hlive
          omega
        rw [Vector.getElem_set_ne _ _ hother, List.getElem?_append_left hlive]
        exact hholds.record slot hslot hlive

/-- Freeing the slot of the newest live record leaves the others where they are. -/
theorem holds_free_newest {older : List Record} {newest : Record}
    (hholds : Holds db (older ++ [newest])) (hslot : older.length < max) :
    Holds { entries := db.setInUse ⟨older.length, hslot⟩ false
            recordsNum := db.recordsNum - 1 } older := by
  have hnum : db.recordsNum.toNat = older.length + 1 := by
    simpa using hholds.num
  refine ⟨?_, hslot.le, ?_, ?_⟩
  · rw [uint16_toNat_pred (by omega), hnum, Nat.add_sub_cancel]
  · intro slot hlt
    unfold setInUse
    rcases eq_or_ne older.length slot with rfl | hother
    · simp
    · rw [Vector.getElem_set_ne _ _ hother, hholds.isInUse slot hlt]
      simp only [List.length_append, List.length_singleton, decide_eq_decide]
      omega
  · intro slot hlt hlive
    unfold setInUse
    have hlonger : slot < (older ++ [newest]).length := by
      rw [List.length_append]
      omega
    rw [Vector.getElem_set_ne _ _ hlive.ne', ← hholds.record slot hlt hlonger,
      List.getElem?_append_left hlive]

theorem recordDelete_missing (hholds : Holds db live) {recIdx : UInt8}
    (hidx : live.length ≤ recIdx.toNat) : db.recordDelete recIdx = some (-einval, db) := by
  unfold recordDelete
  rw [if_pos ((recordsNum_le_iff hholds recIdx).mpr hidx)]

theorem recordDelete_live (hholds : Holds db live) {recIdx : UInt8}
    (hidx : recIdx.toNat < live.length) :
    db.recordDelete recIdx =
      some (0, { entries := db.setInUse ⟨recIdx.toNat, hidx.trans_le hholds.le_max⟩ false
                 recordsNum := db.recordsNum - 1 }) := by
  unfold recordDelete
  rw [if_neg (by rw [recordsNum_le_iff hholds]; omega),
    dif_pos (hidx.trans_le hholds.le_max)]

theorem recordDelete_code (hholds : Holds db live) (recIdx : UInt8) :
    (db.recordDelete recIdx).map Prod.fst = some (Fifo.delete live recIdx.toNat).1 := by
  unfold Fifo.delete
  split
  next hidx => rw [recordDelete_live hholds hidx, Option.map_some]
  next hidx => rw [recordDelete_missing hholds (Nat.le_of_not_lt hidx), Option.map_some]

theorem holds_delete (hholds : Holds db live) {recIdx : UInt8}
    (hnewest : live.length ≤ recIdx.toNat + 1) :
    ∃ next, (db.recordDelete recIdx).map Prod.snd = some next ∧
      Holds next (Fifo.delete live recIdx.toNat).2 := by
  unfold Fifo.delete
  split
  next hidx =>
    rw [recordDelete_live hholds hidx, Option.map_some]
    refine ⟨_, rfl, ?_⟩
    rcases List.eq_nil_or_concat' live with rfl | ⟨older, newest, rfl⟩
    · exact absurd hidx (Nat.not_lt_zero _)
    · have hslot : recIdx.toNat = older.length := by
        simp only [List.length_append, List.length_singleton] at hidx hnewest
        omega
      simp only [hslot, List.eraseIdx_append_of_length_le (Nat.le_refl _), Nat.sub_self,
        List.eraseIdx_cons_zero, List.append_nil]
      exact holds_free_newest hholds _
  next hidx =>
    rw [recordDelete_missing hholds (Nat.le_of_not_lt hidx), Option.map_some]
    exact ⟨db, rfl, hholds⟩

theorem recordDeleteFirst_code (hholds : Holds db live) :
    db.recordDeleteFirst.1 = (Fifo.deleteFirst live).1 := by
  cases live with
  | nil => rw [recordDeleteFirst_empty hholds]; rfl
  | cons oldest rest => rw [recordDeleteFirst, find_inUse hholds (by simp)]; rfl

theorem holds_deleteFirst (hholds : Holds db live) (hone : live.length ≤ 1) :
    Holds db.recordDeleteFirst.2 (Fifo.deleteFirst live).2 := by
  match live, hone with
  | [], _ =>
      rw [recordDeleteFirst_empty hholds]
      exact hholds
  | [only], _ =>
      rw [recordDeleteFirst, find_inUse hholds (by simp)]
      -- the oldest record is the newest one as well
      have holder : Holds db ([] ++ [only]) := hholds
      exact holds_free_newest holder _

theorem fifoLaw_of_holds (hholds : Holds db live) : FifoLaw (file max Record) max db live where
  num := hholds.num
  get := recordGet_of_holds hholds
  add := by
    intro record
    change (db.recordAdd record).1 = _
    unfold Fifo.add
    split
    next hfull => rw [recordAdd_full hholds hfull]
    next hne => rw [recordAdd_room hholds (lt_of_le_of_ne hholds.le_max hne)]
  delete := recordDelete_code hholds
  deleteFirst := recordDeleteFirst_code hholds

/-- The slots keep holding the live records. -/
theorem holds_step (hmax : max < 2 ^ 16)
    (current : Tracked (Option (Database max Record)) (List Record)) (call : DbCall Record)
    (hholds : ∃ db, current.state = some db ∧ Holds db current.history)
    (hnewest : NewestOnly current call) :
    ∃ db, (fifoStep (file max Record) max current call).state = some db ∧
      Holds db (fifoStep (file max Record) max current call).history := by
  obtain ⟨state, live⟩ := current
  obtain ⟨db, rfl, hholds⟩ := hholds
  cases call with
  | init => exact ⟨_, rfl, holds_init db⟩
  | recordAdd record => exact ⟨_, rfl, holds_add hmax hholds record⟩
  | recordDelete recIdx => exact holds_delete hholds hnewest
  | recordDeleteFirst => exact ⟨_, rfl, holds_deleteFirst hholds hnewest⟩
  | recordDeleteAll => exact ⟨_, rfl, holds_init db⟩

theorem lawful_of_newestOnly (hmax : max < 2 ^ 16) (db : Database max Record)
    {calls : List (DbCall Record)}
    (hrun : Along (fifoStep (file max Record) max) NewestOnly ⟨some db.init, []⟩ calls) :
    Throughout (fifoStep (file max Record) max) (Lawful (file max Record) max)
      ⟨some db.init, []⟩ calls := by
  have hall := throughout_of_invariant
    (fun current => ∃ db, current.state = some db ∧ Holds db current.history)
    (holds_step hmax) ⟨_, rfl, holds_init db⟩ hrun
  apply hall.imp
  rintro current ⟨db, hstate, hholds⟩
  exact ⟨db, hstate, fifoLaw_of_holds hholds⟩

end Database

/-- A database is the bounded queue of its live records as long as no record is
deleted while a newer one is live. -/
theorem records_fifo (glsDatabase : GlsDatabase) (glsCalls : List (DbCall GlsRecord))
    (cgmsDatabase : CgmsDatabase) (cgmsCalls : List (DbCall CgmsRecord)) :
    (Along (fifoStep glsDb glsDbMaxRecords) NewestOnly
        ⟨some (glsDbInit glsDatabase), []⟩ glsCalls →
      Throughout (fifoStep glsDb glsDbMaxRecords) (Lawful glsDb glsDbMaxRecords)
        ⟨some (glsDbInit glsDatabase), []⟩ glsCalls) ∧
    (Along (fifoStep cgmsDb cgmsDbMaxRecords) NewestOnly
        ⟨some (cgmsDbInit cgmsDatabase), []⟩ cgmsCalls →
      Throughout (fifoStep cgmsDb cgmsDbMaxRecords) (Lawful cgmsDb cgmsDbMaxRecords)
        ⟨some (cgmsDbInit cgmsDatabase), []⟩ cgmsCalls) := by
  constructor
  · intro hrun
    exact Database.lawful_of_newestOnly (by decide) glsDatabase hrun
  · intro hrun
    exact Database.lawful_of_newestOnly (by decide) cgmsDatabase hrun

def sampleCgmsDatabase : CgmsDatabase where
  entries := Vector.replicate cgmsDbMaxRecords ⟨false, ⟨0, 0, ⟨0, 0⟩, 0, 0, ⟨0, 0⟩, ⟨0, 0⟩, 0⟩⟩
  recordsNum := 0

/-- Two records, the newer of which is deleted before the older one. -/
def newestFirst : List (DbCall GlsRecord) :=
  [.recordAdd (sampleGlsRecord 1), .recordAdd (sampleGlsRecord 2), .recordDelete 1,
    .recordDeleteFirst, .recordAdd (sampleGlsRecord 3)]

theorem newestFirst_fifo :
    Throughout (fifoStep glsDb glsDbMaxRecords) (Lawful glsDb glsDbMaxRecords)
      ⟨some (glsDbInit sampleGlsDatabase), []⟩ newestFirst ∧
    Throughout (fifoStep cgmsDb cgmsDbMaxRecords) (Lawful cgmsDb cgmsDbMaxRecords)
      ⟨some (cgmsDbInit sampleCgmsDatabase), []⟩ [.recordDeleteFirst, .recordDeleteAll] :=
  have hfifo := records_fifo sampleGlsDatabase newestFirst sampleCgmsDatabase
    [.recordDeleteFirst, .recordDeleteAll]
  ⟨hfifo.1 (by decide), hfifo.2 (by decide)⟩

def oldestFirst : List (DbCall GlsRecord) :=
  [.recordAdd (sampleGlsRecord 1), .recordAdd (sampleGlsRecord 2), .recordDeleteFirst]

/-- Deleting the older of two records leaves it in the database, as the only one. -/
theorem oldestFirst_misread :
    ¬ Throughout (fifoStep glsDb glsDbMaxRecords) (Lawful glsDb glsDbMaxRecords)
      ⟨some (glsDbInit sampleGlsDatabase), []⟩ oldestFirst := by
  intro hall
  obtain ⟨db, hdb, hlaw⟩ := hall.last
  have hread : (run (fifoStep glsDb glsDbMaxRecords) ⟨some (glsDbInit sampleGlsDatabase), []⟩
      oldestFirst).state.bind (glsDb.recordGet · 0) = some (.ok (sampleGlsRecord 1)) := by
    decide +kernel
  have hlive : (run (fifoStep glsDb glsDbMaxRecords) ⟨some (glsDbInit sampleGlsDatabase), []⟩
      oldestFirst).history = [sampleGlsRecord 2] := by
    decide
  rw [hdb, Option.bind_some, hlaw.get, hlive] at hread
  exact absurd hread (by decide)

end CubieBle.Gatt
