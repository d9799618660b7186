import CubieBle.Gatt.RecordDb
import Mathlib.Order.Bounds.Defs

/-! # Deleting the last record

The loop that looks for the last record starts at the last slot and counts upwards, so it only
ever sees that slot: if it is free, the next access is outside the array.
-/

namespace CubieBle.Gatt

variable {max : Nat} {Record : Type}

namespace Database

/-- The slots in use. -/
def used (db : Database max Record) : Set (Fin max) :=
  {slot | (db.entries.get slot).isInUse = true}

/-- The results of a function that deletes the last record: the highest slot in use is freed,
or there is none. -/
inductive DeletesLast (db : Database max Record) : Option (Int × Database max Record) → Prop where
  | none (hused : db.used = ∅) : DeletesLast db (some (-1, db))
  | freed (slot : Fin max) (hslot : IsGreatest db.used slot) :
      DeletesLast db (some (0, { entries := db.setInUse slot false
                                 recordsNum := db.recordsNum - 1 }))

/-- The slot where the loop starts is in use. -/
def LastInUse (db : Database max Record) : Prop :=
  ∃ slot : Fin max, slot.val = max - 1 ∧ (db.entries.get slot).isInUse = true

variable {db : Database max Record}

theorem recordDeleteLast_of_lastInUse (hlast : db.LastInUse) :
    db.DeletesLast db.recordDeleteLast := by
  obtain ⟨⟨last, hlt⟩, rfl, huse⟩ := hlast
  have hmax : 0 < max := Nat.zero_lt_of_lt hlt
  have hfound : (db.entries[max - 1]).isInUse = true := huse
  rw [recordDeleteLast, dif_pos hmax, if_pos hfound]
  refine .freed ⟨max - 1, hlt⟩ ⟨huse, ?_⟩
  intro other _
  exact Nat.le_sub_one_of_lt other.isLt

theorem recordDeleteLast_of_not_lastInUse (hlast : ¬db.LastInUse) : db.recordDeleteLast = none := by
  rw [recordDeleteLast]
  split
  next hmax =>
    have hlt : max - 1 < max := Nat.sub_one_lt_of_lt hmax
    exact if_neg fun huse => hlast ⟨⟨max - 1, hlt⟩, rfl, huse⟩
  next => rfl

theorem deletesLast_iff : db.DeletesLast db.recordDeleteLast ↔ db.LastInUse := by
  constructor
  · intro hdeletes
    by_contra hlast
    rw [recordDeleteLast_of_not_lastInUse hlast] at hdeletes
    cases hdeletes
  · exact recordDeleteLast_of_lastInUse

end Database

/-- Both functions are right on a database if and only if its last slot is in use; on every
other one, they access a slot behind the array. -/
theorem recordDeleteLast_correct_iff (gls : GlsDatabase) (cgms : CgmsDatabase) :
    (gls.DeletesLast (glsDbRecordDeleteLast gls) ↔ gls.LastInUse) ∧
      (cgms.DeletesLast (cgmsDbRecordDeleteLast cgms) ↔ cgms.LastInUse) :=
  ⟨Database.deletesLast_iff, Database.deletesLast_iff⟩

/-- With a single record, there is one to delete. -/
theorem recordDeleteLast_single_record :
    let db := (glsDbRecordAdd sampleGlsDatabase (sampleGlsRecord 1)).2
    glsDbRecordDeleteLast db = none ∧ ¬db.DeletesLast (glsDbRecordDeleteLast db) := by
  intro db
  have hnone : glsDbRecordDeleteLast db = none := by decide
  refine ⟨hnone, ?_⟩
  rw [hnone]
  intro hdeletes
  cases hdeletes

end CubieBle.Gatt
