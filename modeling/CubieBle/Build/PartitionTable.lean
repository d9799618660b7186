import CubieBle.Build.Checksums
import CubieBle.Loader.Boot

/-! # The partition table in the loader

The loader reads the entries of the table at their places; the script has written them one after
the other. An address is a number in Python and a word in an entry.
-/

namespace CubieBle.Build

open Loader

/-! ## The loader's view -/

/-- The word of an entry; an entry has six words, and the first one is behind four. -/
def entryWord (table : List UInt8) (i k : Nat) : UInt32 := fileWord table (4 + 6 * i + k)

def partEntry (table : List UInt8) (i : Nat) : PartitionEntry where
  type := (entryWord table i 2).toUInt16
  offset := entryWord table i 3
  seq := (entryWord table i 4).toUInt16.toInt16

/-- `part_table` after the table was read from flash. -/
def partTable (table : List UInt8) : PartitionTable where
  parts := Vector.ofFn fun i => partEntry table i

def entryOffs (table : List UInt8) (i : Nat) : UInt32 := entryWord table i 5

/-! ## Words of a file -/

/-- A word behind a whole number of others. -/
theorem fileWord_append {front inner : List UInt8} {n : Nat} (hfront : front.length = 4 * n)
    (back : List UInt8) {k : Nat} (hk : 4 * k + 4 ≤ inner.length) :
    fileWord (front ++ (inner ++ back)) (n + k) = fileWord inner k := by
  apply fileWord_congr
  intro j hj
  rw [List.getD_eq_getElem?_getD, List.getD_eq_getElem?_getD,
    List.getElem?_append_right (by omega), List.getElem?_append_left (by omega)]
  congr 2
  omega

/-- A number in a field of four bytes is cut to 32 bits. -/
theorem toNat_fileWord_field (value : Int) :
    ((fileWord (field 4 value) 0).toNat : Int) = value % 2 ^ 32 := by
  obtain ⟨word, hword⟩ : ∃ word : UInt32, (word.toNat : Int) = value % 2 ^ 32 := by
    refine ⟨UInt32.ofNat (value % 2 ^ 32).toNat, ?_⟩
    rw [UInt32.toNat_ofNat']
    omega
  have hfield : field 4 value = field 4 (word.toNat : Int) := by
    rw [hword, field, field, Int.emod_emod_of_dvd value (Int.dvd_refl _)]
  have hpack : fileWord (packWord word.toNat) 0 = UInt32.ofNat word.toNat := getD_packWord _
  rw [hfield, field_four, hpack, UInt32.ofNat_toNat, hword]

theorem toNat_fileWord_append {front : List UInt8} {n : Nat} (hfront : front.length = 4 * n)
    (value : Int) (back : List UInt8) :
    ((fileWord (front ++ (field 4 value ++ back)) n).toNat : Int) = value % 2 ^ 32 := by
  have hwhole : 4 * 0 + 4 ≤ (field 4 value).length := Nat.le_of_eq (length_field 4 value).symm
  have hword := fileWord_append hfront back hwhole
  rw [Nat.add_zero] at hword
  rw [hword, toNat_fileWord_field]

/-! ## The entries -/

theorem length_nameField (name : String) : (nameField name).length = 8 := by
  rw [nameField, List.length_take, List.length_append, List.length_replicate]
  omega

/-- What an entry contains in the words of its address. -/
theorem partitionEntry_spec {part : Partition} {entry : List UInt8}
    (hentry : partitionEntry part = some entry) :
    entry.length = 24 ∧ ∃ text addr, part.address = some text ∧ pyInt0 text = some addr ∧
      ((fileWord entry 3).toNat : Int) = alignDown addr partitionAlignment % 2 ^ 32 ∧
      ((fileWord entry 5).toNat : Int) = addr % 2 ^ 32 := by
  simp only [partitionEntry, Option.bind_eq_bind, Option.bind_eq_some_iff, Option.pure_def,
    Option.some.injEq] at hentry
  obtain ⟨name, -, type, -, number, -, text, htext, addr, haddr, rfl⟩ := hentry
  have hname := length_nameField name
  refine ⟨?_, text, addr, htext, haddr, ?_, ?_⟩
  · simp only [List.length_append, length_field, hname]
  · have hfront : (nameField name ++ field 2 number ++ field 2 (partitionFlag part)).length =
        4 * 3 := by
      simp only [List.length_append, length_field, hname]
    rw [List.append_assoc _ (field 2 0) (field 4 addr), List.append_assoc _ (field 2 0),
      List.append_assoc _ (field 4 _)]
    exact toNat_fileWord_append hfront _ _
  · have hfront : (nameField name ++ field 2 number ++ field 2 (partitionFlag part) ++
        field 4 (alignDown addr partitionAlignment) ++ field 2 0 ++ field 2 0).length = 4 * 5 := by
      simp only [List.length_append, length_field, hname]
    rw [← List.append_nil (field 4 addr)]
    exact toNat_fileWord_append hfront addr []

/-- One entry for each partition, each of six words. -/
theorem length_entries {parts : List Partition} {entries : List (List UInt8)}
    (hentries : parts.mapM partitionEntry = some entries) :
    entries.length = parts.length ∧ entries.flatten.length = 24 * parts.length := by
  induction parts generalizing entries with
  | nil =>
      obtain rfl := Option.some.inj hentries
      exact ⟨rfl, rfl⟩
  | cons part rest ih =>
      rw [List.mapM_cons] at hentries
      obtain ⟨entry, hentry, hentries⟩ := Option.bind_eq_some_iff.mp hentries
      obtain ⟨others, hothers, hcons⟩ := Option.bind_eq_some_iff.mp hentries
      obtain rfl := Option.some.inj hcons
      obtain ⟨hlength, hflatten⟩ := ih hothers
      constructor
      · rw [List.length_cons, List.length_cons, hlength]
      · rw [List.flatten_cons, List.length_append, (partitionEntry_spec hentry).1, hflatten,
          List.length_cons]
        omega

/-- The loader finds the words of an entry where the script wrote it. -/
theorem entryWord_partitionTable {before after : List Partition} {part : Partition}
    {table : List UInt8} (htable : partitionTable (before ++ part :: after) = some table) :
    before.length < maxPartitionCount ∧ ∃ entry, partitionEntry part = some entry ∧
      ∀ k < 6, entryWord table before.length k = fileWord entry k := by
  rw [partitionTable] at htable
  obtain ⟨entries, hentries, htable⟩ := Option.bind_eq_some_iff.mp htable
  split_ifs at htable with hmany
  obtain rfl := Option.some.inj htable
  have hcount := (length_entries hentries).2
  have hfew := (length_entries hentries).1
  rw [List.mapM_append, List.mapM_cons] at hentries
  obtain ⟨first, hfirst, hentries⟩ := Option.bind_eq_some_iff.mp hentries
  obtain ⟨rest, hrest, hentries⟩ := Option.bind_eq_some_iff.mp hentries
  obtain ⟨entry, hentry, hrest⟩ := Option.bind_eq_some_iff.mp hrest
  obtain ⟨last, hlast, hrest⟩ := Option.bind_eq_some_iff.mp hrest
  obtain rfl := Option.some.inj hrest
  obtain rfl := Option.some.inj hentries
  simp only [List.length_append, List.length_cons] at hfew hcount hmany
  refine ⟨by rw [maxPartitionCount]; omega, entry, hentry, ?_⟩
  intro k hk
  have hbefore : first.flatten.length = 24 * before.length := (length_entries hfirst).2
  have hwhole : 4 * k + 4 ≤ entry.length := by
    rw [(partitionEntry_spec hentry).1]
    omega
  have hshape : ∀ header zeros rest crc : List UInt8, header.length = 16 →
      fileWord (header ++ (first.flatten ++ (entry ++ last.flatten) ++ zeros) ++ rest ++ crc)
        (4 + 6 * before.length + k) = fileWord entry k := by
    intro header zeros rest crc hheader
    have hfront : (header ++ first.flatten).length = 4 * (4 + 6 * before.length) := by
      rw [List.length_append, hheader, hbefore]
      omega
    have hword := fileWord_append hfront (last.flatten ++ zeros ++ rest ++ crc) hwhole
    simpa only [List.append_assoc] using hword
  rw [List.take_append, List.take_of_length_le (by omega), List.flatten_append, List.flatten_cons,
    entryWord]
  apply hshape
  simp only [List.length_append, length_field]

theorem get_partTable (table : List UInt8) (i : Fin maxPartitionCount) :
    (partTable table).parts.get i = partEntry table i := by
  exact Vector.getElem_ofFn i.isLt

/-- The two places of an address in the table. -/
theorem address_partitionTable {before after : List Partition} {part : Partition}
    {table : List UInt8} (htable : partitionTable (before ++ part :: after) = some table) :
    before.length < maxPartitionCount ∧ ∃ text addr, part.address = some text ∧
      pyInt0 text = some addr ∧
      ((partEntry table before.length).offset.toNat : Int) =
        alignDown addr partitionAlignment % 2 ^ 32 ∧
      ((entryOffs table before.length).toNat : Int) = addr % 2 ^ 32 := by
  obtain ⟨hcount, entry, hentry, hwords⟩ := entryWord_partitionTable htable
  obtain ⟨-, text, addr, htext, haddr, hoffset, hentryOffs⟩ := partitionEntry_spec hentry
  refine ⟨hcount, text, addr, htext, haddr, ?_, ?_⟩
  · rw [partEntry, hwords 3 (by decide), hoffset]
  · rw [entryOffs, hwords 5 (by decide), hentryOffs]

end CubieBle.Build
