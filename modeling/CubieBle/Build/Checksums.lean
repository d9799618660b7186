import CubieBle.Build.RawImage
import CubieBle.Loader.Checksum

/-! # Checksums at the end of the build

The script stamps the checksums first and writes the partition table into the boot file
afterwards, so that the checksum over the data of the boot file is over words that are no
longer there. It still holds only if the table happens to have the same sum.
-/

namespace CubieBle.Build

open Loader Machine

/-! ## The contract -/

/-- A file of whole words whose header has both checksums. -/
structure Verifies (file : List UInt8) : Prop where
  length : 0xe0 ≤ file.length
  whole : file.length % 4 = 0
  checksums : Sealed file

/-- The last word of the partition table in a boot file is the CRC of the table before it. -/
def TableVerifies (file : List UInt8) : Prop :=
  fileWord file ((0x1000 - 0x400 + 0x17c) / 4) = crc32 ((file.drop (0x1000 - 0x400)).take 0x17c)

/-- The state of the files in which the build should leave them. -/
structure ChecksumsHold (fw : Firmware) : Prop where
  files : ∀ part ∈ fw.partitions, ∀ type ∈ part.type,
    type ∈ ["BOOT", "SYSTEM", "RECOVERY", "DTM"] → ∀ name ∈ part.file,
      ∃ data, fw.files name = some data ∧ Verifies data
  table : ∀ name, bootFile fw.partitions = some (some name) →
    ∃ data, fw.files name = some data ∧ TableVerifies data

/-- A file that was built from a given one: its header verifies and holds the checksum over the
data of the file as it was given. Where that ends before the partition table, its words are
still those that were summed. -/
structure VerifiesGiven (given file : List UInt8) : Prop where
  length : 0xe0 ≤ file.length
  header : fileWord file 55 = checksumOver file headerWords
  data : fileWord file 54 = checksumOver given (dataWords given.length)
  image : given.length ≤ 0x1000 - 0x400 →
    checksumOver file (dataWords given.length) = checksumOver given (dataWords given.length)

/-- The state in which the build leaves the files, where the checksum over the data is stamped
before the table is put behind the boot image. -/
structure ImagesVerify (files : Files) (fw : Firmware) : Prop where
  given : ∀ part ∈ fw.partitions, ∀ type ∈ part.type,
    type ∈ ["BOOT", "SYSTEM", "RECOVERY", "DTM"] → ∀ name ∈ part.file,
      ∃ given data, files name = some given ∧ fw.files name = some data ∧
        VerifiesGiven given data ∧ (bootFile fw.partitions ≠ some (some name) → Verifies data)
  table : ∀ name, bootFile fw.partitions = some (some name) →
    ∃ data, fw.files name = some data ∧ TableVerifies data

/-- The words of the partition table, as indices into a boot file. -/
def tableWords : List Nat := List.range' 768 96

/-- The sum of the partition table is that of the words which it replaces in the boot file,
where a file that ends before counts as zeros. -/
def TableFits (config : FirmwareConfig) (files : Files) : Prop :=
  ∀ name, bootFile config.partitions = some (some name) →
    ∀ data ∈ files name, ∀ table ∈ partitionTable config.partitions,
      ((List.range 96).map (fileWord table)).sum = (tableWords.map (fileWord data)).sum

/-! ## Stamped files -/

/-- Bytes of a file after a write, where there are zeros past the end. -/
theorem getD_fileWrite (file data : List UInt8) (pos i : Nat) :
    (fileWrite file pos data).getD i 0 =
      if pos ≤ i ∧ i < pos + data.length then data.getD (i - pos) 0 else file.getD i 0 := by
  have hpadded : (file.take pos ++ List.replicate (pos - file.length) 0).length = pos := by
    rw [List.length_append, List.length_take, List.length_replicate]
    omega
  simp only [List.getD_eq_getElem?_getD, fileWrite]
  by_cases hbefore : i < pos
  · rw [if_neg (by omega), List.append_assoc, List.getElem?_append_left (by omega),
      List.getElem?_append, List.length_take]
    split
    next => rw [List.getElem?_take_of_lt hbefore]
    next hgap =>
      rw [List.getElem?_eq_none (by omega : file.length ≤ i), List.getElem?_replicate]
      split
      next => rfl
      next => rfl
  · by_cases hdata : i < pos + data.length
    · rw [if_pos ⟨by omega, hdata⟩, List.append_assoc, List.getElem?_append_right (by omega),
        hpadded, List.getElem?_append_left (by omega)]
    · rw [if_neg (by omega), List.getElem?_append_right (by rw [List.length_append]; omega),
        List.length_append, hpadded, List.getElem?_drop]
      congr 2
      omega

/-- A write of whole words replaces these and no others. -/
theorem fileWord_fileWrite_words (file : List UInt8) {data : List UInt8} {count : Nat}
    (hdata : data.length = 4 * count) (first i : Nat) :
    fileWord (fileWrite file (4 * first) data) i =
      if first ≤ i ∧ i < first + count then fileWord data (i - first) else fileWord file i := by
  split
  next hin =>
    apply fileWord_congr
    intro k hk
    rw [getD_fileWrite, if_pos (by omega)]
    congr 1
    omega
  next hout =>
    apply fileWord_congr
    intro k hk
    rw [getD_fileWrite, if_neg (by omega)]

theorem length_of_arrayWords {data : List UInt8} {words : List Nat}
    (hwords : arrayWords data = some words) : data.length % 4 = 0 := by
  induction data using arrayWords.induct generalizing words with
  | case1 => rfl
  | case2 b0 b1 b2 b3 rest ih =>
      rw [arrayWords] at hwords
      obtain ⟨others, hothers, -⟩ := Option.map_eq_some_iff.mp hwords
      have hrest := ih hothers
      simp only [List.length_cons]
      omega
  | case3 data hnil hfour =>
      rw [arrayWords] at hwords
      · cases hwords
      · exact hnil
      · exact hfour

theorem length_of_calcChecksum {data : List UInt8} {sum : Nat}
    (hsum : calcChecksum data = some sum) : data.length % 4 = 0 := by
  rw [calcChecksum] at hsum
  obtain ⟨words, hwords, -⟩ := Option.map_eq_some_iff.mp hsum
  exact length_of_arrayWords hwords

/-- The files that can be stamped. One that lacks the last byte of its header is read from
its end on with the size -1, which is no error. -/
theorem length_of_addCsum {file stamped : List UInt8} (hadd : addCsum file = some stamped) :
    file.length = 0xdf ∨ 0xe0 ≤ file.length ∧ file.length % 4 = 0 := by
  simp only [addCsum, Option.bind_eq_bind, Option.bind_eq_some_iff] at hadd
  obtain ⟨_, -, _, -, data, hread, _, hsum, -⟩ := hadd
  have hwhole := length_of_calcChecksum hsum
  rw [fileRead] at hread
  split_ifs at hread with hshort hlast
  · left
    omega
  · right
    obtain rfl := Option.some.inj hread
    rw [List.length_take, List.length_drop] at hwhole
    omega

section Append

variable {file rest : List UInt8} {pos : Nat}

theorem fileRead_append (size : Nat) (hinside : pos + size ≤ file.length) :
    fileRead (file ++ rest) pos (size : Int) = fileRead file pos (size : Int) := by
  have hdrop : size ≤ (file.drop pos).length := by
    rw [List.length_drop]
    omega
  rw [fileRead, fileRead, if_neg (by omega), if_neg (by omega), if_neg (by omega),
    if_neg (by omega), Int.toNat_natCast, List.drop_append_of_le_length (by omega),
    List.take_append_of_le_length hdrop]

theorem fileWrite_append {data : List UInt8} (hinside : pos + data.length ≤ file.length) :
    fileWrite (file ++ rest) pos data = fileWrite file pos data ++ rest := by
  have hgap : pos - file.length = 0 := by omega
  have hgapAppend : pos - (file ++ rest).length = 0 := by
    rw [List.length_append]
    omega
  rw [fileWrite, fileWrite, hgap, hgapAppend, List.take_append_of_le_length (by omega),
    List.drop_append_of_le_length hinside, List.append_assoc _ _ rest]

/-- A write over the end of a file replaces what comes there. -/
theorem fileWrite_append_of_le {data : List UInt8} (hstart : pos ≤ file.length)
    (hend : file.length + rest.length ≤ pos + data.length) :
    fileWrite (file ++ rest) pos data = fileWrite file pos data := by
  have hgap : pos - file.length = 0 := by omega
  have hgapAppend : pos - (file ++ rest).length = 0 := by
    rw [List.length_append]
    omega
  have hdrop : (file ++ rest).drop (pos + data.length) = [] := by
    rw [List.drop_eq_nil_iff, List.length_append]
    exact hend
  rw [fileWrite, fileWrite, hgap, hgapAppend, List.take_append_of_le_length hstart, hdrop,
    List.drop_eq_nil_of_le (by omega)]

end Append

/-- The missing byte is written with the checksum of the header. -/
theorem addCsum_append_zero {file : List UInt8} (hlength : file.length = 0xdf) :
    addCsum (file ++ [0]) = addCsum file := by
  have hpadded : (file ++ [0]).length = 0xe0 := by
    rw [List.length_append, hlength]
    rfl
  have hbefore : fileRead (file ++ [0]) 0 0xc0 = fileRead file 0 0xc0 :=
    fileRead_append 0xc0 (by omega)
  -- nothing comes after the header in both
  have hafter : fileRead (file ++ [0]) (0xc0 + 0x20)
        (((file ++ [0]).length : Int) - (0xc0 + 0x20)) =
      fileRead file (0xc0 + 0x20) ((file.length : Int) - (0xc0 + 0x20)) := by
    rw [hpadded, hlength, fileRead, fileRead, List.drop_eq_nil_of_le (by omega),
      List.drop_eq_nil_of_le (by omega)]
    rfl
  have hhalf : ∀ value, (fileWrite file (0xc0 + 0x18) (packWord value)).length = 0xdf := by
    intro value
    rw [length_fileWrite (by rw [length_packWord]; omega), hlength]
  have hstamp : ∀ value, fileWrite (file ++ [0]) (0xc0 + 0x18) (packWord value) =
      fileWrite file (0xc0 + 0x18) (packWord value) ++ [0] := by
    intro value
    exact fileWrite_append (by rw [length_packWord]; omega)
  have hheader : ∀ value, fileRead (fileWrite file (0xc0 + 0x18) (packWord value) ++ [0]) 0xc0 28 =
      fileRead (fileWrite file (0xc0 + 0x18) (packWord value)) 0xc0 28 := by
    intro value
    exact fileRead_append 28 (by rw [hhalf]; decide)
  have hlast : ∀ value sum, fileWrite (fileWrite file (0xc0 + 0x18) (packWord value) ++ [0])
      (0xc0 + 0x1c) (packWord sum) =
        fileWrite (fileWrite file (0xc0 + 0x18) (packWord value)) (0xc0 + 0x1c) (packWord sum) := by
    intro value sum
    apply fileWrite_append_of_le
    · rw [hhalf]
      decide
    · rw [hhalf, length_packWord]
      decide
  simp only [addCsum, hbefore, hafter, hstamp, hheader, hlast]

theorem fileWord_append_zero (file : List UInt8) (i : Nat) :
    fileWord (file ++ [0]) i = fileWord file i := by
  apply fileWord_congr
  intro k _
  simp only [List.getD_eq_getElem?_getD, List.getElem?_append]
  split
  next => rfl
  next hout =>
    rw [List.getElem?_eq_none (by omega : file.length ≤ 4 * i + k), List.getElem?_singleton]
    split
    next => rfl
    next => rfl

/-- The file that is stamped has its whole header. -/
theorem exists_whole_of_addCsum {file stamped : List UInt8} (hadd : addCsum file = some stamped) :
    ∃ whole, addCsum whole = some stamped ∧ whole.length = max file.length 0xe0 ∧
      whole.length % 4 = 0 ∧ ∀ i, fileWord whole i = fileWord file i := by
  rcases length_of_addCsum hadd with hshort | ⟨hlength, hwhole⟩
  · have hpadded : (file ++ [0]).length = 0xe0 := by
      rw [List.length_append, hshort]
      rfl
    rw [← addCsum_append_zero hshort] at hadd
    exact ⟨file ++ [0], hadd, by omega, by omega, fileWord_append_zero file⟩
  · exact ⟨file, hadd, by omega, hwhole, fun _ => rfl⟩

/-- A stamped file verifies, and it has the words of the file outside the two checksums. -/
theorem addCsum_spec {file stamped : List UInt8} (hadd : addCsum file = some stamped) :
    Verifies stamped ∧ ∀ i, i ≠ 54 → i ≠ 55 → fileWord stamped i = fileWord file i := by
  obtain ⟨whole, hadd, hlength, hfour, hsame⟩ := exists_whole_of_addCsum hadd
  have hheader : 0xe0 ≤ whole.length := by omega
  rw [addCsum_eq hfour hheader] at hadd
  obtain rfl := Option.some.inj hadd
  have hhalf : (stampWord whole 54 (dataWords whole.length)).length = whole.length :=
    length_stampWord (by omega) _
  have hinside : 4 * 55 + 4 ≤ (stampWord whole 54 (dataWords whole.length)).length := by omega
  have hout := length_stampWord hinside headerWords
  refine ⟨⟨by omega, by omega, stamped_sealed hheader⟩, ?_⟩
  intro i h54 h55
  rw [fileWord_stampWord hinside, if_neg h55, fileWord_stampWord (by omega), if_neg h54, hsame]

/-- A stamped file lacks no byte of its header. -/
theorem length_stamped {file stamped : List UInt8} (hadd : addCsum file = some stamped) :
    stamped.length = max file.length 0xe0 := by
  obtain ⟨whole, hadd, hlength, hfour, -⟩ := exists_whole_of_addCsum hadd
  rw [addCsum_eq hfour (by omega)] at hadd
  obtain rfl := Option.some.inj hadd
  have hhalf : (stampWord whole 54 (dataWords whole.length)).length = whole.length :=
    length_stampWord (by omega) _
  rw [length_stampWord (by omega), hhalf, hlength]

theorem dataWords_max (length : Nat) : dataWords (max length 0xe0) = dataWords length := by
  rw [dataWords, dataWords]
  congr 2
  omega

/-- Stamping leaves the words that are summed as they were. -/
theorem checksumOver_stamped {file stamped : List UInt8} (hadd : addCsum file = some stamped)
    (length : Nat) :
    checksumOver stamped (dataWords length) = checksumOver file (dataWords length) := by
  apply checksumOver_congr
  intro i hi
  have h54 : i ≠ 54 := fun heq => not_mem_dataWords (by omega) (by omega) hi
  have h55 : i ≠ 55 := fun heq => not_mem_dataWords (by omega) (by omega) hi
  exact (addCsum_spec hadd).2 i h54 h55

theorem verifiesGiven_of_addCsum {file stamped : List UInt8}
    (hadd : addCsum file = some stamped) : VerifiesGiven file stamped := by
  obtain ⟨hverifies, -⟩ := addCsum_spec hadd
  refine ⟨hverifies.length, hverifies.checksums.header, ?_, fun _ => checksumOver_stamped hadd _⟩
  rw [hverifies.checksums.data, length_stamped hadd, dataWords_max, checksumOver_stamped hadd]

/-! ## The partition table in the boot file -/

/-- Words past the end of a file count as zeros. -/
theorem fileWord_of_length_le {file : List UInt8} {i : Nat} (hi : file.length ≤ 4 * i) :
    fileWord file i = 0 := by
  have hbyte : ∀ k, file.getD (4 * i + k) 0 = 0 := by
    intro k
    rw [List.getD_eq_getElem?_getD, List.getElem?_eq_none (by omega)]
    rfl
  rw [fileWord, hbyte 1, hbyte 2, hbyte 3, show file.getD (4 * i) 0 = 0 from hbyte 0]
  rfl

/-- The data words of a longer file, with zeros at its end, have the same sum. -/
theorem sum_dataWords_of_le {file : List UInt8} {length : Nat} (hwhole : file.length % 4 = 0)
    (hheader : 0xe0 ≤ file.length) (hlength : file.length ≤ length) :
    ((dataWords length).map (fileWord file)).sum =
      ((dataWords file.length).map (fileWord file)).sum := by
  have hsplit : List.range' 56 (length / 4 - 56) =
      List.range' 56 (file.length / 4 - 56) ++
        List.range' (file.length / 4) (length / 4 - file.length / 4) := by
    rw [show length / 4 - 56 = (file.length / 4 - 56) + (length / 4 - file.length / 4) by omega,
      ← List.range'_append_1]
    congr 2
    omega
  have hzero : ((List.range' (file.length / 4) (length / 4 - file.length / 4)).map
      (fileWord file)).sum = 0 := by
    apply List.sum_eq_zero
    intro word hword
    obtain ⟨i, hi, rfl⟩ := List.mem_map.mp hword
    rw [List.mem_range'_1] at hi
    exact fileWord_of_length_le (by omega)
  rw [dataWords, dataWords, hsplit, ← List.append_assoc, List.map_append, List.sum_append, hzero,
    UInt32.add_zero]

/-- The data words of a file that is long enough are those before, in and after the table. -/
theorem dataWords_eq_append {length : Nat} (hlength : 0xd80 ≤ length) :
    dataWords length = (List.range' 0 48 ++ List.range' 56 712) ++ tableWords ++
      List.range' 864 (length / 4 - 864) := by
  rw [dataWords, tableWords,
    show length / 4 - 56 = 712 + (96 + (length / 4 - 864)) by omega, ← List.range'_append_1,
    ← List.range'_append_1]
  simp only [List.append_assoc]

section Table

variable (stamped : List UInt8) {table : List UInt8} (htable : table.length = 0x180)
include htable

theorem fileWord_table (i : Nat) :
    fileWord (fileWrite stamped (0x1000 - 0x400) table) i =
      if 768 ≤ i ∧ i < 768 + 96 then fileWord table (i - 768) else fileWord stamped i :=
  fileWord_fileWrite_words stamped (show table.length = 4 * 96 from htable) 768 i

theorem length_table :
    (fileWrite stamped (0x1000 - 0x400) table).length = max stamped.length 0xd80 := by
  rw [length_fileWrite_max, htable]

/-- The table replaces its words in the sum over the data. -/
theorem sum_dataWords_table {length : Nat} (hlength : 0xd80 ≤ length) :
    ((dataWords length).map (fileWord (fileWrite stamped (0x1000 - 0x400) table))).sum +
        (tableWords.map (fileWord stamped)).sum =
      ((dataWords length).map (fileWord stamped)).sum +
        ((List.range 96).map (fileWord table)).sum := by
  have houtside : ∀ indices : List Nat, (∀ i ∈ indices, ¬(768 ≤ i ∧ i < 768 + 96)) →
      indices.map (fileWord (fileWrite stamped (0x1000 - 0x400) table)) =
        indices.map (fileWord stamped) := by
    intro indices hout
    apply List.map_congr_left
    intro i hi
    rw [fileWord_table stamped htable, if_neg (hout i hi)]
  have hbefore := houtside (List.range' 0 48 ++ List.range' 56 712) (by
    intro i hi
    simp only [List.mem_append, List.mem_range'_1] at hi
    omega)
  have hafter := houtside (List.range' 864 (length / 4 - 864)) (by
    intro i hi
    rw [List.mem_range'_1] at hi
    omega)
  have hinside : tableWords.map (fileWord (fileWrite stamped (0x1000 - 0x400) table)) =
      (List.range 96).map (fileWord table) := by
    rw [tableWords, List.range'_eq_map_range, List.map_map]
    apply List.map_congr_left
    intro i hi
    rw [List.mem_range] at hi
    rw [Function.comp_apply, fileWord_table stamped htable, if_pos (by omega),
      Nat.add_sub_cancel_left]
  rw [dataWords_eq_append hlength]
  generalize List.range' 0 48 ++ List.range' 56 712 = before at hbefore ⊢
  rw [List.map_append, List.map_append, List.map_append, List.map_append, hbefore, hinside, hafter,
    List.sum_append, List.sum_append, List.sum_append, List.sum_append]
  generalize ((List.range 96).map (fileWord table)).sum = new
  generalize (tableWords.map (fileWord stamped)).sum = old
  rw [add_right_comm, add_right_comm _ new old, add_right_comm _ new]

end Table

/-- The table is behind the header. -/
theorem header_table {stamped table : List UInt8} (htable : table.length = 0x180)
    (hheader : fileWord stamped 55 = checksumOver stamped headerWords) :
    fileWord (fileWrite stamped (0x1000 - 0x400) table) 55 =
      checksumOver (fileWrite stamped (0x1000 - 0x400) table) headerWords := by
  have hword := fileWord_table stamped htable
  rw [hword, if_neg (by decide), hheader]
  apply checksumOver_congr
  intro i hi
  rw [mem_headerWords] at hi
  rw [hword, if_neg (by omega)]

/-- The boot file still verifies with the table in it if and only if the table does not
change the sum. -/
theorem verifies_table_iff {stamped table : List UInt8} (hverifies : Verifies stamped)
    (htable : table.length = 0x180) :
    Verifies (fileWrite stamped (0x1000 - 0x400) table) ↔
      ((List.range 96).map (fileWord table)).sum = (tableWords.map (fileWord stamped)).sum := by
  have hlength := length_table stamped htable
  have hword := fileWord_table stamped htable
  have hsum := sum_dataWords_table stamped htable
    (show 0xd80 ≤ (fileWrite stamped (0x1000 - 0x400) table).length by omega)
  have hheader := hverifies.length
  have hwhole := hverifies.whole
  rw [sum_dataWords_of_le hwhole hheader (by omega)] at hsum
  have hdata := hverifies.checksums.data
  constructor
  · intro hafter
    have hchecksum := hafter.checksums.data
    rw [hword, if_neg (by decide), hdata, checksumOver, checksumOver, UInt32.add_right_inj]
      at hchecksum
    rw [← hchecksum, UInt32.add_right_inj] at hsum
    exact hsum.symm
  · intro hsame
    rw [hsame, UInt32.add_left_inj] at hsum
    refine ⟨by omega, by omega, ?_, ?_⟩
    · rw [hword, if_neg (by decide), hdata, checksumOver, checksumOver, hsum]
    · exact header_table htable hverifies.checksums.header

/-- The table is behind the header, and behind an image that ends before it. -/
theorem verifiesGiven_table {given stamped table : List UInt8}
    (hverifies : VerifiesGiven given stamped) (htable : table.length = 0x180) :
    VerifiesGiven given (fileWrite stamped (0x1000 - 0x400) table) := by
  have hlength := length_table stamped htable
  have hheader := hverifies.length
  have hword := fileWord_table stamped htable
  constructor
  · omega
  · exact header_table htable hverifies.header
  · rw [hword, if_neg (by decide), hverifies.data]
  · intro hbefore
    rw [← hverifies.image hbefore]
    apply checksumOver_congr
    intro i hi
    rw [dataWords, List.mem_append, List.mem_range'_1, List.mem_range'_1] at hi
    rw [hword, if_neg (by omega)]

theorem field_four (word : UInt32) : field 4 (word.toNat : Int) = packWord word.toNat := by
  have hcut : ((word.toNat : Int) % 2 ^ (8 * 4)).toNat = word.toNat := by
    have := word.toNat_lt
    omega
  rw [field, hcut]
  simp [List.range_succ, packWord]

/-- The table ends with the CRC of what is before. -/
theorem partitionTable_eq_append {parts : List Partition} {table : List UInt8}
    (htable : partitionTable parts = some table) :
    ∃ body : List UInt8, body.length = 0x17c ∧ table = body ++ packWord (crc32 body).toNat := by
  have hlength := length_partitionTable htable
  rw [partitionTable] at htable
  obtain ⟨entries, -, hentries⟩ := Option.bind_eq_some_iff.mp htable
  split_ifs at hentries
  obtain rfl := Option.some.inj hentries
  rw [List.length_append, length_field] at hlength
  refine ⟨_, ?_, congrArg _ (field_four _)⟩
  omega

theorem fileWord_partitionTable_last {parts : List Partition} {table : List UInt8}
    (htable : partitionTable parts = some table) :
    fileWord table 95 = crc32 (table.take 0x17c) := by
  obtain ⟨body, hbody, rfl⟩ := partitionTable_eq_append htable
  have hpack : fileWord (packWord (crc32 body).toNat) 0 = crc32 body := by
    rw [fileWord, getD_packWord, UInt32.ofNat_toNat]
  rw [List.take_left' hbody, ← hpack]
  apply fileWord_congr
  intro k hk
  rw [hpack, List.getD_eq_getElem?_getD, List.getD_eq_getElem?_getD,
    List.getElem?_append_right (by omega)]
  congr 2
  omega

theorem tableVerifies_of_partitionTable {parts : List Partition} {table : List UInt8}
    (htable : partitionTable parts = some table) (stamped : List UInt8) :
    TableVerifies (fileWrite stamped (0x1000 - 0x400) table) := by
  have hlength := length_partitionTable htable
  have hpadded : (stamped.take 0xc00 ++ List.replicate (0xc00 - stamped.length) 0).length =
      0xc00 := by
    rw [List.length_append, List.length_take, List.length_replicate]
    omega
  rw [TableVerifies, fileWord_table stamped hlength, if_pos (by decide)]
  rw [fileWrite, List.append_assoc, List.drop_left' hpadded,
    List.take_append_of_le_length (by omega)]
  exact fileWord_partitionTable_last htable

/-! ## The whole build -/

theorem updateFiles_apply {update : List UInt8 → Option (List UInt8)} {names : List String}
    {files after : Files} (hupdate : updateFiles update names files = some after)
    (name : String) :
    after name = (if name ∈ names then (files name).bind update else files name) ∧
      (name ∈ names → (after name).isSome) := by
  rw [updateFiles] at hupdate
  split_ifs at hupdate with hall
  obtain rfl := Option.some.inj hupdate
  refine ⟨rfl, ?_⟩
  intro hname
  change (if name ∈ names then (files name).bind update else files name).isSome = true
  rw [if_pos hname]
  exact List.all_eq_true.mp hall name hname

theorem csumFile_join_eq_some_iff {part : Partition} {name : String} :
    (csumFile part).join = some name ↔
      ∃ type ∈ part.type, type ∈ ["BOOT", "SYSTEM", "RECOVERY", "DTM"] ∧ part.file = some name := by
  rw [csumFile]
  generalize ["BOOT", "SYSTEM", "RECOVERY", "DTM"] = kinds
  cases part.type with
  | none => simp
  | some type =>
      by_cases hsum : type ∈ kinds
      · cases part.file with
        | none => simp [hsum]
        | some file => simp [hsum]
      · simp [hsum]

theorem mem_csumFiles_iff {parts : List Partition} {name : String} :
    name ∈ csumFiles parts ↔ ∃ part ∈ parts, ∃ type ∈ part.type,
      type ∈ ["BOOT", "SYSTEM", "RECOVERY", "DTM"] ∧ part.file = some name := by
  rw [csumFiles, List.mem_filterMap]
  simp only [csumFile_join_eq_some_iff]

/-- The boot file is one with checksums. -/
theorem mem_csumFiles_of_bootFile {parts : List Partition} {name : String}
    (hboot : bootFile parts = some (some name)) : name ∈ csumFiles parts := by
  rw [mem_csumFiles_iff]
  induction parts with
  | nil => cases hboot
  | cons part rest ih =>
      rw [bootFile] at hboot
      obtain ⟨type, htype, hboot⟩ := Option.bind_eq_some_iff.mp hboot
      by_cases hkind : type = "BOOT"
      · rw [if_pos hkind] at hboot
        obtain ⟨fwId, -, hboot⟩ := Option.bind_eq_some_iff.mp hboot
        by_cases hzero : fwId = "0"
        · rw [if_pos hzero] at hboot
          obtain ⟨file, hfile, hname⟩ := Option.bind_eq_some_iff.mp hboot
          obtain rfl := Option.some.inj (Option.some.inj hname)
          exact ⟨part, List.mem_cons_self, type, htype, by rw [hkind]; decide, hfile⟩
        · rw [if_neg hzero] at hboot
          obtain ⟨other, hmem, hother⟩ := ih hboot
          exact ⟨other, List.mem_cons_of_mem _ hmem, hother⟩
      · rw [if_neg hkind] at hboot
        obtain ⟨other, hmem, hother⟩ := ih hboot
        exact ⟨other, List.mem_cons_of_mem _ hmem, hother⟩

/-- Without CRC segments the last pass leaves the files alone. -/
theorem generateCrcFile_eq_self {parts : List Partition} {files after : Files}
    (hcrc : ∀ part ∈ parts, part.enableCrc ≠ some "true")
    (hupdate : generateCrcFile parts files = some after) : after = files := by
  rw [generateCrcFile] at hupdate
  obtain ⟨names, hnames, hfiles⟩ := Option.bind_eq_some_iff.mp hupdate
  have hnone : crcFiles parts = [] := by
    rw [crcFiles, List.filterMap_eq_nil_iff]
    intro part hpart
    rw [crcFile]
    cases henable : part.enableCrc with
    | none => rfl
    | some enable =>
        have hfalse : enable ≠ "true" := fun htrue => hcrc part hpart (by rw [henable, htrue])
        simp [hfalse]
  rw [reduceOption_of_mapM hnames, show List.filterMap _ parts = [] from hnone] at hfiles
  funext name
  rw [(updateFiles_apply hfiles name).1, if_neg List.not_mem_nil]

/-- The files after the build: those with checksums are stamped, and the boot file has the
table on top. -/
theorem files_of_parseConfig {config : FirmwareConfig} {files : Files} {fw : Firmware}
    (hparse : parseConfig config files = some fw)
    (hcrc : ∀ part ∈ config.partitions, part.enableCrc ≠ some "true") :
    ∃ table, partitionTable config.partitions = some table ∧
      ∀ name ∈ csumFiles config.partitions, ∃ data stamped, files name = some data ∧
        addCsum data = some stamped ∧
        fw.files name = some (if bootFile config.partitions = some (some name) then
          fileWrite stamped (0x1000 - 0x400) table else stamped) := by
  obtain ⟨-, -, stampedFiles, tabled, hstamped, htabled, hfinal⟩ := parseConfig_eq_some hparse
  rw [upateDataHdrChecksum] at hstamped
  obtain ⟨names, hnames, hstamped⟩ := Option.bind_eq_some_iff.mp hstamped
  rw [reduceOption_of_mapM hnames] at hstamped
  rw [generatePartitionTable] at htabled
  obtain ⟨table, htable, htabled⟩ := Option.bind_eq_some_iff.mp htabled
  obtain ⟨boot, hboot, htabled⟩ := Option.bind_eq_some_iff.mp htabled
  refine ⟨table, htable, ?_⟩
  intro name hname
  obtain ⟨happly, hsome⟩ := updateFiles_apply hstamped name
  obtain ⟨stamped, hafter⟩ := Option.isSome_iff_exists.mp (hsome hname)
  rw [hafter, if_pos (by exact hname)] at happly
  obtain ⟨data, hdata, hadd⟩ := Option.bind_eq_some_iff.mp happly.symm
  refine ⟨data, stamped, hdata, hadd, ?_⟩
  have hmem : name ∈ boot.toList ↔ bootFile config.partitions = some (some name) := by
    rw [hboot, Option.mem_toList, Option.some.injEq]
  rw [generateCrcFile_eq_self hcrc hfinal, (updateFiles_apply htabled name).1, hafter]
  simp only [hmem]
  split
  next => rfl
  next => rfl

/-- The partition table in the boot file has its CRC. -/
theorem tableVerifies_of_parseConfig {config : FirmwareConfig} {files : Files} {fw : Firmware}
    (hparse : parseConfig config files = some fw)
    (hcrc : ∀ part ∈ config.partitions, part.enableCrc ≠ some "true") {name : String}
    (hboot : bootFile config.partitions = some (some name)) :
    ∃ data, fw.files name = some data ∧ TableVerifies data := by
  obtain ⟨table, htable, hfiles⟩ := files_of_parseConfig hparse hcrc
  obtain ⟨data, stamped, -, -, hafter⟩ := hfiles name (mem_csumFiles_of_bootFile hboot)
  rw [if_pos hboot] at hafter
  exact ⟨_, hafter, tableVerifies_of_partitionTable htable stamped⟩

/-- For every configuration that is accepted and enables no CRC, all checksums and the CRC of
the table hold at the end if and only if the table does not change the sum of the boot
file. -/
theorem checksums_hold_iff {config : FirmwareConfig} {files : Files} {fw : Firmware}
    (hparse : parseConfig config files = some fw)
    (hcrc : ∀ part ∈ config.partitions, part.enableCrc ≠ some "true") :
    ChecksumsHold fw ↔ TableFits config files := by
  obtain ⟨hparts, -, -⟩ := parseConfig_eq_some hparse
  obtain ⟨table, htable, hfiles⟩ := files_of_parseConfig hparse hcrc
  have hlength := length_partitionTable htable
  -- the words that the table replaces are those of the file before the build
  have hold : ∀ data stamped : List UInt8, addCsum data = some stamped →
      tableWords.map (fileWord stamped) = tableWords.map (fileWord data) := by
    intro data stamped hadd
    apply List.map_congr_left
    intro i hi
    rw [tableWords, List.mem_range'_1] at hi
    exact (addCsum_spec hadd).2 i (by omega) (by omega)
  constructor
  · rintro ⟨hverifies, -⟩ name hboot data hdata other hother
    obtain rfl := Option.some.inj (htable.symm.trans hother)
    obtain ⟨found, stamped, hfound, hadd, hafter⟩ := hfiles name (mem_csumFiles_of_bootFile hboot)
    obtain rfl := Option.some.inj (hfound.symm.trans hdata)
    rw [if_pos hboot] at hafter
    obtain ⟨part, hpart, type, htype, hkind, hname⟩ :=
      mem_csumFiles_iff.mp (mem_csumFiles_of_bootFile hboot)
    rw [hparts] at hverifies
    obtain ⟨final, hfinal, hok⟩ := hverifies part hpart type htype hkind name hname
    obtain rfl := Option.some.inj (hafter.symm.trans hfinal)
    rw [(verifies_table_iff (addCsum_spec hadd).1 hlength).mp hok, hold found stamped hadd]
  · intro hfits
    constructor
    · rw [hparts]
      intro part hpart type htype hkind name hname
      obtain ⟨data, stamped, hdata, hadd, hafter⟩ :=
        hfiles name (mem_csumFiles_iff.mpr ⟨part, hpart, type, htype, hkind, hname⟩)
      refine ⟨_, hafter, ?_⟩
      split
      next hboot =>
        rw [verifies_table_iff (addCsum_spec hadd).1 hlength, hold data stamped hadd]
        exact hfits name hboot data hdata table htable
      next => exact (addCsum_spec hadd).1
    · rw [hparts]
      exact fun name => tableVerifies_of_parseConfig hparse hcrc

/-- For every configuration that is accepted and enables no CRC, every file holds the checksums
that it had when it was stamped, and the CRC of the table holds. -/
theorem images_verify {config : FirmwareConfig} {files : Files} {fw : Firmware}
    (hparse : parseConfig config files = some fw)
    (hcrc : ∀ part ∈ config.partitions, part.enableCrc ≠ some "true") :
    ImagesVerify files fw := by
  obtain ⟨hparts, -, -⟩ := parseConfig_eq_some hparse
  obtain ⟨table, htable, hfiles⟩ := files_of_parseConfig hparse hcrc
  have hlength := length_partitionTable htable
  constructor
  · rw [hparts]
    intro part hpart type htype hkind name hname
    obtain ⟨given, stamped, hgiven, hadd, hafter⟩ :=
      hfiles name (mem_csumFiles_iff.mpr ⟨part, hpart, type, htype, hkind, hname⟩)
    refine ⟨given, _, hgiven, hafter, ?_⟩
    split
    next hboot =>
      exact ⟨verifiesGiven_table (verifiesGiven_of_addCsum hadd) hlength,
        fun hother => absurd hboot hother⟩
    next => exact ⟨verifiesGiven_of_addCsum hadd, fun _ => (addCsum_spec hadd).1⟩
  · rw [hparts]
    exact fun name => tableVerifies_of_parseConfig hparse hcrc

/-- A boot partition and nothing else. -/
def bootConfig : FirmwareConfig where
  partitions := [{
    name := some "boot", type := some "BOOT", file := some "boot.bin", address := some "0x0",
    enableCrc := some "false", fwId := some "0" }]

/-- A boot file of zeros of a given length. -/
def bootFiles (length : Nat) : Files := fun name =>
  if name = "boot.bin" then some (List.replicate length 0) else none

theorem images_verify_bootConfig :
    ∃ fw, parseConfig bootConfig (bootFiles 0x100) = some fw ∧
      ImagesVerify (bootFiles 0x100) fw := by
  have hsome : (parseConfig bootConfig (bootFiles 0x100)).isSome := by decide +kernel
  obtain ⟨fw, hparse⟩ := Option.isSome_iff_exists.mp hsome
  exact ⟨fw, hparse, images_verify hparse (by decide)⟩

theorem fileWord_replicate_zero (length i : Nat) : fileWord (List.replicate length 0) i = 0 := by
  have hbyte : ∀ n, (List.replicate length (0 : UInt8)).getD n 0 = 0 := by
    intro n
    rw [List.getD_eq_getElem?_getD, List.getElem?_replicate]
    split
    next => rfl
    next => rfl
  rw [fileWord, hbyte, hbyte, hbyte, hbyte]
  rfl

/-- The step of `crc32` for one byte. -/
def crcByte (crc : UInt32) (byte : UInt8) : UInt32 :=
  (fun crc : UInt32 => if crc &&& 1 ≠ 0 then (crc >>> 1) ^^^ 0xedb88320 else crc >>> 1)^[8]
    (crc ^^^ byte.toUInt32)

/-- The state of `crc32` as a number, which is evaluated after each byte. -/
def crcState : List UInt8 → Nat → Nat
  | [], crc => crc
  | byte :: rest, 0 => crcState rest (crcByte 0 byte).toNat
  | byte :: rest, crc + 1 => crcState rest (crcByte (UInt32.ofNat (crc + 1)) byte).toNat

theorem crcState_toNat (data : List UInt8) (crc : UInt32) :
    crcState data crc.toNat = (data.foldl crcByte crc).toNat := by
  induction data generalizing crc with
  | nil => rfl
  | cons byte rest ih =>
      rw [List.foldl_cons, ← ih]
      cases hcrc : crc.toNat with
      | zero =>
          have hzero : crc = 0 := UInt32.toNat_inj.mp hcrc
          rw [hzero, crcState]
      | succ value =>
          have hvalue : UInt32.ofNat (value + 1) = crc := by rw [← hcrc, UInt32.ofNat_toNat]
          rw [crcState, hvalue]

theorem crc32_eq_crcState (data : List UInt8) :
    crc32 data = UInt32.ofNat (crcState data 0xffffffff) ^^^ 0xffffffff := by
  have hstate := crcState_toNat data 0xffffffff
  rw [show crcState data 0xffffffff = (data.foldl crcByte 0xffffffff).toNat from hstate,
    UInt32.ofNat_toNat]
  rfl

/-- The sum of a partition table, from the sum of the bytes before its CRC. -/
theorem sum_partitionTable {parts : List Partition} {table : List UInt8}
    (htable : partitionTable parts = some table) :
    (calcChecksum (table.take 0x17c)).map (fun sum => UInt32.ofNat sum +
      (UInt32.ofNat (crcState (table.take 0x17c) 0xffffffff) ^^^ 0xffffffff)) =
      some ((List.range 96).map (fileWord table)).sum := by
  have hlength := length_partitionTable htable
  obtain ⟨data, hread, hsum⟩ := calcChecksum_fileRead table 0 95 (by omega)
  have hdata : some (table.take 0x17c) = some data := hread
  rw [Option.some.inj hdata, hsum, Option.map_some, ofNat_sum_toNat, ← Option.some.inj hdata,
    ← crc32_eq_crcState, ← fileWord_partitionTable_last htable, List.range_succ, List.map_append,
    List.sum_append, List.map_singleton, List.sum_singleton, List.range_eq_range']

/-- The table of the boot partition does not have the sum of the zeros that it replaces. -/
theorem boot_checksum_broken :
    ∃ fw, parseConfig bootConfig (bootFiles 0x1000) = some fw ∧
      (∀ part ∈ bootConfig.partitions, part.enableCrc = some "false") ∧ ¬ChecksumsHold fw := by
  have hsome : (parseConfig bootConfig (bootFiles 0x1000)).isSome := by decide +kernel
  obtain ⟨fw, hparse⟩ := Option.isSome_iff_exists.mp hsome
  refine ⟨fw, hparse, by decide, ?_⟩
  rintro ⟨hfiles, -⟩
  obtain ⟨table, htable, hstamped⟩ := files_of_parseConfig hparse (by decide)
  obtain ⟨data, stamped, hdata, hadd, hafter⟩ := hstamped "boot.bin" (by decide)
  obtain rfl : List.replicate 0x1000 0 = data := Option.some.inj hdata
  rw [if_pos (by decide)] at hafter
  rw [(parseConfig_eq_some hparse).1] at hfiles
  obtain ⟨final, hfinal, hverifies⟩ :=
    hfiles _ List.mem_cons_self "BOOT" rfl (by decide) "boot.bin" rfl
  obtain rfl := Option.some.inj (hafter.symm.trans hfinal)
  have hlength := length_partitionTable htable
  have hsum := (verifies_table_iff (addCsum_spec hadd).1 hlength).mp hverifies
  have hzero : (tableWords.map (fileWord stamped)).sum = 0 := by
    apply List.sum_eq_zero
    intro word hword
    obtain ⟨i, hi, rfl⟩ := List.mem_map.mp hword
    rw [tableWords, List.mem_range'_1] at hi
    rw [(addCsum_spec hadd).2 i (by omega) (by omega), fileWord_replicate_zero]
  have hnonzero : ((partitionTable bootConfig.partitions).bind fun table =>
      (calcChecksum (table.take 0x17c)).map fun sum => UInt32.ofNat sum +
        (UInt32.ofNat (crcState (table.take 0x17c) 0xffffffff) ^^^ 0xffffffff)) ≠ some 0 := by
    decide +kernel
  rw [htable, Option.bind_some, sum_partitionTable htable, hsum, hzero] at hnonzero
  exact hnonzero rfl

end CubieBle.Build
