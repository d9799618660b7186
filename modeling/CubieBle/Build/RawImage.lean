import CubieBle.Build.Firmware
import CubieBle.Machine.Ranges

/-! # The raw image

The image is written partition by partition, each file over what is there. The script checks
a file only against a size that is given in the configuration, so that nothing keeps a file
without one from running into the next partition.
-/

namespace CubieBle.Build

open Loader Machine

/-! ## The contract -/

/-- The partitions that go into the image, with their addresses and files. -/
def rawWrites (address : String → Option Int) (parts : List Partition) (files : Files) :
    List (Int × List UInt8) :=
  parts.filterMap fun part =>
    if part.enableRaw = some "true" then do
      let addr ← address (← part.address)
      let data ← files (← part.file)
      return (addr, data)
    else none

/-- The ranges of these partitions, for files of the given lengths. -/
def rawRanges (parts : List Partition) (lengths : String → Option Nat) : List (Int × Int) :=
  parts.filterMap fun part =>
    if part.enableRaw = some "true" then do
      let addr ← pyInt0 (← part.address)
      let length ← lengths (← part.file)
      return (addr, addr + length)
    else none

/-- The lengths of files. -/
def Files.lengths (files : Files) (name : String) : Option Nat := (files name).map List.length

/-- The ranges of the raw partitions are disjoint and lie on the disk. -/
def RangesSound (fw : Firmware) : Prop :=
  Separate (rawRanges fw.partitions fw.files.lengths) ∧
    Inside 0 fw.diskSize (rawRanges fw.partitions fw.files.lengths)

/-- The image has a file at its address. -/
def HoldsAt (image : List UInt8) (write : Int × List UInt8) : Prop :=
  ∀ k < write.2.length, image[write.1.toNat + k]? = write.2[k]?

/-- The image has every raw partition at the address of the configuration. -/
def ImageHolds (fw : Firmware) (image : List UInt8) : Prop :=
  ∀ write ∈ rawWrites pyInt0 fw.partitions fw.files, HoldsAt image write

/-! ## The condition -/

/-- The files with checksums in their header. -/
def csumFiles (parts : List Partition) : List String :=
  parts.filterMap fun part => (csumFile part).join

/-- The files with CRC segments. -/
def crcFiles (parts : List Partition) : List String :=
  parts.filterMap fun part => (crcFile part).join

/-- The length of a file after the script: a header with checksums has 0xe0 bytes at least,
the boot file reaches to the end of the partition table, and 32 bytes become 34. -/
def finalLength (parts : List Partition) (name : String) (length : Nat) : Nat :=
  let length := if name ∈ csumFiles parts then max length 0xe0 else length
  let length := if bootFile parts = some (some name) then max length 0xd80 else length
  if name ∈ crcFiles parts then (length + 31) / 32 * 34 else length

/-- In the order of their addresses, each nonempty raw partition with its final length ends
before the next one starts, the first does not start below 0 and the last ends on the disk. -/
def LayoutFits (config : FirmwareConfig) (files : Files) (diskSize : Int) : Prop :=
  Consecutive 0 diskSize
    (inOrder (rawRanges config.partitions fun name =>
      (files.lengths name).map (finalLength config.partitions name)))

/-- The addresses of the raw partitions read the same with and without the base 16. -/
def HexAddresses (parts : List Partition) : Prop :=
  ∀ part ∈ parts, part.enableRaw = some "true" → ∀ text ∈ part.address,
    pyInt16 text = pyInt0 text

instance (parts : List Partition) : Decidable (HexAddresses parts) :=
  inferInstanceAs (Decidable (∀ part ∈ parts, part.enableRaw = some "true" →
    ∀ text ∈ part.address, pyInt16 text = pyInt0 text))

/-! ## Lengths -/

theorem length_packWord (value : Nat) : (packWord value).length = 4 := rfl

theorem length_addCsum {file stamped : List UInt8} (hadd : addCsum file = some stamped) :
    stamped.length = max file.length 0xe0 := by
  simp only [addCsum, Option.bind_eq_bind, Option.bind_eq_some_iff, Option.some.injEq] at hadd
  obtain ⟨_, -, _, -, _, -, _, -, _, -, _, -, rfl⟩ := hadd
  rw [length_fileWrite_max, length_fileWrite_max, length_packWord, length_packWord]
  omega

theorem length_field (width : Nat) (value : Int) : (field width value).length = width := by
  rw [field, List.length_map, List.length_range]

theorem length_partitionTable {parts : List Partition} {table : List UInt8}
    (htable : partitionTable parts = some table) : table.length = 0x180 := by
  rw [partitionTable] at htable
  obtain ⟨entries, -, hentries⟩ := Option.bind_eq_some_iff.mp htable
  split_ifs at hentries
  obtain rfl := Option.some.inj hentries
  simp only [List.length_append, length_field, List.length_take, List.length_replicate]
  omega

theorem length_crcSegment {chunk : List UInt8} (hchunk : chunk.length ≤ 32) :
    (crcSegment chunk).length = 34 := by
  rw [crcSegment]
  simp only [List.length_append, List.length_replicate, length_field, chunkSize]
  omega

theorem length_addCrc (filedata : List UInt8) :
    (addCrc filedata).length = (filedata.length + 31) / 32 * 34 := by
  have hsegment : ∀ i, (crcSegment ((filedata.drop (i * chunkSize)).take chunkSize)).length = 34 :=
    fun i => length_crcSegment (List.length_take_le _ _)
  rw [addCrc, List.length_flatMap]
  simp only [hsegment]
  rw [List.map_const', List.sum_replicate_nat, List.length_range]
  rfl

/-! ## What the script does to the files -/

section Files

variable {update : List UInt8 → Option (List UInt8)} {names : List String} {files after : Files}

/-- An update that succeeds changes the lengths of the named files only. -/
theorem lengths_updateFiles (grow : Nat → Nat)
    (hgrow : ∀ data updated, update data = some updated → updated.length = grow data.length)
    (hupdate : updateFiles update names files = some after) (name : String) :
    after.lengths name =
      (files.lengths name).map fun length => if name ∈ names then grow length else length := by
  rw [updateFiles] at hupdate
  split_ifs at hupdate with hall
  obtain rfl := Option.some.inj hupdate
  rw [Files.lengths, Files.lengths]
  by_cases hname : name ∈ names
  · simp only [if_pos hname]
    obtain ⟨updated, hupdated⟩ :=
      Option.isSome_iff_exists.mp (List.all_eq_true.mp hall name hname)
    obtain ⟨data, hdata, hsome⟩ := Option.bind_eq_some_iff.mp hupdated
    rw [hdata, Option.bind_some, hsome, Option.map_some, Option.map_some, Option.map_some,
      hgrow data updated hsome]
  · simp only [if_neg hname, Option.map_id']

/-- The names that a loop over the partitions collects. -/
theorem reduceOption_of_mapM {Item Name : Type} {collect : Item → Option (Option Name)}
    {items : List Item} {found : List (Option Name)} (hfound : items.mapM collect = some found) :
    found.reduceOption = items.filterMap fun item => (collect item).join := by
  induction items generalizing found with
  | nil =>
      obtain rfl := Option.some.inj hfound
      rfl
  | cons item rest ih =>
      rw [List.mapM_cons] at hfound
      obtain ⟨name, hname, hrest⟩ := Option.bind_eq_some_iff.mp hfound
      obtain ⟨others, hothers, hcons⟩ := Option.bind_eq_some_iff.mp hrest
      obtain rfl := Option.some.inj hcons
      cases name with
      | none =>
          have hskip : (collect item).join = none := by rw [hname, Option.join_some]
          rw [List.reduceOption_cons_of_none, ih hothers, List.filterMap_cons, hskip]
      | some name =>
          have hkeep : (collect item).join = some name := by rw [hname, Option.join_some]
          rw [List.reduceOption_cons_of_some, ih hothers, List.filterMap_cons, hkeep]

end Files

theorem lengths_upateDataHdrChecksum {parts : List Partition} {files after : Files}
    (hupdate : upateDataHdrChecksum parts files = some after) (name : String) :
    after.lengths name = (files.lengths name).map fun length =>
      if name ∈ csumFiles parts then max length 0xe0 else length := by
  rw [upateDataHdrChecksum] at hupdate
  obtain ⟨names, hnames, hfiles⟩ := Option.bind_eq_some_iff.mp hupdate
  rw [reduceOption_of_mapM hnames] at hfiles
  exact lengths_updateFiles (fun length => max length 0xe0) (fun _ _ => length_addCsum) hfiles name

theorem lengths_generatePartitionTable {parts : List Partition} {files after : Files}
    (hupdate : generatePartitionTable parts files = some after) (name : String) :
    after.lengths name = (files.lengths name).map fun length =>
      if bootFile parts = some (some name) then max length 0xd80 else length := by
  rw [generatePartitionTable] at hupdate
  obtain ⟨table, htable, hrest⟩ := Option.bind_eq_some_iff.mp hupdate
  obtain ⟨boot, hboot, hfiles⟩ := Option.bind_eq_some_iff.mp hrest
  have hgrow : ∀ data updated,
      some (fileWrite data (0x1000 - 0x400) table) = some updated →
        updated.length = max data.length 0xd80 := by
    intro data updated hsome
    obtain rfl := Option.some.inj hsome
    rw [length_fileWrite_max, length_partitionTable htable]
  have hmem : name ∈ boot.toList ↔ bootFile parts = some (some name) := by
    rw [hboot, Option.mem_toList, Option.some.injEq]
  rw [lengths_updateFiles (fun length => max length 0xd80) hgrow hfiles name]
  simp only [hmem]

theorem lengths_generateCrcFile {parts : List Partition} {files after : Files}
    (hupdate : generateCrcFile parts files = some after) (name : String) :
    after.lengths name = (files.lengths name).map fun length =>
      if name ∈ crcFiles parts then (length + 31) / 32 * 34 else length := by
  rw [generateCrcFile] at hupdate
  obtain ⟨names, hnames, hfiles⟩ := Option.bind_eq_some_iff.mp hupdate
  rw [reduceOption_of_mapM hnames] at hfiles
  refine lengths_updateFiles (fun length => (length + 31) / 32 * 34) ?_ hfiles name
  intro data updated hsome
  obtain rfl := Option.some.inj hsome
  exact length_addCrc data

/-- What an accepted configuration went through. -/
theorem parseConfig_eq_some {config : FirmwareConfig} {files : Files} {fw : Firmware}
    (hparse : parseConfig config files = some fw) :
    fw.partitions = config.partitions ∧ config.disk = some fw.diskSize ∧
      ∃ stamped tabled, upateDataHdrChecksum config.partitions files = some stamped ∧
        generatePartitionTable config.partitions stamped = some tabled ∧
        generateCrcFile config.partitions tabled = some fw.files := by
  rw [parseConfig] at hparse
  obtain ⟨diskSize, hdisk, hparse⟩ := Option.bind_eq_some_iff.mp hparse
  split_ifs at hparse
  obtain ⟨stamped, hstamped, hparse⟩ := Option.bind_eq_some_iff.mp hparse
  obtain ⟨tabled, htabled, hparse⟩ := Option.bind_eq_some_iff.mp hparse
  obtain ⟨final, hfinal, hparse⟩ := Option.bind_eq_some_iff.mp hparse
  obtain ⟨parts, -, hparse⟩ := Option.bind_eq_some_iff.mp hparse
  obtain ⟨sizes, -, hparse⟩ := Option.bind_eq_some_iff.mp hparse
  split_ifs at hparse
  obtain rfl := Option.some.inj hparse
  exact ⟨rfl, hdisk, stamped, tabled, hstamped, htabled, hfinal⟩

/-- The lengths of the files after the script. -/
theorem lengths_parseConfig {config : FirmwareConfig} {files : Files} {fw : Firmware}
    (hparse : parseConfig config files = some fw) (name : String) :
    fw.files.lengths name = (files.lengths name).map (finalLength config.partitions name) := by
  obtain ⟨-, -, stamped, tabled, hstamped, htabled, hfinal⟩ := parseConfig_eq_some hparse
  rw [lengths_generateCrcFile hfinal, lengths_generatePartitionTable htabled,
    lengths_upateDataHdrChecksum hstamped, Option.map_map, Option.map_map]
  rfl

/-! ## Writing the image -/

section Image

variable {image : List UInt8} {write : Int × List UInt8}

/-- The range of a file at its address. -/
def writeRange (write : Int × List UInt8) : Int × Int := (write.1, write.1 + write.2.length)

theorem rawRanges_eq_map (parts : List Partition) (files : Files) :
    rawRanges parts files.lengths = (rawWrites pyInt0 parts files).map writeRange := by
  rw [rawRanges, rawWrites, List.map_filterMap]
  apply List.filterMap_congr
  intro part _
  split
  next =>
    cases part.address with
    | none => rfl
    | some text =>
        cases part.file with
        | none => cases pyInt0 text <;> simp
        | some name =>
            cases hparse : pyInt0 text with
            | none => simp [hparse]
            | some addr =>
                cases hfile : files name with
                | none => simp [Files.lengths, hfile]
                | some data => simp [hparse, Files.lengths, hfile, writeRange]
  next => rfl

/-- A nonempty file whose range is on the disk is written there. -/
theorem ddFile_eq_fileWrite (hdata : write.2 ≠ [])
    (hinside : covered (writeRange write) ⊆ covered (0, (image.length : Int))) :
    ddFile (some write.2) image write.1 = fileWrite image write.1.toNat write.2 ∧
      0 ≤ write.1 ∧ write.1.toNat + write.2.length ≤ image.length := by
  have hpos : 0 < write.2.length := List.length_pos_iff.mpr hdata
  have hrange : (writeRange write).1 < (writeRange write).2 := by
    rw [writeRange]
    omega
  obtain ⟨hlow, hhigh⟩ := (covered_subset_iff hrange).mp hinside
  rw [writeRange] at hlow hhigh
  refine ⟨?_, hlow, by omega⟩
  rw [ddFile, if_neg]
  rintro (hneg | hempty)
  · omega
  · exact hdata hempty

theorem length_ddFile
    (hinside : covered (writeRange write) ⊆ covered (0, (image.length : Int))) :
    (ddFile (some write.2) image write.1).length = image.length := by
  by_cases hdata : write.2 = []
  · rw [ddFile, if_pos (.inr hdata)]
  · obtain ⟨hdd, -, hfits⟩ := ddFile_eq_fileWrite hdata hinside
    rw [hdd, length_fileWrite hfits]

theorem holdsAt_ddFile
    (hinside : covered (writeRange write) ⊆ covered (0, (image.length : Int))) :
    HoldsAt (ddFile (some write.2) image write.1) write := by
  intro k hk
  have hdata : write.2 ≠ [] := List.length_pos_iff.mp (Nat.lt_of_le_of_lt (Nat.zero_le k) hk)
  obtain ⟨hdd, -, hfits⟩ := ddFile_eq_fileWrite hdata hinside
  rw [hdd, getElem?_fileWrite hfits, if_pos ⟨by omega, by omega⟩, Nat.add_sub_cancel_left]

/-- Outside its range a write changes nothing. -/
theorem getElem?_ddFile_of_not_mem
    (hinside : covered (writeRange write) ⊆ covered (0, (image.length : Int)))
    {i : Nat} (hi : (i : Int) ∉ covered (writeRange write)) :
    (ddFile (some write.2) image write.1)[i]? = image[i]? := by
  by_cases hdata : write.2 = []
  · rw [ddFile, if_pos (.inr hdata)]
  · obtain ⟨hdd, hlow, hfits⟩ := ddFile_eq_fileWrite hdata hinside
    rw [hdd, getElem?_fileWrite hfits, if_neg]
    rintro ⟨hge, hlt⟩
    refine hi ⟨?_, ?_⟩
    · rw [writeRange]
      omega
    · rw [writeRange]
      omega

/-- Writes to separate ranges on the disk all stay, and nothing else changes. -/
theorem holdsAt_foldl (writes : List (Int × List UInt8)) (image : List UInt8)
    (hseparate : Separate (writes.map writeRange))
    (hinside : Inside 0 (image.length : Int) (writes.map writeRange)) :
    (∀ write ∈ writes, HoldsAt
      (writes.foldl (fun image write => ddFile (some write.2) image write.1) image) write) ∧
    ∀ i : Nat,
      (∀ write ∈ writes, (i : Int) ∉ covered (writeRange write)) →
      (writes.foldl (fun image write => ddFile (some write.2) image write.1) image)[i]? =
        image[i]? := by
  induction writes generalizing image with
  | nil => exact ⟨fun write hwrite => absurd hwrite List.not_mem_nil, fun _ _ => rfl⟩
  | cons write rest ih =>
      rw [List.map_cons, Separate, List.pairwise_cons] at hseparate
      obtain ⟨hhead, htail⟩ := hseparate
      have hwrite := hinside (writeRange write) List.mem_cons_self
      have hlength := length_ddFile hwrite
      have hrest : Inside 0 ((ddFile (some write.2) image write.1).length : Int)
          (rest.map writeRange) := by
        rw [hlength]
        exact fun range hrange => hinside range (List.mem_cons_of_mem _ hrange)
      obtain ⟨hholds, hsame⟩ := ih (ddFile (some write.2) image write.1) htail hrest
      rw [List.foldl_cons]
      refine ⟨?_, ?_⟩
      · intro other hother
        rcases List.mem_cons.mp hother with rfl | hother
        · -- the later writes do not reach into this range
          intro k hk
          have hfirst := holdsAt_ddFile hwrite k hk
          have hdata : other.2 ≠ [] :=
            List.length_pos_iff.mp (Nat.lt_of_le_of_lt (Nat.zero_le k) hk)
          obtain ⟨-, hlow, -⟩ := ddFile_eq_fileWrite hdata hwrite
          have hmem : ((other.1.toNat + k : Nat) : Int) ∈
              covered (writeRange other) := by
            rw [writeRange]
            exact ⟨by omega, by omega⟩
          rw [hsame (other.1.toNat + k) ?_, hfirst]
          intro later hlater hin
          exact Set.disjoint_left.mp (hhead (writeRange later) (List.mem_map_of_mem hlater)) hmem
            hin
        · exact hholds other hother
      · intro i hi
        rw [hsame i fun other hother => hi other (List.mem_cons_of_mem _ hother)]
        exact getElem?_ddFile_of_not_mem hwrite (hi write List.mem_cons_self)

end Image

/-- The loop writes one partition after the other. -/
theorem foldlM_writePart {files : Files} {parts : List Partition} {image result : List UInt8}
    (hresult : parts.foldlM (writePart files) image = some result) :
    result = (rawWrites pyInt16 parts files).foldl
      (fun image write => ddFile (some write.2) image write.1) image := by
  induction parts generalizing image with
  | nil => exact (Option.some.inj hresult).symm
  | cons part rest ih =>
      rw [List.foldlM_cons] at hresult
      obtain ⟨next, hnext, hrest⟩ := Option.bind_eq_some_iff.mp hresult
      rw [ih hrest]
      rw [writePart] at hnext
      obtain ⟨raw, hraw, hnext⟩ := Option.bind_eq_some_iff.mp hnext
      rw [rawWrites, rawWrites, List.filterMap_cons, hraw]
      by_cases htrue : raw = "true"
      · rw [if_pos htrue] at hnext
        obtain ⟨text, htext, hnext⟩ := Option.bind_eq_some_iff.mp hnext
        obtain ⟨addr, haddr, hnext⟩ := Option.bind_eq_some_iff.mp hnext
        obtain ⟨file, hfile, hnext⟩ := Option.bind_eq_some_iff.mp hnext
        obtain rfl := Option.some.inj hnext
        rw [if_pos (congrArg some htrue), htext, hfile]
        cases hdata : files file with
        | none => simp [hdata, ddFile]
        | some data => simp [haddr, hdata]
      · rw [if_neg htrue] at hnext
        obtain rfl := Option.some.inj hnext
        rw [if_neg fun heq => htrue (Option.some.inj heq)]

theorem rawWrites_of_hexAddresses {parts : List Partition} (hhex : HexAddresses parts)
    (files : Files) : rawWrites pyInt16 parts files = rawWrites pyInt0 parts files := by
  apply List.filterMap_congr
  intro part hpart
  split
  next hraw =>
    cases htext : part.address with
    | none => rfl
    | some text =>
        have hsame := hhex part hpart hraw text htext
        simp [hsame]
  next => rfl

/-- Files at separate ranges on the disk are in the image as they are. -/
theorem imageHolds_of_rangesSound {fw : Firmware} (hsound : RangesSound fw)
    (hhex : HexAddresses fw.partitions) {image : List UInt8}
    (himage : generateRawImage fw = some image) : ImageHolds fw image := by
  obtain ⟨hseparate, hinside⟩ := hsound
  rw [rawRanges_eq_map] at hseparate hinside
  have hdisk : Inside 0 ((List.replicate fw.diskSize.toNat (0xff : UInt8)).length : Int)
      ((rawWrites pyInt0 fw.partitions fw.files).map writeRange) := by
    intro range hrange
    refine (hinside range hrange).trans (Set.Ico_subset_Ico_right ?_)
    rw [List.length_replicate]
    exact Int.self_le_toNat _
  rw [foldlM_writePart himage, rawWrites_of_hexAddresses hhex]
  exact (holdsAt_foldl _ _ hseparate hdisk).1

theorem rangesSound_iff {config : FirmwareConfig} {files : Files} {fw : Firmware}
    (hparse : parseConfig config files = some fw) :
    RangesSound fw ↔ LayoutFits config files fw.diskSize := by
  have hlengths : fw.files.lengths = fun name =>
      (files.lengths name).map (finalLength config.partitions name) := by
    funext name
    exact lengths_parseConfig hparse name
  rw [RangesSound, LayoutFits, (parseConfig_eq_some hparse).1, hlengths]
  exact separate_inside_iff_consecutive

/-- For an accepted configuration the raw partitions are separate and on the disk exactly if
their final files fit in the order of the addresses; and then, if the addresses are in base
16, the image has every file at its address. -/
theorem raw_image_sound_iff {config : FirmwareConfig} {files : Files} {fw : Firmware}
    (hparse : parseConfig config files = some fw) :
    (RangesSound fw ↔ LayoutFits config files fw.diskSize) ∧
      (LayoutFits config files fw.diskSize → HexAddresses config.partitions →
        ∀ image, generateRawImage fw = some image → ImageHolds fw image) := by
  refine ⟨rangesSound_iff hparse, ?_⟩
  intro hfits hhex image himage
  rw [← (parseConfig_eq_some hparse).1] at hhex
  exact imageHolds_of_rangesSound ((rangesSound_iff hparse).mpr hfits) hhex himage

/-- A partition of data without a size. -/
def dataPart (name file address enableCrc : String) : Partition where
  name := some name
  type := some "DATA"
  file := some file
  address := some address
  enableCrc := some enableCrc
  enableRaw := some "true"

/-- Two partitions, the second with CRC segments, in 8 KB. -/
def twoParts : FirmwareConfig where
  diskSize := some "0x2000"
  partitions := [dataPart "first" "a.bin" "0x0" "false", dataPart "second" "b.bin" "0x1000" "true"]

def twoFiles (length : Nat) : Files := fun name =>
  if name = "a.bin" then some (List.replicate length 0xa5)
  else if name = "b.bin" then some [0x5a]
  else none

/-- The ranges of the two partitions in order. -/
def twoRanges (length : Nat) : List (Int × Int) :=
  inOrder (rawRanges twoParts.partitions fun name =>
    ((twoFiles length).lengths name).map (finalLength twoParts.partitions name))

theorem diskSize_twoParts {files : Files} {fw : Firmware}
    (hparse : parseConfig twoParts files = some fw) : fw.diskSize = 0x2000 := by
  have hdisk : twoParts.disk = some 0x2000 := by decide
  rw [(parseConfig_eq_some hparse).2.1] at hdisk
  exact Option.some.inj hdisk

theorem raw_image_sound_iff_twoParts :
    ∃ fw image, parseConfig twoParts (twoFiles 3) = some fw ∧
      generateRawImage fw = some image ∧ RangesSound fw ∧ ImageHolds fw image := by
  have hsome : ((parseConfig twoParts (twoFiles 3)).bind generateRawImage).isSome := by
    decide
  obtain ⟨image, himage⟩ := Option.isSome_iff_exists.mp hsome
  obtain ⟨fw, hparse, himage⟩ := Option.bind_eq_some_iff.mp himage
  have hfits : LayoutFits twoParts (twoFiles 3) fw.diskSize := by
    have hranges : twoRanges 3 = [(0, 3), (0x1000, 0x1022)] := by decide
    rw [twoRanges] at hranges
    rw [LayoutFits, hranges, diskSize_twoParts hparse]
    exact ⟨by decide, by decide, by decide⟩
  have hhex : HexAddresses twoParts.partitions := by decide
  obtain ⟨hsound, hholds⟩ := raw_image_sound_iff hparse
  exact ⟨fw, image, hparse, himage, hsound.mpr hfits, hholds hfits hhex image himage⟩

/-- The script accepts a file that is a byte too long, as it has no size to check. -/
theorem long_file_overlaps :
    ∃ fw, parseConfig twoParts (twoFiles 0x1001) = some fw ∧ ¬RangesSound fw := by
  have hsome : (parseConfig twoParts (twoFiles 0x1001)).isSome := by decide +kernel
  obtain ⟨fw, hparse⟩ := Option.isSome_iff_exists.mp hsome
  refine ⟨fw, hparse, ?_⟩
  have hranges : twoRanges 0x1001 = [(0, 0x1001), (0x1000, 0x1022)] := by decide +kernel
  rw [twoRanges] at hranges
  rw [rangesSound_iff hparse, LayoutFits, hranges]
  intro hfits
  have hchain := hfits.chain
  revert hchain
  decide

end CubieBle.Build
