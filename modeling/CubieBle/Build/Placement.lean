import CubieBle.Build.PartitionTable

/-! # Where the loader looks for an image

The address of a partition is a text. The table has it as a number, once cut to the sectors of the
flash, and `dd` gets it as a number in base 16; the loader starts what is at the place in the table.
-/

namespace CubieBle.Build

open Loader Machine

/-! ## The contract -/

/-- The first byte of the file of a partition is in the image at a position: `dd` puts it there,
and no file of a later partition is written over it. -/
structure FirstByteAt (files : Files) (part : Partition) (after : List Partition)
    (data image : List UInt8) (position : Nat) : Prop where
  put : part.address.bind pyInt16 = some (position : Int)
  kept : ∀ write ∈ rawWrites pyInt16 after files, 0 ≤ write.1 →
    (position : Int) ∉ covered (writeRange write)
  byte : image[position]? = data[0]?

/-- A partition that goes into the image, with a file that has a first byte. -/
structure HasFirstByte (files : Files) (part : Partition) (data : List UInt8) : Prop where
  raw : part.enableRaw = some "true"
  file : part.file.bind files = some data
  nonempty : data ≠ []

/-- There is an image, and for each of its files the first byte is where the table says, in the
offset that the loader passes to `boot_app` and in `entry_offs`. -/
def LoaderFinds (fw : Firmware) : Prop :=
  ∃ image, generateRawImage fw = some image ∧
    ∀ table, partitionTable fw.partitions = some table →
    ∀ before part after, fw.partitions = before ++ part :: after →
    ∀ data, HasFirstByte fw.files part data → ∀ i : Fin maxPartitionCount, i.val = before.length →
      FirstByteAt fw.files part after data image ((partTable table).parts.get i).offset.toNat ∧
      FirstByteAt fw.files part after data image (entryOffs table i).toNat

/-! ## The condition -/

/-- What the script needs of a partition to write it into the image. -/
def Writable (part : Partition) : Prop :=
  ∃ raw, part.enableRaw = some raw ∧
    (raw = "true" → (part.address.bind pyInt16).isSome ∧ part.file.isSome)

/-- A raw partition with a file that is not empty after the script. -/
def Placed (config : FirmwareConfig) (files : Files) (part : Partition) : Prop :=
  part.enableRaw = some "true" ∧ ∃ name length, part.file = some name ∧
    files.lengths name = some length ∧ 0 < finalLength config.partitions name length

/-- An address that both readings agree on, at the start of a sector that a word can name. -/
structure Plain (text : String) (addr : Int) : Prop where
  automatic : pyInt0 text = some addr
  hexadecimal : pyInt16 text = some addr
  low : 0 ≤ addr
  high : addr < 2 ^ 32
  aligned : addr % partitionAlignment = 0

structure AddressesAgree (config : FirmwareConfig) (files : Files) : Prop where
  writable : ∀ part ∈ config.partitions, Writable part
  plain : ∀ part ∈ config.partitions, Placed config files part →
    ∃ text addr, part.address = some text ∧ Plain text addr
  kept : ∀ before part after, config.partitions = before ++ part :: after →
    Placed config files part → ∀ addr, part.address.bind pyInt0 = some addr →
      ∀ range ∈ rawRanges after fun name =>
        (files.lengths name).map (finalLength config.partitions name), addr ∉ covered range

/-! ## The two readings of an address -/

theorem pyDigit_of_le {base other : Nat} (hle : base ≤ other) {c : Char} {value : Nat}
    (hvalue : pyDigit base c = some value) : pyDigit other c = some value := by
  simp only [pyDigit] at hvalue ⊢
  split_ifs at hvalue ⊢
  all_goals first
    | exact hvalue
    | omega

theorem pyDigitsFrom_le {base other first second : Nat} {text : List Char} (hbase : base ≤ other)
    (hle : first ≤ second) {value larger : Nat} (hvalue : pyDigitsFrom base first text = some value)
    (hlarger : pyDigitsFrom other second text = some larger) : value ≤ larger := by
  fun_induction pyDigitsFrom base first text generalizing second with
  | case1 first =>
      obtain rfl := Option.some.inj hvalue
      obtain rfl := Option.some.inj hlarger
      exact hle
  | case2 first c rest ih =>
      rw [pyDigitsFrom] at hlarger
      obtain ⟨digit, hdigit, hvalue⟩ := Option.bind_eq_some_iff.mp hvalue
      rw [pyDigit_of_le hbase hdigit] at hlarger
      refine ih digit ?_ hvalue hlarger
      exact Nat.add_le_add_right (Nat.mul_le_mul hle hbase) digit
  | case3 first c rest hplain ih =>
      obtain ⟨digit, hdigit, hvalue⟩ := Option.bind_eq_some_iff.mp hvalue
      rw [pyDigitsFrom, pyDigit_of_le hbase hdigit] at hlarger
      · refine ih digit ?_ hvalue hlarger
        exact Nat.add_le_add_right (Nat.mul_le_mul hle hbase) digit
      · exact hplain

/-- Digits that others may stand before. -/
theorem pyDigits_le_from {base other first : Nat} {text : List Char} (hbase : base ≤ other)
    {value larger : Nat} (hvalue : pyDigits base text = some value)
    (hlarger : pyDigitsFrom other first text = some larger) : value ≤ larger := by
  cases text with
  | nil => cases hvalue
  | cons c rest =>
      obtain ⟨digit, hdigit, hvalue⟩ := Option.bind_eq_some_iff.mp hvalue
      have hplain : c ≠ '_' := by
        rintro rfl
        simp [pyDigit] at hdigit
      rw [pyDigitsFrom, pyDigit_of_le hbase hdigit] at hlarger
      · exact pyDigitsFrom_le hbase (Nat.le_add_left digit _) hvalue hlarger
      · intro c' rest' hc
        exact absurd hc hplain

theorem pyDigits_le {base other : Nat} {text : List Char} (hbase : base ≤ other)
    {value larger : Nat} (hvalue : pyDigits base text = some value)
    (hlarger : pyDigits other text = some larger) : value ≤ larger := by
  cases text with
  | nil => cases hvalue
  | cons c rest =>
      obtain ⟨digit, hdigit, hvalue⟩ := Option.bind_eq_some_iff.mp hvalue
      obtain ⟨same, hsame, hlarger⟩ := Option.bind_eq_some_iff.mp hlarger
      obtain rfl := Option.some.inj (hsame.symm.trans (pyDigit_of_le hbase hdigit))
      exact pyDigitsFrom_le hbase (Nat.le_refl _) hvalue hlarger

theorem pyPrefixed_le_from {base other first : Nat} {text : List Char} (hbase : base ≤ other)
    {value larger : Nat} (hvalue : pyPrefixed base text = some value)
    (hlarger : pyDigitsFrom other first text = some larger) : value ≤ larger := by
  rw [pyPrefixed.eq_def] at hvalue
  split at hvalue
  next rest =>
    cases rest with
    | nil => cases hvalue
    | cons c rest =>
        obtain ⟨digit, hdigit, hvalue⟩ := Option.bind_eq_some_iff.mp hvalue
        rw [pyDigitsFrom, pyDigit_of_le hbase hdigit] at hlarger
        exact pyDigitsFrom_le hbase (Nat.le_add_left digit _) hvalue hlarger
  next => exact pyDigits_le_from hbase hvalue hlarger

theorem pyLiteral_le_pyHex {text : List Char} {value larger : Nat}
    (hvalue : pyLiteral text = some value) (hlarger : pyHex text = some larger) :
    value ≤ larger := by
  rw [pyLiteral.eq_def] at hvalue
  split at hvalue
  next rest => exact Nat.le_of_eq (Option.some.inj (hvalue.symm.trans hlarger))
  next rest => exact Nat.le_of_eq (Option.some.inj (hvalue.symm.trans hlarger))
  next rest =>
    have hnone : pyHex ('0' :: 'o' :: rest) = none := by
      simp [pyHex, pyDigits, pyDigitsFrom, pyDigit]
    rw [hnone] at hlarger
    cases hlarger
  next rest =>
    have hnone : pyHex ('0' :: 'O' :: rest) = none := by
      simp [pyHex, pyDigits, pyDigitsFrom, pyDigit]
    rw [hnone] at hlarger
    cases hlarger
  next rest =>
    have hrest : pyHex ('0' :: 'b' :: rest) = pyDigitsFrom 16 11 rest := by
      simp [pyHex, pyDigits, pyDigitsFrom, pyDigit]
    rw [hrest] at hlarger
    exact pyPrefixed_le_from (by decide) hvalue hlarger
  next rest =>
    have hrest : pyHex ('0' :: 'B' :: rest) = pyDigitsFrom 16 11 rest := by
      simp [pyHex, pyDigits, pyDigitsFrom, pyDigit]
    rw [hrest] at hlarger
    exact pyPrefixed_le_from (by decide) hvalue hlarger
  next rest =>
    obtain ⟨_, -, hvalue⟩ := Option.bind_eq_some_iff.mp hvalue
    split_ifs at hvalue
    obtain rfl := Option.some.inj hvalue
    exact Nat.zero_le larger
  next hzero =>
    have hhex : pyHex text = pyDigits 16 text := by
      rw [pyHex.eq_def]
      split
      next rest => exact (hzero _ rfl).elim
      next rest => exact (hzero _ rfl).elim
      next => rfl
    rw [hhex] at hlarger
    exact pyDigits_le (by decide) hvalue hlarger

/-- A sign before a number. -/
theorem exists_of_signed {number : Option Nat} {sign : Int → Int} {value : Int}
    (hvalue : Option.map sign (do return ((← number : Nat) : Int)) = some value) :
    ∃ digits : Nat, number = some digits ∧ sign digits = value := by
  cases number with
  | none => cases hvalue
  | some digits => exact ⟨digits, rfl, Option.some.inj hvalue⟩

/-- Behind one sign, the number in base 16 has the larger magnitude. -/
theorem exists_signed_le {text : List Char} {sign : Int → Int} {value larger : Int}
    (hvalue : Option.map sign (do return ((← pyLiteral text : Nat) : Int)) = some value)
    (hlarger : Option.map sign (do return ((← pyHex text : Nat) : Int)) = some larger) :
    ∃ number other : Nat, sign number = value ∧ sign other = larger ∧ number ≤ other := by
  obtain ⟨number, hnumber, hvalue⟩ := exists_of_signed hvalue
  obtain ⟨other, hother, hlarger⟩ := exists_of_signed hlarger
  exact ⟨number, other, hvalue, hlarger, pyLiteral_le_pyHex hnumber hother⟩

/-- A number is not smaller in base 16 than in the base that its prefix says. -/
theorem pyInt0_le_pyInt16 {text : String} {value larger : Int} (hvalue : pyInt0 text = some value)
    (hlarger : pyInt16 text = some larger) (hpos : 0 ≤ larger) : 0 ≤ value ∧ value ≤ larger := by
  rw [pyInt0, pySigned.eq_def] at hvalue
  rw [pyInt16, pySigned.eq_def] at hlarger
  split at hvalue
  next rest htext =>
    rw [htext] at hlarger
    obtain ⟨number, other, rfl, rfl, hle⟩ := exists_signed_le hvalue hlarger
    omega
  next rest htext =>
    rw [htext] at hlarger
    obtain ⟨number, other, rfl, rfl, hle⟩ := exists_signed_le hvalue hlarger
    omega
  next hminus hplus =>
    split at hlarger
    next rest htext => exact (hminus rest htext).elim
    next rest htext => exact (hplus rest htext).elim
    next =>
      obtain ⟨number, other, rfl, rfl, hle⟩ := exists_signed_le hvalue hlarger
      omega

/-! ## The image -/

section Image

variable {image data : List UInt8} {position : Nat}

theorem getElem?_eq_some_getD {bytes : List UInt8} (hinside : position < bytes.length) :
    bytes[position]? = some (bytes.getD position 0) := by
  rw [List.getD_eq_getElem?_getD, List.getElem?_eq_getElem hinside, Option.getD_some]

theorem getElem?_fileWrite_of_not_mem (hinside : position < image.length) {pos : Nat}
    (hout : ¬(pos ≤ position ∧ position < pos + data.length)) :
    (fileWrite image pos data)[position]? = image[position]? := by
  have hlength := length_fileWrite_max image pos data
  have hlater : position < (fileWrite image pos data).length := by omega
  rw [getElem?_eq_some_getD hinside, getElem?_eq_some_getD hlater, getD_fileWrite, if_neg hout]

theorem getElem?_fileWrite_start (image : List UInt8) (hdata : data ≠ []) (pos : Nat) :
    pos < (fileWrite image pos data).length ∧ (fileWrite image pos data)[pos]? = data[0]? := by
  have hpos := List.length_pos_iff.mpr hdata
  have hlength := length_fileWrite_max image pos data
  have hinside : pos < (fileWrite image pos data).length := by omega
  refine ⟨hinside, ?_⟩
  rw [getElem?_eq_some_getD hpos, getElem?_eq_some_getD hinside, getD_fileWrite,
    if_pos (by omega), Nat.sub_self]

theorem mem_writeRange {write : Int × List UInt8} (hlow : 0 ≤ write.1) :
    (position : Int) ∈ covered (writeRange write) ↔
      write.1.toNat ≤ position ∧ position < write.1.toNat + write.2.length := by
  rw [covered, writeRange, Set.mem_Ico]
  omega

/-- Writes elsewhere leave a byte of the image as it is. -/
theorem getElem?_foldl_ddFile (writes : List (Int × List UInt8))
    (hinside : position < image.length)
    (hkept : ∀ write ∈ writes, 0 ≤ write.1 → (position : Int) ∉ covered (writeRange write)) :
    (writes.foldl (fun image write => ddFile (some write.2) image write.1) image)[position]? =
      image[position]? := by
  induction writes generalizing image with
  | nil => rfl
  | cons write rest ih =>
      have hrest := fun other hother => hkept other (List.mem_cons_of_mem write hother)
      rw [List.foldl_cons, ddFile]
      split
      next => exact ih hinside hrest
      next hwritten =>
        have hlow : 0 ≤ write.1 := Int.not_lt.mp fun hneg => hwritten (.inl hneg)
        have hout := mt (mem_writeRange hlow).mpr (hkept write List.mem_cons_self hlow)
        have hlength := length_fileWrite_max image write.1.toNat write.2
        rw [ih (by omega) hrest, getElem?_fileWrite_of_not_mem hinside hout]

end Image

/-! ## The writes of the script -/

section Writes

variable {files : Files} {parts : List Partition}

theorem mem_rawWrites_iff {address : String → Option Int} {write : Int × List UInt8} :
    write ∈ rawWrites address parts files ↔ ∃ part ∈ parts, part.enableRaw = some "true" ∧
      part.address.bind address = some write.1 ∧ part.file.bind files = some write.2 := by
  rw [rawWrites, List.mem_filterMap]
  apply exists_congr
  intro part
  apply and_congr_right
  intro _
  split
  next hraw =>
    simp only [Option.bind_eq_bind, Option.bind_eq_some_iff, Option.pure_def, Option.some.injEq]
    constructor
    · rintro ⟨text, htext, addr, haddr, name, hname, data, hdata, rfl⟩
      exact ⟨hraw, ⟨text, htext, haddr⟩, name, hname, hdata⟩
    · rintro ⟨-, ⟨text, htext, haddr⟩, name, hname, hdata⟩
      exact ⟨text, htext, write.1, haddr, name, hname, write.2, hdata, rfl⟩
  next hraw =>
    constructor
    · intro hnone
      cases hnone
    · intro hwrite
      exact absurd hwrite.1 hraw

theorem isSome_writePart_iff {image : List UInt8} {part : Partition} :
    (writePart files image part).isSome ↔ Writable part := by
  rw [writePart, Writable]
  cases part.enableRaw with
  | none => simp
  | some raw =>
      by_cases htrue : raw = "true"
      · cases part.address with
        | none => simp [htrue]
        | some text => cases haddr : pyInt16 text <;> cases part.file <;> simp [htrue, haddr]
      · simp [htrue]

/-- The loop raises no exception exactly if it does not at any partition. -/
theorem isSome_foldlM_iff (image : List UInt8) :
    (parts.foldlM (writePart files) image).isSome ↔ ∀ part ∈ parts, Writable part := by
  induction parts generalizing image with
  | nil => simp
  | cons part rest ih =>
      have hwritable : (writePart files image part).isSome ↔ Writable part := isSome_writePart_iff
      rw [List.foldlM_cons, List.forall_mem_cons, ← hwritable]
      cases writePart files image part with
      | none => simp
      | some next => simp [ih next]

/-- The first byte of a file that nothing is written over. -/
theorem getElem?_of_firstByte {before after : List Partition} {part : Partition}
    {data image result : List UInt8} {position : Nat}
    (hresult : (before ++ part :: after).foldlM (writePart files) image = some result)
    (hfile : HasFirstByte files part data)
    (hput : part.address.bind pyInt16 = some (position : Int))
    (hkept : ∀ write ∈ rawWrites pyInt16 after files, 0 ≤ write.1 →
      (position : Int) ∉ covered (writeRange write)) : result[position]? = data[0]? := by
  have hwrites : rawWrites pyInt16 (before ++ part :: after) files =
      rawWrites pyInt16 before files ++
        ((position : Int), data) :: rawWrites pyInt16 after files := by
    obtain ⟨text, htext, haddr⟩ := Option.bind_eq_some_iff.mp hput
    obtain ⟨name, hname, hdata⟩ := Option.bind_eq_some_iff.mp hfile.file
    rw [rawWrites, List.filterMap_append, List.filterMap_cons, if_pos hfile.raw, htext, hname]
    simp only [Option.bind_eq_bind, Option.bind_some, haddr, hdata, Option.pure_def]
    rfl
  rw [foldlM_writePart hresult, hwrites, List.foldl_append, List.foldl_cons]
  have hdd : ∀ current, ddFile (some data) current (position : Int) =
      fileWrite current position data := by
    intro current
    rw [ddFile, if_neg, Int.toNat_natCast]
    rintro (hneg | hempty)
    · omega
    · exact hfile.nonempty hempty
  rw [hdd]
  obtain ⟨hinside, hbyte⟩ := getElem?_fileWrite_start _ hfile.nonempty position
  rw [getElem?_foldl_ddFile _ hinside hkept, hbyte]

end Writes

/-! ## Both directions -/

section Agree

variable {files : Files} {parts : List Partition}

theorem nonempty_of_mem_covered {write : Int × List UInt8} {addr : Int}
    (hmem : addr ∈ covered (writeRange write)) : write.2 ≠ [] := by
  intro hempty
  rw [covered, writeRange, hempty, List.length_nil, Set.mem_Ico] at hmem
  omega

/-- Files with addresses that both readings agree on are written at the same places. -/
theorem mem_rawWrites_of_plain
    (hplain : ∀ part ∈ parts, ∀ data, HasFirstByte files part data →
      ∃ text addr, part.address = some text ∧ Plain text addr)
    {write : Int × List UInt8} (hdata : write.2 ≠ []) :
    (write ∈ rawWrites pyInt16 parts files ↔ write ∈ rawWrites pyInt0 parts files) ∧
      (write ∈ rawWrites pyInt0 parts files → 0 ≤ write.1) := by
  have hsame : ∀ part ∈ parts, part.enableRaw = some "true" →
      part.file.bind files = some write.2 → part.address.bind pyInt16 = part.address.bind pyInt0 ∧
        ∀ addr, part.address.bind pyInt0 = some addr → 0 ≤ addr := by
    intro part hpart hraw hfile
    obtain ⟨text, addr, htext, hagree⟩ := hplain part hpart write.2 ⟨hraw, hfile, hdata⟩
    rw [htext, Option.bind_some, Option.bind_some, hagree.hexadecimal, hagree.automatic]
    refine ⟨rfl, ?_⟩
    rintro _ ⟨⟩
    exact hagree.low
  rw [mem_rawWrites_iff, mem_rawWrites_iff]
  constructor
  · constructor
    · rintro ⟨part, hpart, hraw, haddr, hfile⟩
      exact ⟨part, hpart, hraw, (hsame part hpart hraw hfile).1 ▸ haddr, hfile⟩
    · rintro ⟨part, hpart, hraw, haddr, hfile⟩
      exact ⟨part, hpart, hraw, (hsame part hpart hraw hfile).1 ▸ haddr, hfile⟩
  · rintro ⟨part, hpart, hraw, haddr, hfile⟩
    exact (hsame part hpart hraw hfile).2 write.1 haddr

/-- What a later file is written over can be told from either reading. -/
theorem kept_iff
    (hplain : ∀ part ∈ parts, ∀ data, HasFirstByte files part data →
      ∃ text addr, part.address = some text ∧ Plain text addr) {addr : Int} :
    (∀ write ∈ rawWrites pyInt16 parts files, 0 ≤ write.1 → addr ∉ covered (writeRange write)) ↔
      ∀ write ∈ rawWrites pyInt0 parts files, addr ∉ covered (writeRange write) := by
  constructor
  · intro hkept write hwrite hmem
    obtain ⟨hsame, hlow⟩ := mem_rawWrites_of_plain hplain (nonempty_of_mem_covered hmem)
    exact hkept write (hsame.mpr hwrite) (hlow hwrite) hmem
  · intro hkept write hwrite _ hmem
    obtain ⟨hsame, -⟩ := mem_rawWrites_of_plain hplain (nonempty_of_mem_covered hmem)
    exact hkept write (hsame.mp hwrite) hmem

/-- An address that is cut to sectors and to a word, and is the same in base 16. -/
theorem plain_of_positions {text : String} {addr : Int} {position : Nat}
    (haddr : pyInt0 text = some addr) (hput : pyInt16 text = some (position : Int))
    (hoffset : (position : Int) = alignDown addr partitionAlignment % 2 ^ 32)
    (hentryOffs : (position : Int) = addr % 2 ^ 32) : Plain text addr ∧ addr = position := by
  obtain ⟨hlow, hle⟩ := pyInt0_le_pyInt16 haddr hput (Int.natCast_nonneg position)
  rw [alignDown, partitionAlignment] at hoffset
  have hsame : addr = position := by omega
  refine ⟨⟨haddr, hsame ▸ hput, hlow, by omega, ?_⟩, hsame⟩
  rw [partitionAlignment]
  omega

end Agree

section Config

variable {config : FirmwareConfig} {files : Files} {fw : Firmware}

theorem mem_of_split {parts before after : List Partition} {part : Partition}
    (hsplit : parts = before ++ part :: after) :
    part ∈ parts ∧ ∀ other ∈ after, other ∈ parts := by
  rw [hsplit]
  exact ⟨List.mem_append_right _ List.mem_cons_self,
    fun _ hother => List.mem_append_right _ (List.mem_cons_of_mem _ hother)⟩

/-- The files of the image are those that the script has made nonempty. -/
theorem placed_iff (hparse : parseConfig config files = some fw) (part : Partition) :
    Placed config files part ↔ ∃ data, HasFirstByte fw.files part data := by
  constructor
  · rintro ⟨hraw, name, length, hname, hlength, hpos⟩
    have hfinal := lengths_parseConfig hparse name
    rw [hlength, Option.map_some, Files.lengths] at hfinal
    obtain ⟨data, hdata, hsize⟩ := Option.map_eq_some_iff.mp hfinal
    refine ⟨data, hraw, by rw [hname, Option.bind_some, hdata], ?_⟩
    exact List.length_pos_iff.mp (hsize ▸ hpos)
  · rintro ⟨data, hraw, hfile, hnonempty⟩
    obtain ⟨name, hname, hdata⟩ := Option.bind_eq_some_iff.mp hfile
    have hfinal := lengths_parseConfig hparse name
    rw [Files.lengths, hdata, Option.map_some] at hfinal
    obtain ⟨length, hlength, hsize⟩ := Option.map_eq_some_iff.mp hfinal.symm
    exact ⟨hraw, name, length, hname, hlength, hsize ▸ List.length_pos_iff.mpr hnonempty⟩

theorem finalRanges_eq_map (hparse : parseConfig config files = some fw) (parts : List Partition) :
    (rawRanges parts fun name => (files.lengths name).map (finalLength config.partitions name)) =
      (rawWrites pyInt0 parts fw.files).map writeRange := by
  rw [← rawRanges_eq_map]
  congr 1
  funext name
  exact (lengths_parseConfig hparse name).symm

theorem exists_partitionTable (hparse : parseConfig config files = some fw) :
    ∃ table, partitionTable fw.partitions = some table := by
  obtain ⟨hparts, -, stamped, tabled, -, htabled, -⟩ := parseConfig_eq_some hparse
  rw [generatePartitionTable] at htabled
  obtain ⟨table, htable, -⟩ := Option.bind_eq_some_iff.mp htabled
  exact ⟨table, hparts ▸ htable⟩

/-- What the loader finds is written at a plain address, and over no later file. -/
theorem LoaderFinds.found (hfinds : LoaderFinds fw) (hparse : parseConfig config files = some fw)
    {before after : List Partition} {part : Partition}
    (hsplit : fw.partitions = before ++ part :: after) {data : List UInt8}
    (hfile : HasFirstByte fw.files part data) :
    ∃ text addr, part.address = some text ∧ Plain text addr ∧
      ∀ write ∈ rawWrites pyInt16 after fw.files, 0 ≤ write.1 →
        addr ∉ covered (writeRange write) := by
  obtain ⟨image, -, hfound⟩ := hfinds
  obtain ⟨table, htable⟩ := exists_partitionTable hparse
  obtain ⟨hcount, text, addr, htext, haddr, hoffset, hentryOffs⟩ :=
    address_partitionTable (hsplit ▸ htable)
  obtain ⟨hfirst, hsecond⟩ := hfound table htable before part after hsplit data hfile
    ⟨before.length, hcount⟩ rfl
  have hput := hsecond.put
  rw [get_partTable] at hfirst
  -- both fields are the one number that `dd` was given
  have hequal := Option.some.inj (hfirst.put.symm.trans hput)
  rw [htext, Option.bind_some] at hput
  obtain ⟨hplain, hposition⟩ :=
    plain_of_positions haddr hput (hequal.symm.trans hoffset) hentryOffs
  refine ⟨text, addr, htext, hplain, ?_⟩
  rw [hposition]
  exact hsecond.kept

theorem LoaderFinds.agree (hfinds : LoaderFinds fw)
    (hparse : parseConfig config files = some fw) : AddressesAgree config files := by
  have hparts := (parseConfig_eq_some hparse).1
  have hplain : ∀ part ∈ fw.partitions, ∀ data, HasFirstByte fw.files part data →
      ∃ text addr, part.address = some text ∧ Plain text addr := by
    intro part hpart data hfile
    obtain ⟨before, after, hsplit⟩ := List.append_of_mem hpart
    obtain ⟨text, addr, htext, hagree, -⟩ := hfinds.found hparse hsplit hfile
    exact ⟨text, addr, htext, hagree⟩
  refine ⟨?_, ?_, ?_⟩
  · obtain ⟨image, himage, -⟩ := hfinds
    rw [← hparts]
    exact (isSome_foldlM_iff _).mp (Option.isSome_iff_exists.mpr ⟨image, himage⟩)
  · intro part hpart hplaced
    obtain ⟨data, hfile⟩ := (placed_iff hparse part).mp hplaced
    exact hplain part (hparts ▸ hpart) data hfile
  · intro before part after hsplit hplaced addr haddr range hrange hmem
    obtain ⟨data, hfile⟩ := (placed_iff hparse part).mp hplaced
    rw [← hparts] at hsplit
    obtain ⟨text, found, htext, hagree, hkept⟩ := hfinds.found hparse hsplit hfile
    rw [htext, Option.bind_some, hagree.automatic] at haddr
    obtain rfl := Option.some.inj haddr
    rw [finalRanges_eq_map hparse] at hrange
    obtain ⟨write, hwrite, rfl⟩ := List.mem_map.mp hrange
    have hafter := (mem_of_split hsplit).2
    exact (kept_iff fun other hother => hplain other (hafter other hother)).mp hkept write hwrite
      hmem

theorem AddressesAgree.finds (hagree : AddressesAgree config files)
    (hparse : parseConfig config files = some fw) : LoaderFinds fw := by
  have hparts := (parseConfig_eq_some hparse).1
  have hplain : ∀ part ∈ fw.partitions, ∀ data, HasFirstByte fw.files part data →
      ∃ text addr, part.address = some text ∧ Plain text addr := by
    intro part hpart data hfile
    exact hagree.plain part (hparts ▸ hpart) ((placed_iff hparse part).mpr ⟨data, hfile⟩)
  obtain ⟨image, himage⟩ : ∃ image, generateRawImage fw = some image := by
    apply Option.isSome_iff_exists.mp
    rw [generateRawImage, isSome_foldlM_iff, hparts]
    exact hagree.writable
  refine ⟨image, himage, ?_⟩
  intro table htable before part after hsplit data hfile i hi
  obtain ⟨hpart, hafter⟩ := mem_of_split hsplit
  obtain ⟨text, addr, htext, hagreed⟩ := hplain part hpart data hfile
  obtain ⟨-, other, same, hother, haddr, hoffset, hentryOffs⟩ :=
    address_partitionTable (hsplit ▸ htable)
  obtain rfl := Option.some.inj (htext.symm.trans hother)
  obtain rfl := Option.some.inj (hagreed.automatic.symm.trans haddr)
  have hlow := hagreed.low
  have hhigh := hagreed.high
  have haligned := hagreed.aligned
  have hput : part.address.bind pyInt16 = some (addr.toNat : Int) := by
    rw [htext, Option.bind_some, hagreed.hexadecimal, Int.toNat_of_nonneg hlow]
  have hkept : ∀ write ∈ rawWrites pyInt16 after fw.files, 0 ≤ write.1 →
      (addr.toNat : Int) ∉ covered (writeRange write) := by
    rw [Int.toNat_of_nonneg hlow]
    refine (kept_iff fun other hother => hplain other (hafter other hother)).mpr ?_
    intro write hwrite
    apply hagree.kept before part after (hparts ▸ hsplit)
      ((placed_iff hparse part).mpr ⟨data, hfile⟩)
    · rw [htext, Option.bind_some, hagreed.automatic]
    · rw [finalRanges_eq_map hparse]
      exact List.mem_map_of_mem hwrite
  have hfound : FirstByteAt fw.files part after data image addr.toNat := by
    rw [generateRawImage, hsplit] at himage
    exact ⟨hput, hkept, getElem?_of_firstByte himage hfile hput hkept⟩
  have hfirst : (partEntry table before.length).offset.toNat = addr.toNat := by
    rw [alignDown, haligned] at hoffset
    omega
  have hsecond : (entryOffs table before.length).toNat = addr.toNat := by omega
  rw [get_partTable, hi, hfirst, hsecond]
  exact ⟨hfound, hfound⟩

end Config

/-- For an accepted configuration, the loader looks where the files of the image are exactly if
their addresses are the same numbers in base 16, at the start of a sector, and none is written
over. -/
theorem loader_finds_iff {config : FirmwareConfig} {files : Files} {fw : Firmware}
    (hparse : parseConfig config files = some fw) :
    LoaderFinds fw ↔ AddressesAgree config files :=
  ⟨fun hfinds => hfinds.agree hparse, fun hagree => hagree.finds hparse⟩

/-- A partition of data and nothing else. -/
def onePart (address : String) : FirmwareConfig where
  partitions := [dataPart "data" "a.bin" address "false"]

theorem loader_finds_iff_onePart :
    ∃ fw, parseConfig (onePart "0x1000") (twoFiles 3) = some fw ∧ LoaderFinds fw := by
  have hsome : (parseConfig (onePart "0x1000") (twoFiles 3)).isSome := by decide
  obtain ⟨fw, hparse⟩ := Option.isSome_iff_exists.mp hsome
  refine ⟨fw, hparse, (loader_finds_iff hparse).mpr ⟨?_, ?_, ?_⟩⟩
  · intro part hpart
    obtain rfl := List.mem_singleton.mp hpart
    exact ⟨"true", rfl, fun _ => ⟨by decide, rfl⟩⟩
  · intro part hpart _
    obtain rfl := List.mem_singleton.mp hpart
    exact ⟨"0x1000", 0x1000, rfl, by decide, by decide, by decide, by decide, by decide⟩
  · intro before part after hsplit _ addr _ range hrange
    have hnone : after = [] := by
      have hlength := congrArg List.length hsplit
      rw [List.length_append, List.length_cons] at hlength
      exact List.eq_nil_of_length_eq_zero (by change 1 = _ at hlength; omega)
    rw [hnone] at hrange
    cases hrange

/-- The script accepts a decimal address, and writes the file elsewhere. -/
theorem decimal_address_not_found :
    ∃ fw, parseConfig (onePart "4096") (twoFiles 3) = some fw ∧ ¬LoaderFinds fw := by
  have hsome : (parseConfig (onePart "4096") (twoFiles 3)).isSome := by decide
  obtain ⟨fw, hparse⟩ := Option.isSome_iff_exists.mp hsome
  refine ⟨fw, hparse, ?_⟩
  intro hfinds
  have hplaced : Placed (onePart "4096") (twoFiles 3) (dataPart "data" "a.bin" "4096" "false") :=
    ⟨rfl, "a.bin", 3, rfl, by decide, by decide⟩
  obtain ⟨text, addr, htext, hplain⟩ :=
    (hfinds.agree hparse).plain _ List.mem_cons_self hplaced
  obtain rfl := Option.some.inj htext
  have hsame : pyInt0 "4096" = pyInt16 "4096" := hplain.automatic.trans hplain.hexadecimal.symm
  revert hsame
  decide

end CubieBle.Build
