import Mathlib.Data.List.ReduceOption
import Mathlib.Data.List.Sort
import CubieBle.Loader.Firmware

/-! # The build script

The class `firmware` of the script reads a configuration, puts checksums, the partition table
and the CRC into the partition files, and checks their sizes. An exception and a call of
`panic` both end the script; they are `none` here.
-/

namespace CubieBle.Build

open Loader

/-! ## Python's `int` -/

def pyDigit (base : Nat) (c : Char) : Option Nat :=
  let value :=
    if '0' ≤ c ∧ c ≤ '9' then c.toNat - '0'.toNat
    else if 'a' ≤ c ∧ c ≤ 'z' then c.toNat - 'a'.toNat + 10
    else if 'A' ≤ c ∧ c ≤ 'Z' then c.toNat - 'A'.toNat + 10
    else base
  if value < base then some value else none

/-- The digits after the first; an underscore may stand between two digits. -/
def pyDigitsFrom (base : Nat) : Nat → List Char → Option Nat
  | value, [] => some value
  | value, '_' :: c :: rest => do pyDigitsFrom base (value * base + (← pyDigit base c)) rest
  | value, c :: rest => do pyDigitsFrom base (value * base + (← pyDigit base c)) rest

def pyDigits (base : Nat) : List Char → Option Nat
  | [] => none
  | c :: rest => do pyDigitsFrom base (← pyDigit base c) rest

/-- The digits after a prefix such as `0x`, where an underscore may come first. -/
def pyPrefixed (base : Nat) : List Char → Option Nat
  | '_' :: rest => pyDigits base rest
  | text => pyDigits base text

/-- Without a prefix the number is decimal, and it has no leading zeros. -/
def pyLiteral : List Char → Option Nat
  | '0' :: 'x' :: rest => pyPrefixed 16 rest
  | '0' :: 'X' :: rest => pyPrefixed 16 rest
  | '0' :: 'o' :: rest => pyPrefixed 8 rest
  | '0' :: 'O' :: rest => pyPrefixed 8 rest
  | '0' :: 'b' :: rest => pyPrefixed 2 rest
  | '0' :: 'B' :: rest => pyPrefixed 2 rest
  | '0' :: rest => do
      let value ← pyDigits 10 ('0' :: rest)
      if value = 0 then some 0 else none
  | text => pyDigits 10 text

/-- In base 16 the prefix may be left out. -/
def pyHex : List Char → Option Nat
  | '0' :: 'x' :: rest => pyPrefixed 16 rest
  | '0' :: 'X' :: rest => pyPrefixed 16 rest
  | text => pyDigits 16 text

def pySigned (parse : List Char → Option Nat) : List Char → Option Int
  | '-' :: rest => (parse rest).map fun value => -(value : Int)
  | '+' :: rest => (parse rest).map fun value => (value : Int)
  | text => (parse text).map fun value => (value : Int)

/-- `int(text, 0)`. -/
def pyInt0 (text : String) : Option Int := pySigned pyLiteral text.toList

/-- `int(text, 16)`. -/
def pyInt16 (text : String) : Option Int := pySigned pyHex text.toList

/-! ## The configuration -/

/-- The properties of a partition that the script reads. -/
structure Partition where
  name : Option String := none
  type : Option String := none
  file : Option String := none
  address : Option String := none
  size : Option String := none
  enableCrc : Option String := none
  enableRandomize : Option String := none
  enableBootCheck : Option String := none
  enableRaw : Option String := none
  fwId : Option String := none
deriving DecidableEq

structure FirmwareConfig where
  diskSize : Option String := none
  partitions : List Partition

/-- The files of the directory `bin`. -/
abbrev Files := String → Option (List UInt8)

/-- The object after `parse_config`. -/
structure Firmware where
  partitions : List Partition
  diskSize : Int
  files : Files

/-- Each of the files is rewritten, or one of them raises an exception. The script goes
through a set of names, so the order is of no concern. -/
def updateFiles (update : List UInt8 → Option (List UInt8)) (names : List String)
    (files : Files) : Option Files :=
  if names.all fun name => ((files name).bind update).isSome then
    some fun name => if name ∈ names then (files name).bind update else files name
  else none

/-! ## Checksums -/

/-- The file whose header gets checksums; the inner `none` is a partition without them. -/
def csumFile (part : Partition) : Option (Option String) := do
  let type ← part.type
  if type ∈ ["BOOT", "SYSTEM", "RECOVERY", "DTM"] then
    let file ← part.file
    return some file
  else return none

def upateDataHdrChecksum (parts : List Partition) (files : Files) : Option Files := do
  let names ← parts.mapM csumFile
  updateFiles addCsum names.reduceOption files

/-! ## The partition table -/

def partitionAlignment : Int := 0x1000

/-- `align_down` for a power of two. -/
def alignDown (data alignment : Int) : Int := data - data % alignment

/-- A field of a packed structure, little-endian, of a number cut to its width. -/
def field (width : Nat) (value : Int) : List UInt8 :=
  (List.range width).map fun i => UInt8.ofNat ((value % 2 ^ (8 * width)).toNat / 2 ^ (8 * i))

def partitionTypeTable : List (String × Nat) :=
  [("RESERVED", 0), ("BOOT", 1), ("SYSTEM", 2), ("RECOVERY", 3), ("DATA", 4), ("DTM", 5)]

/-- `memcpy_n` of a name into eight bytes of zeros. -/
def nameField (name : String) : List UInt8 :=
  ((name.toList.map fun (c : Char) => UInt8.ofNat c.toNat) ++ List.replicate 8 0).take 8

def partitionFlag (part : Partition) : Nat :=
  (if part.enableCrc = some "true" then 1 else 0) +
    (if part.enableRandomize = some "true" then 2 else 0) +
    (if part.enableBootCheck = some "true" then 4 else 0)

def partitionEntry (part : Partition) : Option (List UInt8) := do
  let name ← part.name
  let type ← part.type
  let typeNumber ← partitionTypeTable.lookup type
  let address ← pyInt0 (← part.address)
  return nameField name ++ field 2 typeNumber ++ field 2 (partitionFlag part) ++
    field 4 (alignDown address partitionAlignment) ++ field 2 0 ++ field 2 0 ++ field 4 address

/-- `zlib.crc32`. -/
def crc32 (data : List UInt8) : UInt32 :=
  let shift : UInt32 → UInt32 := fun crc =>
    if crc &&& 1 ≠ 0 then (crc >>> 1) ^^^ 0xedb88320 else crc >>> 1
  data.foldl (fun crc byte => shift^[8] (crc ^^^ byte.toUInt32)) 0xffffffff ^^^ 0xffffffff

/-- The table of `PARTITION_TABLE`. The script sets `ver`, which is no field of it, and leaves
`version` as 0. A sixteenth partition raises an exception. -/
def partitionTable (parts : List Partition) : Option (List UInt8) := do
  let entries ← parts.mapM partitionEntry
  if 15 < entries.length then none
  else
    let header := field 4 0x54504341 ++ field 2 0 ++ field 2 0x180 ++ field 2 entries.length ++
      field 2 0x18 ++ field 4 0
    let table := header ++ (entries.flatten ++ List.replicate 360 0).take 360 ++ field 4 0
    return table ++ field 4 (crc32 table).toNat

/-- The file of the first boot partition of the firmware 0. -/
def bootFile : List Partition → Option (Option String)
  | [] => some none
  | part :: rest => do
      if (← part.type) = "BOOT" then
        if (← part.fwId) = "0" then
          let file ← part.file
          return some file
        else bootFile rest
      else bootFile rest

def generatePartitionTable (parts : List Partition) (files : Files) : Option Files := do
  let table ← partitionTable parts
  let boot ← bootFile parts
  updateFiles (fun file => some (fileWrite file (0x1000 - 0x400) table)) boot.toList files

/-! ## CRC segments -/

/-- `reflect` of a number of 16 bits. -/
def reflect (crc : Nat) : Nat :=
  (List.range 16).foldl (fun value i => 2 * value + (crc >>> i) % 2) 0

/-- An entry of `CRC16_TABLE`: the remainder of a byte by the reflected polynomial 0x8408. -/
def crc16Table (byte : Nat) : Nat :=
  (fun crc : Nat => if crc % 2 = 1 then (crc >>> 1) ^^^ 0x8408 else crc >>> 1)^[8] byte

def crc16 (data : List UInt8) (init : Nat) : Nat :=
  let crc := data.foldl
    (fun crc byte => ((crc >>> 8) &&& 0xff) ^^^ crc16Table ((crc &&& 0xff) ^^^ byte.toNat))
    (reflect init)
  let crc := reflect crc
  ((crc >>> 8) &&& 0xff) ||| ((crc &&& 0xff) <<< 8)

def chunkSize : Nat := 32

/-- A segment: the chunk, filled up with zeros, and its CRC. -/
def crcSegment (chunk : List UInt8) : List UInt8 :=
  let chunk := chunk ++ List.replicate (chunkSize - chunk.length) 0
  chunk ++ field 2 (crc16 chunk 0xffff)

/-- The loop of `add_crc`, which makes one segment of every 32 bytes. -/
def addCrc (filedata : List UInt8) : List UInt8 :=
  (List.range ((filedata.length + (chunkSize - 1)) / chunkSize)).flatMap fun i =>
    crcSegment ((filedata.drop (i * chunkSize)).take chunkSize)

def crcFile (part : Partition) : Option (Option String) := do
  if (← part.enableCrc) = "true" then
    let file ← part.file
    return some file
  else return none

def generateCrcFile (parts : List Partition) (files : Files) : Option Files := do
  let names ← parts.mapM crcFile
  updateFiles (fun file => some (addCrc file)) names.reduceOption files

/-! ## Sizes -/

/-- A partition with its address. -/
def addressed (part : Partition) : Option (Partition × Int) := do
  let address ← pyInt0 (← part.address)
  return (part, address)

/-- The key of the sort, which keeps the order of partitions at the same address. -/
def ByAddress (first second : Partition × Int) : Prop := first.2 ≤ second.2

instance (first second : Partition × Int) : Decidable (ByAddress first second) :=
  inferInstanceAs (Decidable (first.2 ≤ second.2))

/-- `caculate_part_file_max_size` over the sorted partitions. A size that is given is taken as
it is; otherwise there is room up to the next partition. -/
def maxSizes (diskSize : Int) : List (Partition × Int) → Option (List (Partition × Int))
  | [] => some []
  | (part, address) :: rest => do
      let size ←
        match part.size with
        | some text => pyInt0 text
        | none =>
            let nextPartAddr :=
              match rest with
              | [] => diskSize
              | (_, next) :: _ => alignDown next partitionAlignment
            let room := nextPartAddr - address
            some (if part.enableCrc = some "true" then room.tdiv 34 * 32 else room)
      return (part, size) :: (← maxSizes diskSize rest)

/-- `check_part_file_size` for one partition: only a size that is given is checked. -/
def checkPartFileSize (files : Files) (part : Partition) (maxSize : Int) : Bool :=
  match part.file with
  | none => true
  | some name =>
      match files name, part.size with
      | some data, some _ => part.name.isSome && decide ((data.length : Int) ≤ maxSize)
      | _, _ => true

/-- The disk has 512 KB by default. -/
def FirmwareConfig.disk (config : FirmwareConfig) : Option Int :=
  match config.diskSize with
  | some text => pyInt0 text
  | none => some 0x80000

def parseConfig (config : FirmwareConfig) (files : Files) : Option Firmware := do
  let diskSize ← config.disk
  if config.partitions.isEmpty then none
  else
    let files ← upateDataHdrChecksum config.partitions files
    let files ← generatePartitionTable config.partitions files
    let files ← generateCrcFile config.partitions files
    let parts ← config.partitions.mapM addressed
    let sizes ← maxSizes diskSize (parts.insertionSort ByAddress)
    if sizes.all fun size => checkPartFileSize files size.1 size.2 then
      return { partitions := config.partitions, diskSize := diskSize, files := files }
    else none

/-! ## The raw image -/

/-- `dd` with `conv=notrunc`; it reports a missing file or a negative seek, and the script does
not look at its exit code. -/
def ddFile (input : Option (List UInt8)) (output : List UInt8) (seek : Int) : List UInt8 :=
  match input with
  | none => output
  | some data => if seek < 0 ∨ data = [] then output else fileWrite output seek.toNat data

/-- The loop of `generate_raw_image` over one partition. -/
def writePart (files : Files) (image : List UInt8) (part : Partition) : Option (List UInt8) := do
  if (← part.enableRaw) = "true" then
    let addr ← pyInt16 (← part.address)
    let file ← part.file
    return ddFile (files file) image addr
  else return image

def generateRawImage (fw : Firmware) : Option (List UInt8) :=
  fw.partitions.foldlM (writePart fw.files) (List.replicate fw.diskSize.toNat 0xff)

end CubieBle.Build
