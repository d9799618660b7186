import Mathlib.Data.Fin.Tuple.Basic
import Mathlib.Data.UInt

/-! # The boot loader

The loader picks a partition of the requested type, reads the header of its image
from flash, copies the image to its address and enters it if the checksums of the
header and of the data match.
-/

namespace CubieBle.Loader

/-- A byte for each address: the RAM, or the flash as `brom_spi0_read` delivers it. -/
abbrev Memory := UInt32 → UInt8

def wordOf (b0 b1 b2 b3 : UInt8) : UInt32 :=
  b0.toUInt32 ||| (b1.toUInt32 <<< 8) ||| (b2.toUInt32 <<< 16) ||| (b3.toUInt32 <<< 24)

/-- The little-endian word at an address. -/
def Memory.word (memory : Memory) (addr : UInt32) : UInt32 :=
  wordOf (memory addr) (memory (addr + 1)) (memory (addr + 2)) (memory (addr + 3))

/-- Copy bytes of the flash to the RAM at `buf`. -/
def bromSpi0Read (flash : Memory) (snorAddr byteLen buf : UInt32) (ram : Memory) : Memory :=
  fun addr => if addr - buf < byteLen then flash (snorAddr + (addr - buf)) else ram addr

def imageHdrOffset : UInt32 := 0xc0
def imageHeaderMagic : UInt32 := 0x00425441

structure ImageHeader where
  magic : UInt32
  romStart : UInt32
  romEnd : UInt32
  entry : UInt32
  reserve : Vector UInt8 8
  dataChecksum : UInt32
  hdrChecksum : UInt32
deriving DecidableEq

def sizeofImageHeader : Nat := 32

def imageHeaderAt (flash : Memory) (addr : UInt32) : ImageHeader where
  magic := flash.word addr
  romStart := flash.word (addr + 4)
  romEnd := flash.word (addr + 8)
  entry := flash.word (addr + 12)
  reserve := Vector.ofFn fun i => flash (addr + 16 + UInt32.ofNat i)
  dataChecksum := flash.word (addr + 24)
  hdrChecksum := flash.word (addr + 28)

/-- The words of the header before its checksum. -/
def ImageHeader.words (hdr : ImageHeader) : List UInt32 :=
  [hdr.magic, hdr.romStart, hdr.romEnd, hdr.entry,
    wordOf hdr.reserve[0] hdr.reserve[1] hdr.reserve[2] hdr.reserve[3],
    wordOf hdr.reserve[4] hdr.reserve[5] hdr.reserve[6] hdr.reserve[7], hdr.dataChecksum]

def checkImageHeader (hdr : ImageHeader) : Int :=
  if hdr.magic ≠ imageHeaderMagic then -5
  else if hdr.words.foldl (· + ·) 0x1234 ≠ hdr.hdrChecksum then -6
  else 0

/-- One of the summing loops of `check_image`. -/
def sumWords (ram : Memory) (data : UInt32) (first last : Nat) (cksum : UInt32) : UInt32 :=
  (List.range' first (last - first)).foldl
    (fun cksum i => cksum + ram.word (data + 4 * UInt32.ofNat i)) cksum

/-- The header lies inside the image and is left out of the sum. -/
def checkImage (hdr : ImageHeader) (ram : Memory) (data : UInt32) : Int :=
  let bytesLen := ((hdr.romEnd - hdr.romStart) / 4).toNat
  let cksum := sumWords ram data 0 (imageHdrOffset.toNat / 4) 0x1234
  let cksum := sumWords ram data ((imageHdrOffset.toNat + sizeofImageHeader) / 4) bytesLen cksum
  if cksum ≠ hdr.dataChecksum then -7 else 0

/-- The result, the header and the RAM afterwards. -/
def loadImage (flash ram : Memory) (norPhyAddr : UInt32) : Int × ImageHeader × Memory :=
  let imgHdr := imageHeaderAt flash (norPhyAddr + imageHdrOffset)
  let ret := checkImageHeader imgHdr
  if ret ≠ 0 then (ret, imgHdr, ram)
  else
    -- the image overwrites the RAM before its data is checked
    let ram :=
      bromSpi0Read flash norPhyAddr (imgHdr.romEnd - imgHdr.romStart) imgHdr.romStart ram
    (checkImage imgHdr ram imgHdr.romStart, imgHdr, ram)

/-- The loader comes back with an error, or enters the image that it read from an
address of the flash. -/
inductive BootResult where
  | returned (code : Int)
  | entered (norPhyAddr entry : UInt32)
deriving DecidableEq

def bootApp (flash ram : Memory) (norPhyAddr : UInt32) : BootResult :=
  let (ret, imgHdr, _) := loadImage flash ram norPhyAddr
  if ret ≠ 0 then .returned (-9) else .entered norPhyAddr imgHdr.entry

/-! ## Partitions -/

def systemType : UInt8 := 2

/-- The fields of a partition that the selection by type reads. -/
structure PartitionEntry where
  type : UInt16
  offset : UInt32
  seq : Int16
deriving DecidableEq

def maxPartitionCount : Nat := 15

structure PartitionTable where
  parts : Vector PartitionEntry maxPartitionCount
deriving DecidableEq

/-- One iteration of `find_part_by_type`, with its variables `seq` and
`match_part_entry`; a partition is named by its index. -/
def findPartStep (table : PartitionTable) (type : UInt8)
    (found : Int × Option (Fin maxPartitionCount)) (i : Fin maxPartitionCount) :
    Int × Option (Fin maxPartitionCount) :=
  let part := table.parts.get i
  if part.type = type.toUInt16 then
    if found.1 < part.seq.toInt then (part.seq.toInt, some i) else found
  else found

def findPartByType (table : PartitionTable) (type : UInt8) : Option (Fin maxPartitionCount) :=
  ((List.finRange maxPartitionCount).foldl (findPartStep table type) (-1, none)).2

def bootAppByType (flash ram : Memory) (table : PartitionTable) (type : UInt8) : BootResult :=
  match findPartByType table type with
  | none => .returned (-8)
  | some i => bootApp flash ram (table.parts.get i).offset

end CubieBle.Loader
