import CubieBle.AirSync.Protocol
import CubieBle.Machine.WireFormat

/-! # Embedded protocol buffers

A reader scans a buffer for a tag each time that it is asked for one, and skips the values of
other tags by their wire types. A writer puts fields behind one another as long as they fit. A
tag is the one or two bytes of a key as they stand in the buffer.
-/

namespace CubieBle.AirSync

open Machine

/-- Memory behind a pointer that was moved. -/
def Buffer.advance (buffer : Buffer) (offset : Nat) : Buffer := fun i => buffer (offset + i)

namespace Epb

def sizeofTag (tag : UInt16) : Nat := if tag &&& 0xff00 = 0 then 1 else 2

def epbGetWireType (tag : UInt16) : UInt16 :=
  if tag >>> 8 ≠ 0 then (tag >>> 8) &&& 7 else tag &&& 7

/-! ## Reading -/

section Scan

variable (data : Buffer) (len : Int)

/-- The loop of `epb_get_varint32_bits`. -/
def varint32Loop (offset : Nat) (value : UInt32) : Option (Nat × UInt32) :=
  if data (offset - 1) &&& 0x80 ≠ 0 then
    if len ≤ offset then none
    else if 5 ≤ offset then some (offset, value)
    else
      varint32Loop (offset + 1)
        (value ||| (data offset &&& 0x7f).toUInt32 <<< UInt32.ofNat (offset * 7))
  else some (offset, value)
termination_by 5 - offset

/-- The number of bytes that were read, and the value; nothing if the buffer ends before. -/
def epbGetVarint32Bits : Option (Nat × UInt32) :=
  varint32Loop data len 1 (data 0 &&& 0x7f).toUInt32

/-- The loop over the bytes of a varint in `epb_get_value_length`. -/
def varintEnd (offset : Nat) : Nat :=
  if data offset &&& 0x80 ≠ 0 ∧ (offset + 1 : Int) < len then varintEnd (offset + 1)
  else offset + 1
termination_by (len - offset).toNat

def epbGetValueLength (wireType : UInt32) : Int :=
  if wireType = 0 then varintEnd data len 0
  else if wireType = 1 then 8
  else if wireType = 2 then
    match epbGetVarint32Bits data len with
    | none => -1
    | some (offset, l) => offset + l.toInt32.toInt
  else if wireType = 5 then 4
  else -1

/-- The loop over the bytes of a tag in `epb_get_tag_value_offset`. -/
def tagLoop (offset : Nat) (pTag : UInt32) : Nat × UInt32 :=
  if data (offset - 1) &&& 0x80 ≠ 0 ∧ (offset : Int) < len then
    tagLoop (offset + 1) (pTag <<< 8 ||| (data offset &&& 0x7f).toUInt32)
  else (offset, pTag)
termination_by (len - offset).toNat

theorem le_tagLoop (offset : Nat) (pTag : UInt32) : offset ≤ (tagLoop data len offset pTag).1 := by
  fun_induction tagLoop data len offset pTag with
  | case1 offset pTag hmore ih => exact Nat.le_trans (Nat.le_succ offset) ih
  | case2 offset pTag hlast => exact Nat.le_refl offset

/-- The loop of `epb_get_tag_value_offset`. -/
def tagValueOffsetFrom (tag : UInt16) (offset : Nat) : Option Nat :=
  if (offset : Int) < len then
    let scanned := tagLoop data len (offset + 1) (data offset).toUInt32
    if scanned.2 = tag.toUInt32 then some scanned.1
    else
      let ret := epbGetValueLength (data.advance scanned.1) (len - scanned.1)
        (epbGetWireType scanned.2.toUInt16).toUInt32
      if ret < 0 then tagValueOffsetFrom tag (scanned.1 + 1)
      else tagValueOffsetFrom tag (scanned.1 + ret.toNat)
  else none
termination_by (len - offset).toNat
decreasing_by
  all_goals
    have hle := le_tagLoop data len (offset + 1) (data offset).toUInt32
    omega

def epbGetTagValueOffset (tag : UInt16) : Option Nat := tagValueOffsetFrom data len tag 0

def epbGetFixed32Bits : UInt32 :=
  if len < 4 then 0 else UInt32.ofNat (ofLittleEndian (data.bytes 0 4))

end Scan

/-- `Epb` as it is used for unpacking. -/
structure Reader where
  unpackBuf : Buffer
  bufLen : Int

/-- Bytes that stay in the buffer that was unpacked. -/
structure CBytes where
  data : Buffer
  len : Int

/-- What is behind the pointer. -/
def CBytes.bytes (bytes : CBytes) : List UInt8 := bytes.data.bytes 0 bytes.len.toNat

def CBytes.reader (bytes : CBytes) : Reader := ⟨bytes.data, bytes.len⟩

section Get

variable (e : Reader) (tag : UInt16)

def epbHasTag : Bool := (epbGetTagValueOffset e.unpackBuf e.bufLen tag).isSome

def epbGetUint32 : UInt32 :=
  match epbGetTagValueOffset e.unpackBuf e.bufLen tag with
  | none => 0
  | some offset =>
      match epbGetVarint32Bits (e.unpackBuf.advance offset) (e.bufLen - offset) with
      | none => 0
      | some (_, value) => value

def epbGetInt32 : Int := (epbGetUint32 e tag).toInt32.toInt

def epbGetSint32 : Int :=
  let value := epbGetUint32 e tag
  if value &&& 1 ≠ 0 then (-(value >>> 1) - 1).toInt32.toInt else (value >>> 1).toInt32.toInt

def epbGetBool : Bool := epbGetUint32 e tag ≠ 0

def epbGetEnum : Int := (epbGetUint32 e tag).toInt32.toInt

/-- `uninit` is what the length holds when it cannot be read. -/
def epbGetBytes (uninit : UInt32) : Option CBytes :=
  (epbGetTagValueOffset e.unpackBuf e.bufLen tag).map fun offset =>
    match epbGetVarint32Bits (e.unpackBuf.advance offset) (e.bufLen - offset) with
    | none => ⟨e.unpackBuf.advance (offset - 1), uninit.toInt32.toInt⟩
    | some (count, l) => ⟨e.unpackBuf.advance (offset + count), l.toInt32.toInt⟩

def epbGetFixed32 : UInt32 :=
  match epbGetTagValueOffset e.unpackBuf e.bufLen tag with
  | none => 0
  | some offset => epbGetFixed32Bits (e.unpackBuf.advance offset) (e.bufLen - offset)

def epbGetSfixed32 : Int := (epbGetFixed32 e tag).toInt32.toInt

end Get

/-! ## Writing -/

/-- `Epb` as it is used for packing. -/
structure Writer where
  packBuf : Buffer
  bufLen : Int
  bufOffset : Nat

def epbPackInit (buf : Buffer) (len : Int) : Writer := ⟨buf, len, 0⟩

def epbPackBufRemain (e : Writer) : Int := e.bufLen - e.bufOffset

def Writer.append (e : Writer) (bytes : List UInt8) : Writer :=
  { e with packBuf := e.packBuf.copy e.bufOffset bytes, bufOffset := e.bufOffset + bytes.length }

/-- Bytes that are put in the buffer if there is room for them. -/
def epbPackLengthDelimited (e : Writer) (data : List UInt8) : Int × Writer :=
  if (data.length : Int) ≤ epbPackBufRemain e then (data.length, e.append data) else (-1, e)

def tagBytes (tag : UInt16) : List UInt8 :=
  if sizeofTag tag = 2 then [(tag >>> 8).toUInt8, tag.toUInt8] else [tag.toUInt8]

def epbPackTag (e : Writer) (tag : UInt16) : Int × Writer :=
  if (sizeofTag tag : Int) ≤ epbPackBufRemain e then (sizeofTag tag, e.append (tagBytes tag))
  else (-1, e)

/-- The loop that fills the buffer of `epb_pack_varint32_bits`. -/
def varint32Bytes (buf : List UInt8) (value : UInt32) : List UInt8 :=
  let filled := buf.modify (buf.length - 1) (· ||| 0x80) ++ [(value &&& 0x7f).toUInt8]
  if value >>> 7 ≠ 0 ∧ filled.length < 5 then varint32Bytes filled (value >>> 7) else filled
termination_by 5 - buf.length
decreasing_by
  simp only [List.length_append, List.length_modify, List.length_singleton]
  grind

def epbPackVarint32Bits (e : Writer) (value : UInt32) : Int × Writer :=
  epbPackLengthDelimited e (varint32Bytes [] value)

section Set

variable (e : Writer) (tag : UInt16)

/-- One packing function after another, with the sum of the sizes. -/
def andPack (packed : Int × Writer) (next : Writer → Int × Writer) : Int × Writer :=
  if packed.1 < 0 then packed
  else
    let (ret, e) := next packed.2
    if ret < 0 then (ret, e) else (packed.1 + ret, e)

def epbSetUint32 (value : UInt32) : Int × Writer :=
  andPack (epbPackTag e tag) fun e => epbPackVarint32Bits e value

def epbSetInt32 (value : Int32) : Int × Writer := epbSetUint32 e tag value.toUInt32

def epbSetSint32 (value : Int32) : Int × Writer :=
  epbSetUint32 e tag ((value <<< 1) ^^^ (value >>> 31)).toUInt32

def epbSetBool (value : Bool) : Int × Writer := epbSetUint32 e tag (if value then 1 else 0)

def epbSetEnum (value : Int32) : Int × Writer := epbSetUint32 e tag value.toUInt32

def epbSetBytes (data : List UInt8) : Int × Writer :=
  andPack (andPack (epbPackTag e tag) fun e => epbPackVarint32Bits e (UInt32.ofNat data.length))
    fun e => epbPackLengthDelimited e data

def epbSetFixed32 (value : UInt32) : Int × Writer :=
  andPack (epbPackTag e tag) fun e => epbPackLengthDelimited e (littleEndian 4 value.toNat)

def epbSetSfixed32 (value : Int32) : Int × Writer := epbSetFixed32 e tag value.toUInt32

end Set

/-! ## Sizes -/

/-- The loop of `epb_varint32_pack_size`. -/
def packSizeLoop (value : UInt32) (i : Nat) : Nat :=
  if value >>> 7 ≠ 0 ∧ i + 1 < 5 then packSizeLoop (value >>> 7) (i + 1) else i + 1
termination_by 5 - i

def epbVarint32PackSize (tag : UInt16) (value : UInt32) (isSigned : Bool) : Nat :=
  sizeofTag tag + packSizeLoop (if isSigned then (value <<< 1) ^^^ (value >>> 31) else value) 0

def epbFixed32PackSize (tag : UInt16) : Nat := sizeofTag tag + 4

def epbLengthDelimitedPackSize (tag : UInt16) (len : Nat) : Nat :=
  epbVarint32PackSize tag (UInt32.ofNat len) false + len

end Epb

end CubieBle.AirSync
