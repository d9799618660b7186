import CubieBle.Build.Firmware
import CubieBle.Build.PropFile
import CubieBle.Machine.Bytes

/-! # The factory image

The script writes one item for each property, fills the region up to a multiple of 256 bytes
and ends it with a header and the CRC of all of it. An exception of `struct.pack` is `none`.
-/

namespace CubieBle.Build

open Machine

/-! ## The script -/

/-- `bytearray(text, 'utf8')`. -/
def utf8 (text : Text) : List UInt8 := text.flatMap String.utf8EncodeChar

/-- `struct.pack` of little-endian fields, each with its width. -/
def structPack (fields : List (Nat × Nat)) : Option (List UInt8) :=
  if fields.all fun entry => entry.2 < 256 ^ entry.1 then
    some (fields.flatMap fun entry => littleEndian entry.1 entry.2)
  else none

def calcHash (key : List UInt8) : Nat :=
  key.foldl (fun hash byte => ((hash * 16777619) ^^^ byte.toNat) &&& 0xffffffff) 0

def nvramWriteRegionAlignSize : Nat := 256

def nvramRegionHeaderSize : Nat := 24

def nvramItemHeaderSize : Nat := 12

def genItem (key value : Text) : Option (List UInt8 × Nat) := do
  let keyData := utf8 key ++ [0]
  let valueData := utf8 value ++ [0]
  let totalLen := nvramItemHeaderSize + keyData.length + valueData.length
  let padLen := if totalLen &&& 3 ≠ 0 then 4 - (totalLen &&& 3) else 0
  let itemHeader ← structPack
    [(4, calcHash keyData), (2, totalLen + padLen), (2, 0), (2, keyData.length),
      (2, valueData.length)]
  return (itemHeader ++ keyData ++ valueData ++ List.replicate padLen 0, totalLen + padLen)

/-- The padding of a region behind its items. -/
def regionPadLen (pos : Nat) : Nat :=
  if pos % nvramWriteRegionAlignSize ≠ 0 then
    nvramWriteRegionAlignSize - pos % nvramWriteRegionAlignSize
  else 0

def buildNvramRegion (props : Props) : Option (List UInt8) := do
  let items ← props.mapM fun prop => genItem prop.1 prop.2
  let dataLen := (items.map Prod.snd).sum
  let data := items.flatMap Prod.fst
  let pos := data.length + nvramRegionHeaderSize
  let fileLen := pos + regionPadLen pos
  let info ← structPack [(4, 0x4752564e), (4, 1), (4, 0), (4, fileLen), (4, dataLen)]
  let file := data ++ List.replicate (regionPadLen pos) 0 ++ info
  let crc ← structPack [(4, (crc32 (file.take (fileLen - 4))).toNat)]
  return file ++ crc

/-! ## Reading an image -/

structure NvramItem where
  hash : Nat
  name : List UInt8
  data : List UInt8

def readField (width : Nat) (bytes : List UInt8) : Option (Nat × List UInt8) :=
  if width ≤ bytes.length then some (ofLittleEndian (bytes.take width), bytes.drop width) else none

/-- `struct nvram_item` with its name and data, and what follows it. -/
def readItem (bytes : List UInt8) : Option (NvramItem × List UInt8) := do
  let (hash, rest) ← readField 4 bytes
  let (size, rest) ← readField 2 rest
  let (_, rest) ← readField 2 rest
  let (nameSize, rest) ← readField 2 rest
  let (dataSize, rest) ← readField 2 rest
  if size % 4 = 0 ∧ nvramItemHeaderSize + nameSize + dataSize ≤ size ∧ size ≤ bytes.length then
    some (⟨hash, rest.take nameSize, (rest.drop nameSize).take dataSize⟩, bytes.drop size)
  else none

/-- Items to the end of the bytes; there are fewer than bytes. -/
def readItems : Nat → List UInt8 → Option (List NvramItem)
  | _, [] => some []
  | 0, _ => none
  | count + 1, bytes => do
      let (item, rest) ← readItem bytes
      let items ← readItems count rest
      return item :: items

/-- A word of `struct region_info`, counted from the end of the image. -/
def regionWord (image : List UInt8) (index : Nat) : Nat :=
  ofLittleEndian ((image.drop (image.length - 4 * index)).take 4)

def readImage (image : List UInt8) : Option (List NvramItem) :=
  readItems (regionWord image 2) (image.take (regionWord image 2))

/-- A text with a NUL behind it. -/
def readText (bytes : List UInt8) : Option Text :=
  if bytes.getLast? = some 0 then bytes.dropLast.toByteArray.utf8Decode?.map Array.toList else none

def NvramItem.prop (item : NvramItem) : Option (Text × Text) := do
  let name ← readText item.name
  let value ← readText item.data
  return (name, value)

/-- An image is that of properties. -/
structure Decodes (image : List UInt8) (props : Props) : Prop where
  items : ∃ items, readImage image = some items ∧ items.mapM NvramItem.prop = some props ∧
    ∀ item ∈ items, item.hash = calcHash item.name
  aligned : image.length % 256 = 0
  size : regionWord image 3 = image.length
  crc : regionWord image 1 = (crc32 (image.take (image.length - 4))).toNat

/-! ## Items -/

theorem length_utf8_le (text : Text) : (utf8 text).length ≤ 4 * text.length := by
  rw [utf8]
  induction text with
  | nil => exact Nat.le_refl 0
  | cons c rest ih =>
      have hc := c.utf8Size_le_four
      rw [List.flatMap_cons, List.length_append, String.length_utf8EncodeChar, List.length_cons]
      omega

theorem calcHash_lt (key : List UInt8) : calcHash key < 256 ^ 4 := by
  rw [calcHash]
  have hstart : 0 < 256 ^ 4 := by decide
  generalize 0 = hash at hstart ⊢
  induction key generalizing hash with
  | nil => exact hstart
  | cons byte rest ih =>
      apply ih
      exact Nat.lt_of_le_of_lt Nat.and_le_right (by decide)

theorem readField_littleEndian {width value : Nat} (hvalue : value < 256 ^ width)
    (rest : List UInt8) :
    readField width (littleEndian width value ++ rest) = some (value, rest) := by
  rw [readField, if_pos (by simp), List.take_left' (length_littleEndian width value),
    List.drop_left' (length_littleEndian width value), ofLittleEndian_littleEndian hvalue]

theorem readText_utf8 (text : Text) : readText (utf8 text ++ [0]) = some text := by
  have hdecode : (utf8 text).toByteArray.utf8Decode? = some text.toArray :=
    List.utf8Decode?_utf8Encode
  rw [readText, if_pos (by simp), List.dropLast_concat, hdecode]
  rfl

/-- The item of a property. -/
def itemOf (prop : Text × Text) : NvramItem :=
  ⟨calcHash (utf8 prop.1 ++ [0]), utf8 prop.1 ++ [0], utf8 prop.2 ++ [0]⟩

theorem prop_itemOf (prop : Text × Text) : (itemOf prop).prop = some prop := by
  rw [NvramItem.prop, itemOf, readText_utf8, readText_utf8]
  rfl

/-- How long the item of a property is. -/
def itemSize (prop : Text × Text) : Nat :=
  let totalLen := nvramItemHeaderSize + (utf8 prop.1 ++ [0]).length + (utf8 prop.2 ++ [0]).length
  totalLen + if totalLen &&& 3 ≠ 0 then 4 - (totalLen &&& 3) else 0

theorem itemSize_spec (prop : Text × Text) :
    itemSize prop % 4 = 0 ∧
      nvramItemHeaderSize + (utf8 prop.1 ++ [0]).length + (utf8 prop.2 ++ [0]).length ≤
        itemSize prop ∧
      itemSize prop ≤
        nvramItemHeaderSize + (utf8 prop.1 ++ [0]).length + (utf8 prop.2 ++ [0]).length + 3 := by
  have hand : ∀ total : Nat, total &&& 3 = total % 4 := fun total =>
    Nat.and_two_pow_sub_one_eq_mod total 2
  rw [itemSize]
  simp only [hand]
  generalize nvramItemHeaderSize + (utf8 prop.1 ++ [0]).length + (utf8 prop.2 ++ [0]).length = total
  by_cases hpad : total % 4 ≠ 0
  · rw [if_pos hpad]
    omega
  · rw [if_neg hpad]
    omega

/-- The sizes fit into 16 bits. -/
theorem GoodProp.sizes {prop : Text × Text} (hgood : GoodProp prop) :
    (utf8 prop.1 ++ [0]).length < 256 ^ 2 ∧ (utf8 prop.2 ++ [0]).length < 256 ^ 2 ∧
      itemSize prop < 256 ^ 2 := by
  obtain ⟨-, hnameMax, hvalueMax⟩ := limits_of_validateProp hgood.valid
  have hname := length_utf8_le prop.1
  have hvalue := length_utf8_le prop.2
  have hsize := (itemSize_spec prop).2.2
  simp only [List.length_append, List.length_singleton, nvramItemHeaderSize, propNameMax,
    propValueMax] at hnameMax hvalueMax hsize ⊢
  omega

/-- The bytes of an item. -/
def itemBytes (prop : Text × Text) : List UInt8 :=
  littleEndian 4 (itemOf prop).hash ++ (littleEndian 2 (itemSize prop) ++ (littleEndian 2 0 ++
    (littleEndian 2 (itemOf prop).name.length ++ (littleEndian 2 (itemOf prop).data.length ++
      ((itemOf prop).name ++ ((itemOf prop).data ++
        List.replicate (itemSize prop - (nvramItemHeaderSize + (itemOf prop).name.length +
          (itemOf prop).data.length)) 0))))))

theorem length_itemBytes (prop : Text × Text) : (itemBytes prop).length = itemSize prop := by
  have hsize := (itemSize_spec prop).2.1
  simp only [itemBytes, itemOf, List.length_append, length_littleEndian, List.length_replicate,
    nvramItemHeaderSize, List.length_singleton] at hsize ⊢
  omega

theorem GoodProp.genItem_eq {prop : Text × Text} (hgood : GoodProp prop) :
    genItem prop.1 prop.2 = some (itemBytes prop, itemSize prop) := by
  obtain ⟨hname, hvalue, hsize⟩ := hgood.sizes
  have hhash := calcHash_lt (utf8 prop.1 ++ [0])
  have hpack : structPack [(4, calcHash (utf8 prop.1 ++ [0])), (2, itemSize prop), (2, 0),
      (2, (utf8 prop.1 ++ [0]).length), (2, (utf8 prop.2 ++ [0]).length)] =
      some (littleEndian 4 (calcHash (utf8 prop.1 ++ [0])) ++ (littleEndian 2 (itemSize prop) ++
        (littleEndian 2 0 ++ (littleEndian 2 (utf8 prop.1 ++ [0]).length ++
          littleEndian 2 (utf8 prop.2 ++ [0]).length)))) := by
    rw [structPack, if_pos]
    · simp only [List.flatMap_cons, List.flatMap_nil, List.append_nil]
    · simp only [List.all_cons, List.all_nil, hhash, hsize, hname, hvalue, decide_true,
        Bool.true_and, Bool.and_true]
      decide
  have hpad : itemSize prop - (nvramItemHeaderSize + (itemOf prop).name.length +
      (itemOf prop).data.length) =
      if (nvramItemHeaderSize + (utf8 prop.1 ++ [0]).length + (utf8 prop.2 ++ [0]).length) &&& 3 ≠ 0
      then 4 - ((nvramItemHeaderSize + (utf8 prop.1 ++ [0]).length +
        (utf8 prop.2 ++ [0]).length) &&& 3)
      else 0 := by
    rw [itemSize]
    exact Nat.add_sub_cancel_left _ _
  rw [itemSize] at hpack
  rw [genItem, itemBytes, hpad, itemSize]
  simp only [hpack, Option.bind_eq_bind, Option.bind_some, Option.pure_def, itemOf,
    List.append_assoc]

theorem GoodProp.readItem_eq {prop : Text × Text} (hgood : GoodProp prop) (rest : List UInt8) :
    readItem (itemBytes prop ++ rest) = some (itemOf prop, rest) := by
  obtain ⟨hname, hvalue, hsize⟩ := hgood.sizes
  obtain ⟨hmod, hle, -⟩ := itemSize_spec prop
  have hhash : (itemOf prop).hash < 256 ^ 4 := calcHash_lt _
  have hlength := length_itemBytes prop
  have hbytes : itemBytes prop ++ rest = littleEndian 4 (itemOf prop).hash ++
      (littleEndian 2 (itemSize prop) ++ (littleEndian 2 0 ++
        (littleEndian 2 (itemOf prop).name.length ++ (littleEndian 2 (itemOf prop).data.length ++
          ((itemOf prop).name ++ ((itemOf prop).data ++
            (List.replicate (itemSize prop - (nvramItemHeaderSize + (itemOf prop).name.length +
              (itemOf prop).data.length)) 0 ++ rest))))))) := by
    simp only [itemBytes, List.append_assoc]
  have hfit : itemSize prop % 4 = 0 ∧
      nvramItemHeaderSize + (itemOf prop).name.length + (itemOf prop).data.length ≤ itemSize prop ∧
      itemSize prop ≤ (itemBytes prop ++ rest).length := by
    refine ⟨hmod, hle, ?_⟩
    rw [List.length_append, hlength]
    exact Nat.le_add_right _ _
  have hdrop : (itemBytes prop ++ rest).drop (itemSize prop) = rest :=
    List.drop_left' hlength
  generalize itemBytes prop ++ rest = bytes at hbytes hfit hdrop ⊢
  have hfirst := congrArg (readField 4) hbytes
  rw [readField_littleEndian hhash] at hfirst
  have hzero : (0 : Nat) < 256 ^ 2 := by decide
  have hnameSize : (itemOf prop).name.length < 256 ^ 2 := hname
  have hdataSize : (itemOf prop).data.length < 256 ^ 2 := hvalue
  simp only [readItem, hfirst, readField_littleEndian hsize, readField_littleEndian hzero,
    readField_littleEndian hnameSize, readField_littleEndian hdataSize, Option.bind_eq_bind,
    Option.bind_some]
  rw [if_pos hfit, hdrop, List.take_left' rfl, List.drop_left' rfl, List.take_left' rfl]

/-! ## The walk -/

theorem mapM_genItem {props : Props} (hgood : ∀ prop ∈ props, GoodProp prop) :
    (props.mapM fun prop => genItem prop.1 prop.2) =
      some (props.map fun prop => (itemBytes prop, itemSize prop)) := by
  induction props with
  | nil => rfl
  | cons prop rest ih =>
      rw [List.mapM_cons, (hgood prop List.mem_cons_self).genItem_eq,
        ih fun other hother => hgood other (List.mem_cons_of_mem _ hother)]
      rfl

theorem readItems_itemBytes {props : Props} (hgood : ∀ prop ∈ props, GoodProp prop) {count : Nat}
    (hcount : (props.flatMap itemBytes).length ≤ count) :
    readItems count (props.flatMap itemBytes) = some (props.map itemOf) := by
  induction props generalizing count with
  | nil => cases count <;> rfl
  | cons prop rest ih =>
      have hprop := hgood prop List.mem_cons_self
      have hpos : 12 ≤ (itemBytes prop).length := by
        have hle := (itemSize_spec prop).2.1
        rw [length_itemBytes]
        rw [nvramItemHeaderSize] at hle
        omega
      rw [List.flatMap_cons, List.length_append] at hcount
      cases count with
      | zero => omega
      | succ count =>
          have hread := hprop.readItem_eq (rest.flatMap itemBytes)
          have hrest := ih (fun other hother => hgood other (List.mem_cons_of_mem _ hother))
            (show (rest.flatMap itemBytes).length ≤ count by omega)
          rw [List.flatMap_cons]
          cases hbytes : itemBytes prop ++ rest.flatMap itemBytes with
          | nil =>
              rw [List.append_eq_nil_iff] at hbytes
              rw [hbytes.1] at hpos
              exact absurd hpos (by decide)
          | cons byte others =>
              rw [hbytes] at hread
              rw [readItems]
              · rw [hread]
                simp only [Option.bind_eq_bind, Option.bind_some, hrest]
                rfl
              · simp

theorem mapM_prop_itemOf (props : Props) :
    (props.map itemOf).mapM NvramItem.prop = some props := by
  induction props with
  | nil => rfl
  | cons prop rest ih =>
      rw [List.map_cons, List.mapM_cons, prop_itemOf, ih]
      rfl

/-! ## The region -/

/-- The file of properties in bytes. -/
def regionSize (props : Props) : Nat :=
  let pos := (props.map itemSize).sum + nvramRegionHeaderSize
  pos + regionPadLen pos

theorem regionSize_mod (props : Props) : regionSize props % 256 = 0 := by
  rw [regionSize]
  generalize (props.map itemSize).sum + nvramRegionHeaderSize = pos
  rw [regionPadLen]
  by_cases hpad : pos % nvramWriteRegionAlignSize ≠ 0
  · rw [if_pos hpad]
    rw [nvramWriteRegionAlignSize] at hpad ⊢
    omega
  · rw [if_neg hpad]
    rw [nvramWriteRegionAlignSize] at hpad
    omega

theorem length_flatMap_itemBytes (props : Props) :
    (props.flatMap itemBytes).length = (props.map itemSize).sum := by
  rw [List.length_flatMap]
  apply congrArg List.sum
  apply List.map_congr_left
  intro prop _
  exact length_itemBytes prop

/-- Everything before the CRC, with the last two fields set off. -/
def regionFront (props : Props) : List UInt8 :=
  props.flatMap itemBytes ++
    List.replicate (regionPadLen ((props.map itemSize).sum + nvramRegionHeaderSize)) 0 ++
    (littleEndian 4 0x4752564e ++ (littleEndian 4 1 ++ littleEndian 4 0))

def regionBody (props : Props) : List UInt8 :=
  regionFront props ++ (littleEndian 4 (regionSize props) ++
    littleEndian 4 (props.map itemSize).sum)

def regionImage (props : Props) : List UInt8 :=
  regionBody props ++ littleEndian 4 (crc32 (regionBody props)).toNat

theorem length_regionBody (props : Props) : (regionBody props).length = regionSize props - 4 := by
  simp only [regionBody, regionFront, List.length_append, length_flatMap_itemBytes,
    List.length_replicate, length_littleEndian, regionSize, nvramRegionHeaderSize]
  omega

theorem length_regionImage (props : Props) : (regionImage props).length = regionSize props := by
  rw [regionImage, List.length_append, length_regionBody, length_littleEndian, regionSize,
    nvramRegionHeaderSize]
  omega

theorem structPack_eq (fields : List (Nat × Nat))
    (hfields : ∀ entry ∈ fields, entry.2 < 256 ^ entry.1) :
    structPack fields = some (fields.flatMap fun entry => littleEndian entry.1 entry.2) := by
  rw [structPack, if_pos]
  rw [List.all_eq_true]
  intro entry hentry
  exact decide_eq_true (hfields entry hentry)

section Region

variable {props : Props} (hgood : ∀ prop ∈ props, GoodProp prop)
include hgood

theorem buildNvramRegion_bind :
    buildNvramRegion props =
      (structPack [(4, 0x4752564e), (4, 1), (4, 0), (4, regionSize props),
        (4, (props.map itemSize).sum)]).bind fun info =>
        (structPack [(4, (crc32 ((props.flatMap itemBytes ++
          List.replicate (regionPadLen ((props.map itemSize).sum + nvramRegionHeaderSize)) 0 ++
          info).take (regionSize props - 4))).toNat)]).bind fun crc =>
          some (props.flatMap itemBytes ++
            List.replicate (regionPadLen ((props.map itemSize).sum + nvramRegionHeaderSize)) 0 ++
            info ++ crc) := by
  have hsizes : (props.map fun prop => (itemBytes prop, itemSize prop)).map Prod.snd =
      props.map itemSize := by
    rw [List.map_map]
    rfl
  have hdata : (props.map fun prop => (itemBytes prop, itemSize prop)).flatMap Prod.fst =
      props.flatMap itemBytes := by
    rw [List.flatMap_map]
  simp only [buildNvramRegion, mapM_genItem hgood, Option.bind_eq_bind, Option.bind_some, hsizes,
    hdata, length_flatMap_itemBytes, regionSize]
  rfl

theorem buildNvramRegion_eq (hsize : regionSize props < 2 ^ 32) :
    buildNvramRegion props = some (regionImage props) := by
  have hdata : (props.map itemSize).sum < 256 ^ 4 := by
    rw [regionSize] at hsize
    omega
  have hinfo : structPack [(4, 0x4752564e), (4, 1), (4, 0), (4, regionSize props),
      (4, (props.map itemSize).sum)] =
      some (littleEndian 4 0x4752564e ++ (littleEndian 4 1 ++ (littleEndian 4 0 ++
        (littleEndian 4 (regionSize props) ++ littleEndian 4 (props.map itemSize).sum)))) := by
    rw [structPack_eq]
    · simp only [List.flatMap_cons, List.flatMap_nil, List.append_nil]
    · intro entry hentry
      simp only [List.mem_cons, List.not_mem_nil, or_false] at hentry
      rcases hentry with rfl | rfl | rfl | rfl | rfl
      · decide
      · decide
      · decide
      · exact hsize
      · exact hdata
  have hbody : props.flatMap itemBytes ++
      List.replicate (regionPadLen ((props.map itemSize).sum + nvramRegionHeaderSize)) 0 ++
      (littleEndian 4 0x4752564e ++ (littleEndian 4 1 ++ (littleEndian 4 0 ++
        (littleEndian 4 (regionSize props) ++ littleEndian 4 (props.map itemSize).sum)))) =
      regionBody props := by
    simp only [regionBody, regionFront, List.append_assoc]
  have htake : (regionBody props).take (regionSize props - 4) = regionBody props := by
    rw [← length_regionBody, List.take_length]
  have hcrc : structPack [(4, (crc32 (regionBody props)).toNat)] =
      some (littleEndian 4 (crc32 (regionBody props)).toNat) := by
    rw [structPack_eq]
    · simp only [List.flatMap_cons, List.flatMap_nil, List.append_nil]
    · intro entry hentry
      rw [List.mem_singleton.mp hentry]
      exact (crc32 (regionBody props)).toNat_lt
  rw [buildNvramRegion_bind hgood, hinfo, Option.bind_some, hbody, htake, hcrc, Option.bind_some]
  rfl

theorem buildNvramRegion_none (hsize : 2 ^ 32 ≤ regionSize props) :
    buildNvramRegion props = none := by
  have hinfo : structPack [(4, 0x4752564e), (4, 1), (4, 0), (4, regionSize props),
      (4, (props.map itemSize).sum)] = none := by
    rw [structPack, if_neg]
    rw [List.all_eq_true]
    intro hall
    have hfits := of_decide_eq_true (hall (4, regionSize props) (by simp))
    dsimp only at hfits
    omega
  rw [buildNvramRegion_bind hgood, hinfo, Option.bind_none]

end Region

theorem regionWord_append {before after : List UInt8} {value index : Nat}
    (hvalue : value < 256 ^ 4) (hindex : after.length + 4 = 4 * index) :
    regionWord (before ++ (littleEndian 4 value ++ after)) index = value := by
  have hdrop : (before ++ (littleEndian 4 value ++ after)).length - 4 * index = before.length := by
    rw [List.length_append, List.length_append, length_littleEndian]
    omega
  rw [regionWord, hdrop, List.drop_left' rfl, List.take_left' (length_littleEndian 4 value),
    ofLittleEndian_littleEndian hvalue]

theorem decodes_regionImage {props : Props} (hgood : ∀ prop ∈ props, GoodProp prop)
    (hsize : regionSize props < 2 ^ 32) : Decodes (regionImage props) props := by
  have hdata : (props.map itemSize).sum < 256 ^ 4 := by
    rw [regionSize] at hsize
    omega
  have hcrc := (crc32 (regionBody props)).toNat_lt
  have hdataSize : regionWord (regionImage props) 2 = (props.map itemSize).sum := by
    rw [regionImage, regionBody, ← List.append_assoc, List.append_assoc _ (littleEndian 4 _)]
    apply regionWord_append hdata
    rw [length_littleEndian]
  have htake : (regionImage props).take (props.map itemSize).sum = props.flatMap itemBytes := by
    rw [regionImage, regionBody, regionFront, List.append_assoc, List.append_assoc,
      List.append_assoc]
    exact List.take_left' (length_flatMap_itemBytes props)
  refine ⟨⟨props.map itemOf, ?_, mapM_prop_itemOf props, ?_⟩, ?_, ?_, ?_⟩
  · rw [readImage, hdataSize, htake]
    exact readItems_itemBytes hgood (Nat.le_of_eq (length_flatMap_itemBytes props))
  · intro item hitem
    obtain ⟨prop, -, rfl⟩ := List.mem_map.mp hitem
    rfl
  · rw [length_regionImage, regionSize_mod]
  · rw [length_regionImage, regionImage, regionBody, List.append_assoc, List.append_assoc]
    apply regionWord_append hsize
    rw [List.length_append, length_littleEndian, length_littleEndian]
  · have hfront : (regionImage props).take ((regionImage props).length - 4) = regionBody props := by
      rw [length_regionImage, regionImage, ← length_regionBody]
      exact List.take_left' rfl
    rw [hfront, regionImage, ← List.append_nil (littleEndian 4 _)]
    exact regionWord_append hcrc rfl

/-- The image of a property file is read as its properties, and so is the file that is written
beside it. A file of 4 GiB or more raises an exception. -/
theorem nvram_image_of_lines (lines : List Text) :
    (regionSize (propFile lines) < 2 ^ 32 →
      ∃ image, buildNvramRegion (propFile lines) = some image ∧ Decodes image (propFile lines)) ∧
    (2 ^ 32 ≤ regionSize (propFile lines) → buildNvramRegion (propFile lines) = none) ∧
    ((∀ line ∈ lines, IsLine line) →
      propFile (readlines (propFile lines).write) = propFile lines) := by
  have hgood := (propFile_valid lines).good
  refine ⟨fun hsize => ?_, buildNvramRegion_none hgood, propFile_write⟩
  exact ⟨regionImage (propFile lines), buildNvramRegion_eq hgood hsize,
    decodes_regionImage hgood hsize⟩

/-- A value that is set again, a comment and a value with `=` in it. -/
theorem nvram_image_of_four_lines :
    let lines : List Text := ["name=Cubie \n".toList, " # name\n".toList, "a=b=c\n".toList,
      "name = é".toList]
    let props : Props := [("name".toList, "é".toList), ("a".toList, "b=c".toList)]
    propFile lines = props ∧
      (∃ image, buildNvramRegion props = some image ∧ Decodes image props) ∧
      propFile (readlines props.write) = props := by
  intro lines props
  have hprops : propFile lines = props := by decide
  obtain ⟨himage, -, hwrite⟩ := nvram_image_of_lines lines
  rw [hprops] at himage hwrite
  refine ⟨hprops, himage (by decide), hwrite ?_⟩
  intro line hline
  simp only [lines, List.mem_cons, List.not_mem_nil, or_false] at hline
  rcases hline with rfl | rfl | rfl | rfl
  all_goals
    constructor
    all_goals decide

end CubieBle.Build
