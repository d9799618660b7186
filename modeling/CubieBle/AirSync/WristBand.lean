import CubieBle.AirSync.Requests

/-! # Messages of a wrist band

A request has any number of step counts, each one a message in the message. It takes the size that
is computed for it, and no two requests have the same bytes.
-/

namespace CubieBle.AirSync.Epb

open Machine

/-! ## The code -/

def tagMMOpenStepDataItemStep : UInt16 := 0x08
def tagMMOpenStepDataItemTimestamp : UInt16 := 0x10
def tagMMOpenStepDataItemRTCYear : UInt16 := 0x18
def tagMMOpenStepDataItemRTCMonth : UInt16 := 0x20
def tagMMOpenStepDataItemRTCDay : UInt16 := 0x28
def tagMMOpenStepDataItemRTCHour : UInt16 := 0x30
def tagMMOpenStepDataItemRTCMinute : UInt16 := 0x38
def tagMMOpenStepDataItemRTCSecond : UInt16 := 0x40
def tagMMOpenWristbandRequestStepData : UInt16 := 0x0a
def tagMMOpenWristbandRequestExtData : UInt16 := 0x12

structure MMOpenStepDataItem where
  step : UInt32
  timestamp : Option UInt32
  rtcYear : Option UInt32
  rtcMonth : Option UInt32
  rtcDay : Option UInt32
  rtcHour : Option UInt32
  rtcMinute : Option UInt32
  rtcSecond : Option UInt32
deriving DecidableEq

structure MMOpenWristbandRequest where
  stepData : List MMOpenStepDataItem
  extData : Option Bytes

/-- A number that may be left out. -/
def setOptionalNumber (tag : UInt16) (value : Option UInt32) : List (Writer → Int × Writer) :=
  value.toList.map fun number e => epbSetUint32 e tag number

def optionalNumberPackSize (tag : UInt16) (value : Option UInt32) : Nat :=
  (value.map fun number => epbVarint32PackSize tag number false).getD 0

def epbMmopenStepDataItemPackSize (item : MMOpenStepDataItem) : Nat :=
  epbVarint32PackSize tagMMOpenStepDataItemStep item.step false +
    optionalNumberPackSize tagMMOpenStepDataItemTimestamp item.timestamp +
    optionalNumberPackSize tagMMOpenStepDataItemRTCYear item.rtcYear +
    optionalNumberPackSize tagMMOpenStepDataItemRTCMonth item.rtcMonth +
    optionalNumberPackSize tagMMOpenStepDataItemRTCDay item.rtcDay +
    optionalNumberPackSize tagMMOpenStepDataItemRTCHour item.rtcHour +
    optionalNumberPackSize tagMMOpenStepDataItemRTCMinute item.rtcMinute +
    optionalNumberPackSize tagMMOpenStepDataItemRTCSecond item.rtcSecond

def epbMmopenPackStepDataItem (item : MMOpenStepDataItem) (buf : Buffer) (len : Int) :
    Int × Writer :=
  packAll
    ([fun e => epbSetUint32 e tagMMOpenStepDataItemStep item.step] ++
      setOptionalNumber tagMMOpenStepDataItemTimestamp item.timestamp ++
      setOptionalNumber tagMMOpenStepDataItemRTCYear item.rtcYear ++
      setOptionalNumber tagMMOpenStepDataItemRTCMonth item.rtcMonth ++
      setOptionalNumber tagMMOpenStepDataItemRTCDay item.rtcDay ++
      setOptionalNumber tagMMOpenStepDataItemRTCHour item.rtcHour ++
      setOptionalNumber tagMMOpenStepDataItemRTCMinute item.rtcMinute ++
      setOptionalNumber tagMMOpenStepDataItemRTCSecond item.rtcSecond)
    (epbPackInit buf len)

def epbMmopenWristbandRequestPackSize (request : MMOpenWristbandRequest) : Nat :=
  (request.stepData.map fun item =>
      epbLengthDelimitedPackSize tagMMOpenWristbandRequestStepData
        (epbMmopenStepDataItemPackSize item)).sum +
    optionalPackSize tagMMOpenWristbandRequestExtData request.extData

def epbMmopenPackWristbandRequest (heap : Buffer) (request : MMOpenWristbandRequest)
    (buf : Buffer) (len : Int) : Int × Writer :=
  packAll
    ((request.stepData.map fun item =>
        packMessage (epbMmopenPackStepDataItem item) (epbMmopenStepDataItemPackSize item) heap
          tagMMOpenWristbandRequestStepData) ++
      setOptional tagMMOpenWristbandRequestExtData request.extData)
    (epbPackInit buf len)

/-! ## The fields -/

def optionalNumber (number : Nat) (value : Option UInt32) : List WireField :=
  value.toList.map (wordField number)

def MMOpenStepDataItem.fields (item : MMOpenStepDataItem) : List WireField :=
  [wordField 1 item.step] ++
    optionalNumber 2 item.timestamp ++
    optionalNumber 3 item.rtcYear ++
    optionalNumber 4 item.rtcMonth ++
    optionalNumber 5 item.rtcDay ++
    optionalNumber 6 item.rtcHour ++
    optionalNumber 7 item.rtcMinute ++
    optionalNumber 8 item.rtcSecond

def MMOpenStepDataItem.field (item : MMOpenStepDataItem) : WireField :=
  bytesField 1 (encodeFields item.fields)

def MMOpenWristbandRequest.fields (request : MMOpenWristbandRequest) : List WireField :=
  request.stepData.map MMOpenStepDataItem.field ++ optionalField 2 request.extData

section Numbers

variable (tag : UInt16) (number : Nat) (htag : IsTagOf tag (8 * number))

include htag

theorem appends_word (value : UInt32) :
    Appends (fun e => epbSetUint32 e tag value) (wordField number value).encode := by
  have hkey : (wordField number value).key < 2 ^ 14 := htag.lt
  rw [htag.eq]
  exact appends_uint32 hkey rfl

theorem appendsAll_optionalNumber (value : Option UInt32) :
    AppendsAll (setOptionalNumber tag value) (optionalNumber number value) :=
  AppendsAll.ofOption fun word _ => appends_word tag number htag word

theorem length_word (value : UInt32) :
    epbVarint32PackSize tag value false = (wordField number value).encode.length := by
  have hkey : (wordField number value).key < 2 ^ 14 := htag.lt
  rw [htag.eq]
  exact varint32PackSize_eq hkey rfl

theorem length_optionalNumber (value : Option UInt32) :
    optionalNumberPackSize tag value = (encodeFields (optionalNumber number value)).length := by
  cases value with
  | none => rfl
  | some word =>
      show epbVarint32PackSize tag word false = (encodeFields [wordField number word]).length
      rw [length_word tag number htag, encodeFields_cons, encodeFields_nil, List.append_nil]

end Numbers

theorem epbMmopenPackStepDataItem_packsInto (item : MMOpenStepDataItem) :
    PacksInto (epbMmopenPackStepDataItem item) item.fields := by
  apply AppendsAll.packsInto
  repeat' apply AppendsAll.append
  · exact .cons (appends_word tagMMOpenStepDataItemStep 1 ⟨by decide, rfl⟩ item.step) .nil
  · exact appendsAll_optionalNumber tagMMOpenStepDataItemTimestamp 2 ⟨by decide, rfl⟩ _
  · exact appendsAll_optionalNumber tagMMOpenStepDataItemRTCYear 3 ⟨by decide, rfl⟩ _
  · exact appendsAll_optionalNumber tagMMOpenStepDataItemRTCMonth 4 ⟨by decide, rfl⟩ _
  · exact appendsAll_optionalNumber tagMMOpenStepDataItemRTCDay 5 ⟨by decide, rfl⟩ _
  · exact appendsAll_optionalNumber tagMMOpenStepDataItemRTCHour 6 ⟨by decide, rfl⟩ _
  · exact appendsAll_optionalNumber tagMMOpenStepDataItemRTCMinute 7 ⟨by decide, rfl⟩ _
  · exact appendsAll_optionalNumber tagMMOpenStepDataItemRTCSecond 8 ⟨by decide, rfl⟩ _

theorem epbMmopenStepDataItemPackSize_eq (item : MMOpenStepDataItem) :
    epbMmopenStepDataItemPackSize item = (encodeFields item.fields).length := by
  rw [epbMmopenStepDataItemPackSize,
    length_word tagMMOpenStepDataItemStep 1 ⟨by decide, rfl⟩,
    length_optionalNumber tagMMOpenStepDataItemTimestamp 2 ⟨by decide, rfl⟩,
    length_optionalNumber tagMMOpenStepDataItemRTCYear 3 ⟨by decide, rfl⟩,
    length_optionalNumber tagMMOpenStepDataItemRTCMonth 4 ⟨by decide, rfl⟩,
    length_optionalNumber tagMMOpenStepDataItemRTCDay 5 ⟨by decide, rfl⟩,
    length_optionalNumber tagMMOpenStepDataItemRTCHour 6 ⟨by decide, rfl⟩,
    length_optionalNumber tagMMOpenStepDataItemRTCMinute 7 ⟨by decide, rfl⟩,
    length_optionalNumber tagMMOpenStepDataItemRTCSecond 8 ⟨by decide, rfl⟩]
  simp only [MMOpenStepDataItem.fields, encodeFields_append, encodeFields_cons, encodeFields_nil,
    List.append_nil, List.length_append]

/-! ## Items in a request -/

theorem length_word_le (number : Nat) (hkey : 8 * number < 128) (value : UInt32) :
    (wordField number value).encode.length ≤ 6 := by
  have hone : (varint (8 * number)).length ≤ 1 := length_varint_le (by decide) hkey
  have hfive : (varint value.toNat).length ≤ 5 :=
    length_varint_le (by decide) (Nat.lt_trans value.toNat_lt (by decide))
  show (varint (8 * number) ++ varint value.toNat).length ≤ 6
  rw [List.length_append]
  omega

theorem length_optionalNumber_le (number : Nat) (hkey : 8 * number < 128)
    (value : Option UInt32) : (encodeFields (optionalNumber number value)).length ≤ 6 := by
  cases value with
  | none => exact Nat.zero_le 6
  | some word =>
      have hword := length_word_le number hkey word
      rwa [optionalNumber, Option.toList_some, List.map_singleton, encodeFields_cons,
        encodeFields_nil, List.append_nil]

/-- An item has eight numbers. -/
theorem length_item_le (item : MMOpenStepDataItem) : (encodeFields item.fields).length ≤ 48 := by
  have hstep := length_word_le 1 (by decide) item.step
  have htimestamp := length_optionalNumber_le 2 (by decide) item.timestamp
  have hyear := length_optionalNumber_le 3 (by decide) item.rtcYear
  have hmonth := length_optionalNumber_le 4 (by decide) item.rtcMonth
  have hday := length_optionalNumber_le 5 (by decide) item.rtcDay
  have hhour := length_optionalNumber_le 6 (by decide) item.rtcHour
  have hminute := length_optionalNumber_le 7 (by decide) item.rtcMinute
  have hsecond := length_optionalNumber_le 8 (by decide) item.rtcSecond
  simp only [MMOpenStepDataItem.fields, encodeFields_append, encodeFields_cons, encodeFields_nil,
    List.append_nil, List.length_append]
  omega

theorem appends_item (heap : Buffer) (item : MMOpenStepDataItem) :
    Appends (packMessage (epbMmopenPackStepDataItem item) (epbMmopenStepDataItemPackSize item) heap
      tagMMOpenWristbandRequestStepData) item.field.encode := by
  have hsize := epbMmopenStepDataItemPackSize_eq item
  have hlength := length_item_le item
  have hkey : item.field.key < 2 ^ 14 := by show 0x0a < 2 ^ 14; decide
  have hmessage := (epbMmopenPackStepDataItem_packsInto item).appends hsize (by omega) heap hkey rfl
  exact hmessage

theorem appendsAll_items (heap : Buffer) (items : List MMOpenStepDataItem) :
    AppendsAll
      (items.map fun item =>
        packMessage (epbMmopenPackStepDataItem item) (epbMmopenStepDataItemPackSize item) heap
          tagMMOpenWristbandRequestStepData)
      (items.map MMOpenStepDataItem.field) := by
  induction items with
  | nil => exact .nil
  | cons item items ih => exact .cons (appends_item heap item) ih

theorem length_items (items : List MMOpenStepDataItem) :
    (items.map fun item =>
        epbLengthDelimitedPackSize tagMMOpenWristbandRequestStepData
          (epbMmopenStepDataItemPackSize item)).sum =
      (encodeFields (items.map MMOpenStepDataItem.field)).length := by
  induction items with
  | nil => rfl
  | cons item items ih =>
      have hlength := length_item_le item
      rw [List.map_cons, List.sum_cons, ih, epbMmopenStepDataItemPackSize_eq,
        length_bytes tagMMOpenWristbandRequestStepData 1 ⟨by decide, rfl⟩
          (Nat.lt_of_le_of_lt hlength (by decide)),
        List.map_cons, encodeFields_cons, List.length_append]
      rfl

theorem epbMmopenPackWristbandRequest_packsInto (heap : Buffer)
    (request : MMOpenWristbandRequest) :
    PacksInto (epbMmopenPackWristbandRequest heap request) request.fields := by
  apply AppendsAll.packsInto
  apply AppendsAll.append (appendsAll_items heap request.stepData)
  exact appendsAll_optional tagMMOpenWristbandRequestExtData 2 ⟨by decide, rfl⟩ _

theorem epbMmopenWristbandRequestPackSize_eq (request : MMOpenWristbandRequest) :
    epbMmopenWristbandRequestPackSize request = (encodeFields request.fields).length := by
  rw [epbMmopenWristbandRequestPackSize, length_items,
    length_optional tagMMOpenWristbandRequestExtData 2 ⟨by decide, rfl⟩,
    MMOpenWristbandRequest.fields, encodeFields_append, List.length_append]

/-! ## No two requests have the same bytes -/

@[simp] theorem lookupField_optionalNumber {number other : Nat} (value : Option UInt32) :
    lookupField (optionalNumber number value) other =
      if 8 * number = other then value.map fun word => .varint word.toNat else none := by
  cases value with
  | none => simp [optionalNumber]
  | some word =>
      by_cases hsame : 8 * number = other
      · subst hsame
        rw [if_pos rfl]
        exact lookupField_cons_self _
      · rw [if_neg hsame]
        exact lookupField_cons_of_ne hsame

theorem lookupField_step (item : MMOpenStepDataItem) :
    lookupField item.fields 0x08 = some (.varint item.step.toNat) :=
  lookupField_cons_self _

theorem varint_toNat_injective : Function.Injective fun n : UInt32 => WireValue.varint n.toNat := by
  intro first second heq
  exact UInt32.toNat_inj.mp (WireValue.varint.inj heq)

/-- The numbers of an item stand under different keys. -/
theorem MMOpenStepDataItem.fields_injective : Function.Injective MMOpenStepDataItem.fields := by
  intro first second heq
  have hat : ∀ key, lookupField first.fields key = lookupField second.fields key := by
    intro key
    rw [heq]
  have hstep := hat 0x08
  rw [lookupField_step, lookupField_step, Option.some.injEq] at hstep
  have hoption : Function.Injective (Option.map fun n : UInt32 => WireValue.varint n.toNat) :=
    Option.map_injective varint_toNat_injective
  have htimestamp := hat 0x10
  have hyear := hat 0x18
  have hmonth := hat 0x20
  have hday := hat 0x28
  have hhour := hat 0x30
  have hminute := hat 0x38
  have hsecond := hat 0x40
  simp [fields, lookupField_append, wordField, lookupField_cons_of_ne]
    at htimestamp hyear hmonth hday hhour hminute hsecond
  obtain ⟨step, timestamp, rtcYear, rtcMonth, rtcDay, rtcHour, rtcMinute, rtcSecond⟩ := first
  obtain ⟨step', timestamp', rtcYear', rtcMonth', rtcDay', rtcHour', rtcMinute', rtcSecond'⟩ :=
    second
  rw [MMOpenStepDataItem.mk.injEq]
  exact ⟨varint_toNat_injective hstep, hoption htimestamp, hoption hyear, hoption hmonth,
    hoption hday, hoption hhour, hoption hminute, hoption hsecond⟩

theorem MMOpenStepDataItem.field_injective : Function.Injective MMOpenStepDataItem.field := by
  intro first second heq
  have hvalue : WireValue.delimited (encodeFields first.fields) =
      .delimited (encodeFields second.fields) := congrArg WireField.value heq
  exact MMOpenStepDataItem.fields_injective
    (encodeFields_injective (WireValue.delimited.inj hvalue))

theorem optionalField_injective (number : Nat) : Function.Injective (optionalField number) := by
  intro first second heq
  have hvalue := congrArg (fun fields => lookupField fields (8 * number + 2)) heq
  simp only [lookupField_optionalField, if_pos] at hvalue
  apply Option.map_injective _ hvalue
  rintro ⟨data, hdata⟩ ⟨data', hdata'⟩ hbytes
  cases WireValue.delimited.inj hbytes
  rfl

/-- The items come first, and the data of the request has another key. -/
theorem items_eq_filter (request : MMOpenWristbandRequest) :
    request.stepData.map MMOpenStepDataItem.field =
      request.fields.filter fun field => field.key = 0x0a := by
  rw [MMOpenWristbandRequest.fields, List.filter_append]
  have hitems : (request.stepData.map MMOpenStepDataItem.field).filter
      (fun field => field.key = 0x0a) = request.stepData.map MMOpenStepDataItem.field := by
    rw [List.filter_eq_self]
    intro field hfield
    obtain ⟨item, -, rfl⟩ := List.mem_map.mp hfield
    rfl
  have hdata : (optionalField 2 request.extData).filter
      (fun field => field.key = 0x0a) = [] := by
    rw [List.filter_eq_nil_iff]
    intro field hfield
    obtain ⟨bytes, -, rfl⟩ := List.mem_map.mp hfield
    simp [bytesField]
  rw [hitems, hdata, List.append_nil]

theorem MMOpenWristbandRequest.fields_injective :
    Function.Injective MMOpenWristbandRequest.fields := by
  intro first second heq
  have hitems := items_eq_filter first
  rw [heq, ← items_eq_filter second] at hitems
  have hstepData := List.map_injective_iff.mpr MMOpenStepDataItem.field_injective hitems
  rw [fields, fields, hitems, List.append_cancel_left_eq] at heq
  have hextData := optionalField_injective 2 heq
  obtain ⟨stepData, extData⟩ := first
  obtain ⟨stepData', extData'⟩ := second
  rw [MMOpenWristbandRequest.mk.injEq]
  exact ⟨hstepData, hextData⟩

theorem MMOpenWristbandRequest.supported (request : MMOpenWristbandRequest) :
    ∀ field ∈ request.fields, Supported field := by
  intro field hfield
  rw [fields, List.mem_append, List.mem_map] at hfield
  rcases hfield with ⟨item, -, rfl⟩ | hdata
  · have hlength := length_item_le item
    exact supported_bytesField (by decide) (Nat.lt_of_le_of_lt hlength (by decide))
  · exact supported_optionalField (by decide) _ field hdata

/-- What a request packs, if the buffer is large enough. -/
def packedBytes (heap : Buffer) (request : MMOpenWristbandRequest) (buf : Buffer) (len : Int) :
    List UInt8 :=
  (epbMmopenPackWristbandRequest heap request buf len).2.packBuf.bytes 0
    (epbMmopenPackWristbandRequest heap request buf len).1.toNat

theorem packedBytes_eq (heap : Buffer) (request : MMOpenWristbandRequest) (buf : Buffer)
    {len : Nat} (hlen : epbMmopenWristbandRequestPackSize request ≤ len) :
    packedBytes heap request buf len = encodeFields request.fields := by
  rw [epbMmopenWristbandRequestPackSize_eq] at hlen
  obtain ⟨hret, hstarts⟩ :=
    (epbMmopenPackWristbandRequest_packsInto heap request).fits buf len (by omega)
  rw [packedBytes, hret, Int.toNat_natCast]
  exact hstarts.bytes_eq

/-- A request with any number of items takes the size that is computed for it, is refused by a
smaller buffer, and is the only one with its bytes. -/
theorem wristbandRequests_unique (heap : Buffer) (request : MMOpenWristbandRequest) :
    RoundTrips (epbMmopenPackWristbandRequest heap request)
        (epbMmopenWristbandRequestPackSize request) (fun e => Encodes e request.fields) ∧
      ∀ (other : MMOpenWristbandRequest) (buf : Buffer) (len : Nat),
        epbMmopenWristbandRequestPackSize request ≤ len →
        epbMmopenWristbandRequestPackSize other ≤ len →
        packedBytes heap other buf len = packedBytes heap request buf len → other = request := by
  constructor
  · exact (epbMmopenPackWristbandRequest_packsInto heap request).roundTrips request.supported
      (epbMmopenWristbandRequestPackSize_eq request) fun e henc => henc
  · intro other buf len hlen hother heq
    rw [packedBytes_eq heap other buf hother, packedBytes_eq heap request buf hlen] at heq
    exact MMOpenWristbandRequest.fields_injective (encodeFields_injective heq)

def oneStep : MMOpenWristbandRequest := ⟨[⟨1, none, none, none, none, none, none, none⟩], none⟩

def twoSteps : MMOpenWristbandRequest := ⟨[⟨2, none, none, none, none, none, none, none⟩], none⟩

theorem wristbandRequests_unique_of_steps :
    packedBytes (fun _ => 0) twoSteps (fun _ => 0)
        ((epbMmopenWristbandRequestPackSize oneStep + epbMmopenWristbandRequestPackSize twoSteps :
          Nat) : Int) ≠
      packedBytes (fun _ => 0) oneStep (fun _ => 0)
        ((epbMmopenWristbandRequestPackSize oneStep + epbMmopenWristbandRequestPackSize twoSteps :
          Nat) : Int) := by
  intro heq
  have hsame := (wristbandRequests_unique (fun _ => 0) oneStep).2 twoSteps (fun _ => 0) _
    (Nat.le_add_right _ _) (Nat.le_add_left _ _) heq
  have hdata : twoSteps.stepData = oneStep.stepData := congrArg _ hsame
  revert hdata
  decide

end CubieBle.AirSync.Epb
