import CubieBle.AirSync.MmBpLaws

/-! # Requests that the phone reads

A request that is packed into a buffer of its size can be read from the buffer field by field,
and one that is packed into a smaller buffer is refused.
-/

namespace CubieBle.AirSync.Epb

open Machine

/-- A request is packed if the buffer has its size, and reads back from there. -/
structure RoundTrips (pack : Buffer → Int → Int × Writer) (size : Nat) (readsBack : Reader → Prop) :
    Prop where
  full : ∀ buf (len : Nat), len < size → (pack buf len).1 = -1
  fits : ∀ buf (len : Nat), size ≤ len →
    (pack buf len).1 = size ∧ readsBack ⟨(pack buf len).2.packBuf, (pack buf len).1⟩

/-- The fields of the request as the getters find them. -/
structure AuthRequest.ReadBy (uninit : UInt32) (request : AuthRequest) (e : Reader) : Prop where
  baseRequest : whenTag e (getBytes uninit) tagAuthRequestBaseRequest = some []
  md5DeviceTypeAndDeviceId : whenTag e (getBytes uninit) tagAuthRequestMd5DeviceTypeAndDeviceId =
    request.md5DeviceTypeAndDeviceId.map Bytes.data
  protoVersion : whenTag e epbGetInt32 tagAuthRequestProtoVersion = some request.protoVersion.toInt
  authProto : whenTag e epbGetInt32 tagAuthRequestAuthProto = some request.authProto.toInt
  authMethod : whenTag e epbGetEnum tagAuthRequestAuthMethod = some request.authMethod.toInt
  aesSign : whenTag e (getBytes uninit) tagAuthRequestAesSign = request.aesSign.map Bytes.data
  macAddress : whenTag e (getBytes uninit) tagAuthRequestMacAddress =
    request.macAddress.map Bytes.data
  timeZone : whenTag e (getBytes uninit) tagAuthRequestTimeZone = request.timeZone.map Bytes.data
  language : whenTag e (getBytes uninit) tagAuthRequestLanguage = request.language.map Bytes.data
  deviceName : whenTag e (getBytes uninit) tagAuthRequestDeviceName =
    request.deviceName.map Bytes.data

structure InitRequest.ReadBy (uninit : UInt32) (request : InitRequest) (e : Reader) : Prop where
  baseRequest : whenTag e (getBytes uninit) tagInitRequestBaseRequest = some []
  respFieldFilter : whenTag e (getBytes uninit) tagInitRequestRespFieldFilter =
    request.respFieldFilter.map Bytes.data
  challenge : whenTag e (getBytes uninit) tagInitRequestChallenge =
    request.challenge.map Bytes.data

structure SendDataRequest.ReadBy (uninit : UInt32) (request : SendDataRequest) (e : Reader) :
    Prop where
  baseRequest : whenTag e (getBytes uninit) tagSendDataRequestBaseRequest = some []
  data : whenTag e (getBytes uninit) tagSendDataRequestData = some request.data.data
  type : whenTag e epbGetEnum tagSendDataRequestType = request.type.map Int32.toInt

section Reading

variable {e : Reader} {fields : List WireField} (henc : Encodes e fields) (tag : UInt16) (key : Nat)
  (htag : IsTagOf tag key)

include henc htag

theorem whenTag_bytes_of_lookup (htype : key % 8 = 2) (uninit : UInt32) {value : Option Bytes}
    (hlookup : lookupField fields key = value.map fun bytes => .delimited bytes.data) :
    whenTag e (getBytes uninit) tag = value.map Bytes.data := by
  rw [whenTag_bytes henc tag key htag htype, bytesAt, hlookup]
  cases value with
  | none => rfl
  | some bytes => rfl

theorem whenTag_message_of_lookup (htype : key % 8 = 2) (uninit : UInt32) {data : List UInt8}
    (hlookup : lookupField fields key = some (.delimited data)) :
    whenTag e (getBytes uninit) tag = some data := by
  rw [whenTag_bytes henc tag key htag htype, bytesAt, hlookup]
  rfl

theorem whenTag_int32_of_lookup (htype : key % 8 = 0) {value : Option Int32}
    (hlookup : lookupField fields key = value.map fun n => .varint n.toUInt32.toNat) :
    whenTag e epbGetInt32 tag = value.map Int32.toInt := by
  rw [whenTag_int32 henc tag key htag htype, varintAt, hlookup]
  cases value with
  | none => rfl
  | some n => exact congrArg some (int32Of_toUInt32 n)

theorem whenTag_number_of_lookup (htype : key % 8 = 0) {value : Int32}
    (hlookup : lookupField fields key = some (.varint value.toUInt32.toNat)) :
    whenTag e epbGetInt32 tag = some value.toInt := by
  have hsome : lookupField fields key = (some value).map fun n => .varint n.toUInt32.toNat :=
    hlookup
  exact whenTag_int32_of_lookup henc tag key htag htype hsome

end Reading

section Requests

variable {e : Reader} (uninit : UInt32)

theorem AuthRequest.readBy_of_encodes {request : AuthRequest} (henc : Encodes e request.fields) :
    request.ReadBy uninit e where
  baseRequest := by
    apply whenTag_message_of_lookup henc _ 0x0a ⟨by decide, rfl⟩ rfl
    simp [fields]
  md5DeviceTypeAndDeviceId := by
    apply whenTag_bytes_of_lookup henc _ 0x12 ⟨by decide, rfl⟩ rfl
    simp [fields, lookupField_append]
  protoVersion := by
    apply whenTag_number_of_lookup henc _ 0x18 ⟨by decide, rfl⟩ rfl
    simp [fields, lookupField_append]
  authProto := by
    apply whenTag_number_of_lookup henc _ 0x20 ⟨by decide, rfl⟩ rfl
    simp [fields, lookupField_append]
  authMethod := by
    apply whenTag_number_of_lookup henc _ 0x28 ⟨by decide, rfl⟩ rfl
    simp [fields, lookupField_append]
  aesSign := by
    apply whenTag_bytes_of_lookup henc _ 0x32 ⟨by decide, rfl⟩ rfl
    simp [fields, lookupField_append]
  macAddress := by
    apply whenTag_bytes_of_lookup henc _ 0x3a ⟨by decide, rfl⟩ rfl
    simp [fields, lookupField_append]
  timeZone := by
    apply whenTag_bytes_of_lookup henc _ 0x52 ⟨by decide, rfl⟩ rfl
    simp [fields, lookupField_append]
  language := by
    apply whenTag_bytes_of_lookup henc _ 0x5a ⟨by decide, rfl⟩ rfl
    simp [fields, lookupField_append]
  deviceName := by
    apply whenTag_bytes_of_lookup henc _ 0x62 ⟨by decide, rfl⟩ rfl
    simp [fields, lookupField_append]

theorem InitRequest.readBy_of_encodes {request : InitRequest} (henc : Encodes e request.fields) :
    request.ReadBy uninit e where
  baseRequest := by
    apply whenTag_message_of_lookup henc _ 0x0a ⟨by decide, rfl⟩ rfl
    simp [fields]
  respFieldFilter := by
    apply whenTag_bytes_of_lookup henc _ 0x12 ⟨by decide, rfl⟩ rfl
    simp [fields, lookupField_append]
  challenge := by
    apply whenTag_bytes_of_lookup henc _ 0x1a ⟨by decide, rfl⟩ rfl
    simp [fields, lookupField_append]

theorem SendDataRequest.readBy_of_encodes {request : SendDataRequest}
    (henc : Encodes e request.fields) : request.ReadBy uninit e where
  baseRequest := by
    apply whenTag_message_of_lookup henc _ 0x0a ⟨by decide, rfl⟩ rfl
    exact lookupField_cons_self _
  data := by
    apply whenTag_message_of_lookup henc _ 0x12 ⟨by decide, rfl⟩ rfl
    simp [fields, bytesField, lookupField]
  type := by
    apply whenTag_int32_of_lookup henc _ 0x18 ⟨by decide, rfl⟩ rfl
    cases htype : request.type with
    | none => simp [fields, bytesField, lookupField, htype]
    | some type => simp [fields, bytesField, numberField, wordField, lookupField, htype]

end Requests

theorem PacksInto.roundTrips {pack : Buffer → Int → Int × Writer} {fields : List WireField}
    {size : Nat} {readsBack : Reader → Prop} (hpack : PacksInto pack fields)
    (hsupported : ∀ field ∈ fields, Supported field)
    (hsize : size = (encodeFields fields).length)
    (hread : ∀ e, Encodes e fields → readsBack e) : RoundTrips pack size readsBack where
  full buf len hlen := hpack.full buf len (by omega) (by omega)
  fits buf len hlen := by
    refine ⟨?_, hread _ (hpack.encodes hsupported buf len (by omega))⟩
    rw [hsize]
    exact (hpack.fits buf len (by omega)).1

/-- Each request takes exactly the size that is computed for it, is refused by a smaller buffer,
and gives back all its fields, also those that it leaves out. -/
theorem requests_roundTrip (heap : Buffer) (uninit : UInt32) :
    (∀ request, RoundTrips (epbPackAuthRequest heap request) (epbAuthRequestPackSize request)
      (request.ReadBy uninit)) ∧
    (∀ request, RoundTrips (epbPackInitRequest heap request) (epbInitRequestPackSize request)
      (request.ReadBy uninit)) ∧
    ∀ request, RoundTrips (epbPackSendDataRequest heap request)
      (epbSendDataRequestPackSize request) (request.ReadBy uninit) := by
  refine ⟨fun request => ?_, fun request => ?_, fun request => ?_⟩
  · exact (epbPackAuthRequest_packsInto heap request).roundTrips request.supported
      (epbAuthRequestPackSize_eq request) fun e => AuthRequest.readBy_of_encodes uninit
  · exact (epbPackInitRequest_packsInto heap request).roundTrips request.supported
      (epbInitRequestPackSize_eq request) fun e => InitRequest.readBy_of_encodes uninit
  · exact (epbPackSendDataRequest_packsInto heap request).roundTrips request.supported
      (epbSendDataRequestPackSize_eq request) fun e => SendDataRequest.readBy_of_encodes uninit

end CubieBle.AirSync.Epb
