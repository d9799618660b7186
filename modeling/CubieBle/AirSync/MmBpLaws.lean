import CubieBle.AirSync.MmBp

/-! # Messages and their fields

A request is packed as a list of fields of the wire format, in memory of exactly the size that
was computed for it, and its fields can be read back. An unpacked message is what a list of
fields says, in whatever order they come and whatever else is between them.
-/

namespace CubieBle.AirSync.Epb

open Machine

/-! ## The fields of a request -/

def bytesField (number : Nat) (data : List UInt8) : WireField where
  key := 8 * number + 2
  value := .delimited data
  wireType := Nat.mul_add_mod 8 number 2

def wordField (number : Nat) (value : UInt32) : WireField where
  key := 8 * number
  value := .varint value.toNat
  wireType := Nat.mul_mod_right 8 number

def numberField (number : Nat) (value : Int32) : WireField := wordField number value.toUInt32

def optionalField (number : Nat) (value : Option Bytes) : List WireField :=
  value.toList.map fun bytes => bytesField number bytes.data

@[simp] theorem encode_bytesField (number : Nat) (data : List UInt8) :
    (bytesField number data).encode = varint (8 * number + 2) ++ (varint data.length ++ data) := rfl

@[simp] theorem encode_wordField (number : Nat) (value : UInt32) :
    (wordField number value).encode = varint (8 * number) ++ varint value.toNat := rfl

def AuthRequest.fields (request : AuthRequest) : List WireField :=
  [bytesField 1 []] ++
    optionalField 2 request.md5DeviceTypeAndDeviceId ++
    [numberField 3 request.protoVersion, numberField 4 request.authProto,
      numberField 5 request.authMethod] ++
    optionalField 6 request.aesSign ++
    optionalField 7 request.macAddress ++
    optionalField 10 request.timeZone ++
    optionalField 11 request.language ++
    optionalField 12 request.deviceName

def InitRequest.fields (request : InitRequest) : List WireField :=
  [bytesField 1 []] ++
    optionalField 2 request.respFieldFilter ++
    optionalField 3 request.challenge

def SendDataRequest.fields (request : SendDataRequest) : List WireField :=
  [bytesField 1 [], bytesField 2 request.data.data] ++
    request.type.toList.map fun type => numberField 3 type

/-! ## Packing -/

/-- The bytes of a key that has at most two of them. -/
structure IsTagOf (tag : UInt16) (key : Nat) : Prop where
  lt : key < 2 ^ 14
  eq : tag = tagOf key

section Pack

variable (tag : UInt16) (number : Nat)

theorem appends_number (htag : IsTagOf tag (8 * number)) (value : Int32) :
    Appends (fun e => epbSetInt32 e tag value) (numberField number value).encode := by
  have hkey : (numberField number value).key < 2 ^ 14 := htag.lt
  rw [htag.eq]
  exact appends_uint32 hkey rfl

theorem appends_bytesField (htag : IsTagOf tag (8 * number + 2)) (bytes : Bytes) :
    Appends (fun e => epbSetBytes e tag bytes.data) (bytesField number bytes.data).encode := by
  have hkey : (bytesField number bytes.data).key < 2 ^ 14 := htag.lt
  rw [htag.eq]
  exact appends_bytes hkey (Nat.lt_trans bytes.fits (by decide)) rfl

theorem appendsAll_optional (htag : IsTagOf tag (8 * number + 2)) (value : Option Bytes) :
    AppendsAll (setOptional tag value) (optionalField number value) :=
  AppendsAll.ofOption fun bytes _ => appends_bytesField tag number htag bytes

theorem appends_baseRequest (htag : IsTagOf tag (8 * number + 2)) (heap : Buffer) :
    Appends (setBaseRequest heap tag) (bytesField number []).encode := by
  have hpack : PacksInto epbPackBaseRequest [] := AppendsAll.packsInto .nil
  have hkey : (bytesField number []).key < 2 ^ 14 := htag.lt
  have hmessage := hpack.appends rfl (Nat.two_pow_pos 32) heap hkey rfl
  rw [htag.eq]
  exact hmessage

theorem length_number (htag : IsTagOf tag (8 * number)) (value : Int32) :
    epbVarint32PackSize tag value.toUInt32 false = (numberField number value).encode.length := by
  have hkey : (numberField number value).key < 2 ^ 14 := htag.lt
  rw [htag.eq]
  exact varint32PackSize_eq hkey rfl

theorem length_bytes (htag : IsTagOf tag (8 * number + 2)) {data : List UInt8}
    (hdata : data.length < 2 ^ 31) :
    epbLengthDelimitedPackSize tag data.length = (bytesField number data).encode.length := by
  have hkey : (bytesField number data).key < 2 ^ 14 := htag.lt
  rw [htag.eq]
  exact lengthDelimitedPackSize_eq hkey (Nat.lt_trans hdata (by decide)) rfl

theorem length_baseRequest (htag : IsTagOf tag (8 * number + 2)) :
    epbLengthDelimitedPackSize tag epbBaseRequestPackSize =
      (bytesField number []).encode.length := by
  have hdata : ([] : List UInt8).length < 2 ^ 31 := Nat.two_pow_pos 31
  have hlength := length_bytes tag number htag hdata
  rwa [List.length_nil] at hlength

theorem length_optional (htag : IsTagOf tag (8 * number + 2)) (value : Option Bytes) :
    optionalPackSize tag value = (encodeFields (optionalField number value)).length := by
  cases value with
  | none => rfl
  | some bytes =>
      show epbLengthDelimitedPackSize tag bytes.data.length =
        (encodeFields [bytesField number bytes.data]).length
      rw [length_bytes tag number htag bytes.fits, encodeFields_cons, encodeFields_nil,
        List.append_nil]

end Pack

theorem epbPackAuthRequest_packsInto (heap : Buffer) (request : AuthRequest) :
    PacksInto (epbPackAuthRequest heap request) request.fields := by
  apply AppendsAll.packsInto
  apply AppendsAll.append _
    (appendsAll_optional tagAuthRequestDeviceName 12 ⟨by decide, rfl⟩ _)
  apply AppendsAll.append _ (appendsAll_optional tagAuthRequestLanguage 11 ⟨by decide, rfl⟩ _)
  apply AppendsAll.append _ (appendsAll_optional tagAuthRequestTimeZone 10 ⟨by decide, rfl⟩ _)
  apply AppendsAll.append _
    (appendsAll_optional tagAuthRequestMacAddress 7 ⟨by decide, rfl⟩ _)
  apply AppendsAll.append _ (appendsAll_optional tagAuthRequestAesSign 6 ⟨by decide, rfl⟩ _)
  apply AppendsAll.append
  · apply AppendsAll.append _
      (appendsAll_optional tagAuthRequestMd5DeviceTypeAndDeviceId 2 ⟨by decide, rfl⟩ _)
    exact .cons (appends_baseRequest tagAuthRequestBaseRequest 1 ⟨by decide, rfl⟩ heap) .nil
  · apply AppendsAll.cons
      (appends_number tagAuthRequestProtoVersion 3 ⟨by decide, rfl⟩ request.protoVersion)
    apply AppendsAll.cons
      (appends_number tagAuthRequestAuthProto 4 ⟨by decide, rfl⟩ request.authProto)
    apply AppendsAll.cons
      (appends_number tagAuthRequestAuthMethod 5 ⟨by decide, rfl⟩ request.authMethod)
    exact .nil

theorem epbPackInitRequest_packsInto (heap : Buffer) (request : InitRequest) :
    PacksInto (epbPackInitRequest heap request) request.fields := by
  apply AppendsAll.packsInto
  apply AppendsAll.append _
    (appendsAll_optional tagInitRequestChallenge 3 ⟨by decide, rfl⟩ _)
  apply AppendsAll.append _
    (appendsAll_optional tagInitRequestRespFieldFilter 2 ⟨by decide, rfl⟩ _)
  exact .cons (appends_baseRequest tagInitRequestBaseRequest 1 ⟨by decide, rfl⟩ heap) .nil

theorem epbPackSendDataRequest_packsInto (heap : Buffer) (request : SendDataRequest) :
    PacksInto (epbPackSendDataRequest heap request) request.fields := by
  apply AppendsAll.packsInto
  apply AppendsAll.append
  · apply AppendsAll.cons
      (appends_baseRequest tagSendDataRequestBaseRequest 1 ⟨by decide, rfl⟩ heap)
    apply AppendsAll.cons
      (appends_bytesField tagSendDataRequestData 2 ⟨by decide, rfl⟩ request.data)
    exact .nil
  · exact AppendsAll.ofOption fun type _ =>
      appends_number tagSendDataRequestType 3 ⟨by decide, rfl⟩ type

/-! ## Sizes -/

theorem epbAuthRequestPackSize_eq (request : AuthRequest) :
    epbAuthRequestPackSize request = (encodeFields request.fields).length := by
  rw [epbAuthRequestPackSize,
    length_baseRequest tagAuthRequestBaseRequest 1 ⟨by decide, rfl⟩,
    length_optional tagAuthRequestMd5DeviceTypeAndDeviceId 2 ⟨by decide, rfl⟩,
    length_number tagAuthRequestProtoVersion 3 ⟨by decide, rfl⟩,
    length_number tagAuthRequestAuthProto 4 ⟨by decide, rfl⟩,
    length_number tagAuthRequestAuthMethod 5 ⟨by decide, rfl⟩,
    length_optional tagAuthRequestAesSign 6 ⟨by decide, rfl⟩,
    length_optional tagAuthRequestMacAddress 7 ⟨by decide, rfl⟩,
    length_optional tagAuthRequestTimeZone 10 ⟨by decide, rfl⟩,
    length_optional tagAuthRequestLanguage 11 ⟨by decide, rfl⟩,
    length_optional tagAuthRequestDeviceName 12 ⟨by decide, rfl⟩]
  simp only [AuthRequest.fields, encodeFields_append, encodeFields_cons, encodeFields_nil,
    List.append_nil, List.length_append, Nat.add_assoc]

theorem epbInitRequestPackSize_eq (request : InitRequest) :
    epbInitRequestPackSize request = (encodeFields request.fields).length := by
  rw [epbInitRequestPackSize,
    length_baseRequest tagInitRequestBaseRequest 1 ⟨by decide, rfl⟩,
    length_optional tagInitRequestRespFieldFilter 2 ⟨by decide, rfl⟩,
    length_optional tagInitRequestChallenge 3 ⟨by decide, rfl⟩]
  simp only [InitRequest.fields, encodeFields_append, encodeFields_cons, encodeFields_nil,
    List.append_nil, List.length_append]

theorem epbSendDataRequestPackSize_eq (request : SendDataRequest) :
    epbSendDataRequestPackSize request = (encodeFields request.fields).length := by
  rw [epbSendDataRequestPackSize,
    length_baseRequest tagSendDataRequestBaseRequest 1 ⟨by decide, rfl⟩,
    length_bytes tagSendDataRequestData 2 ⟨by decide, rfl⟩ request.data.fits]
  cases htype : request.type with
  | none =>
      simp only [SendDataRequest.fields, htype, Option.toList_none, List.map_nil, List.append_nil,
        encodeFields_cons, encodeFields_nil, List.length_append, Option.map_none,
        Option.getD_none, Nat.add_zero]
  | some type =>
      rw [Option.map_some, Option.getD_some,
        length_number tagSendDataRequestType 3 ⟨by decide, rfl⟩]
      simp only [SendDataRequest.fields, htype, Option.toList_some, List.map_cons, List.map_nil,
        List.append_nil, encodeFields_append, encodeFields_cons, encodeFields_nil,
        List.length_append]

/-! ## Reading by tag -/

/-- A number of a message as an `int32_t`. -/
def int32Of (n : Nat) : Int := (UInt32.ofNat n).toInt32.toInt

section Getters

variable {e : Reader} {fields : List WireField} (henc : Encodes e fields)
  (tag : UInt16) (key : Nat) (htag : IsTagOf tag key)

include henc htag

theorem epbHasTag_eq : epbHasTag e tag = (lookupField fields key).isSome := by
  rw [htag.eq]
  exact epbHasTag_of_encodes henc htag.lt

theorem epbGetUint32_eq (htype : key % 8 = 0) :
    epbGetUint32 e tag = UInt32.ofNat ((varintAt fields key).getD 0) := by
  rw [htag.eq]
  exact epbGetUint32_of_encodes henc htag.lt htype

theorem epbGetInt32_eq (htype : key % 8 = 0) :
    epbGetInt32 e tag = int32Of ((varintAt fields key).getD 0) := by
  rw [epbGetInt32, epbGetUint32_eq henc tag key htag htype]
  rfl

theorem getBytes_eq (htype : key % 8 = 2) (uninit : UInt32) :
    getBytes uninit e tag = (bytesAt fields key).getD [] := by
  rw [htag.eq, getBytes, epbGetBytes_of_encodes henc htag.lt htype]

theorem whenTag_number {Value : Type} {get : Reader → UInt16 → Value} {read : Nat → Value}
    (htype : key % 8 = 0) (hget : get e tag = read ((varintAt fields key).getD 0)) :
    whenTag e get tag = (varintAt fields key).map read := by
  rw [whenTag, epbHasTag_eq henc tag key htag, ← isSome_varintAt htype, hget]
  cases varintAt fields key with
  | none => rfl
  | some n => rfl

theorem whenTag_uint32 (htype : key % 8 = 0) :
    whenTag e epbGetUint32 tag = (varintAt fields key).map UInt32.ofNat :=
  whenTag_number henc tag key htag htype (epbGetUint32_eq henc tag key htag htype)

theorem whenTag_int32 (htype : key % 8 = 0) :
    whenTag e epbGetInt32 tag = (varintAt fields key).map int32Of :=
  whenTag_number henc tag key htag htype (epbGetInt32_eq henc tag key htag htype)

theorem epbGetEnum_eq (htype : key % 8 = 0) :
    epbGetEnum e tag = int32Of ((varintAt fields key).getD 0) :=
  epbGetInt32_eq henc tag key htag htype

theorem whenTag_enum (htype : key % 8 = 0) :
    whenTag e epbGetEnum tag = (varintAt fields key).map int32Of :=
  whenTag_number henc tag key htag htype (epbGetEnum_eq henc tag key htag htype)

theorem whenTag_bytes (htype : key % 8 = 2) (uninit : UInt32) :
    whenTag e (getBytes uninit) tag = bytesAt fields key := by
  rw [whenTag, epbHasTag_eq henc tag key htag, ← isSome_bytesAt htype,
    getBytes_eq henc tag key htag htype]
  cases bytesAt fields key with
  | none => rfl
  | some bytes => rfl

end Getters

/-! ## Looking up the fields of a request -/

section Lookup

variable {number other : Nat}

@[simp] theorem lookupField_bytesField (data : List UInt8)
    (rest : List WireField) :
    lookupField (bytesField number data :: rest) other =
      if 8 * number + 2 = other then some (.delimited data) else lookupField rest other := by
  by_cases hsame : 8 * number + 2 = other
  · subst hsame
    rw [if_pos rfl]
    exact lookupField_cons_self _
  · rw [if_neg hsame]
    exact lookupField_cons_of_ne hsame

@[simp] theorem lookupField_numberField (value : Int32)
    (rest : List WireField) :
    lookupField (numberField number value :: rest) other =
      if 8 * number = other then some (.varint value.toUInt32.toNat)
      else lookupField rest other := by
  by_cases hsame : 8 * number = other
  · subst hsame
    rw [if_pos rfl]
    exact lookupField_cons_self _
  · rw [if_neg hsame]
    exact lookupField_cons_of_ne hsame

@[simp] theorem lookupField_optionalField (value : Option Bytes) :
    lookupField (optionalField number value) other =
      if 8 * number + 2 = other then value.map fun bytes => .delimited bytes.data else none := by
  cases value with
  | none => simp [optionalField]
  | some bytes => exact lookupField_bytesField bytes.data []

theorem int32Of_toUInt32 (value : Int32) : int32Of value.toUInt32.toNat = value.toInt := by
  rw [int32Of, UInt32.ofNat_toNat]
  rfl

end Lookup

theorem supported_bytesField {number : Nat} (hkey : 8 * number + 2 < 2 ^ 14)
    {data : List UInt8} (hdata : data.length < 2 ^ 31) : Supported (bytesField number data) where
  key := hkey
  length bytes hbytes := by
    obtain rfl : data = bytes := Option.some.inj hbytes
    exact hdata

theorem supported_numberField {number : Nat} (hkey : 8 * number < 2 ^ 14)
    (value : Int32) : Supported (numberField number value) where
  key := hkey
  length bytes hbytes := by cases hbytes

theorem supported_optionalField {number : Nat} (hkey : 8 * number + 2 < 2 ^ 14)
    (value : Option Bytes) : ∀ field ∈ optionalField number value, Supported field := by
  intro field hfield
  obtain ⟨bytes, -, rfl⟩ := List.mem_map.mp hfield
  exact supported_bytesField hkey bytes.fits

theorem AuthRequest.supported (request : AuthRequest) :
    ∀ field ∈ request.fields, Supported field := by
  intro field hfield
  simp only [fields, List.mem_append, List.mem_cons, List.not_mem_nil, or_false] at hfield
  rcases hfield with ((((((hbase | hmd5) | hnumber) | haes) | hmac) | hzone) | hlanguage) | hname
  · subst hbase
    exact supported_bytesField (by decide) (Nat.two_pow_pos 31)
  · exact supported_optionalField (by decide) _ field hmd5
  · rcases hnumber with rfl | rfl | rfl <;> exact supported_numberField (by decide) _
  · exact supported_optionalField (by decide) _ field haes
  · exact supported_optionalField (by decide) _ field hmac
  · exact supported_optionalField (by decide) _ field hzone
  · exact supported_optionalField (by decide) _ field hlanguage
  · exact supported_optionalField (by decide) _ field hname

theorem InitRequest.supported (request : InitRequest) :
    ∀ field ∈ request.fields, Supported field := by
  intro field hfield
  simp only [fields, List.mem_append, List.mem_cons, List.not_mem_nil, or_false] at hfield
  rcases hfield with (hbase | hfilter) | hchallenge
  · subst hbase
    exact supported_bytesField (by decide) (Nat.two_pow_pos 31)
  · exact supported_optionalField (by decide) _ field hfilter
  · exact supported_optionalField (by decide) _ field hchallenge

theorem SendDataRequest.supported (request : SendDataRequest) :
    ∀ field ∈ request.fields, Supported field := by
  intro field hfield
  simp only [fields, List.mem_append, List.mem_cons, List.not_mem_nil, or_false,
    List.mem_map] at hfield
  rcases hfield with (hbase | hdata) | ⟨type, -, rfl⟩
  · subst hbase
    exact supported_bytesField (by decide) (Nat.two_pow_pos 31)
  · subst hdata
    exact supported_bytesField (by decide) request.data.fits
  · exact supported_numberField (by decide) type

end CubieBle.AirSync.Epb
