import CubieBle.AirSync.MmBpLaws

/-! # Responses and pushes as lists of fields

What the unpackers make of a message is a function of its fields: the first one with each tag
counts, their order does not, fields with other tags do not, and numbers are taken modulo the
word that they are put in.
-/

namespace CubieBle.AirSync.Epb

open Machine

/-! ## Messages by their fields -/

def BaseResponse.ofFields (fields : List WireField) : Option BaseResponse := do
  let errCode ← varintAt fields 0x08
  return { errCode := int32Of errCode, errMsg := bytesAt fields 0x12 }

section OfFields

variable (base : Option (List WireField)) (fields : List WireField)

def AuthResponse.ofFields : Option AuthResponse := do
  let baseResponse ← base.bind BaseResponse.ofFields
  let aesSessionKey ← bytesAt fields 0x12
  return { baseResponse, aesSessionKey }

def InitResponse.ofFields : Option InitResponse := do
  let baseResponse ← base.bind BaseResponse.ofFields
  let userIdHigh ← varintAt fields 0x10
  let userIdLow ← varintAt fields 0x18
  return {
    baseResponse
    userIdHigh := UInt32.ofNat userIdHigh
    userIdLow := UInt32.ofNat userIdLow
    challeangeAnswer := (varintAt fields 0x20).map UInt32.ofNat
    initScence := (varintAt fields 0x28).map int32Of
    autoSyncMaxDurationSecond := (varintAt fields 0x30).map UInt32.ofNat
    userNickName := bytesAt fields 0x5a
    platformType := (varintAt fields 0x60).map int32Of
    model := bytesAt fields 0x6a
    os := bytesAt fields 0x72
    time := (varintAt fields 0x78).map int32Of
    timeZone := (varintAt fields 0x80).map int32Of
    timeString := bytesAt fields 0x8a }

def SendDataResponse.ofFields : Option SendDataResponse := do
  let baseResponse ← base.bind BaseResponse.ofFields
  return { baseResponse, data := bytesAt fields 0x12 }

def RecvDataPush.ofFields : Option RecvDataPush := do
  let _ ← bytesAt fields 0x0a
  let data ← bytesAt fields 0x12
  return { data, type := (varintAt fields 0x18).map int32Of }

def SwitchViewPush.ofFields : Option SwitchViewPush := do
  let _ ← bytesAt fields 0x0a
  let switchViewOp ← varintAt fields 0x10
  let viewId ← varintAt fields 0x18
  return { switchViewOp := int32Of switchViewOp, viewId := int32Of viewId }

def SwitchBackgroudPush.ofFields : Option SwitchBackgroudPush := do
  let _ ← bytesAt fields 0x0a
  let switchBackgroundOp ← varintAt fields 0x10
  return { switchBackgroundOp := int32Of switchBackgroundOp }

end OfFields

/-! ## Unpacking -/

theorem epbUnpackBaseResponse_of_encodes {e : Reader} {fields : List WireField}
    (henc : Encodes e fields) (uninit : UInt32) :
    epbUnpackBaseResponse uninit e = BaseResponse.ofFields fields := by
  rw [epbUnpackBaseResponse, epbHasTag_eq henc tagBaseResponseErrCode 0x08 ⟨by decide, rfl⟩,
    ← isSome_varintAt rfl, epbGetInt32_eq henc tagBaseResponseErrCode 0x08 ⟨by decide, rfl⟩ rfl,
    whenTag_bytes henc tagBaseResponseErrMsg 0x12 ⟨by decide, rfl⟩ rfl, BaseResponse.ofFields]
  cases varintAt fields 0x08 with
  | none => rfl
  | some errCode => rfl

/-- A message with a base response in it, if there is one. -/
structure EncodesResponse (e : Reader) (base : Option (List WireField)) (fields : List WireField) :
    Prop where
  encodes : Encodes e fields
  message : bytesAt fields 0x0a = base.map encodeFields
  supported : ∀ inner ∈ base, ∀ field ∈ inner, Supported field

section Unpackers

variable {e : Reader} {base : Option (List WireField)} {fields : List WireField} (uninit : UInt32)

theorem unpackBaseResponseAt_of_encodes (henc : EncodesResponse e base fields) :
    unpackBaseResponseAt uninit e 0x0a = base.bind BaseResponse.ofFields := by
  have htag : (0x0a : UInt16) = tagOf 0x0a := rfl
  have hkey : 0x0a < 2 ^ 14 := by decide
  rw [unpackBaseResponseAt, htag]
  cases base with
  | none =>
      have hnone := epbGetBytes_of_encodes henc.encodes hkey rfl uninit
      rw [henc.message, Option.map_none, Option.map_eq_none_iff] at hnone
      rw [hnone]
      rfl
  | some inner =>
      obtain ⟨found, hfound, hstarts, hlen⟩ :=
        epbGetBytes_of_bytesAt henc.encodes hkey henc.message uninit
      rw [hfound]
      exact epbUnpackBaseResponse_of_encodes ⟨henc.supported inner rfl, hstarts, hlen⟩ uninit

theorem hasBase (henc : EncodesResponse e base fields) : epbHasTag e 0x0a = base.isSome := by
  rw [epbHasTag_eq henc.encodes 0x0a 0x0a ⟨by decide, rfl⟩, ← isSome_bytesAt rfl, henc.message,
    Option.isSome_map]

theorem epbUnpackAuthResponse_of_encodes (henc : EncodesResponse e base fields) :
    epbUnpackAuthResponse uninit e = AuthResponse.ofFields base fields := by
  rw [epbUnpackAuthResponse, tagAuthResponseBaseResponse, hasBase henc,
    epbHasTag_eq henc.encodes tagAuthResponseAesSessionKey 0x12 ⟨by decide, rfl⟩,
    ← isSome_bytesAt rfl, unpackBaseResponseAt_of_encodes uninit henc,
    getBytes_eq henc.encodes tagAuthResponseAesSessionKey 0x12 ⟨by decide, rfl⟩ rfl,
    AuthResponse.ofFields]
  cases base with
  | none => rfl
  | some inner =>
      rw [Option.bind_some]
      cases BaseResponse.ofFields inner with
      | none => cases bytesAt fields 0x12 <;> rfl
      | some baseResponse => cases bytesAt fields 0x12 <;> rfl

theorem epbUnpackInitResponse_of_encodes (henc : EncodesResponse e base fields) :
    epbUnpackInitResponse uninit e = InitResponse.ofFields base fields := by
  have hfields := henc.encodes
  rw [epbUnpackInitResponse, tagInitResponseBaseResponse, hasBase henc,
    epbHasTag_eq hfields tagInitResponseUserIdHigh 0x10 ⟨by decide, rfl⟩, ← isSome_varintAt rfl,
    epbHasTag_eq hfields tagInitResponseUserIdLow 0x18 ⟨by decide, rfl⟩, ← isSome_varintAt rfl,
    unpackBaseResponseAt_of_encodes uninit henc,
    epbGetUint32_eq hfields tagInitResponseUserIdHigh 0x10 ⟨by decide, rfl⟩ rfl,
    epbGetUint32_eq hfields tagInitResponseUserIdLow 0x18 ⟨by decide, rfl⟩ rfl,
    whenTag_uint32 hfields tagInitResponseChalleangeAnswer 0x20 ⟨by decide, rfl⟩ rfl,
    whenTag_enum hfields tagInitResponseInitScence 0x28 ⟨by decide, rfl⟩ rfl,
    whenTag_uint32 hfields tagInitResponseAutoSyncMaxDurationSecond 0x30 ⟨by decide, rfl⟩ rfl,
    whenTag_bytes hfields tagInitResponseUserNickName 0x5a ⟨by decide, rfl⟩ rfl,
    whenTag_enum hfields tagInitResponsePlatformType 0x60 ⟨by decide, rfl⟩ rfl,
    whenTag_bytes hfields tagInitResponseModel 0x6a ⟨by decide, rfl⟩ rfl,
    whenTag_bytes hfields tagInitResponseOs 0x72 ⟨by decide, rfl⟩ rfl,
    whenTag_int32 hfields tagInitResponseTime 0x78 ⟨by decide, rfl⟩ rfl,
    whenTag_int32 hfields tagInitResponseTimeZone 0x80 ⟨by decide, rfl⟩ rfl,
    whenTag_bytes hfields tagInitResponseTimeString 0x8a ⟨by decide, rfl⟩ rfl,
    InitResponse.ofFields]
  cases base with
  | none => rfl
  | some inner =>
      rw [Option.bind_some]
      cases BaseResponse.ofFields inner with
      | none => cases varintAt fields 0x10 <;> cases varintAt fields 0x18 <;> rfl
      | some baseResponse => cases varintAt fields 0x10 <;> cases varintAt fields 0x18 <;> rfl

theorem epbUnpackSendDataResponse_of_encodes (henc : EncodesResponse e base fields) :
    epbUnpackSendDataResponse uninit e = SendDataResponse.ofFields base fields := by
  rw [epbUnpackSendDataResponse, tagSendDataResponseBaseResponse, hasBase henc,
    unpackBaseResponseAt_of_encodes uninit henc,
    whenTag_bytes henc.encodes tagSendDataResponseData 0x12 ⟨by decide, rfl⟩ rfl,
    SendDataResponse.ofFields]
  cases base with
  | none => rfl
  | some inner =>
      rw [Option.bind_some]
      cases BaseResponse.ofFields inner <;> rfl

end Unpackers

section Pushes

variable {e : Reader} {fields : List WireField} (henc : Encodes e fields)

include henc

theorem hasMessage : epbHasTag e 0x0a = (bytesAt fields 0x0a).isSome := by
  rw [epbHasTag_eq henc 0x0a 0x0a ⟨by decide, rfl⟩, ← isSome_bytesAt rfl]

theorem epbUnpackRecvDataPush_of_encodes (uninit : UInt32) :
    epbUnpackRecvDataPush uninit e = RecvDataPush.ofFields fields := by
  rw [epbUnpackRecvDataPush, tagRecvDataPushBasePush, hasMessage henc,
    epbHasTag_eq henc tagRecvDataPushData 0x12 ⟨by decide, rfl⟩, ← isSome_bytesAt rfl,
    getBytes_eq henc tagRecvDataPushData 0x12 ⟨by decide, rfl⟩ rfl,
    whenTag_enum henc tagRecvDataPushType 0x18 ⟨by decide, rfl⟩ rfl, RecvDataPush.ofFields]
  cases bytesAt fields 0x0a <;> cases bytesAt fields 0x12 <;> rfl

theorem epbUnpackSwitchViewPush_of_encodes :
    epbUnpackSwitchViewPush e = SwitchViewPush.ofFields fields := by
  rw [epbUnpackSwitchViewPush, tagSwitchViewPushBasePush, hasMessage henc,
    epbHasTag_eq henc tagSwitchViewPushSwitchViewOp 0x10 ⟨by decide, rfl⟩, ← isSome_varintAt rfl,
    epbHasTag_eq henc tagSwitchViewPushViewId 0x18 ⟨by decide, rfl⟩, ← isSome_varintAt rfl,
    epbGetEnum_eq henc tagSwitchViewPushSwitchViewOp 0x10 ⟨by decide, rfl⟩ rfl,
    epbGetEnum_eq henc tagSwitchViewPushViewId 0x18 ⟨by decide, rfl⟩ rfl, SwitchViewPush.ofFields]
  cases bytesAt fields 0x0a <;> cases varintAt fields 0x10 <;> cases varintAt fields 0x18 <;> rfl

theorem epbUnpackSwitchBackgroudPush_of_encodes :
    epbUnpackSwitchBackgroudPush e = SwitchBackgroudPush.ofFields fields := by
  rw [epbUnpackSwitchBackgroudPush, tagSwitchBackgroudPushBasePush, hasMessage henc,
    epbHasTag_eq henc tagSwitchBackgroudPushSwitchBackgroundOp 0x10 ⟨by decide, rfl⟩,
    ← isSome_varintAt rfl,
    epbGetEnum_eq henc tagSwitchBackgroudPushSwitchBackgroundOp 0x10 ⟨by decide, rfl⟩ rfl,
    SwitchBackgroudPush.ofFields]
  cases bytesAt fields 0x0a <;> cases varintAt fields 0x10 <;> rfl

end Pushes

/-- Every unpacker is a function of the fields. -/
theorem unpackers_of_fields (uninit : UInt32) {e : Reader} {base : Option (List WireField)}
    {fields : List WireField} (henc : EncodesResponse e base fields) :
    epbUnpackAuthResponse uninit e = AuthResponse.ofFields base fields ∧
      epbUnpackInitResponse uninit e = InitResponse.ofFields base fields ∧
      epbUnpackSendDataResponse uninit e = SendDataResponse.ofFields base fields ∧
      epbUnpackRecvDataPush uninit e = RecvDataPush.ofFields fields ∧
      epbUnpackSwitchViewPush e = SwitchViewPush.ofFields fields ∧
      epbUnpackSwitchBackgroudPush e = SwitchBackgroudPush.ofFields fields :=
  ⟨epbUnpackAuthResponse_of_encodes uninit henc, epbUnpackInitResponse_of_encodes uninit henc,
    epbUnpackSendDataResponse_of_encodes uninit henc,
    epbUnpackRecvDataPush_of_encodes henc.encodes uninit,
    epbUnpackSwitchViewPush_of_encodes henc.encodes,
    epbUnpackSwitchBackgroudPush_of_encodes henc.encodes⟩

/-! ## A body with what is behind it -/

theorem encodes_bodyReader (beyond : Buffer) {fields : List WireField}
    (hsupported : ∀ field ∈ fields, Supported field)
    (hlength : (encodeFields fields).length < 2 ^ 31) :
    Encodes (bodyReader beyond (encodeFields fields)) fields where
  supported := hsupported
  starts := by
    intro i hi
    show (encodeFields fields).getD i _ = _
    rw [List.getD_eq_getElem _ _ hi, List.getD_eq_getElem _ _ hi]
  length := toInt_ofNat_of_lt hlength

/-- A short answer. -/
def shortestBase : List WireField := [wordField 1 0]

def shortestFields : List WireField :=
  [bytesField 1 (encodeFields shortestBase), wordField 2 0, bytesField 2 [], wordField 3 0]

theorem length_shortest :
    (encodeFields shortestBase).length = 2 ∧ (encodeFields shortestFields).length = 10 := by
  simp [shortestFields, shortestBase, varint_of_lt]

theorem supported_shortest :
    (∀ field ∈ shortestBase, Supported field) ∧ ∀ field ∈ shortestFields, Supported field := by
  constructor
  · intro field hfield
    rw [shortestBase, List.mem_singleton] at hfield
    subst hfield
    exact ⟨by decide, fun bytes hbytes => by cases hbytes⟩
  · have hlength := length_shortest.1
    intro field hfield
    simp only [shortestFields, List.mem_cons, List.not_mem_nil, or_false] at hfield
    rcases hfield with rfl | rfl | rfl | rfl
    · refine ⟨by decide, ?_⟩
      rintro bytes ⟨⟩
      omega
    · exact ⟨by decide, fun bytes hbytes => by cases hbytes⟩
    · refine ⟨by decide, ?_⟩
      rintro bytes ⟨⟩
      exact Nat.two_pow_pos 31
    · exact ⟨by decide, fun bytes hbytes => by cases hbytes⟩

theorem unpackers_of_shortest :
    epbUnpackAuthResponse 0 (bodyReader (fun _ => 0x80) (encodeFields shortestFields)) =
      some ⟨⟨0, none⟩, []⟩ := by
  have henc : EncodesResponse (bodyReader (fun _ => 0x80) (encodeFields shortestFields))
      (some shortestBase) shortestFields := by
    refine ⟨encodes_bodyReader _ supported_shortest.2 ?_, rfl, ?_⟩
    · rw [length_shortest.2]
      decide
    · rintro inner ⟨⟩
      exact supported_shortest.1
  exact (unpackers_of_fields 0 henc).1

end CubieBle.AirSync.Epb
