import CubieBle.AirSync.EpbPack

/-! # Messages of AirSync

The requests of the device, which are packed into memory of their size, and the responses and
pushes of the phone, each field of which is looked up in the message. A pointer into a message
is modelled by the bytes that it points to, and a field with a flag by an option.
-/

namespace CubieBle.AirSync.Epb

open Machine

/-! ## Tags -/

section Tags

def tagBaseResponseErrCode : UInt16 := 0x08
def tagBaseResponseErrMsg : UInt16 := 0x12

def tagAuthRequestBaseRequest : UInt16 := 0x0a
def tagAuthRequestMd5DeviceTypeAndDeviceId : UInt16 := 0x12
def tagAuthRequestProtoVersion : UInt16 := 0x18
def tagAuthRequestAuthProto : UInt16 := 0x20
def tagAuthRequestAuthMethod : UInt16 := 0x28
def tagAuthRequestAesSign : UInt16 := 0x32
def tagAuthRequestMacAddress : UInt16 := 0x3a
def tagAuthRequestTimeZone : UInt16 := 0x52
def tagAuthRequestLanguage : UInt16 := 0x5a
def tagAuthRequestDeviceName : UInt16 := 0x62

def tagAuthResponseBaseResponse : UInt16 := 0x0a
def tagAuthResponseAesSessionKey : UInt16 := 0x12

def tagInitRequestBaseRequest : UInt16 := 0x0a
def tagInitRequestRespFieldFilter : UInt16 := 0x12
def tagInitRequestChallenge : UInt16 := 0x1a

def tagInitResponseBaseResponse : UInt16 := 0x0a
def tagInitResponseUserIdHigh : UInt16 := 0x10
def tagInitResponseUserIdLow : UInt16 := 0x18
def tagInitResponseChalleangeAnswer : UInt16 := 0x20
def tagInitResponseInitScence : UInt16 := 0x28
def tagInitResponseAutoSyncMaxDurationSecond : UInt16 := 0x30
def tagInitResponseUserNickName : UInt16 := 0x5a
def tagInitResponsePlatformType : UInt16 := 0x60
def tagInitResponseModel : UInt16 := 0x6a
def tagInitResponseOs : UInt16 := 0x72
def tagInitResponseTime : UInt16 := 0x78
def tagInitResponseTimeZone : UInt16 := 0x8001
def tagInitResponseTimeString : UInt16 := 0x8a01

def tagSendDataRequestBaseRequest : UInt16 := 0x0a
def tagSendDataRequestData : UInt16 := 0x12
def tagSendDataRequestType : UInt16 := 0x18

def tagSendDataResponseBaseResponse : UInt16 := 0x0a
def tagSendDataResponseData : UInt16 := 0x12

def tagRecvDataPushBasePush : UInt16 := 0x0a
def tagRecvDataPushData : UInt16 := 0x12
def tagRecvDataPushType : UInt16 := 0x18

def tagSwitchViewPushBasePush : UInt16 := 0x0a
def tagSwitchViewPushSwitchViewOp : UInt16 := 0x10
def tagSwitchViewPushViewId : UInt16 := 0x18

def tagSwitchBackgroudPushBasePush : UInt16 := 0x0a
def tagSwitchBackgroudPushSwitchBackgroundOp : UInt16 := 0x10

end Tags

/-! ## Requests -/

def epbBaseRequestPackSize : Nat := 0

def epbPackBaseRequest (buf : Buffer) (len : Int) : Int × Writer := packAll [] (epbPackInit buf len)

/-- Bytes whose number is an `int`. -/
structure Bytes where
  data : List UInt8
  fits : data.length < 2 ^ 31

structure AuthRequest where
  md5DeviceTypeAndDeviceId : Option Bytes
  protoVersion : Int32
  authProto : Int32
  authMethod : Int32
  aesSign : Option Bytes
  macAddress : Option Bytes
  timeZone : Option Bytes
  language : Option Bytes
  deviceName : Option Bytes

structure InitRequest where
  respFieldFilter : Option Bytes
  challenge : Option Bytes

structure SendDataRequest where
  data : Bytes
  type : Option Int32

section Pack

/-- A string or bytes that may be left out. -/
def setOptional (tag : UInt16) (value : Option Bytes) : List (Writer → Int × Writer) :=
  value.toList.map fun bytes e => epbSetBytes e tag bytes.data

def optionalPackSize (tag : UInt16) (value : Option Bytes) : Nat :=
  (value.map fun bytes => epbLengthDelimitedPackSize tag bytes.data.length).getD 0

/-- `heap` is what the allocated memory holds. -/
def setBaseRequest (heap : Buffer) (tag : UInt16) : Writer → Int × Writer :=
  packMessage epbPackBaseRequest epbBaseRequestPackSize heap tag

def epbAuthRequestPackSize (request : AuthRequest) : Nat :=
  epbLengthDelimitedPackSize tagAuthRequestBaseRequest epbBaseRequestPackSize +
    optionalPackSize tagAuthRequestMd5DeviceTypeAndDeviceId request.md5DeviceTypeAndDeviceId +
    epbVarint32PackSize tagAuthRequestProtoVersion request.protoVersion.toUInt32 false +
    epbVarint32PackSize tagAuthRequestAuthProto request.authProto.toUInt32 false +
    epbVarint32PackSize tagAuthRequestAuthMethod request.authMethod.toUInt32 false +
    optionalPackSize tagAuthRequestAesSign request.aesSign +
    optionalPackSize tagAuthRequestMacAddress request.macAddress +
    optionalPackSize tagAuthRequestTimeZone request.timeZone +
    optionalPackSize tagAuthRequestLanguage request.language +
    optionalPackSize tagAuthRequestDeviceName request.deviceName

def epbPackAuthRequest (heap : Buffer) (request : AuthRequest) (buf : Buffer) (len : Int) :
    Int × Writer :=
  packAll
    ([setBaseRequest heap tagAuthRequestBaseRequest] ++
      setOptional tagAuthRequestMd5DeviceTypeAndDeviceId request.md5DeviceTypeAndDeviceId ++
      [fun e => epbSetInt32 e tagAuthRequestProtoVersion request.protoVersion,
        fun e => epbSetInt32 e tagAuthRequestAuthProto request.authProto,
        fun e => epbSetEnum e tagAuthRequestAuthMethod request.authMethod] ++
      setOptional tagAuthRequestAesSign request.aesSign ++
      setOptional tagAuthRequestMacAddress request.macAddress ++
      setOptional tagAuthRequestTimeZone request.timeZone ++
      setOptional tagAuthRequestLanguage request.language ++
      setOptional tagAuthRequestDeviceName request.deviceName)
    (epbPackInit buf len)

def epbInitRequestPackSize (request : InitRequest) : Nat :=
  epbLengthDelimitedPackSize tagInitRequestBaseRequest epbBaseRequestPackSize +
    optionalPackSize tagInitRequestRespFieldFilter request.respFieldFilter +
    optionalPackSize tagInitRequestChallenge request.challenge

def epbPackInitRequest (heap : Buffer) (request : InitRequest) (buf : Buffer) (len : Int) :
    Int × Writer :=
  packAll
    ([setBaseRequest heap tagInitRequestBaseRequest] ++
      setOptional tagInitRequestRespFieldFilter request.respFieldFilter ++
      setOptional tagInitRequestChallenge request.challenge)
    (epbPackInit buf len)

def epbSendDataRequestPackSize (request : SendDataRequest) : Nat :=
  epbLengthDelimitedPackSize tagSendDataRequestBaseRequest epbBaseRequestPackSize +
    epbLengthDelimitedPackSize tagSendDataRequestData request.data.data.length +
    (request.type.map fun type =>
      epbVarint32PackSize tagSendDataRequestType type.toUInt32 false).getD 0

def epbPackSendDataRequest (heap : Buffer) (request : SendDataRequest) (buf : Buffer)
    (len : Int) : Int × Writer :=
  packAll
    ([setBaseRequest heap tagSendDataRequestBaseRequest,
        fun e => epbSetBytes e tagSendDataRequestData request.data.data] ++
      request.type.toList.map fun type e => epbSetEnum e tagSendDataRequestType type)
    (epbPackInit buf len)

end Pack

/-! ## Responses and pushes -/

structure BaseResponse where
  errCode : Int
  errMsg : Option (List UInt8)
deriving DecidableEq

structure AuthResponse where
  baseResponse : BaseResponse
  aesSessionKey : List UInt8
deriving DecidableEq

structure InitResponse where
  baseResponse : BaseResponse
  userIdHigh : UInt32
  userIdLow : UInt32
  challeangeAnswer : Option UInt32
  initScence : Option Int
  autoSyncMaxDurationSecond : Option UInt32
  userNickName : Option (List UInt8)
  platformType : Option Int
  model : Option (List UInt8)
  os : Option (List UInt8)
  time : Option Int
  timeZone : Option Int
  timeString : Option (List UInt8)
deriving DecidableEq

structure SendDataResponse where
  baseResponse : BaseResponse
  data : Option (List UInt8)
deriving DecidableEq

structure RecvDataPush where
  data : List UInt8
  type : Option Int
deriving DecidableEq

structure SwitchViewPush where
  switchViewOp : Int
  viewId : Int
deriving DecidableEq

structure SwitchBackgroudPush where
  switchBackgroundOp : Int
deriving DecidableEq

section Unpack

variable (uninit : UInt32) (e : Reader)

/-- A field with a flag. -/
def whenTag {Value : Type} (get : Reader → UInt16 → Value) (tag : UInt16) : Option Value :=
  if epbHasTag e tag then some (get e tag) else none

/-- The bytes that `epb_get_bytes` or `epb_get_string` points to. -/
def getBytes (e : Reader) (tag : UInt16) : List UInt8 :=
  ((epbGetBytes e tag uninit).map CBytes.bytes).getD []

def epbUnpackBaseResponse : Option BaseResponse :=
  if !epbHasTag e tagBaseResponseErrCode then none
  else
    some
      { errCode := epbGetInt32 e tagBaseResponseErrCode
        errMsg := whenTag e (getBytes uninit) tagBaseResponseErrMsg }

/-- `epb_unpack_base_response` on the message with a tag. -/
def unpackBaseResponseAt (tag : UInt16) : Option BaseResponse :=
  (epbGetBytes e tag uninit).bind fun tmp => epbUnpackBaseResponse uninit tmp.reader

def epbUnpackAuthResponse : Option AuthResponse :=
  if !epbHasTag e tagAuthResponseBaseResponse then none
  else if !epbHasTag e tagAuthResponseAesSessionKey then none
  else
    (unpackBaseResponseAt uninit e tagAuthResponseBaseResponse).map fun baseResponse =>
      { baseResponse, aesSessionKey := getBytes uninit e tagAuthResponseAesSessionKey }

def epbUnpackInitResponse : Option InitResponse :=
  if !epbHasTag e tagInitResponseBaseResponse then none
  else if !epbHasTag e tagInitResponseUserIdHigh then none
  else if !epbHasTag e tagInitResponseUserIdLow then none
  else
    (unpackBaseResponseAt uninit e tagInitResponseBaseResponse).map fun baseResponse =>
      { baseResponse
        userIdHigh := epbGetUint32 e tagInitResponseUserIdHigh
        userIdLow := epbGetUint32 e tagInitResponseUserIdLow
        challeangeAnswer := whenTag e epbGetUint32 tagInitResponseChalleangeAnswer
        initScence := whenTag e epbGetEnum tagInitResponseInitScence
        autoSyncMaxDurationSecond :=
          whenTag e epbGetUint32 tagInitResponseAutoSyncMaxDurationSecond
        userNickName := whenTag e (getBytes uninit) tagInitResponseUserNickName
        platformType := whenTag e epbGetEnum tagInitResponsePlatformType
        model := whenTag e (getBytes uninit) tagInitResponseModel
        os := whenTag e (getBytes uninit) tagInitResponseOs
        time := whenTag e epbGetInt32 tagInitResponseTime
        timeZone := whenTag e epbGetInt32 tagInitResponseTimeZone
        timeString := whenTag e (getBytes uninit) tagInitResponseTimeString }

def epbUnpackSendDataResponse : Option SendDataResponse :=
  if !epbHasTag e tagSendDataResponseBaseResponse then none
  else
    (unpackBaseResponseAt uninit e tagSendDataResponseBaseResponse).map fun baseResponse =>
      { baseResponse, data := whenTag e (getBytes uninit) tagSendDataResponseData }

def epbUnpackRecvDataPush : Option RecvDataPush :=
  if !epbHasTag e tagRecvDataPushBasePush then none
  else if !epbHasTag e tagRecvDataPushData then none
  else
    some
      { data := getBytes uninit e tagRecvDataPushData
        type := whenTag e epbGetEnum tagRecvDataPushType }

def epbUnpackSwitchViewPush : Option SwitchViewPush :=
  if !epbHasTag e tagSwitchViewPushBasePush then none
  else if !epbHasTag e tagSwitchViewPushSwitchViewOp then none
  else if !epbHasTag e tagSwitchViewPushViewId then none
  else
    some
      { switchViewOp := epbGetEnum e tagSwitchViewPushSwitchViewOp
        viewId := epbGetEnum e tagSwitchViewPushViewId }

def epbUnpackSwitchBackgroudPush : Option SwitchBackgroudPush :=
  if !epbHasTag e tagSwitchBackgroudPushBasePush then none
  else if !epbHasTag e tagSwitchBackgroudPushSwitchBackgroundOp then none
  else
    some { switchBackgroundOp := epbGetEnum e tagSwitchBackgroudPushSwitchBackgroundOp }

end Unpack

/-! ## The functions that the receiver calls -/

/-- The bytes of a body with what is behind them. -/
def bodyReader (beyond : Buffer) (body : List UInt8) : Reader :=
  ⟨fun i => body.getD i (beyond (i - body.length)), (UInt32.ofNat body.length).toInt32.toInt⟩

/-- The unpackers, with what the receiver looks at in the messages. -/
def epbUnpackers (uninit : UInt32) (beyond : Buffer) : Unpackers where
  authResponse body :=
    (epbUnpackAuthResponse uninit (bodyReader beyond body)).map fun resp =>
      ⟨some resp.baseResponse.errCode⟩
  initResponse body :=
    (epbUnpackInitResponse uninit (bodyReader beyond body)).map fun resp =>
      ⟨some resp.baseResponse.errCode, resp.challeangeAnswer⟩
  sendDataResponse body :=
    (epbUnpackSendDataResponse uninit (bodyReader beyond body)).map fun resp =>
      ⟨some resp.baseResponse.errCode⟩
  recvDataPush body := (epbUnpackRecvDataPush uninit (bodyReader beyond body)).isSome
  switchViewPush body := (epbUnpackSwitchViewPush (bodyReader beyond body)).isSome
  switchBackgroudPush body := (epbUnpackSwitchBackgroudPush (bodyReader beyond body)).isSome

end CubieBle.AirSync.Epb
