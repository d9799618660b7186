import CubieBle.Gatt.Crc16
import CubieBle.Gatt.GlucoseFormat
import CubieBle.Machine.Run

/-! # The continuous glucose monitoring service

The characteristics of the service and the timer that takes measurements. With the
end-to-end CRC feature, each value carries a checksum of its other bytes; the checksum is
kept in a field beside the value.
-/

namespace CubieBle.Gatt

open Machine

/-! ## Flags of a measurement and features of the service -/

def cgmTrendInformationPresent : UInt8 := 0x01
def cgmQualityPresent : UInt8 := 0x02
def cgmSensorStatAnnuWarningOctetPresent : UInt8 := 0x20
def cgmSensorStatAnnuCalOrTempOctetPresent : UInt8 := 0x40
def cgmSensorStatAnnuStatOctetPresent : UInt8 := 0x80

def cgmMeasTimeSynchronizationRequired : UInt32 := 0x000100

def cgmFeatPatientHighLowAlertsSupported : UInt32 := 0x000002
def cgmFeatSensorMalfunctionDetectionSupported : UInt32 := 0x000040
def cgmFeatSensorTemperatureHighLowDetectionSupported : UInt32 := 0x000080
def cgmFeatSensorResultHighLowDetectionSupported : UInt32 := 0x000100
def cgmFeatSensorTypeErrorDetectionSupported : UInt32 := 0x000400
def cgmFeatGeneralDeviceFaultSupported : UInt32 := 0x000800
def cgmFeatE2eCrcSupported : UInt32 := 0x001000
def cgmFeatMultipleSessionsSupported : UInt32 := 0x004000
def cgmFeatCgmTrendInformationSupported : UInt32 := 0x008000
def cgmFeatCgmQualitySupported : UInt32 := 0x010000

def cgmTypeCapillaryWholeBlood : UInt8 := 1
def cgmSampleLocalFinger : UInt8 := 1
def dstOffsetStandardTime : UInt8 := 0

def cgmsErrMissingCrc : Int := 0x80
def cgmsErrInvalidCrc : Int := 0x81
def btAttErrOutOfRange : Int := 0xff

/-! ## The service -/

structure CgmsCgmFeature where
  cgmFeature : UInt32
  cgmTypeSampleLocation : UInt8
  e2eCrc : UInt16
deriving DecidableEq

structure CgmsCgmStatus where
  timeOffset : UInt16
  sensorStatus : UInt32
  e2eCrc : UInt16
deriving DecidableEq

structure CgmsCgmSessionStartTime where
  sessionStartTime : DateTime
  timeZone : Int8
  dstOffset : UInt8
  e2eCrc : UInt16
deriving DecidableEq

structure CgmsCgmSessionRunTime where
  cgmSessionRunTime : UInt16
  e2eCrc : UInt16
deriving DecidableEq

/-- `gatt_cgms`, the variables of the timer, the database, and the notified values. -/
structure Cgms where
  cgmMeas : CgmsCgmMeasurement
  cgmMeasCcc : Bool
  cgmFeature : CgmsCgmFeature
  cgmStatus : CgmsCgmStatus
  cgmSessionStartTime : CgmsCgmSessionStartTime
  cgmSessionRunTime : CgmsCgmSessionRunTime
  communicationInterval : UInt8
  sessionRunTime : UInt16
  db : CgmsDatabase
  notifications : List (List UInt8)

/-- The bit of the end-to-end CRC is set. -/
def CgmsCgmFeature.E2eCrc (feature : CgmsCgmFeature) : Prop :=
  feature.cgmFeature &&& cgmFeatE2eCrcSupported ≠ 0

instance (feature : CgmsCgmFeature) : Decidable feature.E2eCrc :=
  inferInstanceAs (Decidable (_ ≠ _))

def u24Encode (value : UInt32) : List UInt8 :=
  [(value &&& 0x000000ff).toUInt8, ((value &&& 0x0000ff00) >>> 8).toUInt8,
    ((value &&& 0x00ff0000) >>> 16).toUInt8]

def u32Encode (value : UInt32) : List UInt8 :=
  [value.toUInt8, (value >>> 8).toUInt8, (value >>> 16).toUInt8, (value >>> 24).toUInt8]

/-! ## Measurements -/

/-- The octets of the sensor status annunciation that a measurement announces. -/
def annunciationOctets (meas : CgmsCgmMeasurement) : List UInt8 :=
  (if meas.flag &&& cgmSensorStatAnnuStatOctetPresent ≠ 0 then
    [(meas.sensorStatusAnnunciation &&& 0x000000ff).toUInt8] else []) ++
  (if meas.flag &&& cgmSensorStatAnnuCalOrTempOctetPresent ≠ 0 then
    [((meas.sensorStatusAnnunciation &&& 0x0000ff00) >>> 8).toUInt8] else []) ++
  (if meas.flag &&& cgmSensorStatAnnuWarningOctetPresent ≠ 0 then
    [((meas.sensorStatusAnnunciation &&& 0x00ff0000) >>> 16).toUInt8] else [])

/-- What `cgms_meas_encode` puts into the buffer before the checksum. -/
def measBody (current meas : CgmsCgmMeasurement) : List UInt8 :=
  [meas.size, meas.flag] ++ u16Encode meas.cgmGlucoseConcentration.toUInt16 ++
    u16Encode meas.timeOffset ++
    -- the octets are those of `gatt_cgms.cgm_meas`, not of the measurement
    annunciationOctets current ++
    (if meas.flag &&& cgmTrendInformationPresent ≠ 0 then
      u16Encode meas.cgmTrendInformation.toUInt16 else []) ++
    (if meas.flag &&& cgmQualityPresent ≠ 0 then u16Encode meas.cgmQuality.toUInt16 else [])

/-- `cgms_meas_encode` with the service's feature and its current measurement: the bytes,
and the measurement with its size and checksum. -/
def cgmsMeasEncode (feature : CgmsCgmFeature) (current meas : CgmsCgmMeasurement) :
    List UInt8 × CgmsCgmMeasurement :=
  let body := measBody current meas
  let e2eCrc := if feature.E2eCrc then crc16Ccitt body else meas.e2eCrc
  let bytes := body ++ if feature.E2eCrc then u16Encode e2eCrc else []
  let size := UInt8.ofNat bytes.length
  (bytes.set 0 size, { meas with size, e2eCrc })

/-- The values `cgm_measurement_simulation` gives to a measurement. -/
def simulatedMeas (meas : CgmsCgmMeasurement) (sessionRunTime : UInt16) : CgmsCgmMeasurement :=
  { meas with
    flag := cgmTrendInformationPresent ||| cgmQualityPresent |||
      cgmSensorStatAnnuWarningOctetPresent ||| cgmSensorStatAnnuCalOrTempOctetPresent |||
      cgmSensorStatAnnuStatOctetPresent
    cgmGlucoseConcentration := ⟨0, 90⟩
    timeOffset := sessionRunTime
    sensorStatusAnnunciation := 0 ||| cgmMeasTimeSynchronizationRequired
    cgmTrendInformation := ⟨0, 3⟩
    cgmQuality := ⟨0, 4⟩ }

def cgmMeasurementSimulation (cgms : Cgms) : Cgms :=
  let meas := simulatedMeas cgms.cgmMeas cgms.sessionRunTime
  let status : UInt8 := (meas.sensorStatusAnnunciation &&& 0x000000ff).toUInt8
  let calTemp : UInt8 := ((meas.sensorStatusAnnunciation &&& 0x0000ff00) >>> 8).toUInt8
  let warning : UInt8 := ((meas.sensorStatusAnnunciation &&& 0x00ff0000) >>> 16).toUInt8
  let buf := u16Encode meas.timeOffset ++ [status, calTemp, warning]
  { cgms with
    cgmMeas := meas
    cgmStatus :=
      { timeOffset := meas.timeOffset
        sensorStatus := (warning.toUInt32 <<< 16) ||| (calTemp.toUInt32 <<< 8) ||| status.toUInt32
        e2eCrc := if cgms.cgmFeature.E2eCrc then crc16Ccitt buf else cgms.cgmStatus.e2eCrc }
    db := (cgmsDbRecordAdd cgms.db ⟨meas⟩).2 }

/-- `cgm_measurement_notify`; `sent` is the result of `bt_gatt_notify`. -/
def cgmMeasurementNotify (cgms : Cgms) (sent : Bool) : Cgms :=
  if cgms.cgmMeasCcc then
    let (buf, meas) := cgmsMeasEncode cgms.cgmFeature cgms.cgmMeas cgms.cgmMeas
    { cgms with
      cgmMeas := meas
      notifications := if sent then cgms.notifications ++ [buf] else cgms.notifications }
  else cgms

/-- The measurement of `cgms_timer_handler`. -/
def takeMeasurement (cgms : Cgms) : Cgms :=
  if cgms.sessionRunTime % 5 = 0 ∧ (cgmsDbNumRecordsGet cgms.db).toNat < cgmsDbMaxRecords then
    cgmMeasurementSimulation cgms
  else cgms

/-- The periodic notification of `cgms_timer_handler`. -/
def notifyPeriodically (cgms : Cgms) (sent : Bool) : Cgms :=
  if cgms.communicationInterval = 0xff then cgmMeasurementNotify cgms sent
  else if cgms.communicationInterval ≠ 0 ∧
      cgms.sessionRunTime % cgms.communicationInterval.toUInt16 = 0 then
    cgmMeasurementNotify cgms sent
  else cgms

def cgmsTimerHandler (cgms : Cgms) (sent : Bool) : Cgms :=
  let cgms := { cgms with sessionRunTime := cgms.sessionRunTime + 1 }
  let cgms := notifyPeriodically (takeMeasurement cgms) sent
  { cgms with
    cgmSessionRunTime :=
      { cgms.cgmSessionRunTime with cgmSessionRunTime := cgms.sessionRunTime / 60 } }

/-! ## The session -/

/-- The memory of `struct cgms_cgm_session_start_time`, which is packed. -/
def startTimeLayout : Codec (DateTime × Int8 × UInt8 × UInt16) :=
  dateTime.seq <| (Codec.byte.relabel UInt8.toInt8 Int8.toUInt8 (fun _ => True)
    (fun _ _ => ⟨trivial, rfl⟩) (fun _ _ => ⟨trivial, rfl⟩)).seq <|
    Codec.byte.seq Codec.word

/-- `sizeof(struct cgms_cgm_session_start_time)`. -/
def startTimeSize : Nat := 11

def CgmsCgmSessionStartTime.toBytes (startTime : CgmsCgmSessionStartTime) : List UInt8 :=
  startTimeLayout.encode
    (startTime.sessionStartTime, startTime.timeZone, startTime.dstOffset, startTime.e2eCrc)

/-- The structure whose memory these bytes are. -/
def CgmsCgmSessionStartTime.ofBytes (bytes : List UInt8) : Option CgmsCgmSessionStartTime :=
  (startTimeLayout.decode bytes).map fun read =>
    ⟨read.1.1, read.1.2.1, read.1.2.2.1, read.1.2.2.2⟩

def cgmsSetSessionStartTime (cgms : Cgms) : Cgms :=
  let startTime : CgmsCgmSessionStartTime :=
    { sessionStartTime := ⟨2018, 4, 19, 14, 42, 22⟩
      timeZone := 8 * 4
      dstOffset := dstOffsetStandardTime
      e2eCrc := cgms.cgmSessionStartTime.e2eCrc }
  { cgms with
    cgmSessionStartTime :=
      if cgms.cgmFeature.E2eCrc then
        { startTime with e2eCrc := crc16Ccitt (startTime.toBytes.take (startTimeSize - 2)) }
      else startTime
    sessionRunTime := 0
    db := cgmsDbRecordDeleteAll cgms.db }

def cgmsCrcEnable (cgms : Cgms) (enable : Bool) : Cgms :=
  { cgms with
    cgmFeature :=
      { cgms.cgmFeature with
        cgmFeature :=
          if enable then cgms.cgmFeature.cgmFeature ||| cgmFeatE2eCrcSupported
          else cgms.cgmFeature.cgmFeature &&& ~~~cgmFeatE2eCrcSupported } }

/-- The features `cgms_init` sets. -/
def cgmsInitFeature : UInt32 :=
  cgmFeatPatientHighLowAlertsSupported ||| cgmFeatSensorMalfunctionDetectionSupported |||
    cgmFeatSensorTemperatureHighLowDetectionSupported |||
    cgmFeatSensorResultHighLowDetectionSupported ||| cgmFeatSensorTypeErrorDetectionSupported |||
    cgmFeatGeneralDeviceFaultSupported ||| cgmFeatMultipleSessionsSupported |||
    cgmFeatCgmTrendInformationSupported ||| cgmFeatCgmQualitySupported

/-- `cgms_init`, as far as these values are concerned. -/
def cgmsInit (cgms : Cgms) : Cgms :=
  let feature : CgmsCgmFeature :=
    { cgmFeature := cgmsInitFeature
      cgmTypeSampleLocation := (cgmTypeCapillaryWholeBlood <<< 4) ||| cgmSampleLocalFinger
      e2eCrc := cgms.cgmFeature.e2eCrc }
  { cgms with
    cgmFeature :=
      if feature.E2eCrc then
        { feature with
          e2eCrc :=
            crc16Ccitt (u32Encode feature.cgmFeature ++ [feature.cgmTypeSampleLocation]) }
      else feature
    db := cgmsDbInit cgms.db }

/-! ## Reads and writes of the characteristics -/

/-- The value of `cgms_cgm_feature_read`. -/
def cgmsCgmFeatureRead (cgms : Cgms) : List UInt8 :=
  u24Encode cgms.cgmFeature.cgmFeature ++ [cgms.cgmFeature.cgmTypeSampleLocation] ++
    -- the checksum of the status is taken for that of the feature
    u16Encode cgms.cgmStatus.e2eCrc

def cgmsCgmStatusRead (cgms : Cgms) : List UInt8 :=
  u16Encode cgms.cgmStatus.timeOffset ++ u24Encode cgms.cgmStatus.sensorStatus ++
    if cgms.cgmFeature.E2eCrc then u16Encode cgms.cgmStatus.e2eCrc else []

def cgmsCgmStartTimeRead (cgms : Cgms) : List UInt8 :=
  cgms.cgmSessionStartTime.toBytes.take
    (if cgms.cgmFeature.E2eCrc then startTimeSize - 2 + 2 else startTimeSize - 2)

/-- The read refreshes the checksum first. -/
def cgmsCgmRunTimeRead (cgms : Cgms) : List UInt8 × Cgms :=
  let runTime := u16Encode cgms.cgmSessionRunTime.cgmSessionRunTime
  if cgms.cgmFeature.E2eCrc then
    let e2eCrc := crc16Ccitt runTime
    (runTime ++ u16Encode e2eCrc,
      { cgms with cgmSessionRunTime := { cgms.cgmSessionRunTime with e2eCrc } })
  else (runTime, cgms)

/-- A write request: `len` bytes at `buf`, and what lies behind them in memory, as the
handler looks at the time zone and the checksum before it looks at the length. -/
structure StartTimeWrite where
  buf : Nat → UInt8
  len : UInt16
  offset : UInt16

def StartTimeWrite.timeZone (write : StartTimeWrite) : Int8 := (write.buf 7).toInt8

def StartTimeWrite.e2eCrc (write : StartTimeWrite) : UInt16 :=
  (write.buf 9).toUInt16 + ((write.buf 10).toUInt16 <<< 8)

/-- `memcpy` of the request over the stored value. -/
def StartTimeWrite.copiedTo (write : StartTimeWrite) (old : List UInt8) : List UInt8 :=
  old.take write.offset.toNat ++ (List.range write.len.toNat).map write.buf ++
    old.drop (write.offset.toNat + write.len.toNat)

/-- `cgms_cgm_start_time_write`: the result, and the service afterwards. -/
def cgmsCgmStartTimeWrite (cgms : Cgms) (write : StartTimeWrite) : Int × Cgms :=
  let last := write.offset.toNat + write.len.toNat
  let old := cgms.cgmSessionStartTime.toBytes
  if write.timeZone < -48 ∨ 56 < write.timeZone then (btGattErr btAttErrOutOfRange, cgms)
  else if cgms.cgmFeature.E2eCrc ∧ last = startTimeSize - 2 then
    (btGattErr cgmsErrMissingCrc, cgms)
  -- the checksum is compared with that of the value stored before
  else if cgms.cgmFeature.E2eCrc ∧ last = startTimeSize ∧
      crc16Ccitt (old.take (startTimeSize - 2)) ≠ write.e2eCrc then
    (btGattErr cgmsErrInvalidCrc, cgms)
  else if startTimeSize < last then (btGattErr btAttErrInvalidOffset, cgms)
  else
    (write.len.toNat,
      { cgms with
        cgmSessionStartTime :=
          (CgmsCgmSessionStartTime.ofBytes (write.copiedTo old)).getD cgms.cgmSessionStartTime })

end CubieBle.Gatt
