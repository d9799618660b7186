import CubieBle.Gatt.CgmsFormat
import CubieBle.Gatt.GlucoseFormat

/-! # The health thermometer service

A measurement is sent twice, as an indication and as a notification, by two encoders that are
copies of each other. The flags in the first byte say which fields follow the temperature, and a
client reads them back in the same order.
-/

namespace CubieBle.Gatt

open Machine

structure IeeeFloat where
  exponent : Int8
  mantissa : Int32
deriving DecidableEq

def htsFlagTemperatureUnits : UInt8 := 0
def htsFlagTimeStamp : UInt8 := 1
def htsFlagTemperatureType : UInt8 := 2

def htsTempMeasurementSize : Nat := 13

/-- The two members of the union share their place. -/
structure HtsTempMeasurement where
  tempInFahrUnits : Bool
  timeStampPresent : Bool
  tempTypePresent : Bool
  temp : IeeeFloat
  timeStamp : DateTime
  tempType : UInt8
deriving DecidableEq

def HtsTempMeasurement.celcius (measurement : HtsTempMeasurement) : IeeeFloat := measurement.temp

def HtsTempMeasurement.fahrenheit (measurement : HtsTempMeasurement) : IeeeFloat :=
  measurement.temp

structure BtGattHts where
  tempMeasurement : HtsTempMeasurement
  tempMeasurementCcc : UInt8
  tempType : UInt8
  intermediateTempCcc : UInt8
deriving DecidableEq

/-- The service and the mark of a pending indication. -/
structure Hts where
  gattHts : BtGattHts
  htmIndicating : UInt8
deriving DecidableEq

/-! ## The two encoders -/

/-- What `hts_temp_measurement_indicate_event` writes to its buffer. -/
def tempMeasurementBuf (gattHts : BtGattHts) : List UInt8 :=
  let measurement := gattHts.tempMeasurement
  let flag : UInt8 := 0
  let flag := if measurement.tempInFahrUnits then flag ||| (1 <<< htsFlagTemperatureUnits)
    else flag
  let flag := if measurement.tempTypePresent then flag ||| (1 <<< htsFlagTemperatureType)
    else flag
  let flag := if measurement.timeStampPresent then flag ||| (1 <<< htsFlagTimeStamp) else flag
  let tempValue : UInt32 :=
    if measurement.tempInFahrUnits then
      (measurement.fahrenheit.exponent.toInt32.toUInt32 <<< 24) |||
        (measurement.fahrenheit.mantissa.toUInt32 &&& 0x00ffffff)
    else
      (measurement.celcius.exponent.toInt32.toUInt32 <<< 24) |||
        (measurement.celcius.mantissa.toUInt32 &&& 0x00ffffff)
  [flag] ++ u32Encode tempValue ++
    (if measurement.timeStampPresent then dateTimeEncode measurement.timeStamp else []) ++
    (if measurement.tempTypePresent then [gattHts.tempType] else [])

/-- `hts_temp_measurement_indicate_event`, with the result of `bt_gatt_indicate`. -/
def htsTempMeasurementIndicateEvent (hts : Hts) (btGattIndicate : Int) :
    Option (List UInt8) × Hts :=
  if hts.gattHts.tempMeasurementCcc ≠ 0 ∧ hts.htmIndicating = 0 then
    (some (tempMeasurementBuf hts.gattHts),
      if btGattIndicate = 0 then { hts with htmIndicating := 1 } else hts)
  else (none, hts)

/-- The buffer of `hts_intermediate_tmp_notify_event`. -/
def intermediateTmpBuf (gattHts : BtGattHts) : List UInt8 :=
  let measurement := gattHts.tempMeasurement
  let flag : UInt8 := 0
  let flag := if measurement.tempInFahrUnits then flag ||| (1 <<< htsFlagTemperatureUnits)
    else flag
  let flag := if measurement.tempTypePresent then flag ||| (1 <<< htsFlagTemperatureType)
    else flag
  let flag := if measurement.timeStampPresent then flag ||| (1 <<< htsFlagTimeStamp) else flag
  let tempValue : UInt32 :=
    if measurement.tempInFahrUnits then
      (measurement.fahrenheit.exponent.toInt32.toUInt32 <<< 24) |||
        (measurement.fahrenheit.mantissa.toUInt32 &&& 0x00ffffff)
    else
      (measurement.celcius.exponent.toInt32.toUInt32 <<< 24) |||
        (measurement.celcius.mantissa.toUInt32 &&& 0x00ffffff)
  [flag] ++ u32Encode tempValue ++
    (if measurement.timeStampPresent then dateTimeEncode measurement.timeStamp else []) ++
    (if measurement.tempTypePresent then [gattHts.tempType] else [])

def htsIntermediateTmpNotifyEvent (hts : Hts) : Option (List UInt8) :=
  if hts.gattHts.intermediateTempCcc ≠ 0 then some (intermediateTmpBuf hts.gattHts) else none

/-- The simulation copies the type of the service into the measurement. -/
def temperatureMeasurementSimulation (gattHts : BtGattHts) (currentDate : DateTime) :
    BtGattHts :=
  let measurement := gattHts.tempMeasurement
  let mantissa := measurement.temp.mantissa + 1
  let measurement := { measurement with
    temp := ⟨0, if mantissa = 50 then 30 else mantissa⟩ }
  let measurement := if measurement.timeStampPresent then
    { measurement with timeStamp := currentDate } else measurement
  { gattHts with
    tempMeasurement := if measurement.tempTypePresent then
      { measurement with tempType := gattHts.tempType } else measurement }

/-! ## Decoding -/

def u16Decode (encodedData : List UInt8) : UInt16 :=
  (encodedData.getD 0 0).toUInt16 ||| ((encodedData.getD 1 0).toUInt16 <<< 8)

def u32Decode (encodedData : List UInt8) : UInt32 :=
  (encodedData.getD 0 0).toUInt32 ||| ((encodedData.getD 1 0).toUInt32 <<< 8) |||
    ((encodedData.getD 2 0).toUInt32 <<< 16) ||| ((encodedData.getD 3 0).toUInt32 <<< 24)

/-- The date and the number of bytes it takes. -/
def dateTimeDecode (encodedData : List UInt8) : DateTime × Nat :=
  ({ year := u16Decode encodedData
     month := encodedData.getD 2 0
     day := encodedData.getD 3 0
     hours := encodedData.getD 4 0
     minutes := encodedData.getD 5 0
     seconds := encodedData.getD 6 0 }, 7)

/-- A FLOAT: the upper byte is the exponent, the other three are the mantissa, both signed. -/
def IeeeFloat.ofUInt32 (value : UInt32) : IeeeFloat where
  exponent := Int8.ofInt (Int.bmod (value.toNat / 0x1000000) 0x100)
  mantissa := Int32.ofInt (Int.bmod value.toNat 0x1000000)

structure HtsReading where
  tempInFahrUnits : Bool
  temp : IeeeFloat
  timeStamp : Option DateTime
  tempType : Option UInt8
deriving DecidableEq

/-- A client follows the flags. It counts the bytes that it reads. -/
def htsDecode (bytes : List UInt8) : HtsReading × Nat :=
  let flag := bytes.getD 0 0
  let temp := IeeeFloat.ofUInt32 (u32Decode (bytes.drop 1))
  let stamp := dateTimeDecode (bytes.drop 5)
  let stamped := flag &&& (1 <<< htsFlagTimeStamp) ≠ 0
  let len := if stamped then 5 + stamp.2 else 5
  let typed := flag &&& (1 <<< htsFlagTemperatureType) ≠ 0
  ({ tempInFahrUnits := flag &&& (1 <<< htsFlagTemperatureUnits) != 0
     temp := temp
     timeStamp := if stamped then some stamp.1 else none
     tempType := if typed then some (bytes.getD len 0) else none },
    if typed then len + 1 else len)

/-! ## Fields -/

theorem u32Decode_encode (value : UInt32) (rest : List UInt8) :
    u32Decode (u32Encode value ++ rest) = value := by
  exact uint32_or_of_bytes value

theorem u16Decode_encode (value : UInt16) (rest : List UInt8) :
    u16Decode (u16Encode value ++ rest) = value := by
  rw [u16Encode_eq, Codec.word_encode]
  exact uint16_or_of_bytes value

theorem dateTimeDecode_encode (time : DateTime) (rest : List UInt8) :
    dateTimeDecode (dateTimeEncode time ++ rest) = (time, 7) := by
  rw [dateTimeDecode, dateTimeEncode, List.append_assoc, u16Decode_encode]
  simp [u16Encode]

/-- The mantissa has 24 bits. -/
structure IeeeFloat.WellFormed (value : IeeeFloat) : Prop where
  mantissa_ge : -0x800000 ≤ value.mantissa.toInt
  mantissa_lt : value.mantissa.toInt < 0x800000

theorem int32_toNat_toUInt32 (value : Int32) :
    (value.toUInt32.toNat : Int) = value.toInt % 4294967296 := by
  have hbmod : value.toInt = Int.bmod value.toUInt32.toNat 4294967296 :=
    BitVec.toInt_eq_toNat_bmod value.toBitVec
  have hlt := value.toUInt32.toNat_lt
  rw [hbmod, Int.bmod_def]
  omega

/-- The 32 bits of a FLOAT, as both encoders compute them. -/
def IeeeFloat.toUInt32 (value : IeeeFloat) : UInt32 :=
  (value.exponent.toInt32.toUInt32 <<< 24) ||| (value.mantissa.toUInt32 &&& 0x00ffffff)

theorem IeeeFloat.toNat_toUInt32 (value : IeeeFloat) :
    (value.toUInt32.toNat : Int) =
      value.exponent.toInt % 0x100 * 0x1000000 + value.mantissa.toInt % 0x1000000 := by
  have hexponent := int32_toNat_toUInt32 value.exponent.toInt32
  have hmantissa := int32_toNat_toUInt32 value.mantissa
  rw [Int8.toInt_toInt32] at hexponent
  have hlow : (value.mantissa.toUInt32 &&& 0x00ffffff).toNat =
      value.mantissa.toUInt32.toNat % 2 ^ 24 := by
    rw [UInt32.toNat_and]
    exact Nat.and_two_pow_sub_one_eq_mod _ 24
  have hhigh : (value.exponent.toInt32.toUInt32 <<< 24).toNat =
      (value.exponent.toInt32.toUInt32.toNat % 0x100) <<< 24 := by
    have hplaces : (24 : UInt32).toNat % 32 = 24 := rfl
    rw [UInt32.toNat_shiftLeft, hplaces, Nat.shiftLeft_eq, Nat.shiftLeft_eq]
    omega
  have hword : value.toUInt32.toNat = value.mantissa.toUInt32.toNat % 2 ^ 24 +
      2 ^ 24 * (value.exponent.toInt32.toUInt32.toNat % 0x100) := by
    rw [IeeeFloat.toUInt32, UInt32.toNat_or, hlow, hhigh, Nat.or_comm]
    exact or_shiftLeft_eq_add (Nat.mod_lt _ (by decide)) _
  omega

theorem IeeeFloat.ofUInt32_toUInt32 {value : IeeeFloat} (h : value.WellFormed) :
    IeeeFloat.ofUInt32 value.toUInt32 = value := by
  have hword := value.toNat_toUInt32
  have hge := h.mantissa_ge
  have hlt := h.mantissa_lt
  have hexpGe := value.exponent.le_toInt
  have hexpLt := value.exponent.toInt_lt
  have hexponent : Int8.ofInt (Int.bmod (value.toUInt32.toNat / 0x1000000) 0x100) =
      value.exponent := by
    have hbmod : Int.bmod (value.toUInt32.toNat / 0x1000000) 0x100 = value.exponent.toInt := by
      rw [Int.bmod_def]
      omega
    rw [hbmod, Int8.ofInt_toInt]
  have hmantissa : Int32.ofInt (Int.bmod value.toUInt32.toNat 0x1000000) = value.mantissa := by
    have hbmod : Int.bmod value.toUInt32.toNat 0x1000000 = value.mantissa.toInt := by
      rw [Int.bmod_def]
      omega
    rw [hbmod, Int32.ofInt_toInt]
  exact congrArg₂ IeeeFloat.mk hexponent hmantissa

/-! ## The measurement -/

/-- What a measurement tells a client. The type is the one of the service. -/
def BtGattHts.reading (gattHts : BtGattHts) : HtsReading where
  tempInFahrUnits := gattHts.tempMeasurement.tempInFahrUnits
  temp := gattHts.tempMeasurement.temp
  timeStamp := Codec.field gattHts.tempMeasurement.timeStampPresent
    gattHts.tempMeasurement.timeStamp
  tempType := Codec.field gattHts.tempMeasurement.tempTypePresent gattHts.tempType

/-- The flags of a measurement, as both encoders set them. -/
def HtsTempMeasurement.flag (measurement : HtsTempMeasurement) : UInt8 :=
  let flag : UInt8 := 0
  let flag := if measurement.tempInFahrUnits then flag ||| (1 <<< htsFlagTemperatureUnits)
    else flag
  let flag := if measurement.tempTypePresent then flag ||| (1 <<< htsFlagTemperatureType)
    else flag
  if measurement.timeStampPresent then flag ||| (1 <<< htsFlagTimeStamp) else flag

/-- Each bit of the flags stands for one field. -/
theorem HtsTempMeasurement.flag_spec (measurement : HtsTempMeasurement) :
    (measurement.flag &&& (1 <<< htsFlagTemperatureUnits) != 0) = measurement.tempInFahrUnits ∧
      (measurement.flag &&& (1 <<< htsFlagTimeStamp) ≠ 0 ↔
        measurement.timeStampPresent = true) ∧
      (measurement.flag &&& (1 <<< htsFlagTemperatureType) ≠ 0 ↔
        measurement.tempTypePresent = true) := by
  rw [flag]
  cases measurement.tempInFahrUnits with
  | false =>
      cases measurement.timeStampPresent with
      | false => cases measurement.tempTypePresent <;> decide
      | true => cases measurement.tempTypePresent <;> decide
  | true =>
      cases measurement.timeStampPresent with
      | false => cases measurement.tempTypePresent <;> decide
      | true => cases measurement.tempTypePresent <;> decide

theorem tempMeasurementBuf_eq (gattHts : BtGattHts) :
    tempMeasurementBuf gattHts =
      gattHts.tempMeasurement.flag :: (u32Encode gattHts.tempMeasurement.temp.toUInt32 ++
        ((if gattHts.tempMeasurement.timeStampPresent then
          dateTimeEncode gattHts.tempMeasurement.timeStamp else []) ++
        (if gattHts.tempMeasurement.tempTypePresent then [gattHts.tempType] else []))) := by
  simp [tempMeasurementBuf, HtsTempMeasurement.flag, HtsTempMeasurement.celcius,
    HtsTempMeasurement.fahrenheit, IeeeFloat.toUInt32]

theorem intermediateTmpBuf_eq (gattHts : BtGattHts) :
    intermediateTmpBuf gattHts = tempMeasurementBuf gattHts := by
  rfl

theorem length_tempMeasurementBuf (gattHts : BtGattHts) :
    (tempMeasurementBuf gattHts).length ≤ htsTempMeasurementSize := by
  have hsize : ∀ present, ∀ bytes : List UInt8,
      (if present = true then bytes else []).length ≤ bytes.length := by
    intro present bytes
    cases present <;> simp
  rw [tempMeasurementBuf_eq, List.length_cons, List.length_append, List.length_append]
  have hstamp := hsize gattHts.tempMeasurement.timeStampPresent
    (dateTimeEncode gattHts.tempMeasurement.timeStamp)
  have htype := hsize gattHts.tempMeasurement.tempTypePresent [gattHts.tempType]
  change _ ≤ 7 at hstamp
  change _ ≤ 1 at htype
  change 4 + _ + 1 ≤ 13
  omega

/-- The client reads the whole measurement, and nothing else. -/
theorem htsDecode_tempMeasurementBuf {gattHts : BtGattHts}
    (htemp : gattHts.tempMeasurement.temp.WellFormed) :
    htsDecode (tempMeasurementBuf gattHts) =
      (gattHts.reading, (tempMeasurementBuf gattHts).length) := by
  obtain ⟨hunits, hstamp, htype⟩ := gattHts.tempMeasurement.flag_spec
  have hrest : ∀ value rest, (u32Encode value ++ rest).drop 4 = rest := fun _ _ => rfl
  rw [tempMeasurementBuf_eq, htsDecode, BtGattHts.reading]
  simp only [List.getD_cons_zero, List.drop_succ_cons, List.drop_zero, u32Decode_encode, hrest,
    IeeeFloat.ofUInt32_toUInt32 htemp, hunits, hstamp, htype]
  cases gattHts.tempMeasurement.timeStampPresent with
  | false =>
      cases gattHts.tempMeasurement.tempTypePresent with
      | false => rfl
      | true => rfl
  | true =>
      simp only [if_true, dateTimeDecode_encode]
      cases gattHts.tempMeasurement.tempTypePresent with
      | false => rfl
      | true => rfl

/-- What is sent after a simulation is also the type that the measurement has. -/
theorem reading_temperatureMeasurementSimulation (gattHts : BtGattHts) (currentDate : DateTime) :
    let simulated := temperatureMeasurementSimulation gattHts currentDate
    simulated.reading.tempType = Codec.field simulated.tempMeasurement.tempTypePresent
      simulated.tempMeasurement.tempType := by
  intro simulated
  simp only [simulated, BtGattHts.reading, temperatureMeasurementSimulation]
  cases gattHts.tempMeasurement.timeStampPresent with
  | false => cases gattHts.tempMeasurement.tempTypePresent <;> simp [Codec.field]
  | true => cases gattHts.tempMeasurement.tempTypePresent <;> simp [Codec.field]

/-- Both paths send the same bytes, at most `HTS_TEMP_MEASUREMENT_SIZE` of them, and a client
that follows the flags reads exactly these and has the measurement. -/
theorem thermometer_readings_decodable {hts : Hts}
    (htemp : hts.gattHts.tempMeasurement.temp.WellFormed) (hidle : hts.htmIndicating = 0) :
    ∃ bytes, bytes.length ≤ htsTempMeasurementSize ∧
      htsDecode bytes = (hts.gattHts.reading, bytes.length) ∧
      (hts.gattHts.tempMeasurementCcc ≠ 0 → ∀ btGattIndicate,
        (htsTempMeasurementIndicateEvent hts btGattIndicate).1 = some bytes) ∧
      (hts.gattHts.intermediateTempCcc ≠ 0 →
        htsIntermediateTmpNotifyEvent hts = some bytes) := by
  refine ⟨tempMeasurementBuf hts.gattHts, length_tempMeasurementBuf hts.gattHts,
    htsDecode_tempMeasurementBuf htemp, ?_, ?_⟩
  · intro hccc btGattIndicate
    rw [htsTempMeasurementIndicateEvent, if_pos ⟨hccc, hidle⟩]
  · intro hccc
    rw [htsIntermediateTmpNotifyEvent, if_pos hccc, intermediateTmpBuf_eq]

/-- A negative temperature with a negative exponent, its time and its type. -/
def coldReading : Hts where
  gattHts := {
    tempMeasurement := {
      tempInFahrUnits := false
      timeStampPresent := true
      tempTypePresent := true
      temp := ⟨-2, -1250⟩
      timeStamp := ⟨2018, 3, 23, 15, 43, 15⟩
      tempType := 2 }
    tempMeasurementCcc := 1
    tempType := 2
    intermediateTempCcc := 1 }
  htmIndicating := 0

theorem thermometer_readings_decodable_cold :
    ∃ bytes, bytes.length ≤ htsTempMeasurementSize ∧
      htsDecode bytes = (coldReading.gattHts.reading, bytes.length) ∧
      (htsTempMeasurementIndicateEvent coldReading 0).1 = some bytes ∧
      htsIntermediateTmpNotifyEvent coldReading = some bytes := by
  have htemp : coldReading.gattHts.tempMeasurement.temp.WellFormed := by
    constructor <;> decide
  obtain ⟨bytes, hsize, hread, hindicated, hnotified⟩ :=
    thermometer_readings_decodable htemp rfl
  exact ⟨bytes, hsize, hread, hindicated (by decide) 0, hnotified (by decide)⟩

end CubieBle.Gatt
