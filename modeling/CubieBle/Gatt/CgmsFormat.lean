import CubieBle.Gatt.Cgms

/-! # The format of a continuous glucose measurement

A measurement starts with its size, its flags announce its octets and values, and with the
CRC feature it ends with a checksum. The encoder takes the octets of the annunciation from
the latest measurement, and it computes the checksum before it writes the size.
-/

namespace CubieBle.Gatt

open Machine

/-! ## The format -/

/-- What follows the flags of a measurement. -/
def cgmFields (e2eCrc : Bool) (flag : UInt8) :
    Codec (IeeeSfloat × UInt16 × Option UInt8 × Option UInt8 × Option UInt8 ×
      Option IeeeSfloat × Option IeeeSfloat × Option UInt16) :=
  sfloat.seq <| Codec.word.seq <|
    (Codec.optional (flag &&& cgmSensorStatAnnuStatOctetPresent != 0) Codec.byte).seq <|
    (Codec.optional (flag &&& cgmSensorStatAnnuCalOrTempOctetPresent != 0) Codec.byte).seq <|
    (Codec.optional (flag &&& cgmSensorStatAnnuWarningOctetPresent != 0) Codec.byte).seq <|
    (Codec.optional (flag &&& cgmTrendInformationPresent != 0) sfloat).seq <|
    (Codec.optional (flag &&& cgmQualityPresent != 0) sfloat).seq <|
    Codec.optional e2eCrc Codec.word

/-- The size, the flags, and what the flags announce. -/
def cgmFormat (e2eCrc : Bool) := Codec.byte.seq (Codec.byte.andThen (cgmFields e2eCrc))

/-- What a measurement of this size and with this checksum announces. -/
def CgmsCgmMeasurement.announced (meas : CgmsCgmMeasurement) (e2eCrc : Bool) (size : UInt8)
    (crc : UInt16) :
    UInt8 × UInt8 × IeeeSfloat × UInt16 × Option UInt8 × Option UInt8 × Option UInt8 ×
      Option IeeeSfloat × Option IeeeSfloat × Option UInt16 :=
  (size, meas.flag, meas.cgmGlucoseConcentration, meas.timeOffset,
    Codec.field (meas.flag &&& cgmSensorStatAnnuStatOctetPresent != 0)
      (meas.sensorStatusAnnunciation &&& 0x000000ff).toUInt8,
    Codec.field (meas.flag &&& cgmSensorStatAnnuCalOrTempOctetPresent != 0)
      ((meas.sensorStatusAnnunciation &&& 0x0000ff00) >>> 8).toUInt8,
    Codec.field (meas.flag &&& cgmSensorStatAnnuWarningOctetPresent != 0)
      ((meas.sensorStatusAnnunciation &&& 0x00ff0000) >>> 16).toUInt8,
    Codec.field (meas.flag &&& cgmTrendInformationPresent != 0) meas.cgmTrendInformation,
    Codec.field (meas.flag &&& cgmQualityPresent != 0) meas.cgmQuality,
    Codec.field e2eCrc crc)

structure CgmsCgmMeasurement.WellFormed (meas : CgmsCgmMeasurement) : Prop where
  cgmGlucoseConcentration : meas.cgmGlucoseConcentration.WellFormed
  cgmTrendInformation : meas.cgmTrendInformation.WellFormed
  cgmQuality : meas.cgmQuality.WellFormed

/-- A value ends with the checksum of the bytes before it. -/
def EndsWithCrc (bytes : List UInt8) : Prop :=
  ∃ covered, bytes = covered ++ u16Encode (crc16Ccitt covered)

/-- The bytes of an encoded measurement start with their number, they are decoded to their
end along the measurement's own flags into what the measurement announces, and with the CRC
feature they end with their checksum. -/
structure SelfConsistent (feature : CgmsCgmFeature) (meas : CgmsCgmMeasurement)
    (bytes : List UInt8) : Prop where
  size : bytes.head?.map UInt8.toNat = some bytes.length
  decodes : ∃ size crc, (cgmFormat (decide feature.E2eCrc)).decode bytes =
    some (meas.announced (decide feature.E2eCrc) size crc, [])
  crc : feature.E2eCrc → EndsWithCrc bytes

/-! ## The bytes -/

/-- The bytes between the flags and the checksum. -/
def measTail (meas : CgmsCgmMeasurement) (octets : List UInt8) : List UInt8 :=
  sfloat.encode meas.cgmGlucoseConcentration ++ Codec.word.encode meas.timeOffset ++ octets ++
    ((if meas.flag &&& cgmTrendInformationPresent != 0 then
      sfloat.encode meas.cgmTrendInformation else []) ++
    (if meas.flag &&& cgmQualityPresent != 0 then sfloat.encode meas.cgmQuality else []))

theorem measBody_eq (current meas : CgmsCgmMeasurement) :
    measBody current meas =
      meas.size :: meas.flag :: measTail meas (annunciationOctets current) := by
  simp only [measBody, measTail, u16Encode_eq, bne_iff_ne, List.append_assoc]
  rfl

theorem measTail_injective (meas : CgmsCgmMeasurement) {first second : List UInt8}
    (heq : measTail meas first = measTail meas second) : first = second := by
  rw [measTail, measTail, List.append_left_inj] at heq
  exact List.append_cancel_left heq

theorem annunciationOctets_eq (meas : CgmsCgmMeasurement) :
    annunciationOctets meas =
      (if meas.flag &&& cgmSensorStatAnnuStatOctetPresent != 0 then
        Codec.byte.encode (meas.sensorStatusAnnunciation &&& 0x000000ff).toUInt8 else []) ++
      ((if meas.flag &&& cgmSensorStatAnnuCalOrTempOctetPresent != 0 then
        Codec.byte.encode ((meas.sensorStatusAnnunciation &&& 0x0000ff00) >>> 8).toUInt8
        else []) ++
      (if meas.flag &&& cgmSensorStatAnnuWarningOctetPresent != 0 then
        Codec.byte.encode ((meas.sensorStatusAnnunciation &&& 0x00ff0000) >>> 16).toUInt8
        else [])) := by
  simp only [annunciationOctets, bne_iff_ne, List.append_assoc]
  rfl

/-- The length of a measurement with its checksum, as its flags announce it. -/
def announcedSize (meas : CgmsCgmMeasurement) : Nat :=
  8 + (annunciationOctets meas).length + (meas.flag &&& cgmTrendInformationPresent != 0).toNat * 2 +
    (meas.flag &&& cgmQualityPresent != 0).toNat * 2

theorem measTail_length (meas : CgmsCgmMeasurement) :
    4 + (measTail meas (annunciationOctets meas)).length = announcedSize meas := by
  simp only [measTail, announcedSize, List.length_append, Codec.length_announced, sfloat_length,
    Codec.word_length]
  omega

theorem measTail_length_le (meas : CgmsCgmMeasurement) :
    (measTail meas (annunciationOctets meas)).length ≤ 11 := by
  have hstat := Bool.toNat_le (meas.flag &&& cgmSensorStatAnnuStatOctetPresent != 0)
  have hcal := Bool.toNat_le (meas.flag &&& cgmSensorStatAnnuCalOrTempOctetPresent != 0)
  have hwarning := Bool.toNat_le (meas.flag &&& cgmSensorStatAnnuWarningOctetPresent != 0)
  have htrend := Bool.toNat_le (meas.flag &&& cgmTrendInformationPresent != 0)
  have hquality := Bool.toNat_le (meas.flag &&& cgmQualityPresent != 0)
  simp only [measTail, annunciationOctets_eq, List.length_append, Codec.length_announced,
    Codec.byte_length, Codec.word_length, sfloat_length]
  omega

theorem cgmFormat_encode_announced (meas : CgmsCgmMeasurement) (e2eCrc : Bool) (size : UInt8)
    (crc : UInt16) :
    (cgmFormat e2eCrc).encode (meas.announced e2eCrc size crc) =
      size :: meas.flag :: (measTail meas (annunciationOctets meas) ++
        if e2eCrc then Codec.word.encode crc else []) := by
  rw [measTail, annunciationOctets_eq]
  simp only [← Codec.optional_encode_field, List.append_assoc]
  rfl

theorem CgmsCgmMeasurement.WellFormed.announced_valid {meas : CgmsCgmMeasurement}
    (h : meas.WellFormed) (e2eCrc : Bool) (size : UInt8) (crc : UInt16) :
    (cgmFormat e2eCrc).valid (meas.announced e2eCrc size crc) :=
  ⟨trivial, trivial, h.cgmGlucoseConcentration, trivial, Codec.optional_valid_field trivial,
    Codec.optional_valid_field trivial, Codec.optional_valid_field trivial,
    Codec.optional_valid_field h.cgmTrendInformation, Codec.optional_valid_field h.cgmQuality,
    Codec.optional_valid_field trivial⟩

/-! ## Which measurements are sent as they are -/

section Encode

variable {feature : CgmsCgmFeature} {current meas : CgmsCgmMeasurement}

/-- The bytes that are sent: the size byte has been replaced, the checksum has not. -/
theorem cgmsMeasEncode_bytes :
    (cgmsMeasEncode feature current meas).1 =
      UInt8.ofNat (cgmsMeasEncode feature current meas).1.length :: meas.flag ::
        (measTail meas (annunciationOctets current) ++
          if feature.E2eCrc then
            Codec.word.encode (crc16Ccitt
              (meas.size :: meas.flag :: measTail meas (annunciationOctets current)))
          else []) := by
  simp only [cgmsMeasEncode, measBody_eq, u16Encode_eq, List.cons_append, List.set_cons_zero,
    List.length_cons]
  by_cases hcrc : feature.E2eCrc
  · simp [hcrc]
  · simp [hcrc]

/-- A decoder that follows the flags gets the measurement back exactly if the announced
octets of the latest measurement are those of the measurement. -/
theorem decodes_iff_octets_eq (h : meas.WellFormed) :
    (∃ size crc, (cgmFormat (decide feature.E2eCrc)).decode
        (cgmsMeasEncode feature current meas).1 =
      some (meas.announced (decide feature.E2eCrc) size crc, [])) ↔
      annunciationOctets current = annunciationOctets meas := by
  simp only [Codec.decode_eq_some_nil_iff, cgmFormat_encode_announced]
  constructor
  · rintro ⟨size, crc, -, hbytes⟩
    rw [cgmsMeasEncode_bytes] at hbytes
    have htail := (List.cons.inj (List.cons.inj hbytes).2).2
    have hlength : (if feature.E2eCrc then Codec.word.encode (crc16Ccitt
        (meas.size :: meas.flag :: measTail meas (annunciationOctets current))) else []).length =
        (if decide feature.E2eCrc then Codec.word.encode crc else []).length := by
      by_cases hcrc : feature.E2eCrc
      · simp [hcrc]
      · simp [hcrc]
    exact measTail_injective meas (List.append_inj' htail hlength).1
  · intro hoctets
    refine ⟨UInt8.ofNat (cgmsMeasEncode feature current meas).1.length,
      crc16Ccitt (meas.size :: meas.flag :: measTail meas (annunciationOctets current)),
      h.announced_valid _ _ _, ?_⟩
    rw [← hoctets]
    simp only [decide_eq_true_eq]
    exact cgmsMeasEncode_bytes

/-- The checksum was computed with the old size byte, so it is right exactly if the size was
right before. -/
theorem endsWithCrc_iff {size old flag : UInt8} {tail : List UInt8} :
    EndsWithCrc (size :: flag ::
      (tail ++ Codec.word.encode (crc16Ccitt (old :: flag :: tail)))) ↔ old = size := by
  constructor
  · rintro ⟨covered, hcovered⟩
    rw [← List.cons_append, ← List.cons_append, ← u16Encode_eq] at hcovered
    obtain ⟨rfl, hword⟩ := List.append_inj' hcovered rfl
    exact crc16Ccitt_cons_inj.mp (u16Encode_injective hword)
  · rintro rfl
    exact ⟨old :: flag :: tail, by rw [u16Encode_eq]; rfl⟩

theorem cgmsMeasEncode_length (feature : CgmsCgmFeature)
    (hoctets : annunciationOctets current = annunciationOctets meas) :
    (cgmsMeasEncode feature current meas).1.length =
      2 + (measTail meas (annunciationOctets meas)).length +
        if feature.E2eCrc then 2 else 0 := by
  rw [cgmsMeasEncode_bytes, hoctets]
  by_cases hcrc : feature.E2eCrc
  · simp [hcrc]
    omega
  · simp [hcrc]
    omega

/-- A measurement is sent self-consistent if and only if the latest measurement announces
the same octets and, with the CRC feature, the size it was stored with is its size. -/
theorem selfConsistent_iff (h : meas.WellFormed) :
    SelfConsistent feature meas (cgmsMeasEncode feature current meas).1 ↔
      annunciationOctets current = annunciationOctets meas ∧
        (feature.E2eCrc → meas.size.toNat = announcedSize meas) := by
  have hsize (hoctets : annunciationOctets current = annunciationOctets meas) :
      (UInt8.ofNat (cgmsMeasEncode feature current meas).1.length).toNat =
        (cgmsMeasEncode feature current meas).1.length := by
    have hlength := cgmsMeasEncode_length feature hoctets
    have hle := measTail_length_le meas
    apply UInt8.toNat_ofNat_of_lt'
    rw [UInt8.size]
    split at hlength <;> omega
  have hannounced := measTail_length meas
  constructor
  · intro hconsistent
    have hoctets := (decodes_iff_octets_eq h).mp hconsistent.decodes
    refine ⟨hoctets, ?_⟩
    intro hcrc
    have hends := hconsistent.crc hcrc
    have hlength := cgmsMeasEncode_length feature hoctets
    rw [cgmsMeasEncode_bytes, if_pos hcrc, endsWithCrc_iff] at hends
    rw [hends, hsize hoctets, hlength, if_pos hcrc]
    omega
  · rintro ⟨hoctets, hold⟩
    refine ⟨?_, (decodes_iff_octets_eq h).mpr hoctets, ?_⟩
    · have hhead : (cgmsMeasEncode feature current meas).1.head? =
          some (UInt8.ofNat (cgmsMeasEncode feature current meas).1.length) :=
        congrArg List.head? cgmsMeasEncode_bytes
      rw [hhead, Option.map_some, hsize hoctets]
    · intro hcrc
      have hlength := cgmsMeasEncode_length feature hoctets
      rw [cgmsMeasEncode_bytes, if_pos hcrc, endsWithCrc_iff]
      apply UInt8.toNat_inj.mp
      rw [hsize hoctets, hold hcrc, hlength, if_pos hcrc]
      omega

end Encode

/-- A measurement with the status octet and the trend. -/
def sampleCgmMeas (size : UInt8) : CgmsCgmMeasurement where
  size := size
  flag := 0x81
  cgmGlucoseConcentration := ⟨0, 90⟩
  timeOffset := 5
  sensorStatusAnnunciation := 0x000100
  cgmTrendInformation := ⟨0, 3⟩
  cgmQuality := ⟨0, 4⟩
  e2eCrc := 0

theorem sampleCgmMeas_wellFormed (size : UInt8) : (sampleCgmMeas size).WellFormed :=
  have hzero : (sampleCgmMeas 0).WellFormed :=
    ⟨by constructor <;> decide, by constructor <;> decide, by constructor <;> decide⟩
  ⟨hzero.cgmGlucoseConcentration, hzero.cgmTrendInformation, hzero.cgmQuality⟩

theorem selfConsistent_iff_sample :
    SelfConsistent ⟨cgmFeatE2eCrcSupported, 0x11, 0⟩ (sampleCgmMeas 0)
        (cgmsMeasEncode ⟨cgmFeatE2eCrcSupported, 0x11, 0⟩ (sampleCgmMeas 0) (sampleCgmMeas 0)).1 ↔
      annunciationOctets (sampleCgmMeas 0) = annunciationOctets (sampleCgmMeas 0) ∧
        (CgmsCgmFeature.E2eCrc ⟨cgmFeatE2eCrcSupported, 0x11, 0⟩ →
          (sampleCgmMeas 0).size.toNat = announcedSize (sampleCgmMeas 0)) :=
  selfConsistent_iff (sampleCgmMeas_wellFormed 0)

/-- A stored measurement is sent after the sensor has found its battery low: the octet that
is sent is the new one. And a measurement that is sent for the first time with the CRC
feature has a checksum over a size of 0. -/
theorem measurement_not_selfConsistent :
    ((sampleCgmMeas 11).WellFormed ∧
      ¬SelfConsistent ⟨cgmsInitFeature, 0x11, 0⟩ (sampleCgmMeas 11)
        (cgmsMeasEncode ⟨cgmsInitFeature, 0x11, 0⟩
          { sampleCgmMeas 11 with sensorStatusAnnunciation := 0x000102 } (sampleCgmMeas 11)).1) ∧
    (sampleCgmMeas 0).WellFormed ∧
      ¬SelfConsistent ⟨cgmFeatE2eCrcSupported, 0x11, 0⟩ (sampleCgmMeas 0)
        (cgmsMeasEncode ⟨cgmFeatE2eCrcSupported, 0x11, 0⟩ (sampleCgmMeas 0)
          (sampleCgmMeas 0)).1 := by
  refine ⟨⟨sampleCgmMeas_wellFormed 11, ?_⟩, sampleCgmMeas_wellFormed 0, ?_⟩
  · intro hconsistent
    have hoctets := (decodes_iff_octets_eq (sampleCgmMeas_wellFormed 11)).mp hconsistent.decodes
    revert hoctets
    decide
  · intro hconsistent
    have hends := hconsistent.crc (by decide)
    rw [cgmsMeasEncode_bytes, if_pos (by decide), endsWithCrc_iff] at hends
    revert hends
    decide

end CubieBle.Gatt
