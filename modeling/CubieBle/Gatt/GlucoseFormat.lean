import CubieBle.Gatt.Racp
import CubieBle.Machine.Codec

/-! # The format of a glucose measurement

The Glucose Service announces each optional field of a measurement by a bit of its flags.
The formats follow the flags; the encoders of the service test `flags | bit`, which is
never zero, and so write every field.
-/

namespace CubieBle.Gatt

open Machine

/-! ## Fields -/

theorem u16Encode_eq (value : UInt16) : u16Encode value = Codec.word.encode value := by
  have hlow : (value &&& 0x00ff).toUInt8 = value.toUInt8 := by
    rw [UInt16.toUInt8_and]
    exact UInt8.and_neg_one
  have hhigh : ((value &&& 0xff00) >>> 8).toUInt8 = (value >>> 8).toUInt8 := by
    rw [UInt16.shiftRight_and, UInt16.toUInt8_and]
    exact UInt8.and_neg_one
  rw [u16Encode, Codec.word_encode, hlow, hhigh]

theorem u16Encode_injective : Function.Injective u16Encode := by
  intro first second heq
  rw [u16Encode_eq, u16Encode_eq] at heq
  exact Codec.word.encode_injective trivial trivial heq

def signedWord : Codec Int16 :=
  Codec.word.relabel UInt16.toInt16 Int16.toUInt16 (fun _ => True)
    (fun value _ => ⟨trivial, by simp⟩) (fun value _ => ⟨trivial, by simp⟩)

def dateTime : Codec DateTime :=
  (Codec.word.seq <| Codec.byte.seq <| Codec.byte.seq <| Codec.byte.seq <|
    Codec.byte.seq Codec.byte).relabel
    (fun read => ⟨read.1, read.2.1, read.2.2.1, read.2.2.2.1, read.2.2.2.2.1, read.2.2.2.2.2⟩)
    (fun time => (time.year, time.month, time.day, time.hours, time.minutes, time.seconds))
    (fun _ => True) (fun _ _ => ⟨trivial, rfl⟩)
    (fun _ _ => ⟨⟨trivial, trivial, trivial, trivial, trivial, trivial⟩, rfl⟩)

theorem dateTimeEncode_eq (time : DateTime) : dateTimeEncode time = dateTime.encode time := by
  rw [dateTimeEncode, u16Encode_eq]
  rfl

@[simp] theorem signedWord_length (value : Int16) : (signedWord.encode value).length = 2 := rfl

@[simp] theorem dateTime_length (time : DateTime) : (dateTime.encode time).length = 7 := rfl

/-! ### Short floats -/

/-- The exponent has four bits and the mantissa has twelve, both signed. -/
structure IeeeSfloat.WellFormed (value : IeeeSfloat) : Prop where
  exponent_ge : -8 ≤ value.exponent.toInt
  exponent_lt : value.exponent.toInt < 8
  mantissa_ge : -2048 ≤ value.mantissa.toInt
  mantissa_lt : value.mantissa.toInt < 2048

def IeeeSfloat.ofUInt16 (word : UInt16) : IeeeSfloat where
  exponent := Int8.ofInt (Int.bmod (word.toNat / 4096) 16)
  mantissa := Int16.ofInt (Int.bmod word.toNat 4096)

theorem int16_toNat_toUInt16 (value : Int16) :
    (value.toUInt16.toNat : Int) = value.toInt % 65536 := by
  have hbmod : value.toInt = Int.bmod value.toUInt16.toNat 65536 :=
    BitVec.toInt_eq_toNat_bmod value.toBitVec
  have hlt := value.toUInt16.toNat_lt
  rw [hbmod, Int.bmod_def]
  omega

theorem IeeeSfloat.toNat_toUInt16 (value : IeeeSfloat) :
    (value.toUInt16.toNat : Int) =
      value.exponent.toInt % 16 * 4096 + value.mantissa.toInt % 4096 := by
  have hexponent := int16_toNat_toUInt16 value.exponent.toInt16
  have hmantissa := int16_toNat_toUInt16 value.mantissa
  rw [Int8.toInt_toInt16] at hexponent
  have hlow : (value.mantissa.toUInt16 &&& 0x0fff).toNat =
      value.mantissa.toUInt16.toNat % 2 ^ 12 := by
    rw [UInt16.toNat_and]
    exact Nat.and_two_pow_sub_one_eq_mod _ 12
  have hhigh : (value.exponent.toInt16.toUInt16 <<< 12).toNat =
      (value.exponent.toInt16.toUInt16.toNat % 16) <<< 12 := by
    rw [UInt16.toNat_shiftLeft]
    simp only [UInt16.toNat_ofNat, Nat.reduceMod, Nat.reducePow, Nat.shiftLeft_eq]
    omega
  have hword : value.toUInt16.toNat = value.mantissa.toUInt16.toNat % 2 ^ 12 +
      2 ^ 12 * (value.exponent.toInt16.toUInt16.toNat % 16) := by
    rw [IeeeSfloat.toUInt16, UInt16.toNat_or, hlow, hhigh, Nat.or_comm]
    exact or_shiftLeft_eq_add (Nat.mod_lt _ (by decide)) _
  omega

theorem IeeeSfloat.ofUInt16_toUInt16 {value : IeeeSfloat} (h : value.WellFormed) :
    IeeeSfloat.ofUInt16 value.toUInt16 = value := by
  have hword := value.toNat_toUInt16
  obtain ⟨hexpGe, hexpLt, hmanGe, hmanLt⟩ := h
  have hexponent : Int.bmod (value.toUInt16.toNat / 4096) 16 = value.exponent.toInt := by
    rw [Int.bmod_def]
    omega
  have hmantissa : Int.bmod value.toUInt16.toNat 4096 = value.mantissa.toInt := by
    rw [Int.bmod_def]
    omega
  rw [IeeeSfloat.ofUInt16, hexponent, hmantissa, Int8.ofInt_toInt, Int16.ofInt_toInt]

theorem IeeeSfloat.toInt_ofUInt16 (word : UInt16) :
    (IeeeSfloat.ofUInt16 word).exponent.toInt = Int.bmod (word.toNat / 4096) 16 ∧
      (IeeeSfloat.ofUInt16 word).mantissa.toInt = Int.bmod word.toNat 4096 := by
  constructor
  · rw [IeeeSfloat.ofUInt16, Int8.toInt_ofInt, Int.bmod_def, Int.bmod_def]
    simp only [Int8.size]
    omega
  · rw [IeeeSfloat.ofUInt16, Int16.toInt_ofInt, Int.bmod_def, Int.bmod_def]
    simp only [Int16.size]
    omega

theorem IeeeSfloat.wellFormed_ofUInt16 (word : UInt16) :
    (IeeeSfloat.ofUInt16 word).WellFormed := by
  obtain ⟨hexponent, hmantissa⟩ := IeeeSfloat.toInt_ofUInt16 word
  rw [Int.bmod_def] at hexponent hmantissa
  constructor <;> omega

theorem IeeeSfloat.toUInt16_ofUInt16 (word : UInt16) :
    (IeeeSfloat.ofUInt16 word).toUInt16 = word := by
  obtain ⟨hexponent, hmantissa⟩ := IeeeSfloat.toInt_ofUInt16 word
  have hword := (IeeeSfloat.ofUInt16 word).toNat_toUInt16
  have hlt := word.toNat_lt
  rw [hexponent, hmantissa, Int.bmod_def, Int.bmod_def] at hword
  apply UInt16.toNat_inj.mp
  omega

def sfloat : Codec IeeeSfloat :=
  Codec.word.relabel IeeeSfloat.ofUInt16 IeeeSfloat.toUInt16 IeeeSfloat.WellFormed
    (fun word _ => ⟨IeeeSfloat.wellFormed_ofUInt16 word, IeeeSfloat.toUInt16_ofUInt16 word⟩)
    (fun _ hvalue => ⟨trivial, IeeeSfloat.ofUInt16_toUInt16 hvalue⟩)

@[simp] theorem sfloat_length (value : IeeeSfloat) : (sfloat.encode value).length = 2 := rfl

/-! ### Two values of four bits -/

theorem toNat_shiftRight_four (value : UInt8) : (value >>> 4).toNat = value.toNat / 16 := by
  simp only [UInt8.toNat_shiftRight, UInt8.toNat_ofNat, Nat.reduceMod, Nat.reducePow,
    Nat.shiftRight_eq_div_pow]

theorem toNat_and_fifteen (value : UInt8) : (value &&& 0x0f).toNat = value.toNat % 16 := by
  rw [UInt8.toNat_and]
  exact Nat.and_two_pow_sub_one_eq_mod _ 4

theorem toNat_nibbles {high low : UInt8} (hhigh : high.toNat < 16) (hlow : low.toNat < 16) :
    ((high <<< 4) ||| low).toNat = low.toNat + 16 * high.toNat := by
  have hshift : (high <<< 4).toNat = high.toNat <<< 4 := by
    rw [UInt8.toNat_shiftLeft]
    simp only [UInt8.toNat_ofNat, Nat.reduceMod, Nat.reducePow, Nat.shiftLeft_eq]
    omega
  rw [UInt8.toNat_or, hshift, Nat.or_comm]
  exact or_shiftLeft_eq_add hlow high.toNat

/-- A byte with a value in each half. -/
def nibbles : Codec (UInt8 × UInt8) :=
  Codec.byte.relabel (fun value => (value >>> 4, value &&& 0x0f))
    (fun halves => (halves.1 <<< 4) ||| halves.2)
    (fun halves => halves.1.toNat < 16 ∧ halves.2.toNat < 16)
    (by
      intro value _
      have hlt := value.toNat_lt
      have hhigh : (value >>> 4).toNat < 16 := by rw [toNat_shiftRight_four]; omega
      have hlow : (value &&& 0x0f).toNat < 16 := by rw [toNat_and_fifteen]; omega
      refine ⟨⟨hhigh, hlow⟩, UInt8.toNat_inj.mp ?_⟩
      rw [toNat_nibbles hhigh hlow, toNat_shiftRight_four, toNat_and_fifteen]
      omega)
    (by
      rintro ⟨high, low⟩ ⟨hhigh, hlow⟩
      have hbyte := toNat_nibbles hhigh hlow
      refine ⟨trivial, Prod.ext (UInt8.toNat_inj.mp ?_) (UInt8.toNat_inj.mp ?_)⟩
      · rw [toNat_shiftRight_four, hbyte]
        omega
      · rw [toNat_and_fifteen, hbyte]
        omega)

@[simp] theorem nibbles_length (halves : UInt8 × UInt8) :
    (nibbles.encode halves).length = 1 := rfl

/-! ## The measurement -/

/-- The fields of a measurement after its flags. -/
def measFields (flags : UInt8) :
    Codec (UInt16 × DateTime × Option Int16 × Option (IeeeSfloat × UInt8 × UInt8) ×
      Option UInt16) :=
  Codec.word.seq <| dateTime.seq <|
    (Codec.optional (flags &&& glsMeasFlagTimeOffset != 0) signedWord).seq <|
    (Codec.optional (flags &&& glsMeasFlagConcTypeLoc != 0) (sfloat.seq nibbles)).seq <|
    Codec.optional (flags &&& glsMeasFlagSensorStatus != 0) Codec.word

/-- The format of a measurement: what follows the flags is what they announce. -/
def measFormat := Codec.byte.andThen measFields

/-- What the flags of a measurement announce. -/
def GlsGlucoseMeas.announced (meas : GlsGlucoseMeas) :
    UInt8 × UInt16 × DateTime × Option Int16 × Option (IeeeSfloat × UInt8 × UInt8) ×
      Option UInt16 :=
  (meas.flags, meas.sequenceNumber, meas.baseTime,
    Codec.field (meas.flags &&& glsMeasFlagTimeOffset != 0) meas.timeOffset,
    Codec.field (meas.flags &&& glsMeasFlagConcTypeLoc != 0)
      (meas.glucoseConcentration, meas.type, meas.sampleLocation),
    Codec.field (meas.flags &&& glsMeasFlagSensorStatus != 0) meas.sensorStatusAnnunciation)

structure GlsGlucoseMeas.WellFormed (meas : GlsGlucoseMeas) : Prop where
  glucoseConcentration : meas.glucoseConcentration.WellFormed
  type : meas.type.toNat < 16
  sampleLocation : meas.sampleLocation.toNat < 16

/-- A decoder that follows the flags reads the whole encoding and recovers what the flags
announce. -/
def GlsGlucoseMeas.Decodes (meas : GlsGlucoseMeas) : Prop :=
  measFormat.decode (glsMeasEncode meas) = some (meas.announced, [])

/-! ## The context -/

def contextFields (flags : UInt8) :
    Codec (UInt16 × Option UInt8 × Option (UInt8 × IeeeSfloat) × Option UInt8 × Option UInt8 ×
      Option (UInt16 × UInt8) × Option (UInt8 × IeeeSfloat) × Option IeeeSfloat) :=
  Codec.word.seq <|
    (Codec.optional (flags &&& glsContextFlagExt != 0) Codec.byte).seq <|
    (Codec.optional (flags &&& glsContextFlagCarb != 0) (Codec.byte.seq sfloat)).seq <|
    (Codec.optional (flags &&& glsContextFlagMeal != 0) Codec.byte).seq <|
    (Codec.optional (flags &&& glsContextFlagTester != 0) Codec.byte).seq <|
    (Codec.optional (flags &&& glsContextFlagExercise != 0) (Codec.word.seq Codec.byte)).seq <|
    (Codec.optional (flags &&& glsContextFlagMed != 0) (Codec.byte.seq sfloat)).seq <|
    Codec.optional (flags &&& glsContextFlagHba1c != 0) sfloat

def contextFormat := Codec.byte.andThen contextFields

def GlsMeasContext.announced (context : GlsMeasContext) :
    UInt8 × UInt16 × Option UInt8 × Option (UInt8 × IeeeSfloat) × Option UInt8 ×
      Option UInt8 × Option (UInt16 × UInt8) × Option (UInt8 × IeeeSfloat) ×
      Option IeeeSfloat :=
  (context.flags, context.sequenceNumber,
    Codec.field (context.flags &&& glsContextFlagExt != 0) context.extendedFlags,
    Codec.field (context.flags &&& glsContextFlagCarb != 0)
      (context.carbohydrateId, context.carbohydrate),
    Codec.field (context.flags &&& glsContextFlagMeal != 0) context.meal,
    Codec.field (context.flags &&& glsContextFlagTester != 0) context.testerAndHealth,
    Codec.field (context.flags &&& glsContextFlagExercise != 0)
      (context.exerciseDuration, context.exerciseIntensity),
    Codec.field (context.flags &&& glsContextFlagMed != 0)
      (context.medicationId, context.medication),
    Codec.field (context.flags &&& glsContextFlagHba1c != 0) context.hba1c)

structure GlsMeasContext.WellFormed (context : GlsMeasContext) : Prop where
  carbohydrate : context.carbohydrate.WellFormed
  medication : context.medication.WellFormed
  hba1c : context.hba1c.WellFormed

def GlsMeasContext.Decodes (context : GlsMeasContext) : Prop :=
  contextFormat.decode (glsMeasContextEncode context) = some (context.announced, [])

/-! ## Which measurements are decoded -/

/-- A flag byte joined with a bit is not zero, whatever the flags. -/
theorem or_ne_zero (flags bit : UInt8) (hbit : bit ≠ 0) : flags ||| bit ≠ 0 := by
  intro hzero
  exact hbit (UInt8.or_eq_zero_iff.mp hzero).2

theorem glsMeasEncode_eq (meas : GlsGlucoseMeas) :
    glsMeasEncode meas = [meas.flags] ++ Codec.word.encode meas.sequenceNumber ++
      dateTime.encode meas.baseTime ++ signedWord.encode meas.timeOffset ++
      (sfloat.seq nibbles).encode
        (meas.glucoseConcentration, meas.type, meas.sampleLocation) ++
      Codec.word.encode meas.sensorStatusAnnunciation := by
  have htime := or_ne_zero meas.flags glsMeasFlagTimeOffset (by decide)
  have hconc := or_ne_zero meas.flags glsMeasFlagConcTypeLoc (by decide)
  have hstatus := or_ne_zero meas.flags glsMeasFlagSensorStatus (by decide)
  rw [glsMeasEncode, if_pos htime, if_pos hconc, if_pos hstatus]
  simp only [u16Encode_eq, dateTimeEncode_eq]
  rfl

theorem measFormat_encode_announced (meas : GlsGlucoseMeas) :
    measFormat.encode meas.announced =
      [meas.flags] ++ (Codec.word.encode meas.sequenceNumber ++
        (dateTime.encode meas.baseTime ++
        ((if meas.flags &&& glsMeasFlagTimeOffset != 0 then
            signedWord.encode meas.timeOffset else []) ++
        ((if meas.flags &&& glsMeasFlagConcTypeLoc != 0 then
            (sfloat.seq nibbles).encode
              (meas.glucoseConcentration, meas.type, meas.sampleLocation) else []) ++
        (if meas.flags &&& glsMeasFlagSensorStatus != 0 then
            Codec.word.encode meas.sensorStatusAnnunciation else []))))) := by
  rw [← Codec.optional_encode_field, ← Codec.optional_encode_field,
    ← Codec.optional_encode_field]
  rfl

theorem GlsGlucoseMeas.WellFormed.announced_valid {meas : GlsGlucoseMeas} (h : meas.WellFormed) :
    measFormat.valid meas.announced :=
  ⟨trivial, trivial, trivial, Codec.optional_valid_field trivial,
    Codec.optional_valid_field ⟨h.glucoseConcentration, h.type, h.sampleLocation⟩,
    Codec.optional_valid_field trivial⟩

/-- All optional fields are announced. -/
def GlsGlucoseMeas.Full (meas : GlsGlucoseMeas) : Prop :=
  meas.flags &&& glsMeasFlagTimeOffset ≠ 0 ∧ meas.flags &&& glsMeasFlagConcTypeLoc ≠ 0 ∧
    meas.flags &&& glsMeasFlagSensorStatus ≠ 0

theorem toNat_flag_eq_one_iff {flags bit : UInt8} :
    (flags &&& bit != 0).toNat = 1 ↔ flags &&& bit ≠ 0 := by
  rw [Bool.toNat_eq_one, bne_iff_ne]

theorem GlsGlucoseMeas.decodes_iff {meas : GlsGlucoseMeas} (h : meas.WellFormed) :
    meas.Decodes ↔ meas.Full := by
  rw [Decodes, Codec.decode_eq_some_nil_iff, glsMeasEncode_eq, measFormat_encode_announced]
  constructor
  · rintro ⟨-, hbytes⟩
    -- both sides have the same length, so no field is missing
    have hlength := congrArg List.length hbytes
    simp only [List.length_append, Codec.length_announced, Codec.seq_length, Codec.word_length,
      dateTime_length, signedWord_length, sfloat_length, nibbles_length] at hlength
    have htime := Bool.toNat_le (meas.flags &&& glsMeasFlagTimeOffset != 0)
    have hconc := Bool.toNat_le (meas.flags &&& glsMeasFlagConcTypeLoc != 0)
    have hstatus := Bool.toNat_le (meas.flags &&& glsMeasFlagSensorStatus != 0)
    refine ⟨toNat_flag_eq_one_iff.mp ?_, toNat_flag_eq_one_iff.mp ?_,
      toNat_flag_eq_one_iff.mp ?_⟩ <;> omega
  · rintro ⟨htime, hconc, hstatus⟩
    refine ⟨h.announced_valid, ?_⟩
    simp [htime, hconc, hstatus]

theorem glsMeasContextEncode_eq (context : GlsMeasContext) :
    glsMeasContextEncode context = [context.flags] ++ Codec.word.encode context.sequenceNumber ++
      Codec.byte.encode context.extendedFlags ++
      (Codec.byte.seq sfloat).encode (context.carbohydrateId, context.carbohydrate) ++
      Codec.byte.encode context.meal ++ Codec.byte.encode context.testerAndHealth ++
      (Codec.word.seq Codec.byte).encode
        (context.exerciseDuration, context.exerciseIntensity) ++
      (Codec.byte.seq sfloat).encode (context.medicationId, context.medication) ++
      sfloat.encode context.hba1c := by
  have hext := or_ne_zero context.flags glsContextFlagExt (by decide)
  have hcarb := or_ne_zero context.flags glsContextFlagCarb (by decide)
  have hmeal := or_ne_zero context.flags glsContextFlagMeal (by decide)
  have htester := or_ne_zero context.flags glsContextFlagTester (by decide)
  have hexercise := or_ne_zero context.flags glsContextFlagExercise (by decide)
  have hmed := or_ne_zero context.flags glsContextFlagMed (by decide)
  have hhba1c := or_ne_zero context.flags glsContextFlagHba1c (by decide)
  rw [glsMeasContextEncode, if_pos hext, if_pos hcarb, if_pos hmeal, if_pos htester,
    if_pos hexercise, if_pos hmed, if_pos hhba1c]
  simp only [u16Encode_eq]
  rfl

theorem contextFormat_encode_announced (context : GlsMeasContext) :
    contextFormat.encode context.announced =
      [context.flags] ++ (Codec.word.encode context.sequenceNumber ++
        ((if context.flags &&& glsContextFlagExt != 0 then
            Codec.byte.encode context.extendedFlags else []) ++
        ((if context.flags &&& glsContextFlagCarb != 0 then
            (Codec.byte.seq sfloat).encode (context.carbohydrateId, context.carbohydrate)
          else []) ++
        ((if context.flags &&& glsContextFlagMeal != 0 then
            Codec.byte.encode context.meal else []) ++
        ((if context.flags &&& glsContextFlagTester != 0 then
            Codec.byte.encode context.testerAndHealth else []) ++
        ((if context.flags &&& glsContextFlagExercise != 0 then
            (Codec.word.seq Codec.byte).encode
              (context.exerciseDuration, context.exerciseIntensity) else []) ++
        ((if context.flags &&& glsContextFlagMed != 0 then
            (Codec.byte.seq sfloat).encode (context.medicationId, context.medication)
          else []) ++
        (if context.flags &&& glsContextFlagHba1c != 0 then
            sfloat.encode context.hba1c else [])))))))) := by
  simp only [← Codec.optional_encode_field]
  rfl

theorem GlsMeasContext.WellFormed.announced_valid {context : GlsMeasContext}
    (h : context.WellFormed) : contextFormat.valid context.announced :=
  ⟨trivial, trivial, Codec.optional_valid_field trivial,
    Codec.optional_valid_field ⟨trivial, h.carbohydrate⟩, Codec.optional_valid_field trivial,
    Codec.optional_valid_field trivial, Codec.optional_valid_field ⟨trivial, trivial⟩,
    Codec.optional_valid_field ⟨trivial, h.medication⟩, Codec.optional_valid_field h.hba1c⟩

/-- All optional fields are announced. -/
def GlsMeasContext.Full (context : GlsMeasContext) : Prop :=
  context.flags &&& glsContextFlagExt ≠ 0 ∧ context.flags &&& glsContextFlagCarb ≠ 0 ∧
    context.flags &&& glsContextFlagMeal ≠ 0 ∧ context.flags &&& glsContextFlagTester ≠ 0 ∧
    context.flags &&& glsContextFlagExercise ≠ 0 ∧ context.flags &&& glsContextFlagMed ≠ 0 ∧
    context.flags &&& glsContextFlagHba1c ≠ 0

theorem GlsMeasContext.decodes_iff {context : GlsMeasContext} (h : context.WellFormed) :
    context.Decodes ↔ context.Full := by
  rw [Decodes, Codec.decode_eq_some_nil_iff, glsMeasContextEncode_eq,
    contextFormat_encode_announced]
  constructor
  · rintro ⟨-, hbytes⟩
    have hlength := congrArg List.length hbytes
    simp only [List.length_append, Codec.length_announced, Codec.seq_length, Codec.byte_length,
      Codec.word_length, sfloat_length] at hlength
    have hext := Bool.toNat_le (context.flags &&& glsContextFlagExt != 0)
    have hcarb := Bool.toNat_le (context.flags &&& glsContextFlagCarb != 0)
    have hmeal := Bool.toNat_le (context.flags &&& glsContextFlagMeal != 0)
    have htester := Bool.toNat_le (context.flags &&& glsContextFlagTester != 0)
    have hexercise := Bool.toNat_le (context.flags &&& glsContextFlagExercise != 0)
    have hmed := Bool.toNat_le (context.flags &&& glsContextFlagMed != 0)
    have hhba1c := Bool.toNat_le (context.flags &&& glsContextFlagHba1c != 0)
    refine ⟨toNat_flag_eq_one_iff.mp ?_, toNat_flag_eq_one_iff.mp ?_,
      toNat_flag_eq_one_iff.mp ?_, toNat_flag_eq_one_iff.mp ?_, toNat_flag_eq_one_iff.mp ?_,
      toNat_flag_eq_one_iff.mp ?_, toNat_flag_eq_one_iff.mp ?_⟩ <;> omega
  · rintro ⟨hext, hcarb, hmeal, htester, hexercise, hmed, hhba1c⟩
    refine ⟨h.announced_valid, ?_⟩
    simp [hext, hcarb, hmeal, htester, hexercise, hmed, hhba1c]

/-- A measurement and its context are decoded along their flags if and only if the flags
announce every optional field. -/
theorem encodings_decode_iff {meas : GlsGlucoseMeas} {context : GlsMeasContext}
    (hmeas : meas.WellFormed) (hcontext : context.WellFormed) :
    (meas.Decodes ↔ meas.Full) ∧ (context.Decodes ↔ context.Full) :=
  ⟨GlsGlucoseMeas.decodes_iff hmeas, GlsMeasContext.decodes_iff hcontext⟩

/-- A measurement of 5.4 mmol/l on a finger, with `flags`. -/
def sampleMeas (flags : UInt8) : GlsGlucoseMeas where
  flags := flags
  sequenceNumber := 7
  baseTime := ⟨2018, 5, 1, 12, 30, 0⟩
  timeOffset := -60
  glucoseConcentration := ⟨-4, 54⟩
  type := 1
  sampleLocation := 1
  sensorStatusAnnunciation := 1

def sampleContext (flags : UInt8) : GlsMeasContext where
  flags := flags
  sequenceNumber := 7
  extendedFlags := 0
  carbohydrateId := 1
  carbohydrate := ⟨-3, 20⟩
  meal := 2
  testerAndHealth := 0x51
  exerciseDuration := 3600
  exerciseIntensity := 40
  medicationId := 4
  medication := ⟨-6, 50⟩
  hba1c := ⟨0, 6⟩

theorem sampleMeas_wellFormed (flags : UInt8) : (sampleMeas flags).WellFormed :=
  have hzero : (sampleMeas 0).WellFormed :=
    ⟨by constructor <;> decide, by decide, by decide⟩
  ⟨hzero.glucoseConcentration, hzero.type, hzero.sampleLocation⟩

theorem sampleContext_wellFormed (flags : UInt8) : (sampleContext flags).WellFormed :=
  have hzero : (sampleContext 0).WellFormed :=
    ⟨by constructor <;> decide, by constructor <;> decide, by constructor <;> decide⟩
  ⟨hzero.carbohydrate, hzero.medication, hzero.hba1c⟩

theorem encodings_decode_iff_sample :
    ((sampleMeas 0x0b).Decodes ↔ (sampleMeas 0x0b).Full) ∧
      ((sampleContext 0x5f).Decodes ↔ (sampleContext 0x5f).Full) :=
  encodings_decode_iff (sampleMeas_wellFormed _) (sampleContext_wellFormed _)

/-- Without the time offset flag, or without the extended flags, the decoder stops before
the end or reads the fields from the wrong places. -/
theorem encodings_not_decoded :
    ((sampleMeas 0x0a).WellFormed ∧ ¬(sampleMeas 0x0a).Decodes) ∧
      (sampleContext 0x5f).WellFormed ∧ ¬(sampleContext 0x5f).Decodes := by
  refine ⟨⟨sampleMeas_wellFormed _, ?_⟩, sampleContext_wellFormed _, ?_⟩
  · rw [GlsGlucoseMeas.decodes_iff (sampleMeas_wellFormed _)]
    exact fun hfull => hfull.1 (by decide)
  · rw [GlsMeasContext.decodes_iff (sampleContext_wellFormed _)]
    exact fun hfull => hfull.1 (by decide)

end CubieBle.Gatt
