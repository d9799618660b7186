import CubieBle.Gatt.CgmsFormat

/-! # Reads of the continuous glucose monitoring service

Runs of the service from its memory at start, and the values its characteristics return.
The feature is read with the checksum of the status, which is never the checksum of the
feature: the status is only ever sampled at multiples of five seconds.
-/

namespace CubieBle.Gatt

open Machine

/-! ## Runs -/

inductive CgmsAction where
  | init
  | crcEnable (enable : Bool)
  | sessionStart
  | timer (sent : Bool)
  | startTimeWrite (write : StartTimeWrite)
  | runTimeRead
  | measCcc (enabled : Bool)
  | setCommunicationInterval (interval : UInt8)

def cgmsStep (cgms : Cgms) : CgmsAction → Cgms
  | .init => cgmsInit cgms
  | .crcEnable enable => cgmsCrcEnable cgms enable
  | .sessionStart => cgmsSetSessionStartTime cgms
  | .timer sent => cgmsTimerHandler cgms sent
  | .startTimeWrite write => (cgmsCgmStartTimeWrite cgms write).2
  | .runTimeRead => (cgmsCgmRunTimeRead cgms).2
  | .measCcc enabled => { cgms with cgmMeasCcc := enabled }
  | .setCommunicationInterval interval => { cgms with communicationInterval := interval }

def zeroMeas : CgmsCgmMeasurement := ⟨0, 0, ⟨0, 0⟩, 0, 0, ⟨0, 0⟩, ⟨0, 0⟩, 0⟩

/-- The static memory of the service at start. -/
def cgmsStart : Cgms where
  cgmMeas := zeroMeas
  cgmMeasCcc := false
  cgmFeature := ⟨0, 0, 0⟩
  cgmStatus := ⟨0, 0, 0⟩
  cgmSessionStartTime := ⟨⟨0, 0, 0, 0, 0, 0⟩, 0, 0, 0⟩
  cgmSessionRunTime := ⟨0, 0⟩
  communicationInterval := 0
  sessionRunTime := 0
  db := ⟨Vector.replicate cgmsDbMaxRecords ⟨false, ⟨zeroMeas⟩⟩, 0⟩
  notifications := []

/-- Every characteristic is read with the checksum of its value. -/
structure ReadsCarryCrc (cgms : Cgms) : Prop where
  feature : EndsWithCrc (cgmsCgmFeatureRead cgms)
  status : EndsWithCrc (cgmsCgmStatusRead cgms)
  startTime : EndsWithCrc (cgmsCgmStartTimeRead cgms)
  runTime : EndsWithCrc (cgmsCgmRunTimeRead cgms).1

/-! ## What the feature and the status can be -/

/-- The feature is that of the memory at start or that of `cgms_init`, but for the CRC bit. -/
def FeatureKnown (feature : CgmsCgmFeature) : Prop :=
  (feature.cgmTypeSampleLocation = 0 ∧
      (feature.cgmFeature = 0 ∨ feature.cgmFeature = cgmFeatE2eCrcSupported)) ∨
    (feature.cgmTypeSampleLocation = 0x11 ∧
      (feature.cgmFeature = cgmsInitFeature ∨
        feature.cgmFeature = cgmsInitFeature ||| cgmFeatE2eCrcSupported))

/-- The checksum of the status is that of a sample, if there was one. -/
def StatusSampled (status : CgmsCgmStatus) : Prop :=
  status.e2eCrc = 0 ∨ ∃ time : UInt16, time % 5 = 0 ∧
    status.e2eCrc = crc16Ccitt (u16Encode time ++ [0, 1, 0])

structure CgmsInvariant (cgms : Cgms) : Prop where
  feature : FeatureKnown cgms.cgmFeature
  status : StatusSampled cgms.cgmStatus

theorem featureKnown_crcEnable {cgms : Cgms} (h : FeatureKnown cgms.cgmFeature) (enable : Bool) :
    FeatureKnown (cgmsCrcEnable cgms enable).cgmFeature := by
  obtain ⟨hloc, hfeature | hfeature⟩ | ⟨hloc, hfeature | hfeature⟩ := h
  · refine Or.inl ⟨hloc, ?_⟩
    cases enable <;> simp only [cgmsCrcEnable, hfeature] <;> decide
  · refine Or.inl ⟨hloc, ?_⟩
    cases enable <;> simp only [cgmsCrcEnable, hfeature] <;> decide
  · refine Or.inr ⟨hloc, ?_⟩
    cases enable <;> simp only [cgmsCrcEnable, hfeature] <;> decide
  · refine Or.inr ⟨hloc, ?_⟩
    cases enable <;> simp only [cgmsCrcEnable, hfeature] <;> decide

theorem featureKnown_init (cgms : Cgms) : FeatureKnown (cgmsInit cgms).cgmFeature := by
  refine Or.inr ⟨?_, Or.inl ?_⟩
  · rw [cgmsInit]
    dsimp only
    split <;> rfl
  · rw [cgmsInit]
    dsimp only
    split <;> rfl

/-- The octets of the status that the simulation samples. -/
theorem simulatedMeas_octets (meas : CgmsCgmMeasurement) (time : UInt16) :
    let annunciation := (simulatedMeas meas time).sensorStatusAnnunciation
    [(annunciation &&& 0x000000ff).toUInt8, ((annunciation &&& 0x0000ff00) >>> 8).toUInt8,
      ((annunciation &&& 0x00ff0000) >>> 16).toUInt8] = [0, 1, 0] := by
  simp only [simulatedMeas]
  decide

theorem statusSampled_simulation {cgms : Cgms} (h : StatusSampled cgms.cgmStatus)
    (htime : cgms.sessionRunTime % 5 = 0) :
    StatusSampled (cgmMeasurementSimulation cgms).cgmStatus := by
  by_cases hcrc : cgms.cgmFeature.E2eCrc
  · refine Or.inr ⟨cgms.sessionRunTime, htime, ?_⟩
    simp only [cgmMeasurementSimulation, hcrc, if_true]
    rw [simulatedMeas_octets]
    rfl
  · simpa only [StatusSampled, cgmMeasurementSimulation, hcrc, if_false] using h

/-- A notification only touches the measurement. -/
theorem cgmMeasurementNotify_frame (cgms : Cgms) (sent : Bool) :
    (cgmMeasurementNotify cgms sent).cgmFeature = cgms.cgmFeature ∧
      (cgmMeasurementNotify cgms sent).cgmStatus = cgms.cgmStatus := by
  rw [cgmMeasurementNotify]
  split <;> exact ⟨rfl, rfl⟩

theorem invariant_takeMeasurement {cgms : Cgms} (h : CgmsInvariant cgms) :
    CgmsInvariant (takeMeasurement cgms) := by
  rw [takeMeasurement]
  split
  next hdue => exact ⟨h.feature, statusSampled_simulation h.status hdue.1⟩
  next => exact h

theorem invariant_notify {cgms : Cgms} (h : CgmsInvariant cgms) (sent : Bool) :
    CgmsInvariant (cgmMeasurementNotify cgms sent) := by
  obtain ⟨hfeature, hstatus⟩ := cgmMeasurementNotify_frame cgms sent
  exact ⟨hfeature ▸ h.feature, hstatus ▸ h.status⟩

theorem invariant_timer {cgms : Cgms} (h : CgmsInvariant cgms) (sent : Bool) :
    CgmsInvariant (cgmsTimerHandler cgms sent) := by
  have hticked : CgmsInvariant { cgms with sessionRunTime := cgms.sessionRunTime + 1 } :=
    ⟨h.feature, h.status⟩
  have htaken := invariant_takeMeasurement hticked
  have hnotified : CgmsInvariant (notifyPeriodically (takeMeasurement
      { cgms with sessionRunTime := cgms.sessionRunTime + 1 }) sent) := by
    rw [notifyPeriodically]
    split_ifs
    · exact invariant_notify htaken sent
    · exact invariant_notify htaken sent
    · exact htaken
  exact ⟨hnotified.feature, hnotified.status⟩

theorem invariant_step (cgms : Cgms) (action : CgmsAction) (h : CgmsInvariant cgms) :
    CgmsInvariant (cgmsStep cgms action) := by
  cases action with
  | init => exact ⟨featureKnown_init cgms, h.status⟩
  | crcEnable enable => exact ⟨featureKnown_crcEnable h.feature enable, h.status⟩
  | sessionStart => exact ⟨h.feature, h.status⟩
  | timer sent => exact invariant_timer h sent
  | startTimeWrite write =>
      simp only [cgmsStep, cgmsCgmStartTimeWrite]
      split_ifs <;> exact ⟨h.feature, h.status⟩
  | runTimeRead =>
      simp only [cgmsStep, cgmsCgmRunTimeRead]
      split <;> exact ⟨h.feature, h.status⟩
  | measCcc enabled => exact ⟨h.feature, h.status⟩
  | setCommunicationInterval interval => exact ⟨h.feature, h.status⟩

theorem invariant_run (actions : List CgmsAction) :
    CgmsInvariant (run cgmsStep cgmsStart actions) :=
  have hstart : CgmsInvariant cgmsStart := ⟨Or.inl ⟨rfl, Or.inl rfl⟩, Or.inl rfl⟩
  (throughout_of_step CgmsInvariant invariant_step hstart actions).last

/-! ## The feature -/

/-- A status of one time only has the checksum. -/
theorem crc_time_inj {time time' : UInt16} {tail : List UInt8}
    (heq : crc16Ccitt (u16Encode time ++ tail) = crc16Ccitt (u16Encode time' ++ tail)) :
    time = time' := by
  obtain ⟨hlow, hhigh⟩ := crc16Ccitt_two_bytes_inj heq
  apply u16Encode_injective
  rw [u16Encode, u16Encode, hlow, hhigh]

/-- A checksum that is that of a sample at another time is not that of a status. -/
theorem ne_of_crc_time {status : CgmsCgmStatus} (hstatus : StatusSampled status) {crc : UInt16}
    (time : UInt16) (hzero : crc ≠ 0) (hcrc : crc = crc16Ccitt (u16Encode time ++ [0, 1, 0]))
    (htime : time % 5 ≠ 0) : crc ≠ status.e2eCrc := by
  intro heq
  obtain hnone | ⟨sampled, hsampled, hsample⟩ := hstatus
  · exact hzero (heq.trans hnone)
  · have hsame : time = sampled := crc_time_inj (hcrc.symm.trans (heq.trans hsample))
    exact htime (hsame ▸ hsampled)

/-- The checksums of the two features with the CRC bit are those of samples at times that
are not multiples of five. -/
theorem crc_feature_ne {feature : CgmsCgmFeature} {status : CgmsCgmStatus}
    (hfeature : FeatureKnown feature) (hstatus : StatusSampled status) (hcrc : feature.E2eCrc) :
    crc16Ccitt (u24Encode feature.cgmFeature ++ [feature.cgmTypeSampleLocation]) ≠
      status.e2eCrc := by
  obtain ⟨hloc, hbits | hbits⟩ | ⟨hloc, hbits | hbits⟩ := hfeature
  · rw [CgmsCgmFeature.E2eCrc, hbits] at hcrc
    exact absurd rfl hcrc
  · rw [hbits, hloc]
    exact ne_of_crc_time hstatus 7967 (by decide +kernel) (by decide +kernel)
      (by decide)
  · rw [CgmsCgmFeature.E2eCrc, hbits] at hcrc
    exact absurd rfl hcrc
  · rw [hbits, hloc]
    exact ne_of_crc_time hstatus 37806 (by decide +kernel) (by decide +kernel)
      (by decide)

theorem feature_not_endsWithCrc {cgms : Cgms} (h : CgmsInvariant cgms)
    (hcrc : cgms.cgmFeature.E2eCrc) : ¬EndsWithCrc (cgmsCgmFeatureRead cgms) := by
  rintro ⟨covered, hcovered⟩
  obtain ⟨rfl, hword⟩ := List.append_inj' hcovered rfl
  exact crc_feature_ne h.feature h.status hcrc (u16Encode_injective hword).symm

/-- In no state of the service with the CRC feature do all reads carry a valid checksum. -/
theorem reads_never_carry_crc (actions : List CgmsAction)
    (hcrc : (run cgmsStep cgmsStart actions).cgmFeature.E2eCrc) :
    ¬ReadsCarryCrc (run cgmsStep cgmsStart actions) := by
  intro hreads
  exact feature_not_endsWithCrc (invariant_run actions) hcrc hreads.feature

/-- After the initialisation and `cgms_crc_enable`. -/
theorem reads_never_carry_crc_enabled :
    ¬ReadsCarryCrc (run cgmsStep cgmsStart [.init, .crcEnable true]) :=
  reads_never_carry_crc [.init, .crcEnable true] (by decide)

/-- A service with the CRC feature has started its session: the feature is read with a
checksum of 0, as no status was sampled. -/
theorem feature_read_without_crc :
    (run cgmsStep cgmsStart [.init, .crcEnable true, .sessionStart]).cgmFeature.E2eCrc ∧
      ¬ReadsCarryCrc (run cgmsStep cgmsStart [.init, .crcEnable true, .sessionStart]) := by
  refine ⟨by decide, ?_⟩
  intro hreads
  exact feature_not_endsWithCrc (invariant_run _) (by decide) hreads.feature

end CubieBle.Gatt
