import CubieBle.Gatt.HeartRate
import CubieBle.Machine.Mask

/-! # Heart rate measurements as they are decoded

What an encoding takes from the buffer and leaves in it, and the reading of a client that
follows the flags. The energy that is not included still has its place in the encoding.
-/

namespace CubieBle.Gatt

open Machine

/-- The buffered values, oldest first. -/
def BtGattHrm.buffered (hrm : BtGattHrm) : List UInt16 :=
  hrm.rrInterval.toList.take hrm.rrIntervalCount.toNat

/-! ## The buffer -/

section Buffer

variable {rrInterval : Vector UInt16 20}

theorem take_moveToFront {start count : Nat} (hin : start + count ≤ 20) :
    (moveToFront rrInterval start count).toList.take count =
      (rrInterval.toList.drop start).take count := by
  apply List.ext_getElem
  · simp only [List.length_take, List.length_drop, Vector.length_toList]
    omega
  · intro i hi hdrop
    have hcount : i < count := by
      rw [List.length_take] at hi
      omega
    have hstart : start + i < 20 := by omega
    simp [moveToFront, hcount, hstart]

/-- The loop encodes values one after the other as long as they fit. -/
theorem encodeRrIntervals_spec (rrInterval : Vector UInt16 20) {remaining i len : Nat}
    (hin : i + remaining ≤ 20) (hlen : len ≤ maxHrmLen) :
    ∃ n ≤ remaining,
      (encodeRrIntervals rrInterval remaining i len).1 =
          ((rrInterval.toList.drop i).take n).flatMap u16Encode ∧
        (encodeRrIntervals rrInterval remaining i len).2.1 = i + n ∧
        ((encodeRrIntervals rrInterval remaining i len).2.2 = false → n = remaining) ∧
        len + 2 * n ≤ maxHrmLen := by
  induction remaining generalizing i len with
  | zero => exact ⟨0, Nat.le_refl 0, rfl, rfl, fun _ => rfl, hlen⟩
  | succ remaining ih =>
      rw [encodeRrIntervals]
      by_cases hfull : maxHrmLen < len + 2
      · rw [if_pos hfull]
        exact ⟨0, Nat.zero_le _, rfl, rfl, (nomatch ·), hlen⟩
      · rw [if_neg hfull]
        obtain ⟨n, hn, hbytes, hstop, hall, hmax⟩ :=
          ih (show i + 1 + remaining ≤ 20 by omega) (Nat.le_of_not_lt hfull)
        have hi : i < rrInterval.toList.length := by
          rw [Vector.length_toList]
          omega
        refine ⟨n + 1, Nat.succ_le_succ hn, ?_, ?_, ?_, ?_⟩
        · dsimp only
          rw [hbytes, List.drop_eq_getElem_cons hi, List.take_succ_cons, List.flatMap_cons]
          have hvalue : rrInterval[i]?.getD 0 = rrInterval.toList[i] := by
            rw [Vector.getElem?_eq_getElem (show i < 20 by omega)]
            rfl
          rw [hvalue]
        · dsimp only
          rw [hstop]
          omega
        · intro hmore
          rw [hall hmore]
        · omega

end Buffer

theorem length_buffered {hrm : BtGattHrm} (hcount : hrm.rrIntervalCount.toNat ≤ 20) :
    hrm.buffered.length = hrm.rrIntervalCount.toNat := by
  rw [BtGattHrm.buffered, List.length_take, Vector.length_toList, Nat.min_eq_left hcount]

/-- The values that are left move to the front; if none are, the array keeps what it had. -/
theorem buffered_left {hrm : BtGattHrm} (next : BtGattHrm) {stop : Nat} {more : Bool}
    (hcount : hrm.rrIntervalCount.toNat ≤ 20) (hstop : stop ≤ hrm.rrIntervalCount.toNat)
    (hall : more = false → stop = hrm.rrIntervalCount.toNat)
    (hrr : next.rrInterval =
      if more then moveToFront hrm.rrInterval stop (hrm.rrIntervalCount.toNat - stop)
      else hrm.rrInterval)
    (hnext : next.rrIntervalCount = hrm.rrIntervalCount - stop.toUInt16) :
    next.rrIntervalCount.toNat + stop = hrm.rrIntervalCount.toNat ∧
      next.buffered = hrm.buffered.drop stop := by
  have hword : stop.toUInt16.toNat = stop := by
    rw [Nat.toUInt16_eq, UInt16.toNat_ofNat', Nat.mod_eq_of_lt (by omega)]
  have hleft : next.rrIntervalCount.toNat = hrm.rrIntervalCount.toNat - stop := by
    have hle : stop.toUInt16 ≤ hrm.rrIntervalCount := by
      rw [UInt16.le_iff_toNat_le, hword]
      exact hstop
    rw [hnext, UInt16.toNat_sub_of_le _ _ hle, hword]
  refine ⟨by rw [hleft, Nat.sub_add_cancel hstop], ?_⟩
  rw [BtGattHrm.buffered, BtGattHrm.buffered, hleft, hrr, List.drop_take]
  cases more with
  | true => exact take_moveToFront (by omega)
  | false => rw [hall rfl, Nat.sub_self, List.take_zero, List.take_zero]

/-! ## The encoding -/

theorem length_flatMap_u16Encode (values : List UInt16) :
    (values.flatMap u16Encode).length = 2 * values.length := by
  induction values with
  | nil => rfl
  | cons value rest ih =>
      rw [List.flatMap_cons, List.length_append, ih, List.length_cons, Nat.mul_succ, Nat.add_comm]
      rfl

/-- What an encoding does: its bytes, and the values it takes from the buffer. -/
structure Encodes (hrs : BtGattHrs) (front bytes : List UInt8) (next : BtGattHrm)
    (removed : List UInt16) : Prop where
  encoding : bytes = [encodedFlags hrs.hrm] ++ front ++ removed.flatMap u16Encode
  length : bytes.length ≤ maxHrmLen
  flags : next.flags = encodedFlags hrs.hrm
  count : next.rrIntervalCount.toNat + removed.length = hrs.hrm.rrIntervalCount.toNat
  buffered : removed ++ next.buffered = hrs.hrm.buffered

section Encode

variable {hrs : BtGattHrs} (encodedBuffer : Nat → UInt8) (included : Bool)

theorem encodedFront_length :
    (encodedHeartRate hrs.hrm ++ encodedEnergy hrs encodedBuffer included).length ≤ 4 := by
  have hrate : (encodedHeartRate hrs.hrm).length ≤ 2 := by
    rw [encodedHeartRate]
    split
    next => exact Nat.le_refl 2
    next => exact Nat.le_succ 1
  have henergy : (encodedEnergy hrs encodedBuffer included).length ≤ 2 := by
    rw [encodedEnergy]
    split
    next =>
      split
      next => exact Nat.le_refl 2
      next => exact Nat.zero_le 2
    next => exact Nat.le_refl 2
  rw [List.length_append]
  omega

theorem hrmEncode_spec (hcount : hrs.hrm.rrIntervalCount.toNat ≤ maxBufferedRrIntervals) :
    ∃ bytes next removed, hrmEncode hrs encodedBuffer included = some (bytes, next) ∧
      Encodes hrs (encodedHeartRate hrs.hrm ++ encodedEnergy hrs encodedBuffer included) bytes next
        removed := by
  have hfront : (encodedHeartRate hrs.hrm ++ encodedEnergy hrs encodedBuffer included).length ≤ 4 :=
    encodedFront_length encodedBuffer included
  rw [hrmEncode, if_neg (Nat.not_lt.mpr hcount)]
  generalize encodedHeartRate hrs.hrm ++ encodedEnergy hrs encodedBuffer included = front at *
  have hin : 0 + hrs.hrm.rrIntervalCount.toNat ≤ 20 := by
    rw [Nat.zero_add]
    exact hcount
  have hlen : 1 + front.length ≤ maxHrmLen := by
    rw [maxHrmLen]
    omega
  obtain ⟨n, hn, hbytes, hstop, hall, hmax⟩ :=
    encodeRrIntervals_spec hrs.hrm.rrInterval hin hlen
  generalize encodeRrIntervals hrs.hrm.rrInterval hrs.hrm.rrIntervalCount.toNat 0
    (1 + front.length) = rr at hbytes hstop hall
  obtain ⟨rrBytes, stop, more⟩ := rr
  dsimp only at hbytes hstop hall ⊢
  rw [Nat.zero_add] at hstop
  subst hbytes hstop
  have htake : (hrs.hrm.buffered.take stop) = (hrs.hrm.rrInterval.toList.drop 0).take stop := by
    rw [BtGattHrm.buffered, List.take_take, Nat.min_eq_left hn, List.drop_zero]
  refine ⟨_, _, hrs.hrm.buffered.take stop, rfl, ?_⟩
  have hlength : (hrs.hrm.buffered.take stop).length = stop := by
    rw [List.length_take, length_buffered hcount, Nat.min_eq_left hn]
  obtain ⟨hleft, hbuffered⟩ := buffered_left
    { hrs.hrm with
      flags := encodedFlags hrs.hrm
      rrInterval :=
        if more then moveToFront hrs.hrm.rrInterval stop (hrs.hrm.rrIntervalCount.toNat - stop)
        else hrs.hrm.rrInterval
      rrIntervalCount := hrs.hrm.rrIntervalCount - stop.toUInt16 }
    hcount hn hall rfl rfl
  constructor
  case encoding => rw [htake]
  case length =>
    rw [← htake, List.length_append, List.length_append, length_flatMap_u16Encode, hlength,
      List.length_singleton]
    exact hmax
  case flags => rfl
  case count => rw [hlength, hleft]
  case buffered => rw [hbuffered, List.take_append_drop]

end Encode

/-! ## Decoding -/

/-- What a client reads in a measurement. -/
structure HrmReading where
  heartRate : UInt16
  energyExpended : Option UInt16
  rrIntervals : List UInt16
deriving DecidableEq

def decodeWords : List UInt8 → Option (List UInt16)
  | [] => some []
  | [_] => none
  | low :: high :: rest =>
      (decodeWords rest).map fun values => (low.toUInt16 + (high.toUInt16 <<< 8)) :: values

/-- One byte, for values that fit. -/
def byteWord : Codec UInt16 :=
  Codec.byte.relabel UInt8.toUInt16 UInt16.toUInt8 (fun value => value.toNat < 256)
    (fun first _ => ⟨first.toNat_lt, UInt8.toUInt8_toUInt16 first⟩)
    (fun second hvalid => ⟨trivial, by
      rw [← UInt16.toNat_inj, UInt8.toNat_toUInt16, UInt16.toNat_toUInt8]
      exact Nat.mod_eq_of_lt hvalid⟩)

/-- The heart rate in the form that the flags announce. -/
def hrmRate (flags : UInt8) : Codec UInt16 :=
  if flags &&& hrmFlagMaskHrValue16bit ≠ 0 then Codec.word else byteWord

/-- The heart rate and the energy. -/
def hrmFront (flags : UInt8) : Codec (UInt16 × Option UInt16) :=
  (hrmRate flags).seq
    (Codec.optional (flags &&& hrmFlagMaskExpendedEnergyRepresent != 0) Codec.word)

/-- The values behind the energy, which are there only if the flags say so. -/
def decodeRrIntervals (flags : UInt8) (bytes : List UInt8) : Option (List UInt16) :=
  if flags &&& hrmFlagMaskRrIntervalRepresent ≠ 0 then decodeWords bytes
  else if bytes = [] then some []
  else none

/-- A measurement is read to its end as its flags say. -/
def hrmDecode (bytes : List UInt8) : Option HrmReading :=
  (Codec.byte.decode bytes).bind fun flags =>
    ((hrmFront flags.1).decode flags.2).bind fun front =>
      (decodeRrIntervals flags.1 front.2).map fun rrIntervals =>
        ⟨front.1.1, front.1.2, rrIntervals⟩

theorem decodeWords_flatMap (values : List UInt16) :
    decodeWords (values.flatMap u16Encode) = some values := by
  induction values with
  | nil => rfl
  | cons value rest ih =>
      rw [List.flatMap_cons, u16Encode_eq, Codec.word_encode]
      change (decodeWords (rest.flatMap u16Encode)).map _ = _
      rw [ih, uint16_of_bytes]
      rfl

theorem hrmDecode_front {flags : UInt8} {front : UInt16 × Option UInt16} (rest : List UInt8)
    (hvalid : (hrmFront flags).valid front) :
    hrmDecode ([flags] ++ (hrmFront flags).encode front ++ rest) =
      (decodeRrIntervals flags rest).map fun rrIntervals => ⟨front.1, front.2, rrIntervals⟩ := by
  have hflags : Codec.byte.decode ([flags] ++ (hrmFront flags).encode front ++ rest) =
      some (flags, (hrmFront flags).encode front ++ rest) := rfl
  rw [hrmDecode, hflags, Option.bind_some, (hrmFront flags).decode_encode front rest hvalid,
    Option.bind_some]

/-! ## The flags of an encoding -/

section Flags

variable (hrm : BtGattHrm)

/-- The bit for the RR intervals does not touch the others. -/
theorem encodedFlags_and {mask : UInt8} (hdisjoint : hrmFlagMaskRrIntervalRepresent &&& mask = 0) :
    encodedFlags hrm &&& mask =
      (if 0xff < hrm.hrmValue then hrm.flags ||| hrmFlagMaskHrValue16bit
        else hrm.flags &&& ~~~hrmFlagMaskHrValue16bit) &&& mask := by
  rw [encodedFlags]
  split
  next => exact or_and_of_disjoint hdisjoint _
  next => rfl

theorem encodedFlags_rate :
    encodedFlags hrm &&& hrmFlagMaskHrValue16bit ≠ 0 ↔ 0xff < hrm.hrmValue := by
  rw [encodedFlags_and hrm (by decide)]
  split
  next hwide =>
    rw [or_and_self]
    exact ⟨fun _ => hwide, fun _ => by decide⟩
  next hwide =>
    rw [and_not_and_self]
    exact ⟨fun hne => absurd rfl hne, fun hlt => absurd hlt hwide⟩

theorem encodedFlags_energy :
    encodedFlags hrm &&& hrmFlagMaskExpendedEnergyRepresent =
      hrm.flags &&& hrmFlagMaskExpendedEnergyRepresent := by
  have hdisjoint : hrmFlagMaskHrValue16bit &&& hrmFlagMaskExpendedEnergyRepresent = 0 := by decide
  rw [encodedFlags_and hrm (by decide)]
  split
  next => exact or_and_of_disjoint hdisjoint hrm.flags
  next => exact and_not_and_of_disjoint hdisjoint hrm.flags

theorem encodedFlags_rr (hcount : 0 < hrm.rrIntervalCount) :
    encodedFlags hrm &&& hrmFlagMaskRrIntervalRepresent ≠ 0 := by
  rw [encodedFlags, if_pos hcount, or_and_self]
  decide

theorem hrsInitFlags_energy (hrs : BtGattHrs) :
    hrsInitFlags hrs &&& hrmFlagMaskExpendedEnergyRepresent ≠ 0 ↔
      hrs.isEnergyExpendedPresent = true := by
  rw [hrsInitFlags]
  cases hrs.isHeartRateValueFormatUint16 <;> cases hrs.isSensorContactDetected <;>
    cases hrs.isSensorContactSupported <;> cases hrs.isEnergyExpendedPresent <;>
    cases hrs.isRrIntervalPresent <;> decide

end Flags

/-! ## Measurements -/

theorem hrmRate_encode (hrm : BtGattHrm) :
    (hrmRate (encodedFlags hrm)).valid hrm.hrmValue ∧
      (hrmRate (encodedFlags hrm)).encode hrm.hrmValue = encodedHeartRate hrm := by
  rw [encodedHeartRate, hrmRate]
  by_cases hwide : 0xff < hrm.hrmValue
  · rw [if_pos ((encodedFlags_rate hrm).mpr hwide), if_pos hwide, u16Encode_eq]
    exact ⟨trivial, rfl⟩
  · rw [if_neg (mt (encodedFlags_rate hrm).mp hwide), if_neg hwide]
    refine ⟨?_, rfl⟩
    have hnarrow : hrm.hrmValue.toNat ≤ 255 := UInt16.not_lt.mp hwide
    exact Nat.lt_succ_of_le hnarrow

/-- The values that an encoding takes are read back. -/
theorem Encodes.decodeRrIntervals {hrs : BtGattHrs} {front bytes : List UInt8} {next : BtGattHrm}
    {removed : List UInt16} (hencodes : Encodes hrs front bytes next removed) :
    decodeRrIntervals (encodedFlags hrs.hrm) (removed.flatMap u16Encode) = some removed := by
  rw [Gatt.decodeRrIntervals]
  split
  next => exact decodeWords_flatMap removed
  next hrr =>
    have hnone : removed = [] := by
      by_contra hne
      have hpos : 0 < removed.length := List.length_pos_iff.mpr hne
      have hcount : 0 < hrs.hrm.rrIntervalCount.toNat := by
        rw [← hencodes.count]
        exact Nat.add_pos_right _ hpos
      exact hrr (encodedFlags_rr hrs.hrm hcount)
    rw [hnone]
    rfl

section Presence

variable {hrs : BtGattHrs} {encodedBuffer : Nat → UInt8} {bytes : List UInt8} {next : BtGattHrm}
  {removed : List UInt16}

/-- With the energy included and announced, a measurement is decoded. -/
theorem hrmDecode_of_present
    (hencodes : Encodes hrs (encodedHeartRate hrs.hrm ++ encodedEnergy hrs encodedBuffer true)
      bytes next removed)
    (hpresent : hrs.isEnergyExpendedPresent = true)
    (hflag : hrs.hrm.flags &&& hrmFlagMaskExpendedEnergyRepresent ≠ 0) :
    hrmDecode bytes = some ⟨hrs.hrm.hrmValue, some hrs.hrm.energyExpended, removed⟩ := by
  obtain ⟨hrate, hencode⟩ := hrmRate_encode hrs.hrm
  rw [← encodedFlags_energy] at hflag
  have hvalid : (hrmFront (encodedFlags hrs.hrm)).valid
      (hrs.hrm.hrmValue, some hrs.hrm.energyExpended) :=
    ⟨hrate, bne_iff_ne.mpr hflag, trivial⟩
  have hfront : encodedHeartRate hrs.hrm ++ encodedEnergy hrs encodedBuffer true =
      (hrmFront (encodedFlags hrs.hrm)).encode
        (hrs.hrm.hrmValue, some hrs.hrm.energyExpended) := by
    rw [encodedEnergy, if_pos rfl, if_pos hpresent, u16Encode_eq, ← hencode]
    rfl
  rw [hencodes.encoding, hfront, hrmDecode_front _ hvalid, hencodes.decodeRrIntervals]
  rfl

/-- With the energy neither included nor announced, the bytes in its place are read as RR
intervals. -/
theorem hrmDecode_of_absent
    (hencodes : Encodes hrs (encodedHeartRate hrs.hrm ++ encodedEnergy hrs encodedBuffer false)
      bytes next removed)
    (hflag : hrs.hrm.flags &&& hrmFlagMaskExpendedEnergyRepresent = 0) {reading : HrmReading}
    (hdecode : hrmDecode bytes = some reading) :
    reading.rrIntervals.length = removed.length + 1 := by
  obtain ⟨hrate, hencode⟩ := hrmRate_encode hrs.hrm
  rw [← encodedFlags_energy] at hflag
  have hvalid : (hrmFront (encodedFlags hrs.hrm)).valid (hrs.hrm.hrmValue, none) :=
    ⟨hrate, bne_eq_false_iff_eq.mpr hflag⟩
  have hfront : encodedHeartRate hrs.hrm =
      (hrmFront (encodedFlags hrs.hrm)).encode (hrs.hrm.hrmValue, none) := by
    rw [← hencode]
    exact (List.append_nil _).symm
  rw [hencodes.encoding, ← List.append_assoc, List.append_assoc, hfront,
    hrmDecode_front _ hvalid] at hdecode
  obtain ⟨rrIntervals, hread, rfl⟩ := Option.map_eq_some_iff.mp hdecode
  change Gatt.decodeRrIntervals _ (_ :: _ :: removed.flatMap u16Encode) = _ at hread
  rw [Gatt.decodeRrIntervals] at hread
  split at hread
  next =>
    rw [decodeWords, decodeWords_flatMap] at hread
    obtain rfl := Option.some.inj hread
    rfl
  next => simp at hread

end Presence

/-- A measurement as `hrs_notify` encodes it is read back: the heart rate, the energy if it is
present, and the values taken from the buffer. -/
def MeasurementDecodable (hrs : BtGattHrs) (encodedBuffer : Nat → UInt8) : Prop :=
  ∃ bytes next removed,
    hrmEncode hrs encodedBuffer hrs.isEnergyExpendedPresent = some (bytes, next) ∧
      removed ++ next.buffered = hrs.hrm.buffered ∧
      hrmDecode bytes =
        some
          ⟨hrs.hrm.hrmValue, Codec.field hrs.isEnergyExpendedPresent hrs.hrm.energyExpended,
            removed⟩

/-- With the flags of `hrs_init`, a measurement is decoded exactly if the energy is present. -/
theorem measurement_decodable_iff (hrs : BtGattHrs) (encodedBuffer : Nat → UInt8)
    (hflags : hrs.hrm.flags = hrsInitFlags hrs)
    (hcount : hrs.hrm.rrIntervalCount.toNat ≤ maxBufferedRrIntervals) :
    MeasurementDecodable hrs encodedBuffer ↔ hrs.isEnergyExpendedPresent = true := by
  have henergy := hrsInitFlags_energy hrs
  rw [← hflags] at henergy
  obtain ⟨bytes, next, removed, hencode, hencodes⟩ :=
    hrmEncode_spec encodedBuffer hrs.isEnergyExpendedPresent hcount
  constructor
  · rintro ⟨otherBytes, otherNext, otherRemoved, hother, hbuffered, hdecode⟩
    rw [hencode] at hother
    obtain ⟨rfl, rfl⟩ := Prod.mk.inj (Option.some.inj hother)
    by_contra habsent
    have hflag : hrs.hrm.flags &&& hrmFlagMaskExpendedEnergyRepresent = 0 := by
      by_contra hne
      exact habsent (henergy.mp hne)
    rw [Bool.eq_false_of_not_eq_true habsent] at hencodes
    have hlength := hrmDecode_of_absent hencodes hflag hdecode
    have hsame : otherRemoved = removed :=
      List.append_cancel_right (hbuffered.trans hencodes.buffered.symm)
    rw [hsame] at hlength
    exact absurd hlength (Nat.ne_of_lt (Nat.lt_succ_self _))
  · intro hpresent
    refine ⟨bytes, next, removed, hencode, hencodes.buffered, ?_⟩
    rw [hpresent] at hencodes ⊢
    exact hrmDecode_of_present hencodes hpresent (henergy.mpr hpresent)

/-- A configuration of the service with one RR interval buffered. -/
def oneRrInterval (isEnergyExpendedPresent : Bool) : BtGattHrs :=
  let gattHrs : BtGattHrs :=
    { hrm := ⟨0, 101, 7, (Vector.replicate 20 0).set 0 100, 1⟩
      bodySensorLocation := btHrsBodySensorLocationFinger
      heartRateControlPoint := btHrsControlPointReserved
      isHeartRateValueFormatUint16 := false
      isSensorContactDetected := true
      isSensorContactSupported := true
      isEnergyExpendedPresent
      isRrIntervalPresent := true }
  { gattHrs with hrm.flags := hrsInitFlags gattHrs }

theorem measurement_decodable_iff_oneRrInterval :
    MeasurementDecodable (oneRrInterval true) (fun _ => 0) :=
  (measurement_decodable_iff (oneRrInterval true) (fun _ => 0) rfl (by decide)).mpr rfl

/-- Without the energy the RR interval is read behind one that is not there. -/
theorem absent_energy_not_decodable :
    ¬ ∀ (hrs : BtGattHrs) (encodedBuffer : Nat → UInt8), hrs.hrm.flags = hrsInitFlags hrs →
      hrs.hrm.rrIntervalCount.toNat ≤ maxBufferedRrIntervals →
        MeasurementDecodable hrs encodedBuffer := by
  intro hall
  obtain ⟨bytes, next, removed, hencode, hbuffered, hdecode⟩ :=
    hall (oneRrInterval false) (fun _ => 0) rfl (by decide)
  have hbytes : (hrmEncode (oneRrInterval false) (fun _ => 0) false).map Prod.fst =
      some [0x16, 101, 0, 0, 100, 0] := by decide
  have hencoded : some bytes = some [0x16, 101, 0, 0, 100, 0] := by
    rw [← hbytes]
    exact (congrArg (Option.map Prod.fst) hencode).symm
  rw [Option.some.inj hencoded] at hdecode
  have hread : hrmDecode [0x16, 101, 0, 0, 100, 0] = some ⟨101, none, [0, 100]⟩ := by decide
  rw [hread] at hdecode
  have hremoved : [0, 100] = removed := congrArg HrmReading.rrIntervals (Option.some.inj hdecode)
  rw [← hremoved] at hbuffered
  have hlength := congrArg List.length hbuffered
  have hone : (oneRrInterval false).hrm.buffered.length = 1 := by decide
  rw [hone] at hlength
  simp at hlength

end CubieBle.Gatt
