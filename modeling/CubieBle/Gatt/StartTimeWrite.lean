import CubieBle.Gatt.CgmsReads

/-! # Writes of the session start time

With the end-to-end CRC, a write is meant to be stored only if it carries the checksum of its
own bytes. The handler compares the checksum with that of the value it is about to replace, and
only for one of the lengths that fit.
-/

namespace CubieBle.Gatt

open Machine

namespace StartTimeWrite

/-- The bytes that were received. -/
def received (write : StartTimeWrite) : List UInt8 := (List.range write.len.toNat).map write.buf

def TimeZoneInRange (write : StartTimeWrite) : Prop :=
  -48 ≤ write.timeZone ∧ write.timeZone ≤ 56

instance (write : StartTimeWrite) : Decidable write.TimeZoneInRange :=
  inferInstanceAs (Decidable (_ ∧ _))

/-- The whole structure, with a time zone in range and the checksum of its other bytes. -/
structure Acceptable (write : StartTimeWrite) : Prop where
  len : write.len.toNat = startTimeSize
  timeZone : write.TimeZoneInRange
  crc : crc16Ccitt (write.received.take (startTimeSize - 2)) = write.e2eCrc

end StartTimeWrite

/-- Acceptable writes are stored, and all others refused without an effect. -/
structure ProtectsStartTime (cgms : Cgms) (write : StartTimeWrite) : Prop where
  stored : write.Acceptable →
    (cgmsCgmStartTimeWrite cgms write).1 = write.len.toNat ∧
      (cgmsCgmStartTimeWrite cgms write).2.cgmSessionStartTime.toBytes = write.received
  refused : ¬write.Acceptable →
    (cgmsCgmStartTimeWrite cgms write).1 < 0 ∧
      (cgmsCgmStartTimeWrite cgms write).2.cgmSessionStartTime = cgms.cgmSessionStartTime

/-- The checksum of the stored value leads to the verdict that the received bytes deserve. -/
def StoredCrcAgrees (cgms : Cgms) (write : StartTimeWrite) : Prop :=
  crc16Ccitt (cgms.cgmSessionStartTime.toBytes.take (startTimeSize - 2)) = write.e2eCrc ↔
    crc16Ccitt (write.received.take (startTimeSize - 2)) = write.e2eCrc

/-- The write is refused for another reason, or the stored value does not mislead. -/
def NotMisled (cgms : Cgms) (write : StartTimeWrite) : Prop :=
  ¬write.TimeZoneInRange ∨ write.len.toNat = startTimeSize - 2 ∨
    startTimeSize < write.len.toNat ∨
      write.len.toNat = startTimeSize ∧ StoredCrcAgrees cgms write

section Write

variable {cgms : Cgms} {write : StartTimeWrite}

/-- The bytes of a whole structure are the memory of a start time. -/
theorem exists_startTime (buf : Nat → UInt8) :
    ∃ startTime, CgmsCgmSessionStartTime.ofBytes ((List.range startTimeSize).map buf) =
        some startTime ∧ startTime.toBytes = (List.range startTimeSize).map buf := by
  obtain ⟨value, hdecode⟩ : ∃ value,
      startTimeLayout.decode ((List.range startTimeSize).map buf) = some (value, []) := ⟨_, rfl⟩
  obtain ⟨-, hbytes⟩ := startTimeLayout.encode_decode _ _ _ hdecode
  rw [CgmsCgmSessionStartTime.ofBytes, hdecode, Option.map_some]
  rw [List.append_nil] at hbytes
  exact ⟨_, rfl, hbytes.symm⟩

/-- A write at the front replaces the bytes that it has. -/
theorem copiedTo_front (hoffset : write.offset = 0) (old : List UInt8) :
    write.copiedTo old = write.received ++ old.drop write.len.toNat := by
  rw [StartTimeWrite.copiedTo, hoffset, UInt16.toNat_zero, List.take_zero, Nat.zero_add]
  rfl

theorem NotMisled.storedCrcAgrees (hnot : NotMisled cgms write) (hzone : write.TimeZoneInRange)
    (hshort : write.len.toNat ≠ startTimeSize - 2) (hfits : write.len.toNat ≤ startTimeSize) :
    write.len.toNat = startTimeSize ∧ StoredCrcAgrees cgms write := by
  rcases hnot with hout | hmissing | hlong | hsame
  · exact absurd hzone hout
  · exact absurd hmissing hshort
  · exact absurd hfits (Nat.not_le_of_lt hlong)
  · exact hsame

variable (hcrc : cgms.cgmFeature.E2eCrc) (hoffset : write.offset = 0)

/-- What the handler does with a write at the front. -/
inductive WriteOutcome (cgms : Cgms) (write : StartTimeWrite) : Int × Cgms → Prop where
  | refused (result : Int) (hresult : result < 0)
      (hreason : ¬write.TimeZoneInRange ∨ write.len.toNat = startTimeSize - 2 ∨
        startTimeSize < write.len.toNat ∨
        write.len.toNat = startTimeSize ∧
          crc16Ccitt (cgms.cgmSessionStartTime.toBytes.take (startTimeSize - 2)) ≠ write.e2eCrc) :
      WriteOutcome cgms write (result, cgms)
  | stored (hzone : write.TimeZoneInRange) (hshort : write.len.toNat ≠ startTimeSize - 2)
      (hfits : write.len.toNat ≤ startTimeSize)
      (hmatch : write.len.toNat = startTimeSize →
        crc16Ccitt (cgms.cgmSessionStartTime.toBytes.take (startTimeSize - 2)) = write.e2eCrc) :
      WriteOutcome cgms write
        (write.len.toNat,
          { cgms with
            cgmSessionStartTime :=
              (CgmsCgmSessionStartTime.ofBytes
                (write.received ++
                  cgms.cgmSessionStartTime.toBytes.drop write.len.toNat)).getD
                cgms.cgmSessionStartTime })

include hcrc hoffset

theorem writeOutcome : WriteOutcome cgms write (cgmsCgmStartTimeWrite cgms write) := by
  have herr : ∀ code : Int, 0 < code → btGattErr code < 0 := by
    intro code hcode
    unfold btGattErr
    omega
  rw [cgmsCgmStartTimeWrite, hoffset, UInt16.toNat_zero, Nat.zero_add, copiedTo_front hoffset]
  split
  next hzone =>
    refine .refused _ (herr _ (by decide)) (.inl ?_)
    rw [StartTimeWrite.TimeZoneInRange, not_and_or, Int8.not_le, Int8.not_le]
    exact hzone
  next hzone =>
    rw [not_or, Int8.not_lt, Int8.not_lt] at hzone
    split
    next hmissing => exact .refused _ (herr _ (by decide)) (.inr (.inl hmissing.2))
    next hmissing =>
      split
      next hinvalid => exact .refused _ (herr _ (by decide)) (.inr (.inr (.inr hinvalid.2)))
      next hinvalid =>
        split
        next hlong => exact .refused _ (herr _ (by decide)) (.inr (.inr (.inl hlong)))
        next hlong =>
          refine .stored hzone (fun hlen => hmissing ⟨hcrc, hlen⟩) (Nat.le_of_not_lt hlong) ?_
          intro hlen
          by_contra hne
          exact hinvalid ⟨hcrc, hlen, hne⟩

omit hcrc hoffset in
theorem stored_received (hlen : write.len.toNat = startTimeSize) (startTime : DateTime × Int8 ×
    UInt8 × UInt16) (old : CgmsCgmSessionStartTime) :
    ((CgmsCgmSessionStartTime.ofBytes
      (write.received ++ (startTimeLayout.encode startTime).drop write.len.toNat)).getD
        old).toBytes = write.received := by
  obtain ⟨stored, hstored, hbytes⟩ := exists_startTime write.buf
  have hrest : (startTimeLayout.encode startTime).drop write.len.toNat = [] := by
    rw [hlen]
    rfl
  rw [hrest, List.append_nil, StartTimeWrite.received, hlen, hstored]
  exact hbytes

theorem notMisled_of_protects (hprotects : ProtectsStartTime cgms write) :
    NotMisled cgms write := by
  obtain ⟨hstored, hrefused⟩ := hprotects
  have houtcome := writeOutcome hcrc hoffset
  generalize cgmsCgmStartTimeWrite cgms write = outcome at houtcome hstored hrefused
  cases houtcome with
  | refused result hresult hreason =>
      have hnot : ¬write.Acceptable := by
        intro hacceptable
        have hresult' := (hstored hacceptable).1
        dsimp only at hresult'
        omega
      rcases hreason with hzone | hmissing | hlong | ⟨hlen, hne⟩
      · exact .inl hzone
      · exact .inr (.inl hmissing)
      · exact .inr (.inr (.inl hlong))
      · by_cases hzone : write.TimeZoneInRange
        · refine .inr (.inr (.inr ⟨hlen, iff_of_false hne ?_⟩))
          exact fun hcrc => hnot ⟨hlen, hzone, hcrc⟩
        · exact .inl hzone
  | stored hzone hshort hfits hmatch =>
      have hacceptable : write.Acceptable := by
        by_contra hnot
        have hnegative := (hrefused hnot).1
        dsimp only at hnegative
        omega
      exact .inr (.inr (.inr ⟨hacceptable.len,
        iff_of_true (hmatch hacceptable.len) hacceptable.crc⟩))

theorem protects_of_notMisled (hnot : NotMisled cgms write) : ProtectsStartTime cgms write := by
  have houtcome := writeOutcome hcrc hoffset
  generalize hwrite : cgmsCgmStartTimeWrite cgms write = outcome at houtcome
  cases houtcome with
  | refused result hresult hreason =>
      refine ⟨fun hacceptable => ?_, fun _ => ?_⟩
      · obtain ⟨hlen, hzone, hmatch⟩ := hacceptable
        have hshort : write.len.toNat ≠ startTimeSize - 2 := by
          rw [hlen]
          decide
        obtain ⟨-, hsame⟩ := hnot.storedCrcAgrees hzone hshort hlen.le
        rcases hreason with hout | hmissing | hlong | ⟨-, hne⟩
        · exact absurd hzone hout
        · exact absurd hmissing hshort
        · exact absurd hlen (Nat.ne_of_gt hlong)
        · exact absurd (hsame.mpr hmatch) hne
      · rw [hwrite]
        exact ⟨hresult, rfl⟩
  | stored hzone hshort hfits hmatch =>
      refine ⟨fun hacceptable => ?_, fun hrefused => ?_⟩
      · rw [hwrite]
        exact ⟨rfl, stored_received hacceptable.len _ _⟩
      · obtain ⟨hlen, hsame⟩ := hnot.storedCrcAgrees hzone hshort hfits
        exact absurd ⟨hlen, hzone, hsame.mp (hmatch hlen)⟩ hrefused

/-- A write of the session start time is protected exactly if it is refused for another reason,
or the checksum of the stored value leads to the right verdict. -/
theorem startTimeWrite_protected_iff : ProtectsStartTime cgms write ↔ NotMisled cgms write :=
  ⟨notMisled_of_protects hcrc hoffset, protects_of_notMisled hcrc hoffset⟩

end Write

/-- A service with the end-to-end CRC and its session of the 19th. -/
def sampleSession : Cgms := cgmsSetSessionStartTime (cgmsCrcEnable cgmsStart true)

/-- The same time on another day of the month, with a checksum. -/
def dayWrite (day : UInt8) (crc : UInt16) : StartTimeWrite where
  buf := fun i => ([0xe2, 0x07, 4, day, 14, 42, 22, 32, 0] ++ u16Encode crc).getD i 0
  len := 11
  offset := 0

theorem startTimeWrite_protected_iff_same_day :
    ProtectsStartTime sampleSession (dayWrite 19 0xffe0) ↔
      NotMisled sampleSession (dayWrite 19 0xffe0) :=
  startTimeWrite_protected_iff (by decide) rfl

/-- The 20th is refused, though its checksum is right. -/
theorem nextDay_refused : ¬ProtectsStartTime sampleSession (dayWrite 20 0xe331) := by
  rintro ⟨hstored, -⟩
  have hacceptable : (dayWrite 20 0xe331).Acceptable :=
    ⟨rfl, by decide, by decide +kernel⟩
  have hresult := (hstored hacceptable).1
  exact absurd hresult (by decide +kernel)

end CubieBle.Gatt
