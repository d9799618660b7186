import Mathlib.Data.UInt
import CubieBle.Machine.Ranges
import CubieBle.Machine.Run

/-! # Recordings in the flash

A recording is written to an area that is erased before it. The position of the next write is the
size of the recording so far, and nothing compares it with the size of the area.
-/

namespace CubieBle.Rcu.Recording

open Machine

/-- The start of the area, `audio_file_addr`. -/
def audioFileAddr : UInt32 := 128 * 1024

def appStroageSize : UInt32 := 1024 * 256

/-- The static variables; `flashDev` says whether the device is bound. -/
structure Storage where
  audioFileSize : UInt32
  flashDev : Bool
deriving DecidableEq

inductive FlashCall
  | write (offset : UInt32) (data : List UInt8)
  | erase (offset size : UInt32)
deriving DecidableEq

/-- A buffer whose length is a `u16_t`. -/
structure Buffer where
  data : List UInt8
  small : data.length < 2 ^ 16

inductive StorageAction
  | write (buf : Buffer)
  | reset

def writeDataToStorage (storage : Storage) (buf : Buffer) : Storage × Option FlashCall :=
  if storage.flashDev then
    ({ storage with audioFileSize := storage.audioFileSize + UInt32.ofNat buf.data.length },
      some (.write ((audioFileAddr + storage.audioFileSize) &&& 0xFFFFF) buf.data))
  else (storage, none)

def resetStroage (storage : Storage) : Storage × Option FlashCall :=
  ({ storage with audioFileSize := 0 },
    if storage.flashDev then some (.erase (audioFileAddr &&& 0xFFFFF) appStroageSize) else none)

def storageCall (storage : Storage) : StorageAction → Storage × Option FlashCall
  | .write buf => writeDataToStorage storage buf
  | .reset => resetStroage storage

/-! ## Runs -/

/-- The ranges that were written since the last erase, oldest first. -/
abbrev Written := List (Nat × Nat)

def observe (storage : Storage) (action : StorageAction) (written : Written) : Written :=
  match (storageCall storage action).2 with
  | none => written
  | some (.erase _ _) => []
  | some (.write offset data) => written ++ [(offset.toNat, offset.toNat + data.length)]

abbrev StorageRun := Tracked Storage Written

def storageStep : StorageRun → StorageAction → StorageRun :=
  trackedStep (fun storage action => (storageCall storage action).1) observe

/-- After the reset with which a run starts. -/
def resetRun (audioFileSize : UInt32) : StorageRun :=
  storageStep ⟨⟨audioFileSize, true⟩, []⟩ .reset

/-- The writes since the last erase lie in the erased area, no byte is written twice, and the data
is stored in the order of the calls, without gaps and from the start of the area on. -/
def RecordingSound (current : StorageRun) : Prop :=
  Inside 0x20000 0x60000 current.history ∧ Separate current.history ∧
    ∃ stop, Gapless 0x20000 current.history stop

/-- A write finds room for its data behind the recording so far. -/
def FitsArea (current : StorageRun) : StorageAction → Prop
  | .write buf => current.state.audioFileSize.toNat + buf.data.length ≤ 0x40000
  | .reset => True

/-! ## The recording so far -/

/-- The recording is gapless and ends where the next write starts, within the area. -/
structure Recorded (current : StorageRun) : Prop where
  bound : current.state.flashDev = true
  size_le : current.state.audioFileSize.toNat ≤ 0x40000
  gapless : Gapless 0x20000 current.history (0x20000 + current.state.audioFileSize.toNat)

theorem Recorded.sound {current : StorageRun} (h : Recorded current) : RecordingSound current := by
  refine ⟨?_, h.gapless.separate, _, h.gapless⟩
  intro range hrange
  have hsize := h.size_le
  apply (h.gapless.inside range hrange).trans
  exact Set.Ico_subset_Ico (le_refl _) (by omega)

theorem toNat_offset {audioFileSize : UInt32} (hsize : audioFileSize.toNat ≤ 0x40000) :
    ((audioFileAddr + audioFileSize) &&& 0xFFFFF).toNat = 0x20000 + audioFileSize.toNat := by
  have hmask : (audioFileAddr + audioFileSize).toNat &&& 0xFFFFF =
      (audioFileAddr + audioFileSize).toNat % 2 ^ 20 := Nat.and_two_pow_sub_one_eq_mod _ 20
  have haddr : audioFileAddr.toNat = 0x20000 := rfl
  rw [UInt32.toNat_and]
  change (audioFileAddr + audioFileSize).toNat &&& 0xFFFFF = _
  rw [hmask, UInt32.toNat_add, haddr]
  omega

theorem Recorded.write {current : StorageRun} (h : Recorded current) (buf : Buffer) :
    (storageStep current (.write buf)).history = current.history ++
      [(0x20000 + current.state.audioFileSize.toNat,
        0x20000 + current.state.audioFileSize.toNat + buf.data.length)] := by
  have hcall : storageCall current.state (.write buf) =
      ({ current.state with
          audioFileSize := current.state.audioFileSize + UInt32.ofNat buf.data.length },
        some (.write ((audioFileAddr + current.state.audioFileSize) &&& 0xFFFFF) buf.data)) := by
    rw [storageCall, writeDataToStorage, if_pos h.bound]
  change observe current.state (.write buf) current.history = _
  rw [observe, hcall]
  dsimp only
  rw [toNat_offset h.size_le]

theorem Recorded.write_state {current : StorageRun} (h : Recorded current) (buf : Buffer) :
    (storageStep current (.write buf)).state =
      { current.state with
        audioFileSize := current.state.audioFileSize + UInt32.ofNat buf.data.length } := by
  change (writeDataToStorage current.state buf).1 = _
  rw [writeDataToStorage, if_pos h.bound]

/-- The size does not overflow as long as the data fits. -/
theorem Recorded.write_size {current : StorageRun} (h : Recorded current) {buf : Buffer}
    (hfits : FitsArea current (.write buf)) :
    (storageStep current (.write buf)).state.audioFileSize.toNat =
      current.state.audioFileSize.toNat + buf.data.length := by
  have hsum : current.state.audioFileSize.toNat + buf.data.length ≤ 0x40000 := hfits
  have hlength : (UInt32.ofNat buf.data.length).toNat = buf.data.length :=
    UInt32.toNat_ofNat_of_lt' (Nat.lt_trans buf.small (by decide))
  rw [h.write_state buf, UInt32.toNat_add, hlength]
  omega

theorem Recorded.step {current : StorageRun} (h : Recorded current) {action : StorageAction}
    (hfits : FitsArea current action) : Recorded (storageStep current action) := by
  cases action with
  | reset =>
      refine ⟨h.bound, Nat.zero_le _, ?_⟩
      have hempty : (storageStep current .reset).history = [] := by
        change observe current.state .reset current.history = _
        rw [observe, storageCall, resetStroage, if_pos h.bound]
      rw [hempty]
      rfl
  | write buf =>
      have hsize := h.write_size hfits
      have hsum : current.state.audioFileSize.toNat + buf.data.length ≤ 0x40000 := hfits
      refine ⟨?_, ?_, ?_⟩
      · rw [h.write_state buf]
        exact h.bound
      · rw [hsize]
        exact hsum
      · rw [h.write buf, hsize, ← Nat.add_assoc]
        exact h.gapless.snoc (Nat.le_add_right _ _)

/-- A write that does not fit leaves the area. -/
theorem Recorded.not_sound {current : StorageRun} (h : Recorded current) {action : StorageAction}
    (hfits : ¬FitsArea current action) : ¬RecordingSound (storageStep current action) := by
  cases action with
  | reset => exact absurd trivial hfits
  | write buf =>
      have hsum : ¬current.state.audioFileSize.toNat + buf.data.length ≤ 0x40000 := hfits
      have hsize := h.size_le
      rintro ⟨hinside, -, -⟩
      rw [h.write buf] at hinside
      have hrange := hinside _ (List.mem_append_right _ List.mem_cons_self)
      rw [covered_subset_iff (by dsimp only; omega)] at hrange
      dsimp only at hrange
      omega

theorem recorded_resetRun (audioFileSize : UInt32) : Recorded (resetRun audioFileSize) :=
  ⟨rfl, Nat.zero_le _, rfl⟩

/-- In every run that starts with a reset, the recording is sound in all states exactly if every
write fits into the area. -/
theorem recording_sound_iff (audioFileSize : UInt32) (actions : List StorageAction) :
    Throughout storageStep RecordingSound (resetRun audioFileSize) actions ↔
      Along storageStep FitsArea (resetRun audioFileSize) actions := by
  have hinit := recorded_resetRun audioFileSize
  have hsteps : Along storageStep
      (fun current action => RecordingSound (storageStep current action))
      (resetRun audioFileSize) actions ↔
      Along storageStep FitsArea (resetRun audioFileSize) actions := by
    apply along_congr_of_invariant Recorded
    · intro current action hrecorded
      constructor
      · intro hsound
        by_contra hfits
        exact hrecorded.not_sound hfits hsound
      · intro hfits
        exact (hrecorded.step hfits).sound
    · intro current action hrecorded hfits
      exact hrecorded.step hfits
    · exact hinit
  rw [throughout_iff_along, hsteps]
  exact and_iff_right hinit.sound

/-- The longest buffer. -/
def longBuffer : Buffer where
  data := List.replicate 65535 0
  small := by
    rw [List.length_replicate]
    decide

/-- Four long buffers fit. -/
theorem recorded_longBuffers {count : Nat} (hcount : count ≤ 4) :
    Recorded (run storageStep (resetRun 0) (List.replicate count (.write longBuffer))) ∧
      (run storageStep (resetRun 0) (List.replicate count
        (.write longBuffer))).state.audioFileSize.toNat = 65535 * count := by
  have hlength : longBuffer.data.length = 65535 := List.length_replicate
  induction count with
  | zero => exact ⟨recorded_resetRun 0, rfl⟩
  | succ count ih =>
      obtain ⟨hrecorded, hsize⟩ := ih (by omega)
      rw [List.replicate_succ', run_append, run_cons, run_nil]
      have hfits : FitsArea (run storageStep (resetRun 0) (List.replicate count
          (.write longBuffer))) (.write longBuffer) := by
        rw [FitsArea, hsize, hlength]
        omega
      refine ⟨hrecorded.step hfits, ?_⟩
      rw [hrecorded.write_size hfits, hsize, hlength]
      omega

/-- The fifth does not. -/
theorem long_recording_leaves_area :
    ¬Throughout storageStep RecordingSound (resetRun 0) (List.replicate 5 (.write longBuffer)) := by
  intro hall
  have hlast := hall.last
  obtain ⟨hrecorded, hsize⟩ := recorded_longBuffers (Nat.le_refl 4)
  rw [List.replicate_succ', run_append, run_cons, run_nil] at hlast
  apply hrecorded.not_sound _ hlast
  rw [FitsArea, hsize]
  have hlength : longBuffer.data.length = 65535 := List.length_replicate
  omega

end CubieBle.Rcu.Recording
