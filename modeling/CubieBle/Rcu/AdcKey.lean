import Mathlib.Data.List.Infix
import Mathlib.Data.UInt
import CubieBle.Machine.Run

/-! # The keys at the converter

A key is taken for pressed or released after a number of equal samples. Samples without a key are
passed over while no key is pressed, and do not end what is being counted.
-/

namespace CubieBle.Rcu.AdcKey

open Machine

/-- `KEY_RESERVED`, which the driver defines anew. -/
def keyReserved : UInt16 := 0

structure AdcKeyMap where
  adcDiv : UInt16
  keyCode : UInt16
deriving DecidableEq

structure ActsAdcKeyConfig where
  sampleFilterDep : UInt16
  keyMaps : List AdcKeyMap
deriving DecidableEq

structure ActsAdcKeyData where
  scanCount : Nat
  prevKeycode : UInt16
  prevStableKeycode : UInt16
deriving DecidableEq

def ActsAdcKeyData.zero : ActsAdcKeyData where
  scanCount := 0
  prevKeycode := keyReserved
  prevStableKeycode := keyReserved

/-- What the converter gives for the battery and for the channel. -/
structure Sample where
  batVal : UInt16
  adcVal : UInt16
deriving DecidableEq

inductive KeyReport where
  | down (keyCode : UInt16)
  | up (keyCode : UInt16)
deriving DecidableEq

section Driver

-- `CONFIG_ADCKEY_VAL_MARGIN` is computed with floating point numbers.
variable (margin : UInt16 → UInt16) (cfg : ActsAdcKeyConfig)

/-- `update_adckey_map` sets `adc_val`. -/
def AdcKeyMap.adcVal (map : AdcKeyMap) (batVal : UInt16) : UInt16 :=
  UInt16.ofNat (map.adcDiv.toNat * batVal.toNat / 1000)

def adcKeyActsGetKeycodeNew (sample : Sample) : UInt16 :=
  match cfg.keyMaps.find? fun map =>
      sample.adcVal.toNat < (map.adcVal sample.batVal).toNat + (margin sample.batVal).toNat with
  | some map => map.keyCode
  | none => keyReserved

/-- The part of `adckey_acts_poll_new` behind the key code. -/
def pollKeycode (adckey : ActsAdcKeyData) (keycode : UInt16) : ActsAdcKeyData × List KeyReport :=
  if keycode = keyReserved ∧ adckey.prevStableKeycode = keyReserved then (adckey, [])
  else if keycode = adckey.prevKeycode then
    let scanCount := adckey.scanCount + 1
    if scanCount = cfg.sampleFilterDep.toNat then
      ({ adckey with prevStableKeycode := keycode, scanCount := 0 },
        (if adckey.prevStableKeycode ≠ keyReserved ∧ keycode ≠ adckey.prevStableKeycode then
          [.up adckey.prevStableKeycode] else []) ++
        (if keycode ≠ keyReserved then [.down keycode] else []))
    else ({ adckey with scanCount := scanCount }, [])
  else ({ adckey with prevKeycode := keycode, scanCount := 1 }, [])

def adcKeyActsPollNew (adckey : ActsAdcKeyData) (sample : Sample) :
    ActsAdcKeyData × List KeyReport :=
  pollKeycode cfg adckey (adcKeyActsGetKeycodeNew margin cfg sample)

/-- One sample, with the key codes of all samples so far. -/
def sampleStep (current : Tracked ActsAdcKeyData (List UInt16)) (sample : Sample) :
    Tracked ActsAdcKeyData (List UInt16) :=
  trackedStep (fun adckey sample => (adcKeyActsPollNew margin cfg adckey sample).1)
    (fun _ sample codes => codes ++ [adcKeyActsGetKeycodeNew margin cfg sample]) current sample

def noSamples : Tracked ActsAdcKeyData (List UInt16) where
  state := ActsAdcKeyData.zero
  history := []

/-! ## What should be reported -/

/-- A report comes after as many equal samples as the filter is deep. -/
def Filtered (codes : List UInt16) : KeyReport → Prop
  | .down keyCode => List.replicate cfg.sampleFilterDep.toNat keyCode <:+ codes
  | .up keyCode =>
      ∃ other, other ≠ keyCode ∧ List.replicate cfg.sampleFilterDep.toNat other <:+ codes

/-- The reports of a sample come after enough equal samples. -/
def ReportsFiltered (current : Tracked ActsAdcKeyData (List UInt16)) (sample : Sample) : Prop :=
  ∀ report ∈ (adcKeyActsPollNew margin cfg current.state sample).2,
    Filtered cfg (sampleStep margin cfg current sample).history report

/-- No sample is passed over while a key is counted that could be reported. -/
def NotPassedOver (current : Tracked ActsAdcKeyData (List UInt16)) (sample : Sample) : Prop :=
  2 ≤ cfg.sampleFilterDep.toNat → 0 < current.state.scanCount →
    current.state.prevStableKeycode = keyReserved →
      adcKeyActsGetKeycodeNew margin cfg sample ≠ keyReserved

instance (current : Tracked ActsAdcKeyData (List UInt16)) (sample : Sample) :
    Decidable (NotPassedOver margin cfg current sample) :=
  inferInstanceAs (Decidable (_ → _ → _ → _))

end Driver

/-! ## One sample -/

section Sampling

variable {margin : UInt16 → UInt16} {cfg : ActsAdcKeyConfig}

/-- What becomes of a key code. -/
inductive Polled (cfg : ActsAdcKeyConfig) (adckey : ActsAdcKeyData) (keycode : UInt16) :
    ActsAdcKeyData × List KeyReport → Prop
  | passedOver (hcode : keycode = keyReserved)
      (hstable : adckey.prevStableKeycode = keyReserved) : Polled cfg adckey keycode (adckey, [])
  | stable (hcode : keycode = keyReserved → adckey.prevStableKeycode ≠ keyReserved)
      (hprev : keycode = adckey.prevKeycode)
      (hcount : adckey.scanCount + 1 = cfg.sampleFilterDep.toNat) :
      Polled cfg adckey keycode
        ({ adckey with prevStableKeycode := keycode, scanCount := 0 },
          (if adckey.prevStableKeycode ≠ keyReserved ∧ keycode ≠ adckey.prevStableKeycode then
            [.up adckey.prevStableKeycode] else []) ++
          (if keycode ≠ keyReserved then [.down keycode] else []))
  | counted (hcode : keycode = keyReserved → adckey.prevStableKeycode ≠ keyReserved)
      (hprev : keycode = adckey.prevKeycode)
      (hcount : adckey.scanCount + 1 ≠ cfg.sampleFilterDep.toNat) :
      Polled cfg adckey keycode ({ adckey with scanCount := adckey.scanCount + 1 }, [])
  | changed (hcode : keycode = keyReserved → adckey.prevStableKeycode ≠ keyReserved)
      (hprev : keycode ≠ adckey.prevKeycode) :
      Polled cfg adckey keycode ({ adckey with prevKeycode := keycode, scanCount := 1 }, [])

theorem polled (cfg : ActsAdcKeyConfig) (adckey : ActsAdcKeyData) (keycode : UInt16) :
    Polled cfg adckey keycode (pollKeycode cfg adckey keycode) := by
  unfold pollKeycode
  split
  next hidle => exact .passedOver hidle.1 hidle.2
  next hno =>
    have hcode : keycode = keyReserved → adckey.prevStableKeycode ≠ keyReserved :=
      fun hcode hstable => hno ⟨hcode, hstable⟩
    split
    next hprev =>
      dsimp only
      split
      next hcount => exact .stable hcode hprev hcount
      next hcount => exact .counted hcode hprev hcount
    next hprev => exact .changed hcode hprev

theorem replicate_succ_suffix {codes : List UInt16} {n : Nat} {code : UInt16}
    (hsuffix : List.replicate n code <:+ codes) :
    List.replicate (n + 1) code <:+ codes ++ [code] := by
  obtain ⟨before, rfl⟩ := hsuffix
  rw [List.replicate_succ', List.append_assoc]
  exact List.suffix_append _ _

/-- What is counted are the last samples. With a filter that is not deep enough, nothing is ever
reported. -/
structure Streak (cfg : ActsAdcKeyConfig) (adckey : ActsAdcKeyData) (codes : List UInt16) :
    Prop where
  counted : 2 ≤ cfg.sampleFilterDep.toNat →
    List.replicate adckey.scanCount adckey.prevKeycode <:+ codes
  shallow : cfg.sampleFilterDep.toNat < 2 → adckey.prevStableKeycode = keyReserved ∧
    (adckey.scanCount = 0 → adckey.prevKeycode = keyReserved)

section Step

variable {adckey : ActsAdcKeyData} {codes : List UInt16} {keycode : UInt16}

/-- With a shallow filter, no count is the one that is waited for. -/
theorem Streak.deep (hstreak : Streak cfg adckey codes)
    (hcode : keycode = keyReserved → adckey.prevStableKeycode ≠ keyReserved)
    (hprev : keycode = adckey.prevKeycode)
    (hcount : adckey.scanCount + 1 = cfg.sampleFilterDep.toNat) :
    2 ≤ cfg.sampleFilterDep.toNat := by
  by_contra hshallow
  obtain ⟨hstable, hzero⟩ := hstreak.shallow (Nat.lt_of_not_le hshallow)
  refine hcode ?_ hstable
  rw [hprev]
  exact hzero (by omega)

theorem Streak.poll (hstreak : Streak cfg adckey codes)
    (hnot : 2 ≤ cfg.sampleFilterDep.toNat → 0 < adckey.scanCount →
      adckey.prevStableKeycode = keyReserved → keycode ≠ keyReserved) :
    Streak cfg (pollKeycode cfg adckey keycode).1 (codes ++ [keycode]) := by
  have hpolled := polled cfg adckey keycode
  generalize pollKeycode cfg adckey keycode = result at hpolled ⊢
  cases hpolled with
  | passedOver hcode hstable =>
      refine ⟨fun hdeep => ?_, hstreak.shallow⟩
      have hzero : adckey.scanCount = 0 := by
        by_contra hpos
        exact hnot hdeep (Nat.pos_of_ne_zero hpos) hstable hcode
      rw [hzero]
      exact List.nil_suffix
  | stable hcode hprev hcount =>
      have hdeep := hstreak.deep hcode hprev hcount
      refine ⟨fun _ => List.nil_suffix, fun hshallow => ?_⟩
      exact absurd hdeep (Nat.not_le_of_lt hshallow)
  | counted hcode hprev hcount =>
      constructor
      · intro hdeep
        rw [hprev]
        exact replicate_succ_suffix (hstreak.counted hdeep)
      · intro hshallow
        exact ⟨(hstreak.shallow hshallow).1, fun hzero => absurd hzero (Nat.succ_ne_zero _)⟩
  | changed hcode hprev =>
      constructor
      · intro _
        exact List.suffix_append codes [keycode]
      · intro hshallow
        exact ⟨(hstreak.shallow hshallow).1, fun hzero => absurd hzero (Nat.succ_ne_zero _)⟩

theorem Streak.reports (hstreak : Streak cfg adckey codes) :
    ∀ report ∈ (pollKeycode cfg adckey keycode).2, Filtered cfg (codes ++ [keycode]) report := by
  have hpolled := polled cfg adckey keycode
  generalize pollKeycode cfg adckey keycode = result at hpolled ⊢
  intro report hreport
  cases hpolled with
  | passedOver hcode hstable => exact absurd hreport List.not_mem_nil
  | counted hcode hprev hcount => exact absurd hreport List.not_mem_nil
  | changed hcode hprev => exact absurd hreport List.not_mem_nil
  | stable hcode hprev hcount =>
      have hlast : List.replicate cfg.sampleFilterDep.toNat keycode <:+ codes ++ [keycode] := by
        rw [← hcount, hprev]
        exact replicate_succ_suffix (hstreak.counted (hstreak.deep hcode hprev hcount))
      rcases List.mem_append.mp hreport with hup | hdown
      · split at hup
        next hother =>
          obtain rfl := List.mem_singleton.mp hup
          exact ⟨keycode, hother.2, hlast⟩
        next => exact absurd hup List.not_mem_nil
      · split at hdown
        next =>
          obtain rfl := List.mem_singleton.mp hdown
          exact hlast
        next => exact absurd hdown List.not_mem_nil

end Step

theorem streak_noSamples : Streak cfg noSamples.state noSamples.history where
  counted _ := List.nil_suffix
  shallow _ := ⟨rfl, fun _ => rfl⟩

/-- In runs that pass no sample over while a key is counted, the reports come after enough equal
samples. -/
theorem along_reportsFiltered {current : Tracked ActsAdcKeyData (List UInt16)}
    {samples : List Sample} (hstreak : Streak cfg current.state current.history)
    (hnot : Along (sampleStep margin cfg) (NotPassedOver margin cfg) current samples) :
    Along (sampleStep margin cfg) (ReportsFiltered margin cfg) current samples := by
  induction samples generalizing current with
  | nil => trivial
  | cons sample samples ih => exact ⟨hstreak.reports, ih (hstreak.poll hnot.1) hnot.2⟩

/-! ## A sample that is passed over -/

/-- What is counted while no key is pressed is a key that was seen. -/
structure Counting (margin : UInt16 → UInt16) (cfg : ActsAdcKeyConfig) (adckey : ActsAdcKeyData) :
    Prop where
  below : 2 ≤ cfg.sampleFilterDep.toNat → adckey.scanCount < cfg.sampleFilterDep.toNat
  key : adckey.prevStableKeycode = keyReserved → 0 < adckey.scanCount →
    adckey.prevKeycode ≠ keyReserved
  seen : adckey.prevKeycode = keyReserved ∨
    ∃ sample, adcKeyActsGetKeycodeNew margin cfg sample = adckey.prevKeycode

theorem counting_step {current : Tracked ActsAdcKeyData (List UInt16)}
    (hcounting : Counting margin cfg current.state) (sample : Sample) :
    Counting margin cfg (sampleStep margin cfg current sample).state := by
  have hpolled := polled cfg current.state (adcKeyActsGetKeycodeNew margin cfg sample)
  change Counting margin cfg
    (pollKeycode cfg current.state (adcKeyActsGetKeycodeNew margin cfg sample)).1
  generalize pollKeycode cfg current.state _ = result at hpolled ⊢
  obtain ⟨hbelow, hkey, hseen⟩ := hcounting
  cases hpolled with
  | passedOver hcode hstable => exact ⟨hbelow, hkey, hseen⟩
  | stable hcode hprev hcount =>
      exact ⟨fun hdeep => Nat.zero_lt_of_lt hdeep, fun _ hpos => absurd hpos (Nat.lt_irrefl 0),
        hseen⟩
  | counted hcode hprev hcount =>
      refine ⟨fun hdeep => ?_, fun hstable _ => ?_, hseen⟩
      · have hlt := hbelow hdeep
        dsimp only
        omega
      · rw [← hprev]
        exact fun hreserved => hcode hreserved hstable
  | changed hcode hprev =>
      refine ⟨fun hdeep => hdeep, fun hstable _ => ?_, .inr ⟨sample, rfl⟩⟩
      exact fun hreserved => hcode hreserved hstable

theorem counting_run (margin : UInt16 → UInt16) (cfg : ActsAdcKeyConfig) (samples : List Sample) :
    Counting margin cfg (run (sampleStep margin cfg) noSamples samples).state := by
  have hstart : Counting margin cfg noSamples.state :=
    ⟨fun hdeep => Nat.zero_lt_of_lt hdeep, fun _ hpos => absurd hpos (Nat.lt_irrefl 0), .inl rfl⟩
  generalize (noSamples : Tracked ActsAdcKeyData (List UInt16)) = current at hstart ⊢
  induction samples generalizing current with
  | nil => exact hstart
  | cons sample samples ih => exact ih _ (counting_step hstart sample)

/-- The key that is counted is sampled once more, and not often enough yet. -/
theorem state_of_counted {current : Tracked ActsAdcKeyData (List UInt16)} {again : Sample}
    (hagain : adcKeyActsGetKeycodeNew margin cfg again = current.state.prevKeycode)
    (hkey : current.state.prevKeycode ≠ keyReserved)
    (hcount : current.state.scanCount + 1 ≠ cfg.sampleFilterDep.toNat) :
    (sampleStep margin cfg current again).state =
      { current.state with scanCount := current.state.scanCount + 1 } := by
  have hpolled := polled cfg current.state (adcKeyActsGetKeycodeNew margin cfg again)
  change (pollKeycode cfg current.state (adcKeyActsGetKeycodeNew margin cfg again)).1 = _
  generalize pollKeycode cfg current.state _ = result at hpolled ⊢
  cases hpolled with
  | counted hcode hprev hnot => rfl
  | passedOver hcode hstable => exact absurd (hagain.symm.trans hcode) hkey
  | stable hcode hprev hdone => exact absurd hdone hcount
  | changed hcode hprev => exact absurd hagain hprev

/-- If a counted key is sampled as often as it takes, the samples up to there should all be
equal. -/
theorem suffix_of_reportsFiltered (current : Tracked ActsAdcKeyData (List UInt16)) {again : Sample}
    {n : Nat} (hagain : adcKeyActsGetKeycodeNew margin cfg again = current.state.prevKeycode)
    (hkey : current.state.prevKeycode ≠ keyReserved)
    (hcount : current.state.scanCount + (n + 1) = cfg.sampleFilterDep.toNat)
    (hreports : Along (sampleStep margin cfg) (ReportsFiltered margin cfg) current
      (List.replicate (n + 1) again)) :
    List.replicate cfg.sampleFilterDep.toNat current.state.prevKeycode <:+
      current.history ++ List.replicate (n + 1) current.state.prevKeycode := by
  induction n generalizing current with
  | zero =>
      have hpolled := polled cfg current.state (adcKeyActsGetKeycodeNew margin cfg again)
      have hnow := hreports.1 (.down current.state.prevKeycode)
      have hreported : (adcKeyActsPollNew margin cfg current.state again).2 =
          (pollKeycode cfg current.state (adcKeyActsGetKeycodeNew margin cfg again)).2 := rfl
      have hhistory : (sampleStep margin cfg current again).history =
          current.history ++ [adcKeyActsGetKeycodeNew margin cfg again] := rfl
      rw [hreported, hhistory, hagain] at hnow
      rw [hagain] at hpolled
      generalize pollKeycode cfg current.state current.state.prevKeycode = result
        at hpolled hnow
      cases hpolled with
      | stable hcode hprev hdone =>
          apply hnow
          rw [if_pos hkey]
          exact List.mem_append_right _ (List.mem_singleton_self _)
      | passedOver hcode hstable => exact absurd hcode hkey
      | counted hcode hprev hnot => exact absurd hcount hnot
      | changed hcode hprev => exact absurd rfl hprev
  | succ n ih =>
      have hstate := state_of_counted hagain hkey (show _ ≠ cfg.sampleFilterDep.toNat by omega)
      have hlater := ih (sampleStep margin cfg current again) (by rw [hstate, hagain])
        (by rw [hstate]; exact hkey) (by rw [hstate]; dsimp only; omega) hreports.2
      have hhistory : (sampleStep margin cfg current again).history =
          current.history ++ [current.state.prevKeycode] := by
        rw [← hagain]
        rfl
      rw [hhistory, hstate, List.append_assoc, List.singleton_append,
        ← List.replicate_succ] at hlater
      exact hlater

/-- A sample that is passed over while a key is counted leads to a report after too few equal
samples. -/
theorem exists_not_reportsFiltered {samples : List Sample} {idle : Sample}
    (hpassed : ¬NotPassedOver margin cfg (run (sampleStep margin cfg) noSamples samples) idle) :
    ∃ more, ¬Along (sampleStep margin cfg) (ReportsFiltered margin cfg) noSamples
      (samples ++ idle :: more) := by
  have hcounting := counting_run margin cfg samples
  unfold NotPassedOver at hpassed
  push Not at hpassed
  obtain ⟨hdeep, hpos, hstable, hcode⟩ := hpassed
  have hlt := hcounting.below hdeep
  have hkey := hcounting.key hstable hpos
  obtain ⟨again, hagain⟩ := hcounting.seen.resolve_left hkey
  generalize hcurrent : run (sampleStep margin cfg) noSamples samples = current at *
  obtain ⟨count, hcount⟩ : ∃ count, current.state.scanCount = count + 1 :=
    Nat.exists_eq_succ_of_ne_zero (Nat.ne_of_gt hpos)
  obtain ⟨n, hn⟩ := Nat.exists_eq_add_of_lt hlt
  refine ⟨List.replicate (n + 1) again, fun hreports => ?_⟩
  have hlater := (along_append.mp hreports).2.2
  rw [hcurrent] at hlater
  -- the idle sample leaves everything but the history alone
  have hidle : sampleStep margin cfg current idle =
      { state := current.state, history := current.history ++ [keyReserved] } := by
    rw [sampleStep, trackedStep, adcKeyActsPollNew, hcode, pollKeycode, if_pos ⟨rfl, hstable⟩]
  rw [hidle] at hlater
  have hsuffix : List.replicate cfg.sampleFilterDep.toNat current.state.prevKeycode <:+
      current.history ++ [keyReserved] ++
        List.replicate (n + 1) current.state.prevKeycode :=
    suffix_of_reportsFiltered
      { state := current.state, history := current.history ++ [keyReserved] } hagain hkey
      (show current.state.scanCount + (n + 1) = _ by omega) hlater
  have hdep : cfg.sampleFilterDep.toNat = count + 1 + (n + 1) := by omega
  rw [hdep, List.replicate_add, List.suffix_append_self_iff, List.replicate_succ'] at hsuffix
  rcases List.suffix_concat_iff.mp hsuffix with hnil | ⟨before, hlast, -⟩
  · exact absurd hnil (List.append_ne_nil_of_right_ne_nil _ (List.cons_ne_nil _ _))
  · obtain ⟨-, hsame⟩ := List.append_inj' hlast rfl
    exact hkey (List.cons.inj hsame).1

/-- The reports of a run come after enough equal samples if it passes no sample over while a key is
counted, and every sample that is passed over then can lead to one that does not. -/
theorem reports_filtered (samples : List Sample) :
    (Along (sampleStep margin cfg) (NotPassedOver margin cfg) noSamples samples →
      Along (sampleStep margin cfg) (ReportsFiltered margin cfg) noSamples samples) ∧
    ∀ idle, ¬NotPassedOver margin cfg (run (sampleStep margin cfg) noSamples samples) idle →
      ∃ more, ¬Along (sampleStep margin cfg) (ReportsFiltered margin cfg) noSamples
        (samples ++ idle :: more) :=
  ⟨along_reportsFiltered streak_noSamples, fun _ => exists_not_reportsFiltered⟩

end Sampling

/-- The keys of a board. -/
def adcKey0ActsCdata : ActsAdcKeyConfig where
  sampleFilterDep := 2
  keyMaps := [{ adcDiv := 28, keyCode := 6 }, { adcDiv := 60, keyCode := 7 },
    { adcDiv := 95, keyCode := 8 }]

/-- The margin without rounding errors. -/
def sixtieth (batVal : UInt16) : UInt16 := batVal / 60

def keySample : Sample := { batVal := 3000, adcVal := 84 }

def idleSample : Sample := { batVal := 3000, adcVal := 1023 }

/-- Two samples of a key are reported rightly, and a sample passed over after one of them leads to
a wrong report. -/
theorem two_samples_reported :
    Along (sampleStep sixtieth adcKey0ActsCdata) (ReportsFiltered sixtieth adcKey0ActsCdata)
        noSamples [idleSample, keySample, keySample, idleSample, idleSample] ∧
      ∃ more, ¬Along (sampleStep sixtieth adcKey0ActsCdata)
        (ReportsFiltered sixtieth adcKey0ActsCdata) noSamples
        ([keySample] ++ idleSample :: more) :=
  ⟨(reports_filtered [idleSample, keySample, keySample, idleSample, idleSample]).1
      (by decide),
    (reports_filtered [keySample]).2 idleSample (by decide)⟩

/-- Two samples of a key with none between them are taken for a press. -/
theorem glitches_reported :
    ¬∀ (margin : UInt16 → UInt16) (cfg : ActsAdcKeyConfig) (samples : List Sample),
      Along (sampleStep margin cfg) (ReportsFiltered margin cfg) noSamples samples := by
  intro hall
  have hfiltered := hall sixtieth adcKey0ActsCdata [keySample, idleSample, keySample]
  have hdown := hfiltered.2.2.1 (.down 6) (by decide)
  revert hdown
  unfold Filtered
  decide

end CubieBle.Rcu.AdcKey
