import Mathlib.Data.Finset.Card
import Mathlib.Data.Fintype.Card
import Mathlib.Data.List.FinRange
import Mathlib.Data.UInt
import CubieBle.Machine.Mask
import CubieBle.Machine.Run

/-! # LEDs

An LED is asked to be on, steadily or blinking with a period, by several parts of the
program at once; each request stands until it is cancelled, and the LED follows the
fastest one. The periods are kept in four slots with a mask beside them, whose fifth bit
is the steady request.
-/

namespace CubieBle.Hal

open Machine

/-! ## The device -/

def ledOff : UInt8 := 1
def ledOn : UInt8 := 0

def maxBlinkNum : Nat := 4
def nonePwmChan : UInt8 := 0xff

/-- What the pin of an LED is connected to. -/
inductive Pinmux where
  | pwm
  | pullDown
  | pullUp
deriving DecidableEq

/-- An LED and what the hardware was told last: the two arguments of
`pwm_pin_set_cycles`, or the pin and, while it runs, half the period of the timer. -/
structure LedDevice where
  ledPwm : UInt8
  ledPol : Bool
  blinkState : Bool
  ledState : UInt8
  onMask : UInt32
  blinkPeriod : Fin maxBlinkNum → UInt32
  pinmux : Option Pinmux
  pwmCycles : Option (UInt32 × UInt32)
  pin : Option UInt8
  blinkTimer : Option UInt32

/-- `find_blink_period`; `none` is the result -1. -/
def findBlinkPeriod (led : LedDevice) (blinkPeriod : UInt32) : Option (Fin maxBlinkNum) :=
  (List.finRange maxBlinkNum).find? fun i => blinkPeriod = led.blinkPeriod i

/-- The loop of `select_fast_blink_period`. -/
def fastBlinkPeriod (led : LedDevice) (slots : List (Fin maxBlinkNum)) (refVal : UInt32) :
    UInt32 :=
  slots.foldl (fun refVal i =>
    if led.blinkPeriod i ≠ 0 ∧ led.blinkPeriod i < refVal then led.blinkPeriod i else refVal)
    refVal

def selectFastBlinkPeriod (led : LedDevice) : UInt32 :=
  let refVal := fastBlinkPeriod led (List.finRange maxBlinkNum) 0xffff
  if refVal = 0xffff then 0 else refVal

def clearOnState (led : LedDevice) (blinkPeriod : UInt32) : LedDevice :=
  if blinkPeriod = 0 then
    { led with onMask := led.onMask &&& ~~~(1 <<< UInt32.ofNat maxBlinkNum) }
  else
    match findBlinkPeriod led blinkPeriod with
    | some index =>
        { led with
          blinkPeriod := Function.update led.blinkPeriod index 0
          onMask := led.onMask &&& ~~~(1 <<< UInt32.ofNat index) }
    | none => led

def setOnState (led : LedDevice) (blinkPeriod : UInt32) : LedDevice :=
  if blinkPeriod = 0 then
    { led with onMask := led.onMask ||| (1 <<< UInt32.ofNat maxBlinkNum) }
  else if (findBlinkPeriod led blinkPeriod).isNone then
    match (List.finRange maxBlinkNum).find? fun i => led.blinkPeriod i = 0 with
    | some i =>
        { led with
          blinkPeriod := Function.update led.blinkPeriod i blinkPeriod
          onMask := led.onMask ||| (1 <<< UInt32.ofNat i) }
    | none => led
  else led

def firstSlot : Fin maxBlinkNum := ⟨0, by decide⟩

/-- `reset_led_state`. -/
def resetLedState (led : LedDevice) : LedDevice :=
  { led with
    onMask := 0
    -- `memset` clears `MAX_BLINK_NUM` bytes, which is the first slot
    blinkPeriod := Function.update led.blinkPeriod firstSlot 0
    blinkTimer := if led.ledPwm = nonePwmChan then none else led.blinkTimer }

/-- The second half of `set_led_status`: the hardware follows `led_state`. -/
def driveLed (led : LedDevice) : LedDevice :=
  if led.ledState = ledOn then
    let period := selectFastBlinkPeriod led
    if period = 0 then
      if led.ledPwm ≠ nonePwmChan then
        { led with pinmux := some .pwm, pwmCycles := some (10, 10 - 1) }
      else { led with blinkTimer := none, pin := some ledOn }
    else if led.ledPwm ≠ nonePwmChan then
      { led with
        blinkState := false, pinmux := some .pwm, pwmCycles := some (period, period / 2) }
    else { led with blinkState := false, blinkTimer := some (period / 2) }
  else if led.ledState = ledOff then
    if led.ledPwm ≠ nonePwmChan then
      { led with
        pwmCycles := some (10, 0)
        pinmux := some (if led.ledPol then .pullDown else .pullUp) }
    else { led with blinkTimer := none, pin := some ledOff }
  else led

/-- `set_led_status`; a state that is neither is refused. -/
def setLedStatus (led : LedDevice) (ledState : UInt8) (blinkPeriod : UInt32) : LedDevice :=
  if ledState = ledOn then
    driveLed { setOnState led blinkPeriod with ledState := ledOn }
  else if ledState = ledOff then
    let led := clearOnState led blinkPeriod
    driveLed { led with ledState := if led.onMask ≠ 0 then ledOn else ledOff }
  else led

/-- `led_device_init` on zeroed memory. -/
def ledDeviceInit (ledPwm : UInt8) (ledPol : Bool) : LedDevice :=
  resetLedState
    { ledPwm, ledPol, blinkState := false, ledState := 0, onMask := 0
      blinkPeriod := fun _ => 0, pinmux := none, pwmCycles := none, pin := none
      blinkTimer := none }

/-! ## Requests -/

inductive LedCall where
  | on (blinkPeriod : UInt32)
  | off (blinkPeriod : UInt32)
  | reset
deriving DecidableEq

def ledStep (led : LedDevice) : LedCall → LedDevice
  | .on blinkPeriod => setLedStatus led ledOn blinkPeriod
  | .off blinkPeriod => setLedStatus led ledOff blinkPeriod
  | .reset => resetLedState led

/-- The requests that stand after a call; the period 0 is the steady request. -/
def requestsAfter (requests : Finset UInt32) : LedCall → Finset UInt32
  | .on blinkPeriod => insert blinkPeriod requests
  | .off blinkPeriod => requests.erase blinkPeriod
  | .reset => ∅

/-- An LED with the requests that stand. -/
structure LedSystem where
  led : LedDevice
  requests : Finset UInt32

def ledSystemStep (system : LedSystem) (call : LedCall) : LedSystem where
  led := ledStep system.led call
  requests := requestsAfter system.requests call

/-- Periods are at most 0xFFFE, and there are slots for all that are requested at once. -/
def LedPermitted (system : LedSystem) (call : LedCall) : Prop :=
  (∀ period ∈ requestsAfter system.requests call, period ≤ 0xfffe) ∧
    ((requestsAfter system.requests call).erase 0).card ≤ maxBlinkNum

/-- The hardware blinks with this period. -/
def LedDevice.Blinks (led : LedDevice) (period : UInt32) : Prop :=
  if led.ledPwm ≠ nonePwmChan then
    led.pinmux = some .pwm ∧ led.pwmCycles = some (period, period / 2)
  else led.blinkTimer = some (period / 2)

/-- The hardware is steadily on. -/
def LedDevice.Steady (led : LedDevice) : Prop :=
  if led.ledPwm ≠ nonePwmChan then
    led.pinmux = some .pwm ∧ led.pwmCycles = some (10, 10 - 1)
  else led.blinkTimer = none ∧ led.pin = some ledOn

/-- The LED does what its requests say. -/
structure LedFollows (system : LedSystem) : Prop where
  mask : ∀ i : Fin maxBlinkNum,
    system.led.onMask &&& (1 <<< UInt32.ofNat i) ≠ 0 ↔ system.led.blinkPeriod i ≠ 0
  requested : ∀ period, period ≠ 0 →
    (period ∈ system.requests ↔ ∃ i, system.led.blinkPeriod i = period)
  distinct : ∀ i j, system.led.blinkPeriod i = system.led.blinkPeriod j →
    system.led.blinkPeriod i ≠ 0 → i = j
  state : system.led.ledState = ledOn ↔ system.requests.Nonempty
  blinks : system.led.ledState = ledOn →
    ∀ period ∈ system.requests, period ≠ 0 →
      (∀ other ∈ system.requests, other ≠ 0 → period ≤ other) → system.led.Blinks period
  steady : system.led.ledState = ledOn → (∀ period ∈ system.requests, period = 0) →
    system.led.Steady

/-! ## The slots -/

/-- The slots and the mask hold the requests. -/
structure HoldsRequests (onMask : UInt32) (blinkPeriod : Fin maxBlinkNum → UInt32)
    (requests : Finset UInt32) : Prop where
  mask : ∀ j, onMask.toBitVec.getLsbD j = true ↔
    (∃ i : Fin maxBlinkNum, i.val = j ∧ blinkPeriod i ≠ 0) ∨ (j = maxBlinkNum ∧ 0 ∈ requests)
  requested : ∀ period, period ≠ 0 → (period ∈ requests ↔ ∃ i, blinkPeriod i = period)
  distinct : ∀ i j, blinkPeriod i = blinkPeriod j → blinkPeriod i ≠ 0 → i = j
  bounded : ∀ period ∈ requests, period ≤ 0xfffe

section Slots

variable {onMask : UInt32} {blinkPeriod : Fin maxBlinkNum → UInt32}
  {requests requests' : Finset UInt32} {led : LedDevice} {period : UInt32}

theorem blinkPeriod_of_find {i : Fin maxBlinkNum}
    (hfind : findBlinkPeriod led period = some i) : led.blinkPeriod i = period := by
  have hsome := List.find?_some hfind
  exact (of_decide_eq_true hsome).symm

theorem blinkPeriod_ne_of_find (hfind : findBlinkPeriod led period = none)
    (i : Fin maxBlinkNum) : led.blinkPeriod i ≠ period := by
  have hnone := List.find?_eq_none.mp hfind i (List.mem_finRange i)
  simpa [eq_comm] using hnone

/-- As long as there are no more periods than slots, a new period finds a free slot. -/
theorem HoldsRequests.exists_free (h : HoldsRequests onMask blinkPeriod requests)
    (hperiod : period ≠ 0) (hnew : period ∉ requests)
    (hcard : ((insert period requests).erase 0).card ≤ maxBlinkNum) :
    ∃ i, blinkPeriod i = 0 := by
  by_contra hfull
  simp only [not_exists] at hfull
  have hinjective : Function.Injective blinkPeriod := fun i j heq =>
    h.distinct i j heq (hfull i)
  have hsubset : insert period (Finset.univ.image blinkPeriod) ⊆
      (insert period requests).erase 0 := by
    intro other hother
    rcases Finset.mem_insert.mp hother with rfl | hother
    · exact Finset.mem_erase.mpr ⟨hperiod, Finset.mem_insert_self _ _⟩
    · obtain ⟨i, -, rfl⟩ := Finset.mem_image.mp hother
      exact Finset.mem_erase.mpr ⟨hfull i, Finset.mem_insert_of_mem
        ((h.requested _ (hfull i)).mpr ⟨i, rfl⟩)⟩
  have hout : period ∉ Finset.univ.image blinkPeriod := by
    intro hmem
    obtain ⟨i, -, hi⟩ := Finset.mem_image.mp hmem
    exact hnew ((h.requested period hperiod).mpr ⟨i, hi⟩)
  have hle := Finset.card_le_card hsubset
  rw [Finset.card_insert_of_notMem hout, Finset.card_image_of_injective _ hinjective,
    Finset.card_univ, Fintype.card_fin] at hle
  omega

/-- A new period in a free slot. -/
theorem HoldsRequests.fill (h : HoldsRequests onMask blinkPeriod requests)
    {i : Fin maxBlinkNum} (hfree : blinkPeriod i = 0) (hperiod : period ≠ 0)
    (hnew : ∀ j, blinkPeriod j ≠ period) (hbound : period ≤ 0xfffe) :
    HoldsRequests (onMask ||| (1 <<< UInt32.ofNat i)) (Function.update blinkPeriod i period)
      (insert period requests) where
  mask := by
    intro j
    have hi : i.val < 32 := Nat.lt_trans i.isLt (by decide)
    have hzero : (0 : UInt32) ∈ insert period requests ↔ 0 ∈ requests := by
      simp [Finset.mem_insert, hperiod.symm]
    rw [getLsbD_or_bit onMask hi, Bool.or_eq_true, h.mask, hzero, decide_eq_true_eq]
    constructor
    · rintro ((⟨k, hk, hslot⟩ | hsteady) | hj)
      · have hki : k ≠ i := fun heq => hslot (heq ▸ hfree)
        exact Or.inl ⟨k, hk, by rwa [Function.update_of_ne hki]⟩
      · exact Or.inr hsteady
      · exact Or.inl ⟨i, hj.symm, by rwa [Function.update_self]⟩
    · rintro (⟨k, hk, hslot⟩ | hsteady)
      · by_cases hki : k = i
        · exact Or.inr (hki ▸ hk.symm)
        · exact Or.inl (Or.inl ⟨k, hk, by rwa [Function.update_of_ne hki] at hslot⟩)
      · exact Or.inl (Or.inr hsteady)
  requested := by
    intro other hne
    rw [Finset.mem_insert, h.requested other hne]
    constructor
    · rintro (rfl | ⟨k, hk⟩)
      · exact ⟨i, Function.update_self _ _ _⟩
      · have hki : k ≠ i := fun heq => hne (hk.symm.trans (heq ▸ hfree))
        exact ⟨k, by rwa [Function.update_of_ne hki]⟩
    · rintro ⟨k, hk⟩
      by_cases hki : k = i
      · rw [hki, Function.update_self] at hk
        exact Or.inl hk.symm
      · rw [Function.update_of_ne hki] at hk
        exact Or.inr ⟨k, hk⟩
  distinct := by
    intro j k heq hne
    by_cases hj : j = i
    · by_cases hk : k = i
      · rw [hj, hk]
      · rw [hj, Function.update_self, Function.update_of_ne hk] at heq
        exact absurd heq.symm (hnew k)
    · by_cases hk : k = i
      · rw [hk, Function.update_self, Function.update_of_ne hj] at heq
        exact absurd heq (hnew j)
      · rw [Function.update_of_ne hj, Function.update_of_ne hk] at heq
        rw [Function.update_of_ne hj] at hne
        exact h.distinct j k heq hne
  bounded := by
    intro other hother
    rcases Finset.mem_insert.mp hother with rfl | hother
    · exact hbound
    · exact h.bounded other hother

/-- The slot of a period is cleared. -/
theorem HoldsRequests.clear (h : HoldsRequests onMask blinkPeriod requests)
    {i : Fin maxBlinkNum} (hslot : blinkPeriod i = period) (hperiod : period ≠ 0) :
    HoldsRequests (onMask &&& ~~~(1 <<< UInt32.ofNat i)) (Function.update blinkPeriod i 0)
      (requests.erase period) where
  mask := by
    intro j
    have hi : i.val < 32 := Nat.lt_trans i.isLt (by decide)
    have hzero : (0 : UInt32) ∈ requests.erase period ↔ 0 ∈ requests := by
      simp [Finset.mem_erase, hperiod.symm]
    rw [getLsbD_and_not_bit onMask hi, Bool.and_eq_true, h.mask, hzero, Bool.not_eq_true',
      decide_eq_false_iff_not]
    constructor
    · rintro ⟨⟨k, hk, hne⟩ | hsteady, hj⟩
      · have hki : k ≠ i := fun heq => hj (heq ▸ hk.symm)
        exact Or.inl ⟨k, hk, by rwa [Function.update_of_ne hki]⟩
      · exact Or.inr hsteady
    · rintro (⟨k, hk, hne⟩ | ⟨hj, hsteady⟩)
      · have hki : k ≠ i := by
          rintro rfl
          exact hne (Function.update_self _ _ _)
        rw [Function.update_of_ne hki] at hne
        exact ⟨Or.inl ⟨k, hk, hne⟩, fun heq => hki (Fin.ext (hk.trans heq))⟩
      · exact ⟨Or.inr ⟨hj, hsteady⟩, fun heq => Nat.ne_of_lt i.isLt (heq.symm.trans hj)⟩
  requested := by
    intro other hne
    rw [Finset.mem_erase, h.requested other hne]
    constructor
    · rintro ⟨hother, k, hk⟩
      have hki : k ≠ i := fun heq => hother (hk.symm.trans (heq ▸ hslot))
      exact ⟨k, by rwa [Function.update_of_ne hki]⟩
    · rintro ⟨k, hk⟩
      have hki : k ≠ i := by
        rintro rfl
        exact hne (hk.symm.trans (Function.update_self _ _ _))
      rw [Function.update_of_ne hki] at hk
      refine ⟨?_, k, hk⟩
      rintro rfl
      exact hki (h.distinct k i (hk.trans hslot.symm) (hk ▸ hne))
  distinct := by
    intro j k heq hne
    have hj : j ≠ i := by
      rintro rfl
      exact hne (Function.update_self _ _ _)
    rw [Function.update_of_ne hj] at heq hne
    have hk : k ≠ i := by
      rintro rfl
      exact hne (heq.trans (Function.update_self _ _ _))
    rw [Function.update_of_ne hk] at heq
    exact h.distinct j k heq hne
  bounded := fun other hother => h.bounded other (Finset.mem_of_mem_erase hother)

/-- The steady request is made. -/
theorem HoldsRequests.setSteady (h : HoldsRequests onMask blinkPeriod requests) :
    HoldsRequests (onMask ||| (1 <<< UInt32.ofNat maxBlinkNum)) blinkPeriod
      (insert 0 requests) where
  mask := by
    intro j
    rw [getLsbD_or_bit onMask (by decide), Bool.or_eq_true, h.mask, decide_eq_true_eq]
    rw [or_assoc, or_iff_right_of_imp And.left, and_iff_left (Finset.mem_insert_self _ _)]
  requested := by
    intro period hne
    rw [Finset.mem_insert, or_iff_right hne, h.requested period hne]
  distinct := h.distinct
  bounded := by
    intro period hperiod
    rcases Finset.mem_insert.mp hperiod with rfl | hperiod
    · decide
    · exact h.bounded period hperiod

/-- The steady request is cancelled. -/
theorem HoldsRequests.clearSteady (h : HoldsRequests onMask blinkPeriod requests) :
    HoldsRequests (onMask &&& ~~~(1 <<< UInt32.ofNat maxBlinkNum)) blinkPeriod
      (requests.erase 0) where
  mask := by
    intro j
    rw [getLsbD_and_not_bit onMask (by decide), Bool.and_eq_true, h.mask, Bool.not_eq_true',
      decide_eq_false_iff_not]
    constructor
    · rintro ⟨hslot | ⟨hj, -⟩, hne⟩
      · exact Or.inl hslot
      · exact absurd hj hne
    · rintro (⟨k, hk, hslot⟩ | ⟨-, hzero⟩)
      · exact ⟨Or.inl ⟨k, hk, hslot⟩, fun heq => Nat.ne_of_lt k.isLt (hk.trans heq)⟩
      · exact absurd hzero (Finset.notMem_erase _ _)
  requested := by
    intro period hne
    rw [Finset.mem_erase, and_iff_right hne, h.requested period hne]
  distinct := h.distinct
  bounded := fun period hperiod => h.bounded period (Finset.mem_of_mem_erase hperiod)

theorem holdsRequests_setOnState (h : HoldsRequests led.onMask led.blinkPeriod requests)
    (hbound : period ≤ 0xfffe)
    (hcard : ((insert period requests).erase 0).card ≤ maxBlinkNum) :
    HoldsRequests (setOnState led period).onMask (setOnState led period).blinkPeriod
      (insert period requests) := by
  by_cases hperiod : period = 0
  · subst hperiod
    rw [setOnState, if_pos rfl]
    exact h.setSteady
  · rw [setOnState, if_neg hperiod]
    cases hfind : findBlinkPeriod led period with
    | some i =>
        have hmem := (h.requested period hperiod).mpr ⟨i, blinkPeriod_of_find hfind⟩
        rw [Finset.insert_eq_of_mem hmem]
        exact h
    | none =>
        have hnew := blinkPeriod_ne_of_find hfind
        have hout : period ∉ requests := by
          rw [h.requested period hperiod]
          rintro ⟨i, hi⟩
          exact hnew i hi
        obtain ⟨free, hfree⟩ := h.exists_free hperiod hout hcard
        rw [Option.isNone_none, if_pos rfl]
        cases hslot : (List.finRange maxBlinkNum).find? fun i => led.blinkPeriod i = 0 with
        | none =>
            have hfull := List.find?_eq_none.mp hslot free (List.mem_finRange free)
            simp [hfree] at hfull
        | some i =>
            have hzero := List.find?_some hslot
            exact h.fill (of_decide_eq_true hzero) hperiod hnew hbound

theorem holdsRequests_clearOnState (period : UInt32)
    (h : HoldsRequests led.onMask led.blinkPeriod requests) :
    HoldsRequests (clearOnState led period).onMask (clearOnState led period).blinkPeriod
      (requests.erase period) := by
  by_cases hperiod : period = 0
  · subst hperiod
    rw [clearOnState, if_pos rfl]
    exact h.clearSteady
  · rw [clearOnState, if_neg hperiod]
    cases hfind : findBlinkPeriod led period with
    | some i => exact h.clear (blinkPeriod_of_find hfind) hperiod
    | none =>
        have hout : period ∉ requests := by
          rw [h.requested period hperiod]
          rintro ⟨i, hi⟩
          exact blinkPeriod_ne_of_find hfind i hi
        rw [Finset.erase_eq_of_notMem hout]
        exact h

/-- The mask is clear exactly if no request stands. -/
theorem HoldsRequests.onMask_ne_zero_iff (h : HoldsRequests onMask blinkPeriod requests) :
    onMask ≠ 0 ↔ requests.Nonempty := by
  rw [getLsbD_ne_zero_iff]
  constructor
  · rintro ⟨j, hj⟩
    rcases (h.mask j).mp hj with ⟨i, -, hi⟩ | ⟨-, hzero⟩
    · exact ⟨blinkPeriod i, (h.requested _ hi).mpr ⟨i, rfl⟩⟩
    · exact ⟨0, hzero⟩
  · rintro ⟨period, hperiod⟩
    by_cases hzero : period = 0
    · exact ⟨maxBlinkNum, (h.mask _).mpr (Or.inr ⟨rfl, hzero ▸ hperiod⟩)⟩
    · obtain ⟨i, hi⟩ := (h.requested period hzero).mp hperiod
      exact ⟨i, (h.mask i).mpr (Or.inl ⟨i, rfl, hi ▸ hzero⟩)⟩

/-! ## The fastest period -/

/-- The loop finds the smallest period of the slots it has seen, if that is below the
reference. -/
theorem fastBlinkPeriod_spec (led : LedDevice) (slots : List (Fin maxBlinkNum)) (refVal : UInt32) :
    fastBlinkPeriod led slots refVal ≤ refVal ∧
      (∀ i ∈ slots, led.blinkPeriod i ≠ 0 →
        fastBlinkPeriod led slots refVal ≤ led.blinkPeriod i) ∧
      (fastBlinkPeriod led slots refVal = refVal ∨
        ∃ i, led.blinkPeriod i ≠ 0 ∧ fastBlinkPeriod led slots refVal = led.blinkPeriod i) := by
  induction slots generalizing refVal with
  | nil => exact ⟨UInt32.le_refl _, by simp, Or.inl rfl⟩
  | cons first rest ih =>
      have hcons : fastBlinkPeriod led (first :: rest) refVal = fastBlinkPeriod led rest
          (if led.blinkPeriod first ≠ 0 ∧ led.blinkPeriod first < refVal then
            led.blinkPeriod first else refVal) := rfl
      rw [hcons]
      split
      next hfaster =>
        obtain ⟨hle, hall, hfrom⟩ := ih (led.blinkPeriod first)
        refine ⟨UInt32.le_trans hle (UInt32.le_of_lt hfaster.2), ?_, ?_⟩
        · intro i hi hne
          rcases List.mem_cons.mp hi with rfl | hi
          · exact hle
          · exact hall i hi hne
        · rcases hfrom with heq | hfrom
          · exact Or.inr ⟨first, hfaster.1, heq⟩
          · exact Or.inr hfrom
      next hslower =>
        obtain ⟨hle, hall, hfrom⟩ := ih refVal
        refine ⟨hle, ?_, hfrom⟩
        intro i hi hne
        rcases List.mem_cons.mp hi with rfl | hi
        · have hnot : ¬led.blinkPeriod i < refVal := fun hlt => hslower ⟨hne, hlt⟩
          exact UInt32.le_trans hle (UInt32.not_lt.mp hnot)
        · exact hall i hi hne

theorem selectFastBlinkPeriod_of_steady
    (h : HoldsRequests led.onMask led.blinkPeriod requests)
    (hsteady : ∀ period ∈ requests, period = 0) : selectFastBlinkPeriod led = 0 := by
  obtain ⟨-, -, hfrom⟩ := fastBlinkPeriod_spec led (List.finRange maxBlinkNum) 0xffff
  rw [selectFastBlinkPeriod]
  rcases hfrom with heq | ⟨i, hne, -⟩
  · exact if_pos heq
  · exact absurd (hsteady _ ((h.requested _ hne).mpr ⟨i, rfl⟩)) hne

theorem selectFastBlinkPeriod_of_least
    (h : HoldsRequests led.onMask led.blinkPeriod requests) (hmem : period ∈ requests)
    (hne : period ≠ 0) (hleast : ∀ other ∈ requests, other ≠ 0 → period ≤ other) :
    selectFastBlinkPeriod led = period := by
  obtain ⟨-, hall, hfrom⟩ :=
    fastBlinkPeriod_spec led (List.finRange maxBlinkNum) 0xffff
  obtain ⟨slot, hslot⟩ := (h.requested period hne).mp hmem
  have hle : fastBlinkPeriod led (List.finRange maxBlinkNum) 0xffff ≤ period := by
    rw [← hslot]
    exact hall slot (List.mem_finRange slot) (hslot ▸ hne)
  have hbound := h.bounded period hmem
  have hfast : fastBlinkPeriod led (List.finRange maxBlinkNum) 0xffff ≠ 0xffff := by
    intro heq
    rw [heq] at hle
    exact absurd (UInt32.le_trans hle hbound) (by decide)
  rw [selectFastBlinkPeriod, if_neg hfast]
  rcases hfrom with heq | ⟨i, hi, heq⟩
  · exact absurd heq hfast
  · have hge := hleast _ ((h.requested _ hi).mpr ⟨i, rfl⟩) hi
    rw [heq] at hle ⊢
    exact UInt32.le_antisymm hle hge

/-! ## What the LED shows -/

theorem driveLed_frame (led : LedDevice) :
    (driveLed led).onMask = led.onMask ∧ (driveLed led).blinkPeriod = led.blinkPeriod ∧
      (driveLed led).ledState = led.ledState := by
  simp only [driveLed]
  split_ifs <;> exact ⟨rfl, rfl, rfl⟩

theorem driveLed_steady (hon : led.ledState = ledOn) (hperiod : selectFastBlinkPeriod led = 0) :
    (driveLed led).Steady := by
  rw [driveLed, if_pos hon, if_pos hperiod]
  by_cases hpwm : led.ledPwm ≠ nonePwmChan
  · simp [hpwm, LedDevice.Steady]
  · simp [hpwm, LedDevice.Steady]

theorem driveLed_blinks (hon : led.ledState = ledOn) (hperiod : selectFastBlinkPeriod led ≠ 0) :
    (driveLed led).Blinks (selectFastBlinkPeriod led) := by
  rw [driveLed, if_pos hon, if_neg hperiod]
  by_cases hpwm : led.ledPwm ≠ nonePwmChan
  · simp [hpwm, LedDevice.Blinks]
  · simp [hpwm, LedDevice.Blinks]

theorem ledFollows_of_holdsRequests
    (h : HoldsRequests led.onMask led.blinkPeriod requests)
    (hstate : led.ledState = ledOn ↔ requests.Nonempty) :
    LedFollows ⟨driveLed led, requests⟩ := by
  obtain ⟨hmask, hslots, hsame⟩ := driveLed_frame led
  refine ⟨?_, ?_, ?_, ?_, ?_, ?_⟩
  · intro i
    have hi : i.val < 32 := Nat.lt_trans i.isLt (by decide)
    rw [hmask, hslots, and_bit_ne_zero_iff led.onMask hi, h.mask]
    have hne : i.val ≠ maxBlinkNum := Nat.ne_of_lt i.isLt
    simp [hne, Fin.val_inj]
  · rw [hslots]
    exact h.requested
  · rw [hslots]
    exact h.distinct
  · rw [hsame]
    exact hstate
  · rw [hsame]
    intro hon period hmem hne hleast
    have hfast := selectFastBlinkPeriod_of_least h hmem hne hleast
    have hblinks := driveLed_blinks hon (hfast ▸ hne)
    rwa [hfast] at hblinks
  · rw [hsame]
    intro hon hsteady
    exact driveLed_steady hon (selectFastBlinkPeriod_of_steady h hsteady)

end Slots

/-- The slots hold the requests, and an LED that is off has none. -/
structure LedInvariant (system : LedSystem) : Prop where
  holds : HoldsRequests system.led.onMask system.led.blinkPeriod system.requests
  state : system.led.ledState = ledOn ∨ system.led.ledState = ledOff
  off : system.led.ledState = ledOff → system.requests = ∅

theorem ledOff_ne_on : ledOff ≠ ledOn := by decide

theorem holdsRequests_empty : HoldsRequests 0 (fun _ => 0) ∅ where
  mask := by simp
  requested := by
    intro period hne
    simp [hne.symm]
  distinct := fun _ _ _ hne => absurd rfl hne
  bounded := by simp

theorem LedInvariant.init (ledPwm : UInt8) (ledPol : Bool) :
    LedInvariant ⟨ledDeviceInit ledPwm ledPol, ∅⟩ where
  holds := by
    have hslots : Function.update (fun _ : Fin maxBlinkNum => (0 : UInt32)) firstSlot 0 =
        fun _ => 0 := Function.update_eq_self _ _
    simp only [ledDeviceInit, resetLedState, hslots]
    exact holdsRequests_empty
  state := Or.inl rfl
  off := fun _ => rfl

theorem requests_eq_empty_of_off {led : LedDevice} {requests : Finset UInt32}
    (hstate : led.ledState = ledOn ↔ requests.Nonempty) (hoff : led.ledState = ledOff) :
    requests = ∅ := by
  rw [hoff, iff_false_left ledOff_ne_on, Finset.not_nonempty_iff_eq_empty] at hstate
  exact hstate

theorem ledStep_on (led : LedDevice) (period : UInt32) :
    ledStep led (.on period) = driveLed { setOnState led period with ledState := ledOn } := by
  rw [ledStep, setLedStatus, if_pos rfl]

theorem ledStep_off (led : LedDevice) (period : UInt32) :
    ledStep led (.off period) = driveLed { clearOnState led period with
      ledState := if (clearOnState led period).onMask ≠ 0 then ledOn else ledOff } := by
  rw [ledStep, setLedStatus, if_neg ledOff_ne_on, if_pos rfl]

/-- Setting a status always brings the LED in line with its requests. -/
theorem LedInvariant.set {system : LedSystem} (h : LedInvariant system) {call : LedCall}
    (hcall : call ≠ .reset) (hpermitted : LedPermitted system call) :
    LedFollows (ledSystemStep system call) ∧ LedInvariant (ledSystemStep system call) := by
  have hdone (led : LedDevice) (hled : ledStep system.led call = driveLed led)
      (hholds : HoldsRequests led.onMask led.blinkPeriod (requestsAfter system.requests call))
      (hvalue : led.ledState = ledOn ∨ led.ledState = ledOff)
      (hstate : led.ledState = ledOn ↔ (requestsAfter system.requests call).Nonempty) :
      LedFollows (ledSystemStep system call) ∧ LedInvariant (ledSystemStep system call) := by
    obtain ⟨hmask, hslots, hsame⟩ := driveLed_frame led
    rw [ledSystemStep, hled]
    refine ⟨ledFollows_of_holdsRequests hholds hstate, ?_, ?_, ?_⟩
    · rw [hmask, hslots]
      exact hholds
    · rw [hsame]
      exact hvalue
    · rw [hsame]
      exact requests_eq_empty_of_off hstate
  cases call with
  | on period =>
      refine hdone _ (ledStep_on system.led period) ?_ (Or.inl rfl) ?_
      · exact holdsRequests_setOnState h.holds
          (hpermitted.1 period (Finset.mem_insert_self _ _)) hpermitted.2
      · exact iff_of_true rfl (Finset.insert_nonempty _ _)
  | off period =>
      have hholds := holdsRequests_clearOnState period h.holds
      refine hdone _ (ledStep_off system.led period) hholds (by dsimp only; split <;> simp) ?_
      have hmask := hholds.onMask_ne_zero_iff
      dsimp only [requestsAfter]
      rw [← hmask]
      split
      next hmask => exact iff_of_true rfl hmask
      next hmask => exact iff_of_false ledOff_ne_on hmask
  | reset => exact absurd rfl hcall

/-- A reset of an LED that is off changes nothing. -/
theorem LedInvariant.reset_off {system : LedSystem} (h : LedInvariant system)
    (hoff : system.led.ledState = ledOff) :
    (resetLedState system.led).onMask = 0 ∧
      (resetLedState system.led).blinkPeriod = fun _ => 0 := by
  refine ⟨rfl, ?_⟩
  funext i
  have hslot : ∀ j, system.led.blinkPeriod j = 0 := by
    intro j
    by_contra hne
    have hmem := (h.holds.requested _ hne).mpr ⟨j, rfl⟩
    rw [h.off hoff] at hmem
    exact Finset.notMem_empty _ hmem
  have hreset : (resetLedState system.led).blinkPeriod i =
      Function.update system.led.blinkPeriod firstSlot 0 i := rfl
  rw [hreset]
  by_cases hi : i = firstSlot
  · rw [hi, Function.update_self]
  · rw [Function.update_of_ne hi, hslot]

theorem LedInvariant.step {system : LedSystem} (h : LedInvariant system) {call : LedCall}
    (hpermitted : LedPermitted system call) (hoff : call = .reset → system.led.ledState = ledOff) :
    LedInvariant (ledSystemStep system call) := by
  by_cases hcall : call = .reset
  · subst hcall
    obtain ⟨hmask, hslots⟩ := h.reset_off (hoff rfl)
    refine ⟨?_, Or.inr (hoff rfl), fun _ => rfl⟩
    simp only [ledSystemStep, ledStep, requestsAfter, hmask, hslots]
    exact holdsRequests_empty
  · exact (h.set hcall hpermitted).2

instance (system : LedSystem) (call : LedCall) : Decidable (LedPermitted system call) :=
  haveI : Decidable (∀ period ∈ requestsAfter system.requests call, period ≤ 0xfffe) :=
    Finset.decidableDforallFinset
  inferInstanceAs (Decidable (_ ∧ _))

end CubieBle.Hal
