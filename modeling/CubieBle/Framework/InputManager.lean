import Mathlib.Data.List.Induction
import Mathlib.Data.UInt
import CubieBle.Machine.Alternation
import CubieBle.Machine.Run

/-! # The input manager

The key matrix and the ADC keys deliver their events to one handler, which drops the
repetitions of a press and hands everything else on. Whether an event is a repetition is
told from one pair of variables, the code and the type of the event before, and both
devices share it.
-/

namespace CubieBle.Framework

open Machine

/-! ## The handler -/

def evKey : UInt16 := 0x01
def keyValueDown : UInt32 := 1
def keyValueUp : UInt32 := 0

def keyTypeDown : UInt32 := 0x20000000
def keyTypeUp : UInt32 := 0x10000000
def keyTypeAll : UInt32 := 0x3F000000

structure InputValue where
  type : UInt16
  code : UInt16
  value : UInt32
deriving DecidableEq

/-- The manager with what it has handed on: the calls of `event_cb`, and the
`MSG_KEY_INPUT` messages of `report_key_event`. -/
structure InputManager where
  eventCb : Bool := false
  pressType : UInt32 := 0
  pressCode : UInt32 := 0
  reportKeyValue : UInt32 := 0
  inputEventLock : Bool := false
  reported : List UInt32 := []
  messages : List UInt32 := []
deriving DecidableEq

/-- `input_manager_init` with both devices opened, then `input_event_unlock`. -/
def inputManagerInit : InputManager where
  eventCb := true

/-- The end of `key_event_handle`, where `need_report` is set. -/
def reportKey (manager : InputManager) : InputManager :=
  let value := manager.pressType ||| manager.pressCode
  { manager with
    reportKeyValue := value
    reported := if manager.eventCb then manager.reported ++ [value] else manager.reported
    messages :=
      if manager.inputEventLock then manager.messages else manager.messages ++ [value] }

/-- `key_event_handle`; `hold` is `is_need_report_hold_key`. -/
def keyEventHandle (hold : UInt32 → Bool) (manager : InputManager) (val : InputValue) :
    InputManager :=
  if val.type ≠ evKey then manager
  else if val.value = keyValueUp then
    reportKey { manager with pressCode := val.code.toUInt32, pressType := keyTypeUp }
  else if val.value = keyValueDown then
    if val.code.toUInt32 ≠ manager.pressCode ∨ manager.pressType ≠ keyTypeDown then
      reportKey { manager with pressCode := val.code.toUInt32, pressType := keyTypeDown }
    else if hold manager.pressCode then reportKey manager
    else manager
  else manager

/-! ## The devices -/

inductive InputDevice where
  | mxkeypad
  | adckey
deriving DecidableEq

/-- The key a device holds after an event. -/
def heldAfter (_ : Option UInt16) (val : InputValue) : Option UInt16 :=
  if val.value = keyValueDown then some val.code else none

/-- A device that holds no key presses one; a device that holds a key repeats the press
or releases that key. -/
def Emits (held : Option UInt16) (val : InputValue) : Prop :=
  val.type = evKey ∧
    (val.value = keyValueDown ∧ (held = none ∨ held = some val.code) ∨
      val.value = keyValueUp ∧ held = some val.code)

instance (held : Option UInt16) (val : InputValue) : Decidable (Emits held val) :=
  inferInstanceAs (Decidable (_ ∧ _))

/-- A stream of one device, which holds no key at the start. -/
def KeyStream (vals : List InputValue) : Prop :=
  Along heldAfter Emits none vals

instance (vals : List InputValue) : Decidable (KeyStream vals) :=
  inferInstanceAs (Decidable (Along _ _ _ _))

/-- The stream of a device in an interleaving of both. -/
def streamOf (device : InputDevice) (events : List (InputDevice × InputValue)) :
    List InputValue :=
  (events.filter fun event => event.1 = device).map Prod.snd

/-- An interleaving of a stream of each device, with no key code in both of them. -/
structure Interleaved (events : List (InputDevice × InputValue)) : Prop where
  stream : ∀ device, KeyStream (streamOf device events)
  disjoint : ∀ first ∈ events, ∀ second ∈ events,
    first.2.code = second.2.code → first.1 = second.1

/-- The manager after the events of both devices, with hold reporting off. -/
def handleEvents (events : List (InputDevice × InputValue)) : InputManager :=
  run (fun manager event => keyEventHandle (fun _ => false) manager event.2)
    inputManagerInit events

/-- Whether a reported value is of this key, and a press. -/
def keyReport (code : UInt16) (value : UInt32) : Option Bool :=
  if value.toUInt16 = code then some (value &&& keyTypeAll = keyTypeDown) else none

/-- The presses (`true`) and releases that were reported of one key. -/
def reportsOf (code : UInt16) (reported : List UInt32) : List Bool :=
  reported.filterMap (keyReport code)

/-- Every repetition of a press comes directly after that press, or after a repetition of
it, in the interleaving too. -/
def RepeatsUninterrupted (events : List (InputDevice × InputValue)) : Prop :=
  ∀ before event after, events = before ++ event :: after →
    event.2.value = keyValueDown →
    (streamOf event.1 before).getLast? = some event.2 → before.getLast? = some event

/-! ## What is reported -/

/-- The code lies below the bits of the type. -/
theorem or_code_and_keyTypeAll (type : UInt32) (code : UInt16) :
    (type ||| code.toUInt32) &&& keyTypeAll = type &&& keyTypeAll := by
  apply UInt32.toBitVec_inj.mp
  apply BitVec.eq_of_getLsbD_eq
  intro i hi
  by_cases hlow : i < 16
  · have hmask : ∀ j < 16, (0x3F000000#32).getLsbD j = false := by decide
    simp [keyTypeAll, hmask i hlow]
  · simp [keyTypeAll, BitVec.getLsbD_of_ge, Nat.not_lt.mp hlow]

/-- The type the manager gives to an event. -/
def keyTypeOf (val : InputValue) : UInt32 :=
  if val.value = keyValueDown then keyTypeDown else keyTypeUp

theorem keyReport_eq (code : UInt16) (val : InputValue) :
    keyReport code (keyTypeOf val ||| val.code.toUInt32) =
      if val.code = code then some (decide (val.value = keyValueDown)) else none := by
  have hcode : (keyTypeOf val ||| val.code.toUInt32).toUInt16 = val.code := by
    rw [UInt32.toUInt16_or, UInt16.toUInt16_toUInt32, keyTypeOf]
    split <;> exact UInt16.zero_or
  have htype : (keyTypeOf val ||| val.code.toUInt32) &&& keyTypeAll = keyTypeOf val := by
    rw [or_code_and_keyTypeAll, keyTypeOf]
    split <;> decide
  rw [keyReport, hcode, htype]
  by_cases hdown : val.value = keyValueDown
  · simp [keyTypeOf, hdown]
  · have hne : keyTypeUp ≠ keyTypeDown := by decide
    simp [keyTypeOf, hdown, hne]

/-- The event repeats what the manager holds as the event before. -/
def InputManager.Suppresses (manager : InputManager) (val : InputValue) : Prop :=
  val.value = keyValueDown ∧ manager.pressCode = val.code.toUInt32 ∧
    manager.pressType = keyTypeDown

instance (manager : InputManager) (val : InputValue) : Decidable (manager.Suppresses val) :=
  inferInstanceAs (Decidable (_ ∧ _))

/-- A key event as the drivers report it. -/
def InputValue.IsKey (val : InputValue) : Prop :=
  val.type = evKey ∧ (val.value = keyValueDown ∨ val.value = keyValueUp)

theorem keyValueDown_ne_up : keyValueDown ≠ keyValueUp := by decide

theorem keyEventHandle_eq (manager : InputManager) {val : InputValue} (hkey : val.IsKey) :
    let after := keyEventHandle (fun _ => false) manager val
    after.eventCb = manager.eventCb ∧ after.inputEventLock = manager.inputEventLock ∧
      after.pressCode = val.code.toUInt32 ∧ after.pressType = keyTypeOf val ∧
      (manager.eventCb = true → after.reported = manager.reported ++
        if manager.Suppresses val then [] else [keyTypeOf val ||| val.code.toUInt32]) := by
  obtain ⟨htype, hvalue | hvalue⟩ := hkey
  · have hup : val.value ≠ keyValueUp := hvalue ▸ keyValueDown_ne_up
    by_cases hsame : manager.Suppresses val
    · obtain ⟨-, hcode, hdown⟩ := hsame
      simp [keyEventHandle, htype, hvalue, keyValueDown_ne_up, hcode, hdown, keyTypeOf,
        InputManager.Suppresses]
    · have hnew : val.code.toUInt32 ≠ manager.pressCode ∨ manager.pressType ≠ keyTypeDown := by
        by_contra hold
        simp only [not_or, not_not] at hold
        exact hsame ⟨hvalue, hold.1.symm, hold.2⟩
      simp only [keyEventHandle, htype, hvalue, keyValueDown_ne_up, hnew, hsame, reportKey,
        keyTypeOf, ne_eq, not_true_eq_false, if_false, if_true]
      refine ⟨trivial, trivial, trivial, trivial, ?_⟩
      intro hcb
      rw [if_pos hcb]
  · have hdown : val.value ≠ keyValueDown := hvalue ▸ keyValueDown_ne_up.symm
    have hsame : ¬manager.Suppresses val := fun hsame => hdown hsame.1
    simp only [keyEventHandle, htype, hvalue, hsame, reportKey, keyTypeOf,
      keyValueDown_ne_up.symm, ne_eq, not_true_eq_false, if_false, if_true]
    refine ⟨trivial, trivial, trivial, trivial, ?_⟩
    intro hcb
    rw [if_pos hcb]

theorem handleEvents_append_singleton (events : List (InputDevice × InputValue))
    (event : InputDevice × InputValue) :
    handleEvents (events ++ [event]) =
      keyEventHandle (fun _ => false) (handleEvents events) event.2 :=
  run_append _ _ _

/-- What the callback is told is also sent to the application, as the lock is open. -/
theorem handleEvents_messages (events : List (InputDevice × InputValue)) :
    (handleEvents events).eventCb = true ∧ (handleEvents events).inputEventLock = false ∧
      (handleEvents events).messages = (handleEvents events).reported := by
  induction events using List.reverseRecOn with
  | nil => exact ⟨rfl, rfl, rfl⟩
  | append_singleton before event ih =>
      obtain ⟨hcb, hlock, hsame⟩ := ih
      rw [handleEvents_append_singleton, keyEventHandle]
      split_ifs <;> simp [reportKey, hcb, hlock, hsame]

/-- The manager remembers the event before, whichever device it came from. -/
theorem handleEvents_press {events : List (InputDevice × InputValue)}
    (hkeys : ∀ event ∈ events, event.2.IsKey) :
    (handleEvents events).eventCb = true ∧
      match events.getLast? with
      | none => (handleEvents events).pressType = 0
      | some last => (handleEvents events).pressCode = last.2.code.toUInt32 ∧
          (handleEvents events).pressType = keyTypeOf last.2 := by
  induction events using List.reverseRecOn with
  | nil => exact ⟨rfl, rfl⟩
  | append_singleton before event ih =>
      obtain ⟨hcb, -⟩ := ih fun other hother => hkeys other (by simp [hother])
      obtain ⟨hcb', -, hcode, htype, -⟩ :=
        keyEventHandle_eq (handleEvents before) (hkeys event (by simp))
      rw [handleEvents_append_singleton, List.getLast?_concat]
      exact ⟨hcb'.trans hcb, hcode, htype⟩

theorem suppresses_iff {events : List (InputDevice × InputValue)}
    (hkeys : ∀ event ∈ events, event.2.IsKey) (val : InputValue) :
    (handleEvents events).Suppresses val ↔ val.value = keyValueDown ∧
      ∃ last, events.getLast? = some last ∧ last.2.code = val.code ∧
        last.2.value = keyValueDown := by
  obtain ⟨-, hpress⟩ := handleEvents_press hkeys
  rw [InputManager.Suppresses]
  cases hlast : events.getLast? with
  | none =>
      rw [hlast] at hpress
      have hne : (0 : UInt32) ≠ keyTypeDown := by decide
      simp [hpress, hne]
  | some last =>
      rw [hlast] at hpress
      obtain ⟨hcode, htype⟩ := hpress
      have hne : keyTypeUp ≠ keyTypeDown := by decide
      rw [hcode, htype, keyTypeOf]
      by_cases hdown : last.2.value = keyValueDown
      · simp [hdown, UInt16.toUInt32_inj]
      · simp [hdown, hne]

theorem reportsOf_append_singleton {events : List (InputDevice × InputValue)}
    {event : InputDevice × InputValue} (hkeys : ∀ other ∈ events, other.2.IsKey)
    (hkey : event.2.IsKey) (code : UInt16) :
    reportsOf code (handleEvents (events ++ [event])).reported =
      reportsOf code (handleEvents events).reported ++
        if event.2.code = code ∧ ¬(handleEvents events).Suppresses event.2 then
          [decide (event.2.value = keyValueDown)] else [] := by
  obtain ⟨-, -, -, -, hreported⟩ := keyEventHandle_eq (handleEvents events) hkey
  rw [handleEvents_append_singleton, hreported (handleEvents_press hkeys).1, reportsOf,
    reportsOf, List.filterMap_append]
  congr 1
  by_cases hsame : (handleEvents events).Suppresses event.2
  · simp [hsame]
  · by_cases hcode : event.2.code = code
    · rw [if_neg hsame, if_pos ⟨hcode, hsame⟩, List.filterMap_cons, keyReport_eq, if_pos hcode]
      rfl
    · simp [hsame, keyReport_eq, hcode]

/-! ## The keys the devices hold -/

/-- The key a device holds after its part of an interleaving. -/
def heldOf (device : InputDevice) (events : List (InputDevice × InputValue)) : Option UInt16 :=
  run heldAfter none (streamOf device events)

theorem streamOf_append_singleton (device : InputDevice)
    (events : List (InputDevice × InputValue)) (event : InputDevice × InputValue) :
    streamOf device (events ++ [event]) =
      streamOf device events ++ if event.1 = device then [event.2] else [] := by
  by_cases hdevice : event.1 = device
  · simp [streamOf, List.filter_append, hdevice]
  · simp [streamOf, List.filter_append, hdevice]

theorem heldOf_append_singleton (device : InputDevice)
    (events : List (InputDevice × InputValue)) (event : InputDevice × InputValue) :
    heldOf device (events ++ [event]) =
      if event.1 = device then heldAfter none event.2 else heldOf device events := by
  rw [heldOf, streamOf_append_singleton]
  by_cases hdevice : event.1 = device
  · rw [if_pos hdevice, if_pos hdevice, run_append]
    rfl
  · rw [if_neg hdevice, if_neg hdevice, List.append_nil, heldOf]

theorem Interleaved.init {events : List (InputDevice × InputValue)}
    {event : InputDevice × InputValue} (h : Interleaved (events ++ [event])) :
    Interleaved events ∧ Emits (heldOf event.1 events) event.2 := by
  refine ⟨⟨?_, ?_⟩, ?_⟩
  · intro device
    have hstream := h.stream device
    rw [streamOf_append_singleton, KeyStream, along_append] at hstream
    exact hstream.1
  · intro first hfirst second hsecond
    exact h.disjoint first (by simp [hfirst]) second (by simp [hsecond])
  · have hstream := h.stream event.1
    rw [streamOf_append_singleton, if_pos rfl, KeyStream, along_append] at hstream
    exact hstream.2.1

theorem Emits.isKey {held : Option UInt16} {val : InputValue} (h : Emits held val) :
    val.IsKey := by
  obtain ⟨htype, ⟨hdown, -⟩ | ⟨hup, -⟩⟩ := h
  · exact ⟨htype, Or.inl hdown⟩
  · exact ⟨htype, Or.inr hup⟩

theorem Interleaved.isKey {events : List (InputDevice × InputValue)} (h : Interleaved events) :
    ∀ event ∈ events, event.2.IsKey := by
  induction events using List.reverseRecOn with
  | nil => simp
  | append_singleton before event ih =>
      obtain ⟨hbefore, hemits⟩ := h.init
      intro other hother
      rcases List.mem_append.mp hother with hother | hother
      · exact ih hbefore other hother
      · rw [List.mem_singleton.mp hother]
        exact hemits.isKey

theorem heldOf_eq_some_iff {device : InputDevice} {events : List (InputDevice × InputValue)}
    {code : UInt16} :
    heldOf device events = some code ↔
      ∃ val, (streamOf device events).getLast? = some val ∧ val.code = code ∧
        val.value = keyValueDown := by
  rw [heldOf]
  generalize streamOf device events = vals
  cases vals using List.reverseRecOn with
  | nil => simp
  | append_singleton before val =>
      rw [run_append, run_cons, run_nil, List.getLast?_concat, heldAfter]
      by_cases hdown : val.value = keyValueDown
      · simp [hdown]
      · simp [hdown]

theorem exists_mem_of_heldOf {device : InputDevice} {events : List (InputDevice × InputValue)}
    {code : UInt16} (hheld : heldOf device events = some code) :
    ∃ event ∈ events, event.1 = device ∧ event.2.code = code := by
  obtain ⟨val, hlast, hcode, -⟩ := heldOf_eq_some_iff.mp hheld
  have hmem := List.mem_of_getLast? hlast
  simp only [streamOf, List.mem_map, List.mem_filter, decide_eq_true_eq] at hmem
  obtain ⟨event, ⟨hevent, hdevice⟩, rfl⟩ := hmem
  exact ⟨event, hevent, hdevice, hcode⟩

/-- Where the next event is a press, it is dropped if it is the event before once more. -/
theorem suppresses_iff_getLast {events : List (InputDevice × InputValue)}
    {event : InputDevice × InputValue} (h : Interleaved (events ++ [event])) :
    (handleEvents events).Suppresses event.2 ↔
      event.2.value = keyValueDown ∧ events.getLast? = some event := by
  have hkeys := h.isKey
  rw [suppresses_iff fun other hother => hkeys other (by simp [hother])]
  refine and_congr_right ?_
  intro hdown
  constructor
  · rintro ⟨last, hlast, hcode, hvalue⟩
    have hmem : last ∈ events ++ [event] := by simp [List.mem_of_getLast? hlast]
    have hdevice : last.1 = event.1 := h.disjoint last hmem event (by simp) hcode
    have htype : last.2.type = event.2.type :=
      (hkeys last hmem).1.trans (hkeys event (by simp)).1.symm
    have hval : last.2 = event.2 := by
      rw [InputValue.mk.injEq]
      exact ⟨htype, hcode, hvalue.trans hdown.symm⟩
    rw [hlast, Prod.ext hdevice hval]
  · intro hlast
    exact ⟨event, hlast, rfl, hdown⟩

theorem heldOf_of_getLast {events : List (InputDevice × InputValue)}
    {event : InputDevice × InputValue} (hlast : events.getLast? = some event)
    (hdown : event.2.value = keyValueDown) : heldOf event.1 events = some event.2.code := by
  obtain ⟨before, rfl⟩ := List.getLast?_eq_some_iff.mp hlast
  rw [heldOf_append_singleton, if_pos rfl, heldAfter, if_pos hdown]

/-- An event leaves alone which other keys are held. -/
theorem heldOf_append_of_code_ne {events : List (InputDevice × InputValue)}
    {event : InputDevice × InputValue} {code : UInt16}
    (hemits : Emits (heldOf event.1 events) event.2) (hcode : event.2.code ≠ code)
    (device : InputDevice) :
    heldOf device (events ++ [event]) = some code ↔ heldOf device events = some code := by
  rw [heldOf_append_singleton]
  by_cases hdevice : event.1 = device
  · subst hdevice
    rw [if_pos rfl, heldAfter]
    obtain ⟨-, ⟨hdown, hheld | hheld⟩ | ⟨hup, hheld⟩⟩ := hemits
    · simp [hdown, hheld, hcode]
    · simp [hdown, hheld, hcode]
    · simp [hup, hheld, hcode, keyValueDown_ne_up.symm]
  · rw [if_neg hdevice]

/-- After an event of a key, the key is held exactly if the event was its press. -/
theorem exists_heldOf_append_iff {events : List (InputDevice × InputValue)}
    {event : InputDevice × InputValue} (h : Interleaved (events ++ [event])) :
    (∃ device, heldOf device (events ++ [event]) = some event.2.code) ↔
      event.2.value = keyValueDown := by
  constructor
  · rintro ⟨device, hheld⟩
    obtain ⟨other, hother, rfl, hcode⟩ := exists_mem_of_heldOf hheld
    have hdevice := h.disjoint other hother event (by simp) hcode
    rw [heldOf_append_singleton, if_pos hdevice.symm, heldAfter] at hheld
    split at hheld
    next hdown => exact hdown
    next hdown => simp at hheld
  · intro hdown
    refine ⟨event.1, ?_⟩
    rw [heldOf_append_singleton, if_pos rfl, heldAfter, if_pos hdown]

/-- The reports of a key end with a press exactly while a device holds the key. -/
theorem awaited_reportsOf {events : List (InputDevice × InputValue)} (h : Interleaved events)
    (code : UInt16) :
    awaited true (reportsOf code (handleEvents events).reported) = false ↔
      ∃ device, heldOf device events = some code := by
  induction events using List.reverseRecOn with
  | nil => simp [heldOf, streamOf, handleEvents, inputManagerInit, reportsOf]
  | append_singleton before event ih =>
      obtain ⟨hbefore, hemits⟩ := h.init
      rw [reportsOf_append_singleton hbefore.isKey hemits.isKey]
      by_cases hcode : event.2.code = code
      · subst hcode
        rw [exists_heldOf_append_iff h]
        by_cases hsame : (handleEvents before).Suppresses event.2
        · obtain ⟨hdown, hlast⟩ := (suppresses_iff_getLast h).mp hsame
          have hheld := (ih hbefore).mpr ⟨event.1, heldOf_of_getLast hlast hdown⟩
          simp only [hsame, not_true_eq_false, and_false, if_false, List.append_nil, hheld, hdown]
        · rw [if_pos ⟨rfl, hsame⟩, awaited_append_singleton]
          simp
      · rw [if_neg (fun hand => hcode hand.1), List.append_nil, ih hbefore]
        exact exists_congr fun device => (heldOf_append_of_code_ne hemits hcode device).symm

/-! ## Presses and releases in pairs -/

theorem repeatsUninterrupted_append_singleton {events : List (InputDevice × InputValue)}
    {event : InputDevice × InputValue} :
    RepeatsUninterrupted (events ++ [event]) ↔ RepeatsUninterrupted events ∧
      (event.2.value = keyValueDown → (streamOf event.1 events).getLast? = some event.2 →
        events.getLast? = some event) := by
  constructor
  · intro hall
    refine ⟨?_, hall events event [] rfl⟩
    intro before other after hsplit
    exact hall before other (after ++ [event]) (by simp [hsplit])
  · rintro ⟨hevents, hevent⟩ before other after hsplit
    cases after using List.reverseRecOn with
    | nil =>
        obtain ⟨rfl, rfl⟩ := List.append_singleton_inj.mp hsplit
        exact hevent
    | append_singleton after last =>
        rw [← List.cons_append, ← List.append_assoc] at hsplit
        obtain ⟨rfl, -⟩ := List.append_singleton_inj.mp hsplit
        exact hevents before other after rfl

/-- A key of the event's code can be held by the event's device only. -/
theorem not_held_of_device {events : List (InputDevice × InputValue)}
    {event : InputDevice × InputValue} (h : Interleaved (events ++ [event]))
    (hheld : heldOf event.1 events ≠ some event.2.code) :
    ¬∃ device, heldOf device events = some event.2.code := by
  rintro ⟨device, hdevice⟩
  obtain ⟨other, hother, rfl, hcode⟩ := exists_mem_of_heldOf hdevice
  rw [h.disjoint other (by simp [hother]) event (by simp) hcode] at hdevice
  exact hheld hdevice

theorem getLast_streamOf_of_heldOf {events : List (InputDevice × InputValue)}
    {event : InputDevice × InputValue} (h : Interleaved (events ++ [event]))
    (hdown : event.2.value = keyValueDown) (hheld : heldOf event.1 events = some event.2.code) :
    (streamOf event.1 events).getLast? = some event.2 := by
  obtain ⟨val, hlast, hcode, hvalue⟩ := heldOf_eq_some_iff.mp hheld
  have hmem := List.mem_of_getLast? hlast
  simp only [streamOf, List.mem_map, List.mem_filter] at hmem
  obtain ⟨other, ⟨hother, -⟩, rfl⟩ := hmem
  have htype : other.2.type = event.2.type :=
    (h.isKey other (by simp [hother])).1.trans (h.isKey event (by simp)).1.symm
  have hval : other.2 = event.2 := by
    rw [InputValue.mk.injEq]
    exact ⟨htype, hcode, hvalue.trans hdown.symm⟩
  rw [hlast, hval]

/-- An event that is handed on continues the reports of its key, unless it is a
repetition with an event of the other device before it. -/
theorem continues_iff {events : List (InputDevice × InputValue)}
    {event : InputDevice × InputValue} (h : Interleaved (events ++ [event])) :
    (¬(handleEvents events).Suppresses event.2 →
        decide (event.2.value = keyValueDown) =
          awaited true (reportsOf event.2.code (handleEvents events).reported)) ↔
      (event.2.value = keyValueDown → (streamOf event.1 events).getLast? = some event.2 →
        events.getLast? = some event) := by
  obtain ⟨hbefore, -, hemits⟩ := h.init
  have hawaited := awaited_reportsOf hbefore event.2.code
  obtain ⟨hdown, hheld | hheld⟩ | ⟨hup, hheld⟩ := hemits
  · -- the press of a key that is not held
    have hne : heldOf event.1 events ≠ some event.2.code := by simp [hheld]
    have htrue := (not_congr hawaited).mpr (not_held_of_device h hne)
    constructor
    · intro _ _ hlast
      exact absurd (heldOf_eq_some_iff.mpr ⟨event.2, hlast, rfl, hdown⟩) hne
    · intro _ _
      rw [Bool.not_eq_false] at htrue
      rw [htrue, hdown]
      rfl
  · -- a repetition
    rw [hawaited.mpr ⟨event.1, hheld⟩, suppresses_iff_getLast h]
    simp [hdown, getLast_streamOf_of_heldOf h hdown hheld]
  · -- the release of the key that is held
    rw [hawaited.mpr ⟨event.1, hheld⟩, hup]
    simp [keyValueDown_ne_up.symm]

/-- The reports of every key are presses and releases in turn if and only if no
repetition of a press is separated from it by an event of the other device. -/
theorem reports_alternate_iff {events : List (InputDevice × InputValue)}
    (h : Interleaved events) :
    (∀ code, Alternates true (reportsOf code (handleEvents events).reported)) ↔
      RepeatsUninterrupted events := by
  induction events using List.reverseRecOn with
  | nil => simp [RepeatsUninterrupted, handleEvents, inputManagerInit, reportsOf, Alternates]
  | append_singleton before event ih =>
      obtain ⟨hbefore, hemits⟩ := h.init
      rw [repeatsUninterrupted_append_singleton, ← ih hbefore, ← continues_iff h]
      simp only [reportsOf_append_singleton hbefore.isKey hemits.isKey]
      constructor
      · intro hall
        refine ⟨fun code => ?_, fun hsame => ?_⟩
        · have hcode := hall code
          split at hcode
          next => exact (alternates_append_singleton.mp hcode).1
          next => rwa [List.append_nil] at hcode
        · have hcode := hall event.2.code
          rw [if_pos ⟨rfl, hsame⟩] at hcode
          exact (alternates_append_singleton.mp hcode).2
      · rintro ⟨hall, hnext⟩ code
        split
        next hnew =>
          obtain ⟨rfl, hsame⟩ := hnew
          exact alternates_append_singleton.mpr ⟨hall event.2.code, hnext hsame⟩
        next => rw [List.append_nil]; exact hall code

/-- A key of the matrix is tapped, and then one of the ADC keys. -/
theorem reports_alternate_two_taps :
    let taps : List (InputDevice × InputValue) :=
      [(.mxkeypad, ⟨evKey, 1, keyValueDown⟩), (.mxkeypad, ⟨evKey, 1, keyValueDown⟩),
        (.mxkeypad, ⟨evKey, 1, keyValueUp⟩), (.adckey, ⟨evKey, 2, keyValueDown⟩),
        (.adckey, ⟨evKey, 2, keyValueUp⟩)]
    (∀ code, Alternates true (reportsOf code (handleEvents taps).reported)) ↔
      RepeatsUninterrupted taps := by
  refine reports_alternate_iff ⟨?_, by decide⟩
  intro device
  cases device with
  | mxkeypad => decide
  | adckey => decide

/-- While a key of the matrix is held, a key of the other device is pressed: the next
repetition of the first press is reported as a press again. -/
theorem held_key_reported_twice :
    let press : InputDevice × InputValue := (.mxkeypad, ⟨evKey, 1, keyValueDown⟩)
    let other : InputDevice × InputValue := (.adckey, ⟨evKey, 2, keyValueDown⟩)
    Interleaved [press, other, press] ∧
      ¬Alternates true (reportsOf 1 (handleEvents [press, other, press]).reported) := by
  refine ⟨⟨?_, by decide⟩, by decide⟩
  intro device
  cases device with
  | mxkeypad => decide
  | adckey => decide

end CubieBle.Framework
