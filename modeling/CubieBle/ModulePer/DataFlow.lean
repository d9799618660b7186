import Mathlib.Data.UInt
import Mathlib.Logic.Function.Basic
import CubieBle.Machine.Run

/-! # Flow control in data mode

A counter stands for the length of the queue of available buffers, and the host is stopped and
let go on by it. The counter starts with all buffers, although one of them is taken from the queue
to receive into. So it is one too high as long as the mode lasts.
-/

namespace CubieBle.ModulePer.ActData

open Machine

def dataQueued : Nat := 60

def dataQueueHighLevel : UInt16 := 50

def dataQueueLowLevel : UInt16 := 10

def actDataMtu : Nat := 20

/-- The elements of `data_buf`. -/
abbrev DataBuf := Fin dataQueued

/-- Where the thread of `data_handler` is. The receive interrupt can come in between. -/
inductive Handler where
  | waiting
  /-- The buffer is sent. -/
  | sending (data : DataBuf)
  /-- The buffer was put into the queue, but not counted. -/
  | returned
  | counted
  /-- The host is to be let go on. -/
  | releasing
  /-- The flag was cleared, but not the pin. -/
  | released
deriving DecidableEq

structure DataMode where
  availQueue : List DataBuf
  datasQueue : List DataBuf
  dataLen : DataBuf → Nat
  /-- The buffer that the UART receives into. -/
  recvBuf : DataBuf
  sendPartialTimerStarted : Bool
  rxAbort : Bool
  availBufCount : UInt16
  rxFlowCtrFlag : Bool
  /-- `gpio_output_flow_ctrl`, which stops the host. -/
  flowCtrl : Bool
  handler : Handler

/-- The first buffer is the one to receive into, and the thread is created again. -/
def enterIntoDataMode (mode : DataMode) : DataMode :=
  { mode with
    availQueue := (List.finRange dataQueued).tail
    datasQueue := []
    recvBuf := ⟨0, by decide⟩
    availBufCount := 60
    rxFlowCtrFlag := false
    flowCtrl := false
    handler := .waiting }

/-- The buffer received into is queued, and another one taken in its place. -/
def handOver (mode : DataMode) (off : Nat) (newBuf : DataBuf) (rest : List DataBuf) : DataMode :=
  let availBufCount := mode.availBufCount - 1
  let stops := availBufCount < dataQueueLowLevel && !mode.rxFlowCtrFlag
  { mode with
    availQueue := rest
    datasQueue := mode.datasQueue ++ [mode.recvBuf]
    dataLen := Function.update mode.dataLen mode.recvBuf off
    recvBuf := newBuf
    availBufCount := availBufCount
    rxFlowCtrFlag := mode.rxFlowCtrFlag || stops
    flowCtrl := mode.flowCtrl || stops }

/-- Called by the interrupt with the number of bytes in the buffer. If no buffer is available,
they are dropped. -/
def recvCb (mode : DataMode) (off : Nat) : DataMode :=
  let mode :=
    if 0 < off ∧ mode.sendPartialTimerStarted = false then
      { mode with sendPartialTimerStarted := true }
    else mode
  if off < actDataMtu ∧ mode.rxAbort = false then mode
  else
    let mode := { mode with sendPartialTimerStarted := false, rxAbort := false }
    match mode.availQueue with
    | [] => mode
    | newBuf :: rest => handOver mode off newBuf rest

def sendPartialHandler (mode : DataMode) : DataMode := { mode with rxAbort := true }

/-- One step of the thread. -/
def dataHandler (mode : DataMode) : DataMode :=
  match mode.handler with
  | .waiting =>
      match mode.datasQueue with
      | [] => mode
      | data :: rest => { mode with datasQueue := rest, handler := .sending data }
  | .sending data =>
      { mode with
        dataLen := Function.update mode.dataLen data 0
        availQueue := mode.availQueue ++ [data]
        handler := .returned }
  | .returned => { mode with availBufCount := mode.availBufCount + 1, handler := .counted }
  | .counted =>
      if mode.rxFlowCtrFlag ∧ dataQueueHighLevel < mode.availBufCount then
        { mode with handler := .releasing }
      else { mode with handler := .waiting }
  | .releasing => { mode with rxFlowCtrFlag := false, handler := .released }
  | .released => { mode with flowCtrl := false, handler := .waiting }

inductive DataStep where
  | enterIntoDataMode
  | recvCb (off : Nat)
  | sendPartial
  | dataHandler
deriving DecidableEq

def dataStep (mode : DataMode) : DataStep → DataMode
  | .enterIntoDataMode => enterIntoDataMode mode
  | .recvCb off => recvCb mode off
  | .sendPartial => sendPartialHandler mode
  | .dataHandler => dataHandler mode

/-! ## What the counter is for -/

/-- The thread is not about to give a buffer back. -/
def Handler.Idle : Handler → Prop
  | .waiting => True
  | .sending _ => True
  | _ => False

/-- The buffers that the receiver can still take. -/
def DataMode.queued (mode : DataMode) : Nat := mode.availQueue.length

def DataMode.counter (mode : DataMode) : Nat := mode.availBufCount.toNat

/-- The host is stopped and let go on by a number of available buffers, for which the counter
stands. -/
structure FlowLaw (available : DataMode → Nat) (mode : DataMode) (step : DataStep) : Prop where
  counted : mode.handler.Idle → mode.counter = available mode
  wraps : ∀ off, step = .recvCb off → (recvCb mode off).queued < mode.queued → 0 < mode.counter
  stopped : mode.handler.Idle → available mode < dataQueueLowLevel.toNat → mode.flowCtrl = true
  goesOn : mode.handler.Idle → dataQueueHighLevel.toNat < available mode → mode.flowCtrl = false
  changes : step ≠ .enterIntoDataMode → (dataStep mode step).flowCtrl ≠ mode.flowCtrl →
    if (dataStep mode step).flowCtrl then
      available (dataStep mode step) < dataQueueLowLevel.toNat
    else dataQueueHighLevel.toNat < available mode

/-! ## The counter -/

/-- The buffers that were put into the queue, but not counted. -/
def Handler.uncounted : Handler → Nat
  | .returned => 1
  | _ => 0

/-- The buffers that the thread has. -/
def Handler.held : Handler → Nat
  | .sending _ => 1
  | _ => 0

/-- The counter is ahead of the queue by the buffer that is received into. -/
structure Counted (mode : DataMode) : Prop where
  count : mode.availBufCount.toNat + mode.handler.uncounted = mode.availQueue.length + 1
  total : mode.availQueue.length + mode.datasQueue.length + mode.handler.held + 1 = dataQueued

section Counter

variable {mode : DataMode}

theorem counted_enterIntoDataMode (mode : DataMode) : Counted (enterIntoDataMode mode) := by
  constructor
  · rfl
  · rfl

/-- The interrupt leaves the buffers alone, or hands one over. -/
theorem recvCb_cases (mode : DataMode) (off : Nat) :
    ∃ started abort, recvCb mode off =
        { mode with sendPartialTimerStarted := started, rxAbort := abort } ∨
      ∃ newBuf rest, mode.availQueue = newBuf :: rest ∧
        recvCb mode off = handOver
          { mode with sendPartialTimerStarted := started, rxAbort := abort } off newBuf rest := by
  unfold recvCb
  generalize hnext : (if 0 < off ∧ mode.sendPartialTimerStarted = false then
      { mode with sendPartialTimerStarted := true } else mode) = next
  obtain ⟨started, rfl⟩ :
      ∃ started, next = { mode with sendPartialTimerStarted := started } := by
    rw [← hnext]
    split
    next => exact ⟨true, rfl⟩
    next => exact ⟨mode.sendPartialTimerStarted, rfl⟩
  dsimp only
  split
  next => exact ⟨started, mode.rxAbort, .inl rfl⟩
  next =>
    refine ⟨false, false, ?_⟩
    split
    next => exact .inl rfl
    next newBuf rest hqueue => exact .inr ⟨newBuf, rest, hqueue, rfl⟩

theorem uncounted_le_one (handler : Handler) : handler.uncounted ≤ 1 := by
  unfold Handler.uncounted
  split
  next => exact Nat.le_refl 1
  next => exact Nat.zero_le 1

/-- The counter is not zero when a buffer is taken. -/
theorem Counted.pos (hcounted : Counted mode) {newBuf : DataBuf} {rest : List DataBuf}
    (hqueue : mode.availQueue = newBuf :: rest) : 0 < mode.availBufCount.toNat := by
  have hcount := hcounted.count
  have hmost := uncounted_le_one mode.handler
  rw [hqueue, List.length_cons] at hcount
  omega

theorem toNat_pred {count : UInt16} (hpos : 0 < count.toNat) :
    (count - 1).toNat = count.toNat - 1 := by
  rw [UInt16.toNat_sub_of_le count 1 (UInt16.le_iff_toNat_le.mpr hpos)]
  rfl

theorem Counted.handOver (hcounted : Counted mode) (off : Nat) {newBuf : DataBuf}
    {rest : List DataBuf} (hqueue : mode.availQueue = newBuf :: rest) :
    Counted (handOver mode off newBuf rest) := by
  have hpos := hcounted.pos hqueue
  obtain ⟨hcount, htotal⟩ := hcounted
  rw [hqueue, List.length_cons] at hcount htotal
  constructor
  · change (mode.availBufCount - 1).toNat + mode.handler.uncounted = rest.length + 1
    rw [toNat_pred hpos]
    omega
  · change rest.length + (mode.datasQueue ++ [mode.recvBuf]).length + mode.handler.held + 1 = _
    rw [List.length_append, List.length_singleton, ← htotal]
    omega

theorem Counted.recvCb (hcounted : Counted mode) (off : Nat) : Counted (recvCb mode off) := by
  obtain ⟨started, abort, hsame | ⟨newBuf, rest, hqueue, htaken⟩⟩ := recvCb_cases mode off
  · rw [hsame]
    exact ⟨hcounted.count, hcounted.total⟩
  · rw [htaken]
    have hsame : Counted { mode with sendPartialTimerStarted := started, rxAbort := abort } :=
      ⟨hcounted.count, hcounted.total⟩
    exact hsame.handOver off hqueue

/-- There are not as many buffers as the counter has room for. -/
theorem toNat_succ (hcounted : Counted mode) :
    (mode.availBufCount + 1).toNat = mode.availBufCount.toNat + 1 := by
  have hcount := hcounted.count
  have htotal := hcounted.total
  rw [dataQueued] at htotal
  rw [UInt16.toNat_add]
  change (mode.availBufCount.toNat + 1) % 2 ^ 16 = _
  omega

theorem Counted.dataHandler (hcounted : Counted mode) : Counted (dataHandler mode) := by
  have hsucc := toNat_succ hcounted
  obtain ⟨hcount, htotal⟩ := hcounted
  unfold ActData.dataHandler
  cases hhandler : mode.handler with
  | waiting =>
      rw [hhandler] at hcount htotal
      cases hqueue : mode.datasQueue with
      | nil =>
          rw [← hhandler] at hcount htotal
          exact ⟨hcount, htotal⟩
      | cons data rest =>
          rw [hqueue, List.length_cons] at htotal
          refine ⟨hcount, ?_⟩
          change _ + (rest.length + 1) + 0 + 1 = _ at htotal
          change mode.availQueue.length + rest.length + 1 + 1 = _
          omega
  | sending data =>
      rw [hhandler] at hcount htotal
      change _ + 0 = _ at hcount
      change _ + 1 + 1 = _ at htotal
      constructor
      · change mode.availBufCount.toNat + 1 = (mode.availQueue ++ [data]).length + 1
        rw [List.length_append, List.length_singleton]
        omega
      · change (mode.availQueue ++ [data]).length + mode.datasQueue.length + 0 + 1 = _
        rw [List.length_append, List.length_singleton]
        omega
  | returned =>
      rw [hhandler] at hcount htotal
      refine ⟨?_, htotal⟩
      change (mode.availBufCount + 1).toNat + 0 = mode.availQueue.length + 1
      rw [hsucc]
      exact hcount
  | counted =>
      rw [hhandler] at hcount htotal
      dsimp only
      split
      next => exact ⟨hcount, htotal⟩
      next => exact ⟨hcount, htotal⟩
  | releasing =>
      rw [hhandler] at hcount htotal
      exact ⟨hcount, htotal⟩
  | released =>
      rw [hhandler] at hcount htotal
      exact ⟨hcount, htotal⟩

theorem counted_dataStep (step : DataStep) (hcounted : Counted mode) :
    Counted (dataStep mode step) := by
  cases step with
  | enterIntoDataMode => exact counted_enterIntoDataMode mode
  | recvCb off => exact hcounted.recvCb off
  | sendPartial => exact ⟨hcounted.count, hcounted.total⟩
  | dataHandler => exact hcounted.dataHandler

theorem counted_run (start : DataMode) (steps : List DataStep) :
    Throughout dataStep Counted (enterIntoDataMode start) steps :=
  throughout_of_step Counted (fun _ step hcounted => counted_dataStep step hcounted)
    (counted_enterIntoDataMode start) steps

/-- When no buffer is about to be given back, the counter is one more than the queue is long. -/
theorem Counted.one_more (hcounted : Counted mode) (hidle : mode.handler.Idle) :
    mode.availBufCount.toNat = mode.availQueue.length + 1 := by
  have hcount := hcounted.count
  cases hhandler : mode.handler with
  | waiting | sending _ =>
      rw [hhandler] at hcount
      exact hcount
  | returned | counted | releasing | released =>
      rw [hhandler] at hidle
      exact hidle.elim

end Counter

/-- Whenever no buffer is about to be given back, the counter is one too high. -/
theorem flowLaw_queued_broken (start : DataMode) (steps : List DataStep) :
    let mode := run dataStep (enterIntoDataMode start) steps
    mode.handler.Idle →
      mode.counter = mode.queued + 1 ∧ ∀ step, ¬FlowLaw DataMode.queued mode step := by
  intro mode hidle
  have hmore : mode.counter = mode.queued + 1 := (counted_run start steps).last.one_more hidle
  refine ⟨hmore, fun step hlaw => ?_⟩
  have hcounted := hlaw.counted hidle
  omega

/-- What the variables hold before data mode is entered for the first time. -/
def staticMode : DataMode where
  availQueue := []
  datasQueue := []
  dataLen _ := 0
  recvBuf := ⟨0, by decide⟩
  sendPartialTimerStarted := false
  rxAbort := false
  availBufCount := 0
  rxFlowCtrFlag := false
  flowCtrl := false
  handler := .waiting

/-- Fifty full buffers are queued and none is sent. -/
def fiftyQueued : DataMode :=
  run dataStep (enterIntoDataMode staticMode) (List.replicate 50 (.recvCb 20))

theorem counter_one_too_high : ¬FlowLaw DataMode.queued fiftyQueued .sendPartial := by
  have hhandler : fiftyQueued.handler = .waiting := by decide +kernel
  refine (flowLaw_queued_broken staticMode (List.replicate 50 (.recvCb 20)) ?_).2 .sendPartial
  change fiftyQueued.handler.Idle
  rw [hhandler]
  trivial

/-- Nine buffers are left, and the host is not stopped. -/
theorem nine_left_not_stopped :
    ¬∀ (start : DataMode) (steps : List DataStep) (step : DataStep),
      FlowLaw DataMode.queued (run dataStep (enterIntoDataMode start) steps) step := by
  intro hall
  have hhandler : fiftyQueued.handler = .waiting := by decide +kernel
  have hlaw : FlowLaw DataMode.queued fiftyQueued .sendPartial := hall _ _ _
  have hstopped := hlaw.stopped (by rw [hhandler]; trivial) (by decide +kernel)
  exact absurd hstopped (by decide +kernel)

/-! ## Flow control by the counter -/

/-- The interrupt hands no buffer over while the host is let go on. -/
def Uninterrupted (mode : DataMode) (step : DataStep) : Prop :=
  ∀ off, step = .recvCb off → mode.handler ≠ .releasing ∧ mode.handler ≠ .released

/-- How far the counter can get while the host is stopped. -/
def Handler.most : Handler → Nat
  | .counted => 51
  | .releasing => dataQueued
  | _ => 50

/-- The host is stopped when the counter is low, and not when it is high. -/
structure FlowKept (mode : DataMode) : Prop where
  counted : Counted mode
  pin : mode.handler ≠ .released → mode.flowCtrl = mode.rxFlowCtrFlag
  stopped : mode.rxFlowCtrFlag = false → 10 ≤ mode.counter
  goesOn : mode.rxFlowCtrFlag = true → mode.counter ≤ mode.handler.most
  high : mode.handler = .releasing ∨ mode.handler = .released → 50 < mode.counter
  cleared : mode.handler = .released → mode.rxFlowCtrFlag = false

section Flow

variable {mode : DataMode}

theorem flowKept_enterIntoDataMode (mode : DataMode) : FlowKept (enterIntoDataMode mode) where
  counted := counted_enterIntoDataMode mode
  pin _ := rfl
  stopped _ := show 10 ≤ 60 by decide
  goesOn hflag := absurd hflag Bool.false_ne_true
  high hhandler := by
    rcases hhandler with hreleasing | hreleased
    · exact absurd hreleasing nofun
    · exact absurd hreleased nofun
  cleared _ := rfl

theorem ten_le_most (handler : Handler) : 10 ≤ handler.most := by
  unfold Handler.most
  split
  next => decide
  next => decide
  next => decide

theorem counter_handOver (mode : DataMode) (off : Nat) (newBuf : DataBuf) (rest : List DataBuf)
    (hpos : 0 < mode.counter) : (handOver mode off newBuf rest).counter = mode.counter - 1 :=
  toNat_pred hpos

/-- The host is stopped if the counter gets low and it is not stopped yet. -/
theorem flag_handOver (mode : DataMode) (off : Nat) (newBuf : DataBuf) (rest : List DataBuf)
    (hpos : 0 < mode.counter) :
    (handOver mode off newBuf rest).rxFlowCtrFlag =
        (mode.rxFlowCtrFlag || decide (mode.counter - 1 < 10) && !mode.rxFlowCtrFlag) ∧
      (handOver mode off newBuf rest).flowCtrl =
        (mode.flowCtrl || decide (mode.counter - 1 < 10) && !mode.rxFlowCtrFlag) := by
  have hlow : decide (mode.availBufCount - 1 < dataQueueLowLevel) =
      decide (mode.counter - 1 < 10) := by
    refine decide_eq_decide.mpr ?_
    rw [UInt16.lt_iff_toNat_lt, toNat_pred hpos]
    rfl
  constructor
  · change (mode.rxFlowCtrFlag || _) = _
    rw [hlow]
  · change (mode.flowCtrl || _) = _
    rw [hlow]

theorem FlowKept.handOver (hkept : FlowKept mode) (off : Nat) {newBuf : DataBuf}
    {rest : List DataBuf} (hqueue : mode.availQueue = newBuf :: rest)
    (hreleasing : mode.handler ≠ .releasing) (hreleased : mode.handler ≠ .released) :
    FlowKept (handOver mode off newBuf rest) := by
  have hpos := hkept.counted.pos hqueue
  have hcounter := counter_handOver mode off newBuf rest hpos
  obtain ⟨hflag, hflow⟩ := flag_handOver mode off newBuf rest hpos
  refine ⟨hkept.counted.handOver off hqueue, ?_, ?_, ?_, ?_, fun hpin => absurd hpin hreleased⟩
  · intro hpin
    rw [hflag, hflow, hkept.pin hpin]
  · intro hno
    rw [hflag] at hno
    rw [hcounter]
    cases hold : mode.rxFlowCtrFlag with
    | true => simp [hold] at hno
    | false =>
        simp only [hold, Bool.false_or, Bool.not_false, Bool.and_true,
          decide_eq_false_iff_not] at hno
        omega
  · intro hyes
    have hmost := ten_le_most mode.handler
    rw [hflag] at hyes
    rw [hcounter]
    change _ ≤ mode.handler.most
    cases hold : mode.rxFlowCtrFlag with
    | true =>
        have hle := hkept.goesOn hold
        omega
    | false =>
        simp only [hold, Bool.false_or, Bool.not_false, Bool.and_true, decide_eq_true_eq] at hyes
        omega
  · rintro (hpin | hpin)
    · exact absurd hpin hreleasing
    · exact absurd hpin hreleased

theorem FlowKept.recvCb (hkept : FlowKept mode) (off : Nat)
    (hreleasing : mode.handler ≠ .releasing) (hreleased : mode.handler ≠ .released) :
    FlowKept (recvCb mode off) := by
  obtain ⟨started, abort, hsame | ⟨newBuf, rest, hqueue, htaken⟩⟩ := recvCb_cases mode off
  · rw [hsame]
    exact ⟨⟨hkept.counted.count, hkept.counted.total⟩, hkept.pin, hkept.stopped, hkept.goesOn,
      hkept.high, hkept.cleared⟩
  · rw [htaken]
    have hsame : FlowKept { mode with sendPartialTimerStarted := started, rxAbort := abort } :=
      ⟨⟨hkept.counted.count, hkept.counted.total⟩, hkept.pin, hkept.stopped, hkept.goesOn,
        hkept.high, hkept.cleared⟩
    exact hsame.handOver off hqueue hreleasing hreleased

/-- A step of the thread that changes nothing about the flow. -/
theorem FlowKept.moved (hkept : FlowKept mode) {next : DataMode} (hcounted : Counted next)
    (hsame : next.counter = mode.counter ∧ next.rxFlowCtrFlag = mode.rxFlowCtrFlag ∧
      next.flowCtrl = mode.flowCtrl) (hold : mode.handler ≠ .released)
    (hreleasing : next.handler ≠ .releasing) (hreleased : next.handler ≠ .released)
    (hmost : mode.rxFlowCtrFlag = true → mode.counter ≤ next.handler.most) : FlowKept next := by
  obtain ⟨hcounter, hflag, hflow⟩ := hsame
  refine ⟨hcounted, ?_, ?_, ?_, ?_, fun hpin => absurd hpin hreleased⟩
  · intro _
    rw [hflow, hflag, hkept.pin hold]
  · rw [hflag, hcounter]
    exact hkept.stopped
  · rw [hflag, hcounter]
    exact hmost
  · rintro (hpin | hpin)
    · exact absurd hpin hreleasing
    · exact absurd hpin hreleased

/-- The buffer that was put into the queue is counted. -/
theorem FlowKept.countUp (hkept : FlowKept mode) (hhandler : mode.handler = .returned)
    (hcounted : Counted
      { mode with availBufCount := mode.availBufCount + 1, handler := .counted }) :
    FlowKept { mode with availBufCount := mode.availBufCount + 1, handler := .counted } := by
  have hpin := hkept.pin (by rw [hhandler]; nofun)
  have hgoesOn := hkept.goesOn
  have hcounter : (mode.availBufCount + 1).toNat = mode.counter + 1 :=
    toNat_succ hkept.counted
  rw [hhandler] at hgoesOn
  refine ⟨hcounted, fun _ => hpin, fun hno => ?_, fun hyes => ?_, ?_, nofun⟩
  · have hle := hkept.stopped hno
    change 10 ≤ (mode.availBufCount + 1).toNat
    omega
  · have hle := hgoesOn hyes
    change (mode.availBufCount + 1).toNat ≤ 51
    rw [hcounter]
    exact Nat.succ_le_succ hle
  · rintro (hother | hother)
    · exact absurd hother nofun
    · exact absurd hother nofun

/-- The host is to be let go on. -/
theorem FlowKept.letGoOn (hkept : FlowKept mode) (hhandler : mode.handler = .counted)
    (hhigh : 50 < mode.counter) (hcounted : Counted { mode with handler := .releasing }) :
    FlowKept { mode with handler := .releasing } := by
  have hpin := hkept.pin (by rw [hhandler]; nofun)
  have hgoesOn := hkept.goesOn
  rw [hhandler] at hgoesOn
  refine ⟨hcounted, fun _ => hpin, hkept.stopped, fun hyes => ?_, fun _ => hhigh, nofun⟩
  exact (hgoesOn hyes).trans (show 51 ≤ 60 by decide)

theorem FlowKept.clearFlag (hkept : FlowKept mode) (hhandler : mode.handler = .releasing)
    (hcounted : Counted { mode with rxFlowCtrFlag := false, handler := .released }) :
    FlowKept { mode with rxFlowCtrFlag := false, handler := .released } := by
  have hhigh := hkept.high (.inl hhandler)
  refine ⟨hcounted, fun hother => absurd rfl hother, fun _ => ?_, nofun, fun _ => hhigh,
    fun _ => rfl⟩
  exact Nat.le_trans (by decide) hhigh.le

theorem FlowKept.clearPin (hkept : FlowKept mode) (hhandler : mode.handler = .released)
    (hcounted : Counted { mode with flowCtrl := false, handler := .waiting }) :
    FlowKept { mode with flowCtrl := false, handler := .waiting } := by
  have hhigh := hkept.high (.inr hhandler)
  have hcleared := hkept.cleared hhandler
  refine ⟨hcounted, fun _ => hcleared.symm, fun _ => ?_, fun hyes => ?_, ?_, nofun⟩
  · exact Nat.le_trans (by decide) hhigh.le
  · exact absurd (hcleared.symm.trans hyes) Bool.false_ne_true
  · rintro (hother | hother)
    · exact absurd hother nofun
    · exact absurd hother nofun

theorem FlowKept.dataHandler (hkept : FlowKept mode) : FlowKept (dataHandler mode) := by
  have hcounted := hkept.counted.dataHandler
  have hgoesOn := hkept.goesOn
  unfold ActData.dataHandler at hcounted ⊢
  cases hhandler : mode.handler with
  | waiting =>
      rw [hhandler] at hcounted hgoesOn
      dsimp only at hcounted ⊢
      cases hqueue : mode.datasQueue with
      | nil => exact hkept
      | cons data rest =>
          rw [hqueue] at hcounted
          exact hkept.moved hcounted ⟨rfl, rfl, rfl⟩ (by rw [hhandler]; nofun) nofun nofun hgoesOn
  | sending data =>
      rw [hhandler] at hcounted hgoesOn
      exact hkept.moved hcounted ⟨rfl, rfl, rfl⟩ (by rw [hhandler]; nofun) nofun nofun hgoesOn
  | returned =>
      rw [hhandler] at hcounted
      exact hkept.countUp hhandler hcounted
  | counted =>
      rw [hhandler] at hcounted
      have hiff : dataQueueHighLevel < mode.availBufCount ↔ 50 < mode.counter :=
        UInt16.lt_iff_toNat_lt
      dsimp only at hcounted ⊢
      split
      next hhigh =>
        rw [if_pos hhigh] at hcounted
        exact hkept.letGoOn hhandler (hiff.mp hhigh.2) hcounted
      next hno =>
        rw [if_neg hno] at hcounted
        refine hkept.moved hcounted ⟨rfl, rfl, rfl⟩ (by rw [hhandler]; nofun) nofun nofun ?_
        intro hyes
        exact Nat.le_of_not_lt fun hhigh => hno ⟨hyes, hiff.mpr hhigh⟩
  | releasing =>
      rw [hhandler] at hcounted
      exact hkept.clearFlag hhandler hcounted
  | released =>
      rw [hhandler] at hcounted
      exact hkept.clearPin hhandler hcounted

theorem flowKept_dataStep (step : DataStep) (hkept : FlowKept mode)
    (huninterrupted : Uninterrupted mode step) : FlowKept (dataStep mode step) := by
  cases step with
  | enterIntoDataMode => exact flowKept_enterIntoDataMode mode
  | recvCb off =>
      obtain ⟨hreleasing, hreleased⟩ := huninterrupted off rfl
      exact hkept.recvCb off hreleasing hreleased
  | sendPartial =>
      exact ⟨⟨hkept.counted.count, hkept.counted.total⟩, hkept.pin, hkept.stopped, hkept.goesOn,
        hkept.high, hkept.cleared⟩
  | dataHandler => exact hkept.dataHandler

theorem idle_most {handler : Handler} (hidle : handler.Idle) :
    handler.most = 50 ∧ handler ≠ .released := by
  cases handler with
  | waiting | sending _ => exact ⟨rfl, nofun⟩
  | returned | counted | releasing | released => exact hidle.elim

/-- The host is stopped when a buffer is taken and few are left. -/
theorem FlowKept.changes_recvCb (hkept : FlowKept mode) (off : Nat)
    (hchanges : (ActData.recvCb mode off).flowCtrl ≠ mode.flowCtrl) :
    (ActData.recvCb mode off).flowCtrl = true ∧ (ActData.recvCb mode off).counter < 10 := by
  obtain ⟨started, abort, hsame | ⟨newBuf, rest, hqueue, htaken⟩⟩ := recvCb_cases mode off
  · rw [hsame] at hchanges
    exact absurd rfl hchanges
  · have hpos : 0 < mode.counter := hkept.counted.pos hqueue
    have hcounter := counter_handOver { mode with
      sendPartialTimerStarted := started, rxAbort := abort } off newBuf rest hpos
    have hflow := (flag_handOver { mode with
      sendPartialTimerStarted := started, rxAbort := abort } off newBuf rest hpos).2
    rw [htaken, hflow] at hchanges
    rw [htaken, hcounter, hflow]
    dsimp only at hchanges ⊢
    cases hold : mode.flowCtrl with
    | true =>
        rw [hold, Bool.true_or] at hchanges
        exact absurd rfl hchanges
    | false =>
        rw [hold, Bool.false_or, Bool.ne_false_iff] at hchanges
        rw [Bool.false_or]
        exact ⟨hchanges, of_decide_eq_true (Bool.and_eq_true_iff.mp hchanges).1⟩

/-- The last step of letting the host go on is the only one of the thread that changes the pin. -/
theorem handler_of_changes (hchanges : (ActData.dataHandler mode).flowCtrl ≠ mode.flowCtrl) :
    mode.handler = .released := by
  unfold ActData.dataHandler at hchanges
  cases hhandler : mode.handler with
  | released => rfl
  | waiting =>
      rw [hhandler] at hchanges
      cases hqueue : mode.datasQueue with
      | nil =>
          rw [hqueue] at hchanges
          exact absurd rfl hchanges
      | cons data rest =>
          rw [hqueue] at hchanges
          exact absurd rfl hchanges
  | counted =>
      rw [hhandler] at hchanges
      dsimp only at hchanges
      split at hchanges
      next => exact absurd rfl hchanges
      next => exact absurd rfl hchanges
  | sending _ | returned | releasing =>
      rw [hhandler] at hchanges
      exact absurd rfl hchanges

theorem FlowKept.changes (hkept : FlowKept mode) (step : DataStep)
    (hstep : step ≠ .enterIntoDataMode)
    (hchanges : (dataStep mode step).flowCtrl ≠ mode.flowCtrl) :
    if (dataStep mode step).flowCtrl then
      (dataStep mode step).counter < dataQueueLowLevel.toNat
    else dataQueueHighLevel.toNat < mode.counter := by
  cases step with
  | enterIntoDataMode => exact absurd rfl hstep
  | sendPartial => exact absurd rfl hchanges
  | recvCb off =>
      obtain ⟨hflow, hlow⟩ := hkept.changes_recvCb off hchanges
      rw [dataStep, if_pos hflow]
      exact hlow
  | dataHandler =>
      have hreleased := handler_of_changes hchanges
      have hflow : (dataStep mode .dataHandler).flowCtrl = false := by
        rw [dataStep, ActData.dataHandler, hreleased]
      rw [hflow, if_neg Bool.false_ne_true]
      exact hkept.high (.inr hreleased)

theorem flowLaw_of_kept (hkept : FlowKept mode) (step : DataStep) :
    FlowLaw DataMode.counter mode step where
  counted _ := rfl
  wraps off _ htaken := by
    obtain ⟨started, abort, hsame | ⟨newBuf, rest, hqueue, -⟩⟩ := recvCb_cases mode off
    · rw [hsame] at htaken
      exact absurd htaken (Nat.lt_irrefl _)
    · exact hkept.counted.pos hqueue
  stopped hidle hlow := by
    rw [hkept.pin (idle_most hidle).2]
    cases hflag : mode.rxFlowCtrFlag with
    | true => rfl
    | false => exact absurd hlow (Nat.not_lt_of_le (hkept.stopped hflag))
  goesOn hidle hhigh := by
    rw [hkept.pin (idle_most hidle).2]
    cases hflag : mode.rxFlowCtrFlag with
    | true =>
        have hle := hkept.goesOn hflag
        rw [(idle_most hidle).1] at hle
        exact absurd hhigh (Nat.not_lt_of_le hle)
    | false => rfl
  changes hstep hchanges := hkept.changes step hstep hchanges

/-- By the counter, flow control is as it should be in every run that does not hand a buffer over
while the host is let go on. -/
theorem flowLaw_counter (start : DataMode) (steps : List DataStep)
    (huninterrupted : Along dataStep Uninterrupted (enterIntoDataMode start) steps) :
    Along dataStep (FlowLaw DataMode.counter) (enterIntoDataMode start) steps := by
  have hkept := flowKept_enterIntoDataMode start
  generalize enterIntoDataMode start = mode at hkept huninterrupted ⊢
  induction steps generalizing mode with
  | nil => trivial
  | cons step steps ih =>
      refine ⟨flowLaw_of_kept hkept step, ih (dataStep mode step) ?_ huninterrupted.2⟩
      exact flowKept_dataStep step hkept huninterrupted.1

end Flow

end CubieBle.ModulePer.ActData
