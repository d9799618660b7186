import CubieBle.Hal.IrcLearning
import CubieBle.Machine.Bytes

/-! # Transmitting a code

The starter puts out the first pulse and starts a timer, whose interrupt puts out the next one.
The interrupt looks at the length of the table only after it has put out a pulse.
-/

namespace CubieBle.Hal

def txRepeatGapTimeDefault : UInt32 := 108 * 1000

/-- What the transmitter does: it reads an entry, puts out a level and starts the timer with a
width, stops the output, starts the repeat timer. -/
inductive TxEvent where
  | read (index : Nat)
  | output (level : PulseLevel) (time : UInt16)
  | stop
  | startRepeat (time : UInt32)
deriving DecidableEq

namespace TxEvent

/-- The widths that were put out, each with its level. -/
def outputs (log : List TxEvent) : List (PulseLevel × UInt16) :=
  log.filterMap fun
    | .output level time => some (level, time)
    | _ => none

def reads (log : List TxEvent) : List Nat :=
  log.filterMap fun
    | .read index => some index
    | _ => none

def repeats (log : List TxEvent) : Nat :=
  log.countP fun
    | .startRepeat _ => true
    | _ => false

end TxEvent

/-- The fields of `struct sw_acts_irc_data` that the transmitter uses, and what it did. -/
structure IrcTx where
  curReadPulseTabIndex : UInt16 := 0
  pPulseTab : PulseTab := fun _ => 0
  pulseTabLen : UInt16 := 0
  log : List TxEvent := []

namespace IrcTx

/-- The output of the entry at the index: a carrier or a low level. -/
def outputEntry (tx : IrcTx) (level : PulseLevel) : IrcTx :=
  { tx with
    log := tx.log ++ [.read tx.curReadPulseTabIndex.toNat,
      .output level (tx.pPulseTab tx.curReadPulseTabIndex.toNat)] }

def commonTimerIsr (tx : IrcTx) : IrcTx :=
  let tx : IrcTx := { tx with curReadPulseTabIndex := tx.curReadPulseTabIndex + 1 }
  -- The entry at the new index is put out before the index is compared with the length.
  let tx := tx.outputEntry (if tx.curReadPulseTabIndex % 2 = 0 then .carrier else .space)
  if tx.pulseTabLen ≤ tx.curReadPulseTabIndex then
    { tx with log := tx.log ++ [.stop, .startRepeat txRepeatGapTimeDefault] }
  else tx

/-- `sw_irc_output_ircode`, which does nothing if it does not find its devices. -/
def swIrcOutputIrcode (tx : IrcTx) (gpioFound pwmFound : Bool) (pulseTab : PulseTab)
    (pulseCount : UInt16) : IrcTx :=
  if ¬gpioFound then tx
  else if ¬pwmFound then tx
  else
    { tx with
      curReadPulseTabIndex := 0
      pPulseTab := pulseTab
      pulseTabLen := pulseCount }.outputEntry .carrier

/-- A table is given to a transmitter, and the timer interrupts so many times. -/
def afterInterrupts (pulseTab : PulseTab) (pulseCount : UInt16) : Nat → IrcTx
  | 0 => swIrcOutputIrcode {} true true pulseTab pulseCount
  | count + 1 => (afterInterrupts pulseTab pulseCount count).commonTimerIsr

def RepeatStarted (tx : IrcTx) : Prop := 0 < TxEvent.repeats tx.log

end IrcTx

/-- The first so many pulses, a carrier and a low level in turn. -/
def pulseTrain (pulseTab : PulseTab) (count : Nat) : List (PulseLevel × UInt16) :=
  (List.range count).map fun i => (if i % 2 = 0 then .carrier else .space, pulseTab i)

/-- The pulses of the table and no other were put out when the repeat timer was first started. -/
structure SendsTable (pulseTab : PulseTab) (pulseCount : UInt16) (tx : IrcTx) : Prop where
  outputs : TxEvent.outputs tx.log = pulseTrain pulseTab pulseCount.toNat
  reads : ∀ index ∈ TxEvent.reads tx.log, index < pulseCount.toNat
  repeats : TxEvent.repeats tx.log = 1

/-- The interrupt that starts the repeat timer. -/
def IsLastInterrupt (pulseTab : PulseTab) (pulseCount : UInt16) (count : Nat) : Prop :=
  (IrcTx.afterInterrupts pulseTab pulseCount count).RepeatStarted ∧
    ∀ earlier < count, ¬(IrcTx.afterInterrupts pulseTab pulseCount earlier).RepeatStarted

/-- The pulses up to this entry were put out, and the output goes on. -/
structure SentUpTo (pulseTab : PulseTab) (pulseCount : UInt16) (count : Nat) (tx : IrcTx) :
    Prop where
  index : tx.curReadPulseTabIndex.toNat = count
  pPulseTab : tx.pPulseTab = pulseTab
  pulseTabLen : tx.pulseTabLen = pulseCount
  outputs : TxEvent.outputs tx.log = pulseTrain pulseTab (count + 1)
  reads : TxEvent.reads tx.log = List.range (count + 1)
  repeats : TxEvent.repeats tx.log = 0

section Interrupts

variable {pulseTab : PulseTab} {pulseCount : UInt16} {count : Nat} {tx : IrcTx}

theorem pulseTrain_succ (pulseTab : PulseTab) (count : Nat) :
    pulseTrain pulseTab (count + 1) = pulseTrain pulseTab count ++
      [(if count % 2 = 0 then .carrier else .space, pulseTab count)] := by
  rw [pulseTrain, List.range_succ, List.map_append, pulseTrain]
  rfl

theorem sentUpTo_start (pulseTab : PulseTab) (pulseCount : UInt16) :
    SentUpTo pulseTab pulseCount 0 (IrcTx.afterInterrupts pulseTab pulseCount 0) :=
  ⟨rfl, rfl, rfl, rfl, rfl, rfl⟩

theorem TxEvent.outputs_append (log events : List TxEvent) :
    outputs (log ++ events) = outputs log ++ outputs events := List.filterMap_append

theorem TxEvent.reads_append (log events : List TxEvent) :
    reads (log ++ events) = reads log ++ reads events := List.filterMap_append

theorem TxEvent.repeats_append (log events : List TxEvent) :
    repeats (log ++ events) = repeats log + repeats events := List.countP_append

/-- An interrupt puts out the next entry, whatever the length. -/
theorem SentUpTo.outputEntry (hsent : SentUpTo pulseTab pulseCount count tx)
    (hcount : count < 65535) :
    SentUpTo pulseTab pulseCount (count + 1)
      (IrcTx.outputEntry { tx with curReadPulseTabIndex := tx.curReadPulseTabIndex + 1 }
        (if (tx.curReadPulseTabIndex + 1) % 2 = 0 then .carrier else .space)) := by
  have hindex : (tx.curReadPulseTabIndex + 1).toNat = count + 1 := by
    rw [Machine.uint16_toNat_succ (by rw [hsent.index]; exact hcount), hsent.index]
  have hlevel : (if (tx.curReadPulseTabIndex + 1) % 2 = 0 then PulseLevel.carrier else .space) =
      if (count + 1) % 2 = 0 then .carrier else .space := by
    have hmod : (tx.curReadPulseTabIndex + 1) % 2 = 0 ↔ (count + 1) % 2 = 0 := by
      rw [← UInt16.toNat_inj, UInt16.toNat_mod, hindex]
      rfl
    by_cases heven : (count + 1) % 2 = 0
    · rw [if_pos (hmod.mpr heven), if_pos heven]
    · rw [if_neg (mt hmod.mp heven), if_neg heven]
  rw [hlevel, IrcTx.outputEntry]
  refine ⟨hindex, hsent.pPulseTab, hsent.pulseTabLen, ?_, ?_, ?_⟩
  · rw [pulseTrain_succ, TxEvent.outputs_append, hsent.outputs, hindex, hsent.pPulseTab]
    rfl
  · rw [List.range_succ, TxEvent.reads_append, hsent.reads, hindex]
    rfl
  · rw [TxEvent.repeats_append, hsent.repeats]
    rfl

/-- Before the last interrupt, one more pulse is out than there were interrupts. -/
theorem sentUpTo_afterInterrupts (hcount : count < pulseCount.toNat) :
    SentUpTo pulseTab pulseCount count (IrcTx.afterInterrupts pulseTab pulseCount count) := by
  induction count with
  | zero => exact sentUpTo_start pulseTab pulseCount
  | succ count ih =>
      have hsent := ih (Nat.lt_of_succ_lt hcount)
      have hlt := pulseCount.toNat_lt
      have hnext := hsent.outputEntry (by omega)
      rw [IrcTx.afterInterrupts, IrcTx.commonTimerIsr]
      dsimp only
      rw [if_neg]
      · exact hnext
      · rw [UInt16.le_iff_toNat_le, hnext.index, hnext.pulseTabLen]
        exact Nat.not_le.mpr hcount

/-- The interrupt that stops the output has put out the entry behind the table. -/
theorem afterInterrupts_last (hpos : 0 < pulseCount.toNat) (hlimit : pulseCount.toNat < 65535) :
    ∃ sent, SentUpTo pulseTab pulseCount pulseCount.toNat sent ∧
      (IrcTx.afterInterrupts pulseTab pulseCount pulseCount.toNat).log =
        sent.log ++ [.stop, .startRepeat txRepeatGapTimeDefault] := by
  obtain ⟨count, hcount⟩ : ∃ count, pulseCount.toNat = count + 1 :=
    ⟨pulseCount.toNat - 1, by omega⟩
  have hsent := (sentUpTo_afterInterrupts (by omega) :
    SentUpTo pulseTab pulseCount count (IrcTx.afterInterrupts pulseTab pulseCount count))
  have hnext := hsent.outputEntry (by omega)
  refine ⟨_, by rw [hcount]; exact hnext, ?_⟩
  rw [hcount, IrcTx.afterInterrupts, IrcTx.commonTimerIsr]
  dsimp only
  rw [if_pos]
  rw [UInt16.le_iff_toNat_le, hnext.index, hnext.pulseTabLen]
  exact Nat.le_of_eq hcount

theorem not_repeatStarted (hcount : count < pulseCount.toNat) :
    ¬(IrcTx.afterInterrupts pulseTab pulseCount count).RepeatStarted := by
  have hsent := (sentUpTo_afterInterrupts hcount :
    SentUpTo pulseTab pulseCount count (IrcTx.afterInterrupts pulseTab pulseCount count))
  rw [IrcTx.RepeatStarted, hsent.repeats]
  exact Nat.lt_irrefl 0

theorem IsLastInterrupt.unique {other : Nat} (hlast : IsLastInterrupt pulseTab pulseCount count)
    (hother : IsLastInterrupt pulseTab pulseCount other) : count = other := by
  rcases Nat.lt_trichotomy count other with hlt | heq | hgt
  · exact (hother.2 count hlt hlast.1).elim
  · exact heq
  · exact (hlast.2 other hgt hother.1).elim

end Interrupts

/-- No table is transmitted pulse by pulse and no further: the repeat timer is started by the
interrupt that puts out the entry behind the last pulse. -/
theorem transmits_one_too_many (pulseTab : PulseTab) (pulseCount : UInt16)
    (hpos : 1 ≤ pulseCount.toNat) (hlimit : pulseCount.toNat ≤ maxPulseLen) :
    IsLastInterrupt pulseTab pulseCount pulseCount.toNat ∧
      TxEvent.outputs (IrcTx.afterInterrupts pulseTab pulseCount pulseCount.toNat).log =
        pulseTrain pulseTab (pulseCount.toNat + 1) ∧
      pulseCount.toNat ∈
        TxEvent.reads (IrcTx.afterInterrupts pulseTab pulseCount pulseCount.toNat).log ∧
      TxEvent.repeats (IrcTx.afterInterrupts pulseTab pulseCount pulseCount.toNat).log = 1 ∧
      ∀ count, IsLastInterrupt pulseTab pulseCount count →
        ¬SendsTable pulseTab pulseCount (IrcTx.afterInterrupts pulseTab pulseCount count) := by
  have hmax : maxPulseLen < 65535 := by decide
  obtain ⟨sent, hsent, hlog⟩ := (afterInterrupts_last hpos (by omega) :
    ∃ sent, SentUpTo pulseTab pulseCount pulseCount.toNat sent ∧ _)
  have houtputs : TxEvent.outputs
      (IrcTx.afterInterrupts pulseTab pulseCount pulseCount.toNat).log =
        pulseTrain pulseTab (pulseCount.toNat + 1) := by
    rw [hlog, TxEvent.outputs_append, hsent.outputs]
    exact List.append_nil _
  have hreads : pulseCount.toNat ∈
      TxEvent.reads (IrcTx.afterInterrupts pulseTab pulseCount pulseCount.toNat).log := by
    rw [hlog, TxEvent.reads_append, hsent.reads]
    exact List.mem_append_left _ (List.mem_range.mpr (Nat.lt_succ_self _))
  have hrepeats : TxEvent.repeats
      (IrcTx.afterInterrupts pulseTab pulseCount pulseCount.toNat).log = 1 := by
    rw [hlog, TxEvent.repeats_append, hsent.repeats]
    rfl
  have hlast : IsLastInterrupt pulseTab pulseCount pulseCount.toNat :=
    ⟨by rw [IrcTx.RepeatStarted, hrepeats]; exact Nat.one_pos,
      fun _ hearlier => not_repeatStarted hearlier⟩
  refine ⟨hlast, houtputs, hreads, hrepeats, ?_⟩
  intro count hcount hsends
  -- Only one interrupt is the last one, and it has read the entry behind the table.
  rw [hcount.unique hlast] at hsends
  exact Nat.lt_irrefl _ (hsends.reads _ hreads)

/-- A table of three pulses, with a width behind it. -/
def threePulses : PulseTab := fun i => [9000, 4500, 560, 1690].getD i 0

theorem transmits_one_too_many_three :
    IsLastInterrupt threePulses 3 3 ∧
      TxEvent.outputs (IrcTx.afterInterrupts threePulses 3 3).log =
        [(.carrier, 9000), (.space, 4500), (.carrier, 560), (.space, 1690)] ∧
      ¬SendsTable threePulses 3 (IrcTx.afterInterrupts threePulses 3 3) := by
  obtain ⟨hlast, houtputs, -, -, hnever⟩ :=
    transmits_one_too_many threePulses 3 (by decide) (by decide)
  exact ⟨hlast, houtputs, hnever 3 hlast⟩

/-- The one pulse of the table is followed by a low level of the width that stands behind it. -/
theorem one_pulse_not_sent :
    IsLastInterrupt (fun _ => 560) 1 1 ∧
      ¬SendsTable (fun _ => 560) 1 (IrcTx.afterInterrupts (fun _ => 560) 1 1) := by
  refine ⟨⟨by unfold IrcTx.RepeatStarted; decide, ?_⟩, fun hsends => ?_⟩
  · intro earlier hearlier
    obtain rfl : earlier = 0 := Nat.lt_one_iff.mp hearlier
    unfold IrcTx.RepeatStarted
    decide
  · have hread := hsends.reads 1 (by decide)
    exact Nat.lt_irrefl 1 hread

end CubieBle.Hal
