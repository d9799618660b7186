import CubieBle.Machine.Bytes
import CubieBle.Ota.EventLaws

/-! # Flow control of uploads

The bytes accepted in each put are followed together with the count fields of
the acknowledgements notified for it. Acknowledgements stall when an event finds
the counters just reset by a new put: it returns before the ready bit is cleared.
They miscount when a finished put is followed by another before its last
acknowledgement, or when more than 16 bits of data are acknowledged at once.
-/

namespace CubieBle.Ota

open Machine

/-- The count field of an acknowledgement. -/
def ackCount : HostCall → Option UInt16
  | .notify _ .ftc value =>
      if value.head? = some FtcOp.packetReceived.code then
        some ((value.getD 4 0).toUInt16 + ((value.getD 5 0).toUInt16 <<< 8))
      else none
  | _ => none

/-- An accepted put: its length, the bytes accepted and the counts notified. -/
structure Put where
  len : UInt32
  accepted : Nat
  counts : List UInt16
deriving DecidableEq

namespace Put

def acked (put : Put) : Nat := (put.counts.map UInt16.toNat).sum

def Finished (put : Put) : Prop := put.accepted = put.len.toNat

instance (put : Put) : Decidable put.Finished := inferInstanceAs (Decidable (_ = _))

def accept (put : Put) (len : UInt16) : Put := { put with accepted := put.accepted + len.toNat }

def notified (put : Put) (counts : List UInt16) : Put := { put with counts := put.counts ++ counts }

theorem acked_notified (put : Put) (counts : List UInt16) :
    (put.notified counts).acked = put.acked + (counts.map UInt16.toNat).sum := by
  simp [acked, notified]

end Put

/-- The control write is a put request that `ota_ftc_write` accepts. -/
def AcceptsPut (sys : Sys) (packet : Packet) : Prop :=
  3 ≤ packet.len ∧ FtcOp.ofByte (packet.byte 0) = some .putReq ∧ sys.cb.ftInProgress = .none

instance (sys : Sys) (packet : Packet) : Decidable (AcceptsPut sys packet) :=
  inferInstanceAs (Decidable (_ ∧ _ ∧ _))

/-- Follow the accepted puts, the latest first. -/
def observePuts (env : Env) (sys : Sys) (action : Action) (puts : List Put) : List Put :=
  match action with
  | .write _ .ftc packet =>
      if AcceptsPut sys packet then ⟨packet.uint32 7, 0, []⟩ :: puts else puts
  | .write _ .ftd packet =>
      if FtdAccepts sys packet then puts.modifyHead (·.accept packet.len) else puts
  | .dispatch =>
      puts.modifyHead
        (·.notified (((dispatch env sys).calls.drop sys.calls.length).filterMap ackCount))
  | _ => puts

abbrev FlowRun := Tracked Sys (List Put)

def flowStep (env : Env) : FlowRun → Action → FlowRun := trackedStep (step env) (observePuts env)

/-- Put and abort requests, data packets and event handling. -/
def FlowAction : Action → Prop
  | .write _ .ftc packet =>
      FtcOp.ofByte (packet.byte 0) = some .putReq ∨ FtcOp.ofByte (packet.byte 0) = some .abort
  | .write _ .ftd _ => True
  | .dispatch => True
  | _ => False

instance : DecidablePred FlowAction
  | .write _ .ftc _ => inferInstanceAs (Decidable (_ ∨ _))
  | .write _ .ftd _ => inferInstanceAs (Decidable True)
  | .write _ .dc _ => inferInstanceAs (Decidable False)
  | .write _ .au _ => inferInstanceAs (Decidable False)
  | .dispatch => inferInstanceAs (Decidable True)
  | .cccChanged _ _ => inferInstanceAs (Decidable False)
  | .wakeupTimeout => inferInstanceAs (Decidable False)

/-- Without a queued acknowledgement nothing is left to acknowledge and the next
packet can post one; once the queue has drained, the notified counts of every
finished put add up to its bytes. -/
def FlowSafe (current : FlowRun) : Prop :=
  (.ftcAsync ∉ current.state.queue → current.state.asyncWaiting = false ∧
      current.state.cb.sendCount = current.state.cb.pendingCount) ∧
    (current.state.queue = [] →
      ∀ put ∈ current.history, put.Finished → put.acked = put.accepted)

/-- A put is accepted only when the finished put before it is acknowledged, an
acknowledgement fits its count field, and the last queued one finds something to
acknowledge unless the ready bit is clear. -/
def FlowCondition (current : FlowRun) : Action → Prop
  | .write _ .ftc packet =>
      AcceptsPut current.state packet → ∀ put ∈ current.history.head?, put.Finished →
        current.state.cb.sendCount = current.state.cb.pendingCount
  | .dispatch =>
      current.state.queue.head? = some .ftcAsync →
        (current.state.cb.pendingCount - current.state.cb.sendCount).toNat < 2 ^ 16 ∧
          (.ftcAsync ∉ current.state.queue.tail →
            current.state.cb.sendCount = current.state.cb.pendingCount →
              current.state.asyncWaiting = false)
  | _ => True

instance (current : FlowRun) : DecidablePred (FlowCondition current)
  | .write _ .ftc _ => inferInstanceAs (Decidable (_ → ∀ put ∈ _, _))
  | .write _ .ftd _ => inferInstanceAs (Decidable True)
  | .write _ .dc _ => inferInstanceAs (Decidable True)
  | .write _ .au _ => inferInstanceAs (Decidable True)
  | .dispatch => inferInstanceAs (Decidable (_ → _ ∧ (_ → _ → _)))
  | .cccChanged _ _ => inferInstanceAs (Decidable True)
  | .wakeupTimeout => inferInstanceAs (Decidable True)

def flowInit (flash : Flash) (notifyOn : Handle → Bool) : FlowRun :=
  ⟨otaProfileInit flash notifyOn, []⟩

/-! ## The invariant -/

/-- What the latest put looks like in the control block. -/
structure Put.Matches (put : Put) (sys : Sys) : Prop where
  pending : sys.cb.pendingCount.toNat = put.accepted
  send : sys.cb.sendCount.toNat = put.acked
  acked_le : put.acked ≤ put.accepted
  remaining : sys.cb.ftInProgress = .putReq →
    put.accepted + sys.cb.ftLen.toNat = put.len.toNat

/-- Only control events are queued and only acknowledgements count bytes. -/
structure FlowMessages (sys : Sys) : Prop where
  notifyOn : sys.notifyOn .ftc = true
  events : ∀ event ∈ sys.queue, event = .ftc ∨ event = .ftcAsync
  buffer : ∀ conn, ackCount (.notify conn .ftc sys.cb.ftcMsgBuf) = none

structure FlowInv (current : FlowRun) : Prop where
  messages : FlowMessages current.state
  waiting : .ftcAsync ∉ current.state.queue → current.state.asyncWaiting = false ∧
    current.state.cb.sendCount = current.state.cb.pendingCount
  idle : current.history = [] → current.state.cb.ftInProgress ≠ .putReq
  latest : ∀ put ∈ current.history.head?, put.Matches current.state
  earlier : ∀ put ∈ current.history.tail, put.Finished → put.acked = put.accepted

/-- Waking up is not part of the flow. -/
theorem FlowInv.awake {current : FlowRun} (hinv : FlowInv current) :
    FlowInv ⟨current.state.awake, current.history⟩ where
  messages := ⟨hinv.messages.notifyOn, hinv.messages.events, hinv.messages.buffer⟩
  waiting := hinv.waiting
  idle := hinv.idle
  latest := fun put hput =>
    have hmatches := hinv.latest put hput
    ⟨hmatches.pending, hmatches.send, hmatches.acked_le, hmatches.remaining⟩
  earlier := hinv.earlier

theorem ackCount_ackMessage (conn : Conn) (handle count : UInt16) :
    ackCount (.notify conn .ftc (ackMessage handle count)) = some count := by
  simp only [ackCount, ackMessage, uint16ToBytes]
  exact congrArg some (uint16_of_bytes count)

/-- A response is not an acknowledgement. -/
theorem ackCount_ftcMessage (env : Env) (conn : Conn) (op : FtcOp) (handle : UInt16)
    (status : UInt8) (extraInfo : UInt16) (hop : op ≠ .packetReceived) :
    ackCount (.notify conn .ftc (ftcMessage env op handle status extraInfo)) = none := by
  cases op with
  | packetReceived => exact absurd rfl hop
  | _ => rfl

/-! ## Steps -/

section Control

variable {env : Env} {sys next : Sys} {packet : Packet}

theorem ftcEvents_of_flow (hop : FtcOp.ofByte (packet.byte 0) = some .putReq ∨
    FtcOp.ofByte (packet.byte 0) = some .abort) : ftcEvents sys packet = [] := by
  unfold ftcEvents
  split
  · rfl
  · rcases hop with hop | hop <;> simp [hop]

/-- A put or abort request that is not accepted counts nothing and at most ends
the operation. -/
structure Refused (sys next : Sys) : Prop where
  counters : SameCounters sys next
  progress : next.cb.ftInProgress = .putReq →
    sys.cb.ftInProgress = .putReq ∧ next.cb.ftLen = sys.cb.ftLen

theorem otaFtcProcAbort_refused (sys : Sys) : Refused sys (otaFtcProcAbort sys) where
  counters := by
    unfold otaFtcProcAbort
    split <;> exact ⟨rfl, rfl, rfl⟩
  progress := by
    rw [otaFtcProcAbort_ftInProgress]
    intro hput
    exact absurd hput (by decide)

theorem ftcSetup_refused (hop : FtcOp.ofByte (packet.byte 0) = some .putReq ∨
    FtcOp.ofByte (packet.byte 0) = some .abort) (hrefused : ¬ AcceptsPut sys packet) :
    Refused sys (ftcSetup env sys packet) := by
  have hself : Refused sys sys := ⟨SameCounters.refl sys, fun hput => ⟨hput, rfl⟩⟩
  by_cases hlen : packet.len < 3
  · rw [ftcSetup, if_pos hlen]
    exact hself
  · have hlen := UInt16.not_lt.mp hlen
    rcases hop with hop | hop
    · rw [ftcSetup_of_busy env sys packet (fun hidle => hrefused ⟨hlen, hop, hidle⟩)
        (by simp [hop])]
      exact hself
    · rw [ftcSetup_abort env sys packet hlen hop]
      exact otaFtcProcAbort_refused sys

theorem FtcEffect.refused (heffect : FtcEffect env sys packet next)
    (hsetup : Refused sys (ftcSetup env sys packet)) : Refused sys next where
  counters := hsetup.counters.trans heffect.counters
  progress := by
    rw [heffect.transfer.ftInProgress, heffect.transfer.ftLen]
    exact hsetup.progress

theorem FtcEffect.ftcAsync_mem (heffect : FtcEffect env sys packet next)
    (hevents : ftcEvents sys packet = []) :
    .ftcAsync ∈ next.queue ↔ .ftcAsync ∈ sys.queue := by
  rw [heffect.queue, hevents]
  split <;> simp

theorem FlowMessages.ftc (hmessages : FlowMessages sys) (heffect : FtcEffect env sys packet next)
    (hevents : ftcEvents sys packet = []) : FlowMessages next where
  notifyOn := by rw [heffect.notifyOn]; exact hmessages.notifyOn
  events := by
    intro event hevent
    rw [heffect.queue, hevents, List.append_nil, List.mem_append] at hevent
    rcases hevent with hold | hnew
    · exact hmessages.events event hold
    · left
      split at hnew
      · simp at hnew
      · simpa using hnew
  buffer := by
    intro conn
    rw [heffect.ftcMsgBuf]
    split
    next => exact hmessages.buffer conn
    next op status hresponse =>
      split
      · exact hmessages.buffer conn
      · exact ackCount_ftcMessage env conn op _ _ 0
          (ftcResponse_ne_packetReceived env sys packet hresponse)

end Control

/-- A refused request keeps what is known of the latest put. -/
theorem Put.Matches.refused {put : Put} {sys next : Sys} (hmatches : put.Matches sys)
    (hrefused : Refused sys next) : put.Matches next where
  pending := by rw [hrefused.counters.pendingCount]; exact hmatches.pending
  send := by rw [hrefused.counters.sendCount]; exact hmatches.send
  acked_le := hmatches.acked_le
  remaining := by
    intro hput
    obtain ⟨hput, hlen⟩ := hrefused.progress hput
    rw [hlen]
    exact hmatches.remaining hput

/-- Once the latest put is acknowledged if finished, so are all of them. -/
theorem FlowInv.acked {current : FlowRun} (hinv : FlowInv current)
    (hlatest : ∀ put ∈ current.history.head?, put.Finished →
      current.state.cb.sendCount = current.state.cb.pendingCount) :
    ∀ put ∈ current.history, put.Finished → put.acked = put.accepted := by
  intro put hput hfinished
  cases hhistory : current.history with
  | nil => simp [hhistory] at hput
  | cons latest earlier =>
      rw [hhistory, List.mem_cons] at hput
      rcases hput with rfl | hput
      · have hmatches := hinv.latest put (by simp [hhistory])
        rw [← hmatches.pending, ← hmatches.send, hlatest put (by simp [hhistory]) hfinished]
      · exact hinv.earlier put (by simpa [hhistory] using hput) hfinished

theorem FlowInv.safe {current : FlowRun} (hinv : FlowInv current) : FlowSafe current := by
  refine ⟨hinv.waiting, fun hempty => hinv.acked fun _ _ _ => ?_⟩
  exact (hinv.waiting (by simp [hempty])).2

theorem flowStep_ftc (env : Env) {current : FlowRun} (hinv : FlowInv current) (conn : Conn)
    (packet : Packet) (haction : FlowAction (.write conn .ftc packet))
    (hcondition : FlowCondition current (.write conn .ftc packet)) :
    FlowInv (flowStep env current (.write conn .ftc packet)) := by
  have heffect := otaFtcWrite_effect env current.state.awake conn packet
  have hevents : ftcEvents current.state.awake packet = [] := ftcEvents_of_flow haction
  change FlowInv ⟨(otaFtcWrite env current.state.awake conn packet).2,
    observePuts env current.state (.write conn .ftc packet) current.history⟩
  generalize (otaFtcWrite env current.state.awake conn packet).2 = next at heffect
  have hmessages := hinv.awake.messages.ftc heffect hevents
  have hmem := heffect.ftcAsync_mem hevents
  simp only [observePuts]
  by_cases haccepts : AcceptsPut current.state packet
  · rw [if_pos haccepts]
    have htransfer := heffect.transfer
    have hcounters := heffect.counters
    rw [ftcSetup_put env current.state.awake packet haccepts.1 haccepts.2.1 haccepts.2.2]
      at htransfer hcounters
    refine ⟨hmessages, fun hnot => ?_, by simp, ?_, hinv.acked (hcondition haccepts)⟩
    · have hbefore := hinv.waiting fun hqueued => hnot (hmem.mpr hqueued)
      exact ⟨hcounters.asyncWaiting.trans hbefore.1,
        hcounters.sendCount.trans hcounters.pendingCount.symm⟩
    · intro put hput
      obtain rfl := Option.some.inj hput
      refine ⟨?_, ?_, Nat.le_refl 0, fun _ => ?_⟩
      · rw [hcounters.pendingCount]
        rfl
      · rw [hcounters.sendCount]
        rfl
      · rw [htransfer.ftLen]
        exact Nat.zero_add _
  · rw [if_neg haccepts]
    have hrefused : Refused current.state.awake next :=
      heffect.refused (ftcSetup_refused haction haccepts)
    refine ⟨hmessages, fun hnot => ?_, fun hnone hput => ?_, fun put hput => ?_, hinv.earlier⟩
    · have hbefore := hinv.waiting fun hqueued => hnot (hmem.mpr hqueued)
      refine ⟨hrefused.counters.asyncWaiting.trans hbefore.1, ?_⟩
      rw [hrefused.counters.sendCount, hrefused.counters.pendingCount]
      exact hbefore.2
    · exact hinv.idle hnone (hrefused.progress hput).1
    · exact (hinv.awake.latest put hput).refused hrefused

theorem FlowMessages.ftd {env : Env} {sys next : Sys} {packet : Packet}
    (hmessages : FlowMessages sys) (hwrite : FtdMessages env sys packet next) :
    FlowMessages next where
  notifyOn := by rw [hwrite.notifyOn]; exact hmessages.notifyOn
  events := by
    intro event hevent
    rw [hwrite.queue, List.mem_append] at hevent
    rcases hevent with hold | hnew
    · exact hmessages.events event hold
    · repeat' split at hnew
      all_goals simp only [List.mem_cons, List.not_mem_nil, or_false] at hnew
      all_goals tauto
  buffer := by
    intro conn
    rw [hwrite.ftcMsgBuf]
    split
    · exact ackCount_ftcMessage env conn .eof _ 0 0 (by decide)
    · exact hmessages.buffer conn

/-- An accepted packet without a waiting acknowledgement posts one. -/
theorem FtdMessages.ftcAsync_mem {env : Env} {sys next : Sys} {packet : Packet}
    (hwrite : FtdMessages env sys packet next)
    (hwaiting : sys.asyncWaiting = true → .ftcAsync ∈ sys.queue) : .ftcAsync ∈ next.queue := by
  rw [hwrite.queue, List.mem_append]
  repeat' split
  · exact .inr (by simp)
  · exact .inr (by simp)
  next hasync => exact .inl (hwaiting hasync)
  · exact .inr (by simp)

theorem Put.Matches.accept {env : Env} {put : Put} {sys next : Sys} {packet : Packet}
    (hmatches : put.Matches sys) (haccepts : FtdAccepts sys packet)
    (htaken : FtdTaken sys packet next) (hwrite : FtdMessages env sys packet next) :
    (put.accept packet.len).Matches next := by
  have hremaining := hmatches.remaining haccepts.1
  have hfits := UInt32.le_iff_toNat_le.mp haccepts.2.2
  have hlen : next.cb.ftLen.toNat = sys.cb.ftLen.toNat - packet.len.toNat := by
    rw [htaken.ftLen, UInt32.toNat_sub_of_le _ _ haccepts.2.2]
    simp
  have hbound := put.len.toNat_lt
  simp only [UInt16.toNat_toUInt32] at hfits
  refine ⟨?_, ?_, ?_, fun _ => ?_⟩
  · rw [hwrite.pendingCount, UInt32.toNat_add, hmatches.pending, UInt16.toNat_toUInt32,
      Nat.mod_eq_of_lt (by omega)]
    rfl
  · rw [hwrite.sendCount]
    exact hmatches.send
  · exact Nat.le_add_right_of_le hmatches.acked_le
  · change put.accepted + packet.len.toNat + next.cb.ftLen.toNat = put.len.toNat
    omega

theorem flowStep_ftd (env : Env) {current : FlowRun} (hinv : FlowInv current) (conn : Conn)
    (packet : Packet) : FlowInv (flowStep env current (.write conn .ftd packet)) := by
  change FlowInv ⟨(otaFtdWrite env current.state.awake conn packet).2,
    observePuts env current.state (.write conn .ftd packet) current.history⟩
  simp only [observePuts]
  by_cases haccepts : FtdAccepts current.state packet
  · have htaken := otaFtdWrite_taken env current.state.awake conn packet haccepts
    have hwrite := otaFtdWrite_messages env current.state.awake conn packet haccepts
    generalize (otaFtdWrite env current.state.awake conn packet).2 = next at htaken hwrite
    rw [if_pos haccepts]
    have hmem : .ftcAsync ∈ next.queue := by
      apply hwrite.ftcAsync_mem
      intro hwaiting
      by_contra hnot
      have hclear := (hinv.awake.waiting hnot).1
      exact absurd (hwaiting.symm.trans hclear) (by decide)
    cases hhistory : current.history with
    | nil => exact absurd haccepts.1 (hinv.idle hhistory)
    | cons latest earlier =>
        refine ⟨hinv.awake.messages.ftd hwrite, fun hnot => absurd hmem hnot, by simp, ?_, ?_⟩
        · intro put hput
          obtain rfl := Option.some.inj hput
          exact (hinv.awake.latest latest (by simp [hhistory])).accept haccepts htaken hwrite
        · simpa [hhistory] using hinv.earlier
  · rw [if_neg haccepts, otaFtdWrite_rejected env current.state.awake conn packet haccepts]
    exact hinv.awake

section Dispatch

variable {current : FlowRun} {next : Sys} {rest : List Event}

/-- The puts after an event with the given notifications. -/
theorem notified_calls (puts : List Put) (calls added : List HostCall) (counts : List UInt16)
    (hcounts : added.filterMap ackCount = counts) :
    puts.modifyHead (·.notified (((calls ++ added).drop calls.length).filterMap ackCount)) =
      puts.modifyHead (·.notified counts) := by
  rw [List.drop_left, hcounts]

theorem modifyHead_notified_nil (puts : List Put) : puts.modifyHead (·.notified []) = puts := by
  cases puts with
  | nil => rfl
  | cons latest earlier => simp [Put.notified]

/-- Handling an event that acknowledges nothing keeps the invariant, if the
ready bit is not left behind. -/
theorem FlowInv.pop (hinv : FlowInv current) {event : Event}
    (hqueue : current.state.queue = event :: rest) (hnext : next.queue = rest)
    (hnotify : next.notifyOn = current.state.notifyOn)
    (hbuffer : next.cb.ftcMsgBuf = current.state.cb.ftcMsgBuf)
    (htransfer : SameTransfer current.state next) (hcounters : SameCounters current.state next)
    (hclear : .ftcAsync ∉ rest → current.state.asyncWaiting = false ∧
      current.state.cb.sendCount = current.state.cb.pendingCount) :
    FlowInv ⟨next, current.history⟩ where
  messages := by
    refine ⟨by rw [hnotify]; exact hinv.messages.notifyOn, fun other hother => ?_, ?_⟩
    · apply hinv.messages.events other
      rw [hqueue]
      exact List.mem_cons_of_mem event (hnext ▸ hother)
    · rw [hbuffer]
      exact hinv.messages.buffer
  waiting := by
    intro hnot
    rw [hcounters.asyncWaiting, hcounters.sendCount, hcounters.pendingCount]
    exact hclear (hnext ▸ hnot)
  idle := by rw [htransfer.ftInProgress]; exact hinv.idle
  latest := by
    intro put hput
    refine (hinv.latest put hput).refused ⟨hcounters, ?_⟩
    rw [htransfer.ftInProgress]
    exact fun hput => ⟨hput, htransfer.ftLen⟩
  earlier := hinv.earlier

theorem Put.Matches.acknowledge {put : Put} {sys : Sys} (hmatches : put.Matches sys)
    (hfits : (sys.cb.pendingCount - sys.cb.sendCount).toNat < 2 ^ 16)
    (htransfer : SameTransfer sys next) (hpending : next.cb.pendingCount = sys.cb.pendingCount)
    (hsend : next.cb.sendCount = sys.cb.pendingCount) :
    (put.notified [(sys.cb.pendingCount - sys.cb.sendCount).toUInt16]).Matches next := by
  have hle : sys.cb.sendCount ≤ sys.cb.pendingCount := by
    rw [UInt32.le_iff_toNat_le, hmatches.pending, hmatches.send]
    exact hmatches.acked_le
  have hacked : (put.notified [(sys.cb.pendingCount - sys.cb.sendCount).toUInt16]).acked =
      put.accepted := by
    rw [Put.acked_notified]
    simp only [List.map_cons, List.map_nil, List.sum_cons, List.sum_nil, UInt32.toNat_toUInt16]
    rw [Nat.mod_eq_of_lt hfits, UInt32.toNat_sub_of_le _ _ hle, hmatches.pending, hmatches.send]
    have := hmatches.acked_le
    omega
  refine ⟨?_, ?_, hacked.le, ?_⟩
  · rw [hpending]
    exact hmatches.pending
  · rw [hsend, hacked]
    exact hmatches.pending
  · rw [htransfer.ftInProgress, htransfer.ftLen]
    exact hmatches.remaining

theorem FlowInv.acknowledge (hinv : FlowInv current)
    (hqueue : current.state.queue = .ftcAsync :: rest)
    (hfits : (current.state.cb.pendingCount - current.state.cb.sendCount).toNat < 2 ^ 16)
    {conn : Conn} (hsent : AckSent { current.state with queue := rest } conn next)
    (htransfer : SameTransfer current.state next) :
    FlowInv ⟨next, current.history.modifyHead
      (·.notified [(current.state.cb.pendingCount - current.state.cb.sendCount).toUInt16])⟩ where
  messages := by
    refine ⟨by rw [hsent.notifyOn]; exact hinv.messages.notifyOn, fun other hother => ?_, ?_⟩
    · apply hinv.messages.events other
      rw [hqueue]
      apply List.mem_cons_of_mem
      rw [hsent.queue] at hother
      exact hother
    · rw [hsent.ftcMsgBuf]
      exact hinv.messages.buffer
  waiting := fun _ => ⟨hsent.asyncWaiting, hsent.sendCount.trans hsent.pendingCount.symm⟩
  idle := by
    rw [htransfer.ftInProgress]
    cases hhistory : current.history with
    | nil => exact fun _ => hinv.idle hhistory
    | cons latest earlier => simp
  latest := by
    intro put hput
    cases hhistory : current.history with
    | nil => simp [hhistory] at hput
    | cons latest earlier =>
        simp only [hhistory, List.modifyHead_cons, List.head?_cons, Option.mem_some_iff] at hput
        obtain rfl := hput
        exact (hinv.latest latest (by simp [hhistory])).acknowledge hfits htransfer
          hsent.pendingCount hsent.sendCount
  earlier := by
    cases hhistory : current.history with
    | nil => simp
    | cons latest earlier => simpa [hhistory] using hinv.earlier

end Dispatch

theorem flowStep_dispatch (env : Env) {current : FlowRun} (hinv : FlowInv current)
    (hcondition : FlowCondition current .dispatch) :
    FlowInv (flowStep env current .dispatch) := by
  have heffect := dispatch_effect env current.state
  change FlowInv ⟨dispatch env current.state, current.history.modifyHead
    (·.notified (((dispatch env current.state).calls.drop current.state.calls.length).filterMap
      ackCount))⟩
  generalize dispatch env current.state = next at heffect
  have hevent := hinv.messages.events
  cases heffect with
  | idle hempty =>
      simp only [List.drop_length, List.filterMap_nil, modifyHead_notified_nil]
      exact hinv
  | response rest hqueue =>
      have hsent := otaFtcSend_sent { current.state with queue := rest } current.state.cb.conn
      have hsame := otaFtcSend_sameTransfer { current.state with queue := rest }
        current.state.cb.conn
      generalize otaFtcSend { current.state with queue := rest } current.state.cb.conn = next
        at hsent hsame
      rw [hsent.calls, if_pos hinv.messages.notifyOn, notified_calls _ _ _ []
        (by simp [hinv.messages.buffer]), modifyHead_notified_nil]
      apply hinv.pop hqueue hsent.queue hsent.notifyOn hsent.ftcMsgBuf hsame.of_pop
        hsent.counters.of_pop
      intro hnot
      exact hinv.waiting (by simpa [hqueue] using hnot)
  | counted rest hqueue hcount =>
      simp only [List.drop_length, List.filterMap_nil, modifyHead_notified_nil]
      have hpopped : SameTransfer current.state { current.state with queue := rest } :=
        (SameTransfer.refl _).of_pop
      have hcounters : SameCounters current.state { current.state with queue := rest } :=
        (SameCounters.refl _).of_pop
      refine hinv.pop hqueue rfl rfl rfl hpopped hcounters fun hnot => ?_
      obtain ⟨-, hclear⟩ := hcondition (by simp [hqueue])
      exact ⟨hclear (by simpa [hqueue] using hnot) hcount.symm, hcount.symm⟩
  | acknowledge rest hqueue hcount =>
      have hsent := otaFdcAsyncSend_sent { current.state with queue := rest } current.state.cb.conn
        hcount
      have hsame := otaFdcAsyncSend_sameTransfer { current.state with queue := rest }
        current.state.cb.conn
      generalize otaFdcAsyncSend { current.state with queue := rest } current.state.cb.conn = next
        at hsent hsame
      rw [hsent.calls, if_pos hinv.messages.notifyOn, notified_calls _ _ _
        [(current.state.cb.pendingCount - current.state.cb.sendCount).toUInt16]
        (by simp only [List.filterMap_cons, ackCount_ackMessage, List.filterMap_nil])]
      exact hinv.acknowledge hqueue (hcondition (by simp [hqueue])).1 hsent hsame.of_pop
  | muted rest hqueue => simp [hqueue] at hevent
  | piece rest hqueue => simp [hqueue] at hevent
  | done rest hqueue => simp [hqueue] at hevent
  | host rest event call hqueue hhost =>
      rcases hhost with rfl | rfl <;> simp [hqueue] at hevent

theorem flowStep_inv (env : Env) (current : FlowRun) (action : Action) (hinv : FlowInv current)
    (hcondition : FlowAction action ∧ FlowCondition current action) :
    FlowInv (flowStep env current action) := by
  obtain ⟨haction, hcondition⟩ := hcondition
  cases action with
  | write conn handle packet =>
      cases handle with
      | dc => exact haction.elim
      | ftc => exact flowStep_ftc env hinv conn packet haction hcondition
      | ftd => exact flowStep_ftd env hinv conn packet
      | au => exact haction.elim
  | dispatch => exact flowStep_dispatch env hinv hcondition
  | cccChanged handle value => exact haction.elim
  | wakeupTimeout => exact haction.elim

theorem flowInit_inv (flash : Flash) (notifyOn : Handle → Bool) (hnotify : notifyOn .ftc = true) :
    FlowInv (flowInit flash notifyOn) where
  messages := ⟨hnotify, by simp [flowInit, otaProfileInit], fun _ => rfl⟩
  waiting := by
    refine fun _ => ⟨?_, rfl⟩
    change ((0 : UInt8) &&& txMaskFtcAsyncBit != 0) = false
    decide
  idle := by simp [flowInit, otaProfileInit]
  latest := by simp [flowInit]
  earlier := by simp [flowInit]

/-- Acknowledgements neither stall nor miscount in a run whose steps meet the
condition. -/
theorem flow_control_safe (env : Env) (flash : Flash) (notifyOn : Handle → Bool)
    (hnotify : notifyOn .ftc = true) (actions : List Action)
    (hactions : ∀ action ∈ actions, FlowAction action)
    (hrun : Along (flowStep env) FlowCondition (flowInit flash notifyOn) actions) :
    Throughout (flowStep env) FlowSafe (flowInit flash notifyOn) actions := by
  have hboth := along_and.mpr ⟨along_of_forall_mem hactions, hrun⟩
  have hinv := throughout_of_invariant FlowInv (flowStep_inv env)
    (flowInit_inv flash notifyOn hnotify) hboth
  exact hinv.imp fun _ => FlowInv.safe

/-- Two uploads, the first of them acknowledged packet by packet. -/
def acknowledgedUploads : List Action :=
  [.control [0x03, 1, 0, 0, 0x10, 0, 0, 5, 0, 0, 0], .dispatch,
    .data [1, 2, 3], .dispatch, .data [4, 5], .dispatch, .dispatch,
    .control [0x03, 1, 0, 0, 0x20, 0, 0, 3, 0, 0, 0],
    .data [6], .data [7, 8], .dispatch, .dispatch, .dispatch]

theorem acknowledgedUploads_safe :
    Throughout (flowStep plainEnv) FlowSafe (flowInit (fun _ => 0xff) fun _ => true)
        acknowledgedUploads ∧
      (run (flowStep plainEnv) (flowInit (fun _ => 0xff) fun _ => true)
        acknowledgedUploads).history = [⟨3, 3, [3]⟩, ⟨5, 5, [3, 2]⟩] :=
  ⟨flow_control_safe plainEnv (fun _ => 0xff) (fun _ => true) rfl acknowledgedUploads
      (by decide +kernel) (by decide +kernel),
    by decide +kernel⟩

/-- An upload is aborted while an acknowledgement is queued and a new one
accepted before that event is handled. -/
def stalledUpload : List Action :=
  [.control [0x03, 1, 0, 0, 0x10, 0, 0, 100, 0, 0, 0], .dispatch, .data [1, 2, 3],
    .control [0x09, 1, 0], .control [0x03, 1, 0, 0, 0x10, 0, 0, 100, 0, 0, 0], .dispatch]

theorem upload_stalls :
    (∀ action ∈ stalledUpload, FlowAction action) ∧
      ¬ Throughout (flowStep plainEnv) FlowSafe (flowInit (fun _ => 0xff) fun _ => true)
        stalledUpload := by
  refine ⟨by decide +kernel, fun hsafe => ?_⟩
  have hclear := (hsafe.last.1 (by decide +kernel)).1
  exact absurd hclear (by decide +kernel)

end CubieBle.Ota
