import CubieBle.Ota.EventLaws

/-! # Responses

Requests and finished transfers call for a response in `ftc_msg_buf`, which holds
one at a time. A response called for while another one waits is dropped by the
overflow check; all others are notified once, in order and unchanged.
-/

namespace CubieBle.Ota

open Machine

structure Response where
  op : FtcOp
  handle : UInt16
  status : UInt8
deriving DecidableEq

def Response.message (env : Env) (response : Response) : List UInt8 :=
  ftcMessage env response.op response.handle response.status 0

/-- A response that was called for. It is due to a request or a finished
transfer, or else to a data event handled with nothing in progress; and it is
dropped if another response was waiting. -/
structure Reply where
  response : Response
  due : Bool
  dropped : Bool
deriving DecidableEq

/-- The handle of the get or put accepted last, and the responses so far. -/
structure Replies where
  handle : UInt16
  log : List Reply

/-- The value of a control notification that is not an acknowledgement. -/
def ftcNote : HostCall → Option (List UInt8)
  | .notify _ .ftc value =>
      if value.head? = some FtcOp.packetReceived.code then none else some value
  | _ => none

/-- The operation in progress ends with the step. -/
def Finishes (env : Env) (sys : Sys) (action : Action) : Prop :=
  sys.cb.ftInProgress ≠ .none ∧ (step env sys action).cb.ftInProgress = .none

instance (env : Env) (sys : Sys) (action : Action) : Decidable (Finishes env sys action) :=
  inferInstanceAs (Decidable (_ ∧ _))

/-- A data event finds nothing in progress and nothing left to send. -/
def StrayEnd (sys : Sys) : Prop :=
  sys.cb.ftInProgress = .none ∧ sys.queue.head? = some .ftd ∧ sys.notifyOn .ftd = true ∧
    sys.cb.ftLen ≤ 20

instance (sys : Sys) : Decidable (StrayEnd sys) := inferInstanceAs (Decidable (_ ∧ _ ∧ _ ∧ _))

/-- The response a step calls for, and whether it is due. -/
def calledFor (env : Env) (sys : Sys) (handle : UInt16) : Action → Option (Response × Bool)
  | .write _ .ftc packet =>
      (ftcResponse env sys packet).map fun (op, status) =>
        (⟨op, packet.uint16 1, status.code⟩, true)
  | .write conn .ftd packet =>
      if Finishes env sys (.write conn .ftd packet) then some (⟨.eof, handle, 0⟩, true) else none
  | .dispatch =>
      if Finishes env sys .dispatch then some (⟨.eof, handle, 0⟩, true)
      else if StrayEnd sys then some (⟨.eof, sys.cb.ftHandle, 0⟩, false)
      else none
  | _ => none

/-- The handle of the operation a request starts. -/
def startedHandle (sys : Sys) (handle : UInt16) : Action → UInt16
  | .write _ .ftc packet =>
      if sys.cb.ftInProgress = .none ∧ startedOp packet ≠ .none then packet.uint16 1 else handle
  | _ => handle

def Reply.log (sys : Sys) (called : Option (Response × Bool)) : List Reply :=
  (called.map fun (response, due) => ⟨response, due, sys.ftcWaiting⟩).toList

def observeReplies (env : Env) (sys : Sys) (action : Action) (replies : Replies) : Replies where
  handle := startedHandle sys replies.handle action
  log := replies.log ++ Reply.log sys (calledFor env sys replies.handle action)

abbrev ReplyRun := Tracked Sys Replies

def replyStep (env : Env) : ReplyRun → Action → ReplyRun :=
  trackedStep (step env) (observeReplies env)

def replyInit (flash : Flash) (notifyOn : Handle → Bool) : ReplyRun :=
  ⟨otaProfileInit flash notifyOn, ⟨0, []⟩⟩

/-- Control writes, data writes and event handling. -/
def ReplyAction : Action → Prop
  | .write _ .ftc _ => True
  | .write _ .ftd _ => True
  | .dispatch => True
  | _ => False

instance : DecidablePred ReplyAction
  | .write _ .ftc _ => inferInstanceAs (Decidable True)
  | .write _ .ftd _ => inferInstanceAs (Decidable True)
  | .write _ .dc _ => inferInstanceAs (Decidable False)
  | .write _ .au _ => inferInstanceAs (Decidable False)
  | .dispatch => inferInstanceAs (Decidable True)
  | .cccChanged _ _ => inferInstanceAs (Decidable False)
  | .wakeupTimeout => inferInstanceAs (Decidable False)

/-- The responses notified so far. -/
def Sys.notified (sys : Sys) : List (List UInt8) := sys.calls.filterMap ftcNote

/-- Once the queue has drained, every due response has been notified. -/
def RepliesComplete (env : Env) (current : ReplyRun) : Prop :=
  current.state.queue = [] →
    current.state.notified =
      (current.history.log.filter fun reply => reply.due).map fun reply =>
        reply.response.message env

/-- Once the queue has drained, every response that was not dropped has been
notified, once and in order. -/
def RepliesSafe (env : Env) (current : ReplyRun) : Prop :=
  current.state.queue = [] →
    current.state.notified =
      (current.history.log.filter fun reply => !reply.dropped).map fun reply =>
        reply.response.message env

/-! ## The invariant -/

/-- The response waiting in the buffer. -/
def Sys.waiting (sys : Sys) : List (List UInt8) :=
  if sys.ftcWaiting then [sys.cb.ftcMsgBuf] else []

structure ReplyInv (env : Env) (current : ReplyRun) : Prop where
  notifyOn : current.state.notifyOn .ftc = true
  handle : current.state.cb.ftInProgress ≠ .none →
    current.state.cb.ftHandle = current.history.handle
  queued : current.state.queue.count .ftc = if current.state.ftcWaiting then 1 else 0
  buffer : current.state.cb.ftcMsgBuf.head? ≠ some FtcOp.packetReceived.code
  sent : current.state.notified ++ current.state.waiting =
    (current.history.log.filter fun reply => !reply.dropped).map fun reply =>
      reply.response.message env

theorem ReplyInv.safe {env : Env} {current : ReplyRun} (hinv : ReplyInv env current) :
    RepliesSafe env current := by
  intro hempty
  have hidle : current.state.ftcWaiting = false := by
    have hqueued := hinv.queued
    rw [hempty] at hqueued
    simpa using hqueued
  have hsent := hinv.sent
  simpa [Sys.waiting, hidle] using hsent

theorem head?_ftcMessage (env : Env) (op : FtcOp) (handle : UInt16) (status : UInt8)
    (hop : op ≠ .packetReceived) :
    (ftcMessage env op handle status 0).head? ≠ some FtcOp.packetReceived.code := by
  cases op with
  | packetReceived => exact absurd rfl hop
  | _ => simp [ftcMessage, FtcOp.code]

/-- What the buffer holds after a response was called for. -/
def Sys.buffered (env : Env) (sys : Sys) : Option (Response × Bool) → List UInt8
  | none => sys.cb.ftcMsgBuf
  | some (response, _) => if sys.ftcWaiting then sys.cb.ftcMsgBuf else response.message env

/-- The rule for a step that calls for at most one response and sends none. -/
theorem ReplyInv.offer {env : Env} {current : ReplyRun} (hinv : ReplyInv env current) {next : Sys}
    {handle : UInt16} (called : Option (Response × Bool))
    (hnotify : next.notifyOn = current.state.notifyOn)
    (hhandle : next.cb.ftInProgress ≠ .none → next.cb.ftHandle = handle)
    (hnotified : next.notified = current.state.notified)
    (hqueue : next.queue.count .ftc = current.state.queue.count .ftc +
      if current.state.ftcWaiting || called.isNone then 0 else 1)
    (hwaiting : next.ftcWaiting = (current.state.ftcWaiting || called.isSome))
    (hbuffer : next.cb.ftcMsgBuf = current.state.buffered env called)
    (hop : ∀ response due, called = some (response, due) → response.op ≠ .packetReceived) :
    ReplyInv env ⟨next, ⟨handle, current.history.log ++ Reply.log current.state called⟩⟩ := by
  have hqueued := hinv.queued
  have hsent := hinv.sent
  cases called with
  | none =>
      simp only [Option.isNone_none, Option.isSome_none, Bool.or_true, Bool.or_false, if_true,
        Nat.add_zero, Sys.buffered] at hqueue hwaiting hbuffer
      refine ⟨by rw [hnotify]; exact hinv.notifyOn, hhandle,
        by rw [hqueue, hwaiting]; exact hqueued, by rw [hbuffer]; exact hinv.buffer, ?_⟩
      simpa [Sys.waiting, hnotified, hwaiting, hbuffer, Reply.log] using hsent
  | some pair =>
      obtain ⟨response, due⟩ := pair
      simp only [Option.isNone_some, Option.isSome_some, Bool.or_true, Bool.or_false,
        Sys.buffered] at hqueue hwaiting hbuffer
      cases hbusy : current.state.ftcWaiting with
      | false =>
          simp only [hbusy, Bool.false_eq_true, if_false] at hqueue hbuffer hqueued
          refine ⟨by rw [hnotify]; exact hinv.notifyOn, hhandle, ?_, ?_, ?_⟩
          · rw [hqueue, hqueued, hwaiting]
            rfl
          · rw [hbuffer]
            exact head?_ftcMessage env _ _ _ (hop response due rfl)
          · simp only [Sys.waiting, hbusy, Bool.false_eq_true, if_false, List.append_nil] at hsent
            simp [Sys.waiting, hnotified, hwaiting, hbuffer, hsent, Reply.log, hbusy]
      | true =>
          -- The buffer is taken: the response is logged as dropped.
          simp only [hbusy, if_true, Nat.add_zero] at hqueue hbuffer hqueued
          refine ⟨by rw [hnotify]; exact hinv.notifyOn, hhandle, ?_, ?_, ?_⟩
          · rw [hqueue, hqueued, hwaiting]
            rfl
          · rw [hbuffer]
            exact hinv.buffer
          · simp only [Sys.waiting, hbusy, if_true] at hsent
            simp [Sys.waiting, hnotified, hwaiting, hbuffer, hsent, Reply.log, hbusy]

/-! ## Writes -/

theorem verifyLoop_awake (env : Env) (sys : Sys) (addr : UInt32) (len off : Nat) (crc : UInt32) :
    verifyLoop env sys.awake addr len off crc = verifyLoop env sys addr len off crc := by
  induction off, crc using verifyLoop.induct env sys addr len with
  | case1 off crc hmore readLen ih =>
      conv_lhs => rw [verifyLoop, if_pos hmore]
      conv_rhs => rw [verifyLoop, if_pos hmore]
      exact ih
  | case2 off crc hdone =>
      conv_lhs => rw [verifyLoop, if_neg hdone]
      conv_rhs => rw [verifyLoop, if_neg hdone]

theorem ftcResponse_awake (env : Env) (sys : Sys) (packet : Packet) :
    ftcResponse env sys.awake packet = ftcResponse env sys packet := by
  unfold ftcResponse verifyStatus
  rw [verifyLoop_awake]
  rfl

theorem ftcSetup_ftHandle (env : Env) (sys : Sys) (packet : Packet) (handle : UInt16)
    (hhandle : sys.cb.ftInProgress ≠ .none → sys.cb.ftHandle = handle)
    (hprogress : (ftcSetup env sys packet).cb.ftInProgress ≠ .none) :
    (ftcSetup env sys packet).cb.ftHandle =
      if sys.cb.ftInProgress = .none ∧ startedOp packet ≠ .none then packet.uint16 1
      else handle := by
  by_cases hidle : sys.cb.ftInProgress = .none
  · rw [ftcSetup_ftInProgress_of_idle env sys packet hidle] at hprogress
    rw [if_pos ⟨hidle, hprogress⟩]
    unfold startedOp at hprogress
    split at hprogress
    next => exact absurd rfl hprogress
    next hlen =>
      have hlen := UInt16.not_lt.mp hlen
      split at hprogress
      next hop => rw [ftcSetup_get env sys packet hlen hop hidle]; rfl
      next hop => rw [ftcSetup_put env sys packet hlen hop hidle]; rfl
      next => exact absurd rfl hprogress
  · rw [if_neg fun hboth => hidle hboth.1]
    by_cases habort : 3 ≤ packet.len ∧ FtcOp.ofByte (packet.byte 0) = some .abort
    · rw [ftcSetup_abort env sys packet habort.1 habort.2,
        otaFtcProcAbort_ftInProgress] at hprogress
      exact absurd rfl hprogress
    · rw [ftcSetup_of_busy env sys packet hidle fun hlen hop => habort ⟨hlen, hop⟩]
      exact hhandle hidle

theorem ftcEvents_count_ftc (sys : Sys) (packet : Packet) :
    (ftcEvents sys packet).count .ftc = 0 := by
  unfold ftcEvents
  repeat' split
  all_goals rfl

theorem count_ftc_response (waiting : Bool) :
    List.count Event.ftc (if waiting then [] else [.ftc]) = if waiting then 0 else 1 := by
  cases waiting <;> rfl

theorem replyStep_ftc (env : Env) {current : ReplyRun} (hinv : ReplyInv env current) (conn : Conn)
    (packet : Packet) : ReplyInv env (replyStep env current (.write conn .ftc packet)) := by
  have heffect := otaFtcWrite_effect env current.state.awake conn packet
  change ReplyInv env ⟨(otaFtcWrite env current.state.awake conn packet).2,
    ⟨startedHandle current.state current.history.handle (.write conn .ftc packet),
      current.history.log ++ Reply.log current.state
        ((ftcResponse env current.state packet).map fun (op, status) =>
          (⟨op, packet.uint16 1, status.code⟩, true))⟩⟩
  rw [← ftcResponse_awake]
  generalize (otaFtcWrite env current.state.awake conn packet).2 = next at heffect
  apply hinv.offer _ heffect.notifyOn
  · rw [heffect.transfer.ftInProgress, heffect.transfer.ftHandle]
    exact ftcSetup_ftHandle env current.state.awake packet current.history.handle hinv.handle
  · rw [Sys.notified, heffect.calls]
    rfl
  · rw [heffect.queue, List.count_append, List.count_append, ftcEvents_count_ftc, Nat.add_zero,
      Option.isNone_map, count_ftc_response]
    rfl
  · rw [heffect.ftcWaiting, Option.isSome_map]
    rfl
  · rw [heffect.ftcMsgBuf]
    cases ftcResponse env current.state.awake packet <;> rfl
  · intro response due hcalled
    obtain ⟨⟨op, status⟩, hresponse, heq⟩ := Option.map_eq_some_iff.mp hcalled
    obtain ⟨rfl, -⟩ := Prod.mk.inj heq
    exact ftcResponse_ne_packetReceived env current.state.awake packet hresponse

theorem buffered_eof (env : Env) (sys : Sys) (handle : UInt16) (due : Bool) {last : Prop}
    [Decidable last] (hlast : last) :
    (if last ∧ sys.ftcWaiting = false then ftcMessage env .eof handle 0 0
      else sys.cb.ftcMsgBuf) = sys.buffered env (some (⟨.eof, handle, 0⟩, due)) := by
  unfold Sys.buffered
  by_cases hwaiting : sys.ftcWaiting = true
  · simp [hwaiting]
  · simp [hwaiting, hlast, Response.message]

/-- A packet ends the put exactly if it is the last one. -/
theorem finishes_ftd (env : Env) (sys : Sys) (conn : Conn) (packet : Packet)
    (haccepts : FtdAccepts sys packet) :
    Finishes env sys (.write conn .ftd packet) ↔
      (otaFtdWrite env sys.awake conn packet).2.cb.ftLen = 0 := by
  have htaken := otaFtdWrite_taken env sys.awake conn packet haccepts
  unfold Finishes
  rw [haccepts.1]
  change _ ∧ (otaFtdWrite env sys.awake conn packet).2.cb.ftInProgress = .none ↔ _
  rw [htaken.ftInProgress]
  split <;> simp [*]

theorem replyStep_ftd (env : Env) {current : ReplyRun} (hinv : ReplyInv env current) (conn : Conn)
    (packet : Packet) : ReplyInv env (replyStep env current (.write conn .ftd packet)) := by
  change ReplyInv env ⟨(otaFtdWrite env current.state.awake conn packet).2,
    ⟨current.history.handle, current.history.log ++ Reply.log current.state
      (if Finishes env current.state (.write conn .ftd packet) then
        some (⟨.eof, current.history.handle, 0⟩, true) else none)⟩⟩
  by_cases haccepts : FtdAccepts current.state packet
  · have hwrite := otaFtdWrite_messages env current.state.awake conn packet haccepts
    have hhandle : current.state.cb.ftHandle = current.history.handle := by
      apply hinv.handle
      rw [haccepts.1]
      decide
    have hiff := finishes_ftd env current.state conn packet haccepts
    generalize (otaFtdWrite env current.state.awake conn packet).2 = next at hwrite hiff
    have hnotified : next.notified = current.state.notified := by
      rw [Sys.notified, hwrite.calls]
      rfl
    have hafter : next.cb.ftInProgress ≠ .none → next.cb.ftHandle = current.history.handle :=
      fun _ => hwrite.ftHandle.trans hhandle
    by_cases hlast : next.cb.ftLen = 0
    · rw [if_pos (hiff.mpr hlast)]
      apply hinv.offer _ hwrite.notifyOn hafter hnotified
      · rw [hwrite.queue, if_pos hlast, List.count_append, List.count_cons_of_ne (by decide),
          count_ftc_response, Option.isNone_some, Bool.or_false]
        rfl
      · rw [hwrite.ftcWaiting, hlast]
        rfl
      · rw [hwrite.ftcMsgBuf, ← hhandle]
        exact buffered_eof env current.state _ true hlast
      · rintro response due hcalled
        obtain ⟨rfl, -⟩ := Prod.mk.inj (Option.some.inj hcalled)
        simp
    · rw [if_neg fun hfinishes => hlast (hiff.mp hfinishes)]
      apply hinv.offer none hwrite.notifyOn hafter hnotified
      · rw [hwrite.queue, if_neg hlast, List.count_append]
        simp only [Option.isNone_none, Bool.or_true, if_true]
        split <;> rfl
      · rw [hwrite.ftcWaiting, beq_false_of_ne hlast]
        rfl
      · rw [hwrite.ftcMsgBuf, if_neg fun hboth => hlast hboth.1]
        rfl
      · simp
  · have hkept := otaFtdWrite_rejected env current.state.awake conn packet haccepts
    have hfinishes : ¬ Finishes env current.state (.write conn .ftd packet) := by
      rintro ⟨hbefore, hnone⟩
      apply hbefore
      change (otaFtdWrite env current.state.awake conn packet).2.cb.ftInProgress = .none at hnone
      rw [hkept] at hnone
      exact hnone
    rw [if_neg hfinishes, hkept]
    refine hinv.offer none rfl hinv.handle rfl ?_ ?_ rfl (by simp)
    · simp [Sys.awake]
    · simp [Sys.awake, Sys.ftcWaiting]

/-! ## Events -/

theorem notified_of_none {sys next : Sys} {added : List HostCall}
    (hcalls : next.calls = sys.calls ++ added) (hadded : added.filterMap ftcNote = []) :
    next.notified = sys.notified := by
  rw [Sys.notified, hcalls, List.filterMap_append, hadded, List.append_nil]
  rfl

theorem finishes_data (env : Env) (sys : Sys) (rest : List Event)
    (hsent : FtdSent env sys rest (dispatch env sys)) :
    Finishes env sys .dispatch ↔ sys.cb.ftInProgress ≠ .none ∧ sys.cb.ftLen ≤ 20 := by
  unfold Finishes
  change _ ∧ (dispatch env sys).cb.ftInProgress = .none ↔ _
  rw [hsent.ftInProgress]
  split <;> simp [*]

/-- The last data event calls for an end of file response, stray or not. -/
theorem calledFor_data (env : Env) (sys : Sys) (rest : List Event) (handle : UInt16)
    (hsent : FtdSent env sys rest (dispatch env sys)) (hqueue : sys.queue = .ftd :: rest)
    (hon : sys.notifyOn .ftd = true)
    (hhandle : sys.cb.ftInProgress ≠ .none → sys.cb.ftHandle = handle) :
    calledFor env sys handle .dispatch =
      if sys.cb.ftLen ≤ 20 then
        some (⟨.eof, sys.cb.ftHandle, 0⟩, decide (sys.cb.ftInProgress ≠ .none))
      else none := by
  simp only [calledFor, finishes_data env sys rest hsent, StrayEnd, hqueue, hon]
  by_cases hidle : sys.cb.ftInProgress = .none
  · simp [hidle]
  · simp [hidle, hhandle hidle]

theorem replyStep_data (env : Env) {current : ReplyRun} (hinv : ReplyInv env current)
    (rest : List Event) (hqueue : current.state.queue = .ftd :: rest)
    (hon : current.state.notifyOn .ftd = true) :
    ReplyInv env (replyStep env current .dispatch) := by
  have hsent := dispatch_ftd env current.state rest hqueue hon
  have hcalled := calledFor_data env current.state rest current.history.handle hsent hqueue hon
    hinv.handle
  change ReplyInv env ⟨dispatch env current.state,
    ⟨current.history.handle, current.history.log ++ Reply.log current.state
      (calledFor env current.state current.history.handle .dispatch)⟩⟩
  rw [hcalled]
  clear hcalled
  generalize dispatch env current.state = next at hsent
  have hnotified : next.notified = current.state.notified := by
    apply notified_of_none hsent.calls
    unfold ftdPieces
    split <;> rfl
  have hcount : current.state.queue.count .ftc = rest.count .ftc := by
    rw [hqueue, List.count_cons_of_ne (by decide)]
  by_cases hlast : current.state.cb.ftLen ≤ 20
  · rw [if_pos hlast]
    apply hinv.offer _ hsent.notifyOn _ hnotified
    · rw [hsent.queue, if_pos hlast, List.count_append, count_ftc_response, hcount,
        Option.isNone_some, Bool.or_false]
    · rw [hsent.ftcWaiting, decide_eq_true hlast]
      rfl
    · rw [hsent.ftcMsgBuf]
      exact buffered_eof env current.state _ _ hlast
    · rintro response due hcalled
      obtain ⟨rfl, -⟩ := Prod.mk.inj (Option.some.inj hcalled)
      simp
    · intro hbusy
      rw [hsent.ftInProgress, if_pos hlast] at hbusy
      exact absurd rfl hbusy
  · rw [if_neg hlast]
    apply hinv.offer none hsent.notifyOn _ hnotified
    · rw [hsent.queue, if_neg hlast, List.count_append, hcount, Option.isNone_none, Bool.or_true]
      rfl
    · rw [hsent.ftcWaiting, decide_eq_false hlast]
      rfl
    · rw [hsent.ftcMsgBuf, if_neg fun hboth => hlast hboth.1]
      rfl
    · simp
    · rw [hsent.ftInProgress, if_neg hlast, hsent.ftHandle]
      exact hinv.handle

theorem calledFor_other (env : Env) (sys : Sys) (handle : UInt16)
    (hsame : SameTransfer sys (dispatch env sys))
    (hevent : sys.queue.head? = some .ftd → sys.notifyOn .ftd = false) :
    calledFor env sys handle .dispatch = none := by
  have hfinishes : ¬ Finishes env sys .dispatch := by
    rintro ⟨hbusy, hidle⟩
    exact hbusy (hsame.ftInProgress.symm.trans hidle)
  have hstray : ¬ StrayEnd sys := by
    rintro ⟨-, hhead, hon, -⟩
    exact absurd (hon.symm.trans (hevent hhead)) (by decide)
  rw [calledFor, if_neg hfinishes, if_neg hstray]

/-- Handling the response event notifies the waiting response. -/
theorem ReplyInv.notify {env : Env} {current : ReplyRun} (hinv : ReplyInv env current)
    {rest : List Event} (hqueue : current.state.queue = .ftc :: rest) {next : Sys} {conn : Conn}
    (hsent : FtcSent { current.state with queue := rest } conn next)
    (hsame : SameTransfer current.state next) : ReplyInv env ⟨next, current.history⟩ := by
  -- The queue holds this event, so a response waits and no other is queued.
  have hwaiting : current.state.ftcWaiting = true := by
    by_contra hidle
    have hqueued := hinv.queued
    simp [hqueue, hidle] at hqueued
  have hcalls : next.calls =
      current.state.calls ++ [.notify conn .ftc current.state.cb.ftcMsgBuf] := by
    rw [hsent.calls, if_pos hinv.notifyOn]
  have hnote : ftcNote (.notify conn .ftc current.state.cb.ftcMsgBuf) =
      some current.state.cb.ftcMsgBuf := if_neg hinv.buffer
  refine ⟨by rw [hsent.notifyOn]; exact hinv.notifyOn, ?_, ?_, ?_, ?_⟩
  · rw [hsame.ftInProgress, hsame.ftHandle]
    exact hinv.handle
  · have hqueued := hinv.queued
    rw [hqueue, hwaiting, List.count_cons_self] at hqueued
    rw [hsent.queue, hsent.ftcWaiting]
    simpa using hqueued
  · rw [hsent.ftcMsgBuf]
    exact hinv.buffer
  · have hold := hinv.sent
    simp only [Sys.waiting, hwaiting, if_true] at hold
    simp only [Sys.notified, Sys.waiting, hsent.ftcWaiting, hcalls, List.filterMap_append,
      List.filterMap_cons, hnote, List.filterMap_nil, Bool.false_eq_true, if_false,
      List.append_nil]
    exact hold

/-- Events that neither call for a response nor send one. -/
theorem ReplyInv.pop {env : Env} {current : ReplyRun} (hinv : ReplyInv env current)
    {event : Event} {rest : List Event} (hqueue : current.state.queue = event :: rest)
    (hevent : event ≠ .ftc) {next : Sys} (hnext : next.queue = rest)
    (hnotify : next.notifyOn = current.state.notifyOn)
    (hsame : SameTransfer current.state next) (hnotified : next.notified = current.state.notified)
    (hwaiting : next.ftcWaiting = current.state.ftcWaiting)
    (hbuffer : next.cb.ftcMsgBuf = current.state.cb.ftcMsgBuf) :
    ReplyInv env ⟨next, current.history⟩ where
  notifyOn := by rw [hnotify]; exact hinv.notifyOn
  handle := by rw [hsame.ftInProgress, hsame.ftHandle]; exact hinv.handle
  queued := by
    have hqueued := hinv.queued
    rw [hqueue, List.count_cons_of_ne hevent] at hqueued
    rw [hnext, hwaiting]
    exact hqueued
  buffer := by rw [hbuffer]; exact hinv.buffer
  sent := by
    have hold := hinv.sent
    simp only [Sys.waiting] at hold ⊢
    rw [hnotified, hwaiting, hbuffer]
    exact hold

theorem replyStep_other (env : Env) {current : ReplyRun} (hinv : ReplyInv env current)
    (hevent : current.state.queue.head? = some .ftd → current.state.notifyOn .ftd = false) :
    ReplyInv env (replyStep env current .dispatch) := by
  have hsame := dispatch_sameTransfer env current.state hevent
  have hcalled := calledFor_other env current.state current.history.handle hsame hevent
  have heffect := dispatch_effect env current.state
  change ReplyInv env ⟨dispatch env current.state,
    ⟨current.history.handle, current.history.log ++ Reply.log current.state
      (calledFor env current.state current.history.handle .dispatch)⟩⟩
  rw [hcalled]
  simp only [Reply.log, Option.map_none, Option.toList_none, List.append_nil]
  generalize dispatch env current.state = next at heffect hsame
  cases heffect with
  | idle => exact hinv
  | response rest hqueue =>
      exact hinv.notify hqueue
        (otaFtcSend_sent { current.state with queue := rest } current.state.cb.conn) hsame
  | counted rest hqueue =>
      exact hinv.pop hqueue (by decide) rfl rfl hsame rfl rfl rfl
  | acknowledge rest hqueue hcount =>
      have hsent := otaFdcAsyncSend_sent { current.state with queue := rest }
        current.state.cb.conn hcount
      apply hinv.pop hqueue (by decide) hsent.queue hsent.notifyOn hsame _ hsent.ftcWaiting
        hsent.ftcMsgBuf
      apply notified_of_none hsent.calls
      split <;> rfl
  | muted rest hqueue => exact hinv.pop hqueue (by decide) rfl rfl hsame rfl rfl rfl
  | piece rest hqueue hon => simp [hqueue, hon] at hevent
  | done rest hqueue hon => simp [hqueue, hon] at hevent
  | host rest event call hqueue hhost hcall =>
      have hne : event ≠ .ftc := by
        rintro rfl
        simp at hhost
      refine hinv.pop hqueue hne rfl rfl hsame (notified_of_none rfl ?_) rfl rfl
      cases call with
      | notify conn handle value => exact absurd rfl (hcall conn handle value)
      | _ => rfl

theorem replyStep_inv (env : Env) (current : ReplyRun) (action : Action)
    (hinv : ReplyInv env current) (haction : ReplyAction action) :
    ReplyInv env (replyStep env current action) := by
  cases action with
  | write conn handle packet =>
      cases handle with
      | dc => exact haction.elim
      | ftc => exact replyStep_ftc env hinv conn packet
      | ftd => exact replyStep_ftd env hinv conn packet
      | au => exact haction.elim
  | dispatch =>
      by_cases hdata : current.state.queue.head? = some .ftd ∧ current.state.notifyOn .ftd = true
      · obtain ⟨rest, hqueue⟩ := List.head?_eq_some_iff.mp hdata.1
        exact replyStep_data env hinv rest hqueue hdata.2
      · apply replyStep_other env hinv
        intro hhead
        simpa [hhead] using hdata
  | cccChanged handle value => exact haction.elim
  | wakeupTimeout => exact haction.elim

theorem replyInit_inv (env : Env) (flash : Flash) (notifyOn : Handle → Bool)
    (hnotify : notifyOn .ftc = true) : ReplyInv env (replyInit flash notifyOn) := by
  have hwaiting : (replyInit flash notifyOn).state.ftcWaiting = false := by
    change ((0 : UInt8) &&& txMaskFtcBit != 0) = false
    decide
  refine ⟨hnotify, fun hbusy => absurd rfl hbusy, ?_, by simp [replyInit, otaProfileInit], ?_⟩
  · rw [hwaiting]
    rfl
  · rw [Sys.waiting, hwaiting]
    rfl

/-- Responses called for while none is waiting are notified once, in order and
unchanged, whatever requests, packets and events are interleaved. -/
theorem responses_in_order (env : Env) (flash : Flash) (notifyOn : Handle → Bool)
    (hnotify : notifyOn .ftc = true) (actions : List Action)
    (hactions : ∀ action ∈ actions, ReplyAction action) :
    Throughout (replyStep env) (RepliesSafe env) (replyInit flash notifyOn) actions := by
  have halong : Along (replyStep env) (fun _ action => ReplyAction action)
      (replyInit flash notifyOn) actions := along_of_forall_mem hactions
  have hinv := throughout_of_invariant (ReplyInv env) (replyStep_inv env)
    (replyInit_inv env flash notifyOn hnotify) halong
  exact hinv.imp fun _ => ReplyInv.safe

/-- A put of one byte, each response sent before the next is called for. -/
def answeredUpload : List Action :=
  [.control [0x03, 1, 0, 0, 0x10, 0, 0, 1, 0, 0, 0], .dispatch, .data [7], .dispatch, .dispatch]

theorem answeredUpload_in_order :
    Throughout (replyStep plainEnv) (RepliesSafe plainEnv)
        (replyInit (fun _ => 0xff) fun _ => true) answeredUpload ∧
      (run (replyStep plainEnv) (replyInit (fun _ => 0xff) fun _ => true)
        answeredUpload).state.notified = [[0x04, 1, 0, 0], [0x0a, 1, 0, 0]] :=
  ⟨responses_in_order plainEnv (fun _ => 0xff) (fun _ => true) rfl answeredUpload
      (by decide +kernel),
    by decide +kernel⟩

/-- The same put with its packet arriving before the response is sent. -/
def overflowingUpload : List Action :=
  [.control [0x03, 1, 0, 0, 0x10, 0, 0, 1, 0, 0, 0], .data [7], .dispatch, .dispatch]

theorem eof_dropped :
    (∀ action ∈ overflowingUpload, ReplyAction action) ∧
      ¬ RepliesComplete plainEnv (run (replyStep plainEnv)
        (replyInit (fun _ => 0xff) fun _ => true) overflowingUpload) := by
  refine ⟨by decide +kernel, fun hcomplete => ?_⟩
  have hnotified := hcomplete (by decide +kernel)
  exact absurd hnotified (by decide +kernel)

end CubieBle.Ota
