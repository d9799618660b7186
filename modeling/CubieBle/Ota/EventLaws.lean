import CubieBle.Ota.WriteLaws

/-! # What event handling does to the control block

The data event is the only one that moves the transfer, and it does so whatever
operation is in progress. The other two events send a message and clear its
ready bit; an acknowledgement of nothing is not sent and leaves the bit alone.
-/

namespace CubieBle.Ota

/-- Taking an event from the queue is not part of the transfer. -/
theorem SameTransfer.of_pop {sys next : Sys} {rest : List Event}
    (hsame : SameTransfer { sys with queue := rest } next) : SameTransfer sys next :=
  ⟨hsame.ftAddr, hsame.ftLen, hsame.ftHandle, hsame.ftInProgress, hsame.storage, hsame.flash,
    hsame.flashWrites⟩

theorem SameCounters.of_pop {sys next : Sys} {rest : List Event}
    (hsame : SameCounters { sys with queue := rest } next) : SameCounters sys next :=
  ⟨hsame.pendingCount, hsame.sendCount, hsame.asyncWaiting⟩

/-- Everything handling one event can do. -/
inductive DispatchEffect (env : Env) (sys : Sys) : Sys → Prop
  | idle (hqueue : sys.queue = []) : DispatchEffect env sys sys
  | response (rest : List Event) (hqueue : sys.queue = .ftc :: rest) :
      DispatchEffect env sys (otaFtcSend { sys with queue := rest } sys.cb.conn)
  | counted (rest : List Event) (hqueue : sys.queue = .ftcAsync :: rest)
      (hcount : sys.cb.pendingCount = sys.cb.sendCount) :
      DispatchEffect env sys { sys with queue := rest }
  | acknowledge (rest : List Event) (hqueue : sys.queue = .ftcAsync :: rest)
      (hcount : sys.cb.pendingCount ≠ sys.cb.sendCount) :
      DispatchEffect env sys (otaFdcAsyncSend { sys with queue := rest } sys.cb.conn)
  | muted (rest : List Event) (hqueue : sys.queue = .ftd :: rest)
      (hoff : sys.notifyOn .ftd = false) : DispatchEffect env sys { sys with queue := rest }
  | piece (rest : List Event) (hqueue : sys.queue = .ftd :: rest)
      (hon : sys.notifyOn .ftd = true) (hmore : 20 < sys.cb.ftLen) :
      DispatchEffect env sys
        (otaSendEvent
          { ftdSendPiece env { sys with queue := rest } sys.cb.conn with cb.conn := sys.cb.conn }
          .ftd)
  | done (rest : List Event) (hqueue : sys.queue = .ftd :: rest)
      (hon : sys.notifyOn .ftd = true) (hlast : sys.cb.ftLen ≤ 20) :
      DispatchEffect env sys
        (ftdSendDone env (ftdSendPiece env { sys with queue := rest } sys.cb.conn) sys.cb.conn)
  | host (rest : List Event) (event : Event) (call : HostCall) (hqueue : sys.queue = event :: rest)
      (hevent : event = .connParamUpdate ∨ event = .disconnect)
      (hcall : ∀ conn handle value, call ≠ .notify conn handle value) :
      DispatchEffect env sys { sys with queue := rest, calls := sys.calls ++ [call] }

theorem ftdSendPiece_ftLen (env : Env) (sys : Sys) (conn : Conn) :
    (ftdSendPiece env sys conn).cb.ftLen = sys.cb.ftLen - ftdReadLen sys := by
  unfold ftdSendPiece
  split
  · rfl
  next hzero =>
    have hread : ftdReadLen sys = 0 := UInt32.le_zero_iff.mp (UInt32.not_lt.mp hzero)
    rw [hread, UInt32.sub_zero]

theorem dispatch_effect (env : Env) (sys : Sys) : DispatchEffect env sys (dispatch env sys) := by
  unfold dispatch
  split
  next hqueue => exact .idle hqueue
  next event rest hqueue =>
    cases event with
    | ftd =>
        simp only [otaEventHandle, otaFtdSend, otaCccEnabled]
        split
        next hon =>
          have hlen := ftdSendPiece_ftLen env { sys with queue := rest } sys.cb.conn
          by_cases hmore : 20 < sys.cb.ftLen
          · have hread : ftdReadLen { sys with queue := rest } = 20 := if_pos hmore
            rw [if_neg]
            · exact .piece rest hqueue hon hmore
            · simp only [hlen, hread, Bool.or_eq_true, beq_iff_eq, not_or]
              refine ⟨fun hzero => ?_, by decide⟩
              have hsub := UInt32.toNat_sub_of_le _ _ (UInt32.le_of_lt hmore)
              have hlt := UInt32.lt_iff_toNat_lt.mp hmore
              rw [hzero] at hsub
              simp only [UInt32.toNat_zero] at hsub
              omega
          · have hread : ftdReadLen { sys with queue := rest } = sys.cb.ftLen := if_neg hmore
            rw [if_pos]
            · exact .done rest hqueue hon (UInt32.not_lt.mp hmore)
            · simp [hlen, hread]
        next hoff => exact .muted rest hqueue (by simpa using hoff)
    | ftc => exact .response rest hqueue
    | ftcAsync =>
        by_cases hcount : sys.cb.pendingCount = sys.cb.sendCount
        · rw [otaEventHandle, otaFdcAsyncSend, if_pos (by simpa using hcount)]
          exact .counted rest hqueue hcount
        · exact .acknowledge rest hqueue hcount
    | connParamUpdate => exact .host rest _ _ hqueue (.inl rfl) (by simp)
    | disconnect => exact .host rest _ _ hqueue (.inr rfl) (by simp)

theorem otaFtcSend_sameTransfer (sys : Sys) (conn : Conn) :
    SameTransfer sys (otaFtcSend sys conn) := by
  unfold otaFtcSend
  dsimp only
  split <;> exact ⟨rfl, rfl, rfl, rfl, rfl, rfl, rfl⟩

/-- Sending the waiting response frees the message buffer. -/
structure FtcSent (sys : Sys) (conn : Conn) (next : Sys) : Prop where
  counters : SameCounters sys next
  notifyOn : next.notifyOn = sys.notifyOn
  queue : next.queue = sys.queue
  ftcWaiting : next.ftcWaiting = false
  ftcMsgBuf : next.cb.ftcMsgBuf = sys.cb.ftcMsgBuf
  calls : next.calls = sys.calls ++
    if sys.notifyOn .ftc then [.notify conn .ftc sys.cb.ftcMsgBuf] else []

theorem otaFtcSend_sent (sys : Sys) (conn : Conn) : FtcSent sys conn (otaFtcSend sys conn) := by
  have hclear : (sys.cb.txReadyMask &&& ~~~txMaskFtcBit) &&& txMaskFtcBit = 0 :=
    Machine.and_not_and_self _ _
  have hasync : (sys.cb.txReadyMask &&& ~~~txMaskFtcBit) &&& txMaskFtcAsyncBit =
      sys.cb.txReadyMask &&& txMaskFtcAsyncBit := Machine.and_not_and_of_disjoint (by decide) _
  unfold otaFtcSend otaCccEnabled
  by_cases hon : sys.notifyOn .ftc = true
  · simp only [hon, if_true]
    refine ⟨⟨rfl, rfl, ?_⟩, rfl, rfl, ?_, rfl, by rw [if_pos hon]; rfl⟩
    · simp only [Sys.asyncWaiting, otaSendNotify]
      rw [hasync]
    · simp [Sys.ftcWaiting, otaSendNotify, hclear]
  · simp only [hon, if_false, Bool.false_eq_true]
    refine ⟨⟨rfl, rfl, ?_⟩, rfl, rfl, ?_, rfl, by rw [if_neg hon, List.append_nil]⟩
    · simp only [Sys.asyncWaiting]
      rw [hasync]
    · simp [Sys.ftcWaiting, hclear]

/-- Sending an acknowledgement accounts for everything pending. -/
structure AckSent (sys : Sys) (conn : Conn) (next : Sys) : Prop where
  pendingCount : next.cb.pendingCount = sys.cb.pendingCount
  sendCount : next.cb.sendCount = sys.cb.pendingCount
  asyncWaiting : next.asyncWaiting = false
  ftcWaiting : next.ftcWaiting = sys.ftcWaiting
  ftcMsgBuf : next.cb.ftcMsgBuf = sys.cb.ftcMsgBuf
  notifyOn : next.notifyOn = sys.notifyOn
  queue : next.queue = sys.queue
  calls : next.calls = sys.calls ++
    if sys.notifyOn .ftc then
      [.notify conn .ftc (ackMessage sys.cb.ftHandle
        (sys.cb.pendingCount - sys.cb.sendCount).toUInt16)]
    else []

theorem otaFdcAsyncSend_sent (sys : Sys) (conn : Conn)
    (hcount : sys.cb.pendingCount ≠ sys.cb.sendCount) :
    AckSent sys conn (otaFdcAsyncSend sys conn) := by
  have hclear : (sys.cb.txReadyMask &&& ~~~txMaskFtcAsyncBit) &&& txMaskFtcAsyncBit = 0 :=
    Machine.and_not_and_self _ _
  have hftc : (sys.cb.txReadyMask &&& ~~~txMaskFtcAsyncBit) &&& txMaskFtcBit =
      sys.cb.txReadyMask &&& txMaskFtcBit := Machine.and_not_and_of_disjoint (by decide) _
  rw [otaFdcAsyncSend, if_neg (by simpa using hcount)]
  unfold otaCccEnabled
  by_cases hon : sys.notifyOn .ftc = true
  · simp only [hon, if_true]
    refine ⟨rfl, rfl, ?_, ?_, rfl, rfl, rfl, by rw [if_pos hon]; rfl⟩
    · simp [Sys.asyncWaiting, otaSendNotify, hclear]
    · simp only [Sys.ftcWaiting, otaSendNotify]
      rw [hftc]
  · simp only [hon, if_false, Bool.false_eq_true]
    refine ⟨rfl, rfl, ?_, ?_, rfl, rfl, rfl, by rw [if_neg hon, List.append_nil]⟩
    · simp [Sys.asyncWaiting, hclear]
    · simp only [Sys.ftcWaiting]
      rw [hftc]

theorem otaFdcAsyncSend_sameTransfer (sys : Sys) (conn : Conn) :
    SameTransfer sys (otaFdcAsyncSend sys conn) := by
  unfold otaFdcAsyncSend
  dsimp only
  repeat' split
  all_goals exact ⟨rfl, rfl, rfl, rfl, rfl, rfl, rfl⟩

theorem ftdSendDone_sameTransfer (env : Env) (sys : Sys) (conn : Conn) :
    SameTransfer { sys with cb.ftInProgress := .none } (ftdSendDone env sys conn) := by
  obtain ⟨h1, h2, h3, h4, h5, h6, h7⟩ := otaFtcSendRsp_sameTransfer env
    { sys with
      cb.ftInProgress := .none
      cb.txReadyMask := sys.cb.txReadyMask &&& ~~~txMaskFtdBit }
    conn .eof sys.cb.ftHandle 0 0
  exact ⟨h1, h2, h3, h4, h5, h6, h7⟩

section Done

variable (env : Env) (sys : Sys) (conn : Conn)

/-- Clearing the data bit leaves the response bit alone. -/
theorem ftcWaiting_clear_ftd : Sys.ftcWaiting
    { sys with
      cb.ftInProgress := .none
      cb.txReadyMask := sys.cb.txReadyMask &&& ~~~txMaskFtdBit } = sys.ftcWaiting := by
  simp only [Sys.ftcWaiting]
  rw [Machine.and_not_and_of_disjoint (by decide)]

theorem ftdSendDone_queue : (ftdSendDone env sys conn).queue =
    sys.queue ++ if sys.ftcWaiting then [] else [.ftc] := by
  simp only [ftdSendDone, otaFtcSendRsp_queue, ftcWaiting_clear_ftd]

theorem ftdSendDone_ftcMsgBuf : (ftdSendDone env sys conn).cb.ftcMsgBuf =
    if sys.ftcWaiting then sys.cb.ftcMsgBuf else ftcMessage env .eof sys.cb.ftHandle 0 0 := by
  simp only [ftdSendDone, otaFtcSendRsp_ftcMsgBuf, ftcWaiting_clear_ftd]

theorem ftdSendDone_ftcWaiting : (ftdSendDone env sys conn).ftcWaiting = true := by
  simp only [ftdSendDone, otaFtcSendRsp_ftcWaiting]

end Done

@[simp] theorem ftdSendPiece_queue (env : Env) (sys : Sys) (conn : Conn) :
    (ftdSendPiece env sys conn).queue = sys.queue := by
  unfold ftdSendPiece
  split <;> rfl

theorem ftdSendPiece_ftAddr (env : Env) (sys : Sys) (conn : Conn) :
    (ftdSendPiece env sys conn).cb.ftAddr = sys.cb.ftAddr + ftdReadLen sys := by
  unfold ftdSendPiece
  split
  · rfl
  next hzero =>
    have hread : ftdReadLen sys = 0 := UInt32.le_zero_iff.mp (UInt32.not_lt.mp hzero)
    rw [hread, UInt32.add_zero]

/-- The notifications of one data event: none for an empty transfer. -/
def ftdPieces (env : Env) (sys : Sys) : List HostCall :=
  if sys.cb.ftLen = 0 then []
  else
    [.notify sys.cb.conn .ftd (otaStorageRead env sys sys.cb.ftAddr (ftdReadLen sys).toNat)]

theorem ftdReadLen_pos (sys : Sys) : 0 < ftdReadLen sys ↔ sys.cb.ftLen ≠ 0 := by
  unfold ftdReadLen
  split
  next hmore =>
    refine iff_of_true (by decide) fun hzero => ?_
    rw [hzero] at hmore
    exact absurd hmore (by decide)
  next => exact UInt32.pos_iff_ne_zero

theorem ftdSendPiece_calls (env : Env) (sys : Sys) :
    (ftdSendPiece env sys sys.cb.conn).calls = sys.calls ++ ftdPieces env sys := by
  unfold ftdSendPiece ftdPieces
  by_cases hzero : sys.cb.ftLen = 0
  · rw [if_neg (by rw [ftdReadLen_pos]; exact not_not.mpr hzero), if_pos hzero, List.append_nil]
  · rw [if_pos ((ftdReadLen_pos sys).mpr hzero), if_neg hzero]
    rfl

/-- The effect of a data event on everything but the progress code. -/
structure FtdSent (env : Env) (sys : Sys) (rest : List Event) (next : Sys) : Prop where
  ftAddr : next.cb.ftAddr = sys.cb.ftAddr + ftdReadLen sys
  ftLen : next.cb.ftLen = sys.cb.ftLen - ftdReadLen sys
  ftHandle : next.cb.ftHandle = sys.cb.ftHandle
  ftInProgress : next.cb.ftInProgress =
    if sys.cb.ftLen ≤ 20 then .none else sys.cb.ftInProgress
  storage : next.cb.storage = sys.cb.storage
  flash : next.flash = sys.flash
  flashWrites : next.flashWrites = sys.flashWrites
  notifyOn : next.notifyOn = sys.notifyOn
  calls : next.calls = sys.calls ++ ftdPieces env sys
  ftcWaiting : next.ftcWaiting = (sys.ftcWaiting || decide (sys.cb.ftLen ≤ 20))
  ftcMsgBuf : next.cb.ftcMsgBuf =
    if sys.cb.ftLen ≤ 20 ∧ sys.ftcWaiting = false then ftcMessage env .eof sys.cb.ftHandle 0 0
    else sys.cb.ftcMsgBuf
  queue : next.queue = rest ++
    if sys.cb.ftLen ≤ 20 then if sys.ftcWaiting then [] else [.ftc] else [.ftd]

theorem ftdSendPiece_frame (env : Env) (sys : Sys) (conn : Conn) :
    (ftdSendPiece env sys conn).cb.ftHandle = sys.cb.ftHandle ∧
      (ftdSendPiece env sys conn).cb.ftInProgress = sys.cb.ftInProgress ∧
      (ftdSendPiece env sys conn).cb.storage = sys.cb.storage ∧
      (ftdSendPiece env sys conn).cb.txReadyMask = sys.cb.txReadyMask ∧
      (ftdSendPiece env sys conn).flash = sys.flash ∧
      (ftdSendPiece env sys conn).flashWrites = sys.flashWrites ∧
      (ftdSendPiece env sys conn).notifyOn = sys.notifyOn ∧
      (ftdSendPiece env sys conn).cb.ftcMsgBuf = sys.cb.ftcMsgBuf := by
  unfold ftdSendPiece
  split <;> exact ⟨rfl, rfl, rfl, rfl, rfl, rfl, rfl, rfl⟩

theorem dispatch_ftd (env : Env) (sys : Sys) (rest : List Event)
    (hqueue : sys.queue = .ftd :: rest) (hon : sys.notifyOn .ftd = true) :
    FtdSent env sys rest (dispatch env sys) := by
  have heffect := dispatch_effect env sys
  generalize dispatch env sys = next at heffect
  let popped : Sys := { sys with queue := rest }
  obtain ⟨hhandle, hprogress, hstorage, hmask, hflash, hwrites, hnotify, hbuffer⟩ :=
    ftdSendPiece_frame env popped sys.cb.conn
  have hwaiting : (ftdSendPiece env popped sys.cb.conn).ftcWaiting = sys.ftcWaiting := by
    rw [Sys.ftcWaiting, hmask]
    rfl
  cases heffect with
  | idle hempty => simp [hqueue] at hempty
  | response _ hother => simp [hqueue] at hother
  | counted _ hother => simp [hqueue] at hother
  | acknowledge _ hother => simp [hqueue] at hother
  | muted _ _ hoff => simp [hon] at hoff
  | host _ event _ hother hevent =>
      rw [hqueue, List.cons.injEq] at hother
      rcases hevent with rfl | rfl <;> exact absurd hother.1 (by decide)
  | piece rest' hother _ hmore =>
      rw [hqueue, List.cons.injEq] at hother
      obtain ⟨-, rfl⟩ := hother
      have hnot : ¬ sys.cb.ftLen ≤ 20 := UInt32.not_le.mpr hmore
      have haddr := ftdSendPiece_ftAddr env popped sys.cb.conn
      have hlen := ftdSendPiece_ftLen env popped sys.cb.conn
      have hcalls := ftdSendPiece_calls env popped
      have hrest := ftdSendPiece_queue env popped sys.cb.conn
      -- from here on only what is known of the piece matters
      change FtdSent env sys rest
        (otaSendEvent { ftdSendPiece env popped sys.cb.conn with cb.conn := sys.cb.conn } .ftd)
      generalize ftdSendPiece env popped sys.cb.conn = piece at *
      refine ⟨haddr, hlen, hhandle, ?_, hstorage, hflash, hwrites, hnotify, hcalls, ?_, ?_, ?_⟩
      · rw [if_neg hnot]
        exact hprogress
      · rw [decide_eq_false hnot, Bool.or_false]
        exact hwaiting
      · rw [if_neg fun hboth => hnot hboth.1]
        exact hbuffer
      · rw [if_neg hnot]
        exact congrArg (· ++ [Event.ftd]) hrest
  | done rest' hother _ hlast =>
      rw [hqueue, List.cons.injEq] at hother
      obtain ⟨-, rfl⟩ := hother
      have hsame := ftdSendDone_sameTransfer env (ftdSendPiece env popped sys.cb.conn) sys.cb.conn
      refine ⟨hsame.ftAddr.trans (ftdSendPiece_ftAddr env popped _),
        hsame.ftLen.trans (ftdSendPiece_ftLen env popped _), hsame.ftHandle.trans hhandle, ?_,
        hsame.storage.trans hstorage, hsame.flash.trans hflash, hsame.flashWrites.trans hwrites,
        ?_, ?_, ?_, ?_, ?_⟩
      · rw [if_pos hlast]
        exact hsame.ftInProgress
      · simp only [ftdSendDone, otaFtcSendRsp_notifyOn]
        exact hnotify
      · simp only [ftdSendDone, otaFtcSendRsp_calls]
        exact ftdSendPiece_calls env popped
      · rw [decide_eq_true hlast, Bool.or_true]
        exact ftdSendDone_ftcWaiting env _ _
      · rw [ftdSendDone_ftcMsgBuf, hwaiting, hbuffer, hhandle]
        cases sys.ftcWaiting <;> simp [hlast, popped]
      · rw [if_pos hlast]
        simp only [ftdSendDone_queue, ftdSendPiece_queue, hwaiting, popped]

/-- Only a data event with data notifications on touches the transfer. -/
theorem dispatch_sameTransfer (env : Env) (sys : Sys)
    (hevent : sys.queue.head? = some .ftd → sys.notifyOn .ftd = false) :
    SameTransfer sys (dispatch env sys) := by
  have heffect := dispatch_effect env sys
  generalize dispatch env sys = next at heffect
  cases heffect with
  | idle => exact SameTransfer.refl sys
  | response rest => exact (otaFtcSend_sameTransfer { sys with queue := rest } sys.cb.conn).of_pop
  | acknowledge rest =>
      exact (otaFdcAsyncSend_sameTransfer { sys with queue := rest } sys.cb.conn).of_pop
  | counted rest => exact ⟨rfl, rfl, rfl, rfl, rfl, rfl, rfl⟩
  | muted rest => exact ⟨rfl, rfl, rfl, rfl, rfl, rfl, rfl⟩
  | piece rest hqueue hon => simp [hqueue, hon] at hevent
  | done rest hqueue hon => simp [hqueue, hon] at hevent
  | host rest => exact ⟨rfl, rfl, rfl, rfl, rfl, rfl, rfl⟩

/-- The effect of an event other than a data event on the rest of the system. -/
structure OtherSent (sys next : Sys) : Prop where
  transfer : SameTransfer sys next
  notifyOn : next.notifyOn = sys.notifyOn
  queue : next.queue = sys.queue.tail
  calls : ∃ added, next.calls = sys.calls ++ added ∧
    ∀ call ∈ added, ∀ conn value, call ≠ .notify conn .ftd value

/-- Whether or not control notifications are on, none of them is one of data. -/
theorem notify_ftc_ne_ftd {enabled : Bool} {sender : Conn} {message : List UInt8} {call : HostCall}
    (hcall : call ∈ if enabled then [HostCall.notify sender .ftc message] else []) (conn : Conn)
    (value : List UInt8) : call ≠ .notify conn .ftd value := by
  split at hcall
  next =>
    obtain rfl := List.mem_singleton.mp hcall
    simp
  next => cases hcall

theorem dispatch_other (env : Env) (sys : Sys) (hevent : sys.queue.head? ≠ some .ftd) :
    OtherSent sys (dispatch env sys) := by
  have htransfer := dispatch_sameTransfer env sys fun hhead => absurd hhead hevent
  have heffect := dispatch_effect env sys
  generalize dispatch env sys = next at heffect htransfer
  cases heffect with
  | idle hempty => exact ⟨htransfer, rfl, by simp [hempty], [], by simp, by simp⟩
  | response rest hqueue =>
      have hsent := otaFtcSend_sent { sys with queue := rest } sys.cb.conn
      refine ⟨htransfer, hsent.notifyOn, hsent.queue.trans (by simp [hqueue]), _, hsent.calls, ?_⟩
      exact fun _ hcall conn value => notify_ftc_ne_ftd hcall conn value
  | counted rest hqueue => exact ⟨htransfer, rfl, by simp [hqueue], [], by simp, by simp⟩
  | acknowledge rest hqueue hcount =>
      have hsent := otaFdcAsyncSend_sent { sys with queue := rest } sys.cb.conn hcount
      refine ⟨htransfer, hsent.notifyOn, hsent.queue.trans (by simp [hqueue]), _, hsent.calls, ?_⟩
      exact fun _ hcall conn value => notify_ftc_ne_ftd hcall conn value
  | muted rest hqueue => simp [hqueue] at hevent
  | piece rest hqueue => simp [hqueue] at hevent
  | done rest hqueue => simp [hqueue] at hevent
  | host rest event call hqueue hhost hcall =>
      refine ⟨htransfer, rfl, by simp [hqueue], [call], rfl, ?_⟩
      intro other hother conn value
      obtain rfl := List.mem_singleton.mp hother
      exact hcall conn .ftd value

end CubieBle.Ota
