import CubieBle.BleModule.DataBuffers

/-! # No buffer and no byte of data mode is lost

Every buffer stays in one place in every run, and as long as a buffer is free when one
is queued the chunks are the stream that was received.
-/

namespace CubieBle.BleModule

open Machine

/-! ## The receiver -/

theorem actDataMtu_pos : 0 < actDataMtu := Nat.succ_pos 19

/-- Writing behind what a buffer holds adds to it. -/
theorem take_writeAt (buf : Vector UInt8 actDataMtu) {off : Nat} {bytes : List UInt8}
    (hfits : off + bytes.length ≤ actDataMtu) :
    (writeAt buf off bytes).toList.take (off + bytes.length) =
      buf.toList.take off ++ bytes := by
  have hlength : (buf.toList.take off).length = off := by
    rw [List.length_take, Vector.length_toList]
    omega
  apply List.ext_getElem
  · rw [List.length_take, Vector.length_toList, List.length_append]
    omega
  · intro i hi hi'
    rw [List.length_append] at hi'
    rw [List.getElem_take]
    unfold writeAt
    simp only [Vector.getElem_toList, Vector.getElem_ofFn]
    by_cases hold : i < off
    · rw [if_neg (by omega), List.getElem_append_left (by omega), List.getElem_take,
        Vector.getElem_toList]
      rfl
    · have hnew : i - off < bytes.length := by omega
      rw [if_pos (by omega), List.getElem_append_right (by omega), List.getD_eq_getElem?_getD,
        List.getElem?_eq_getElem hnew, Option.getD_some]
      congr 1
      omega

/-- What the receiver and the timer know of each other. -/
structure Synced (rx : DataRx) : Prop where
  rxAbort : rx.rxAbort = false
  timer : rx.timerArmed = rx.sendPartialTimerStarted

theorem startTimer_eq {rx : DataRx} (hsynced : Synced rx) :
    ∃ started, startTimer rx =
      { rx with sendPartialTimerStarted := started, timerArmed := started } ∧
        (0 < rx.recvOff → started = true) := by
  unfold startTimer
  by_cases hstart : 0 < rx.recvOff ∧ rx.sendPartialTimerStarted = false
  · rw [if_pos hstart]
    exact ⟨true, rfl, fun _ => rfl⟩
  · rw [if_neg hstart]
    have htimer := hsynced.timer
    refine ⟨rx.sendPartialTimerStarted, ?_, ?_⟩
    · obtain ⟨_, _, _, _, _, _, started, _, armed, _⟩ := rx
      obtain rfl : armed = started := htimer
      rfl
    intro hpos
    by_contra hstarted
    exact hstart ⟨hpos, by simpa using hstarted⟩

/-- A buffer that is not full is left to the timer. -/
theorem recvCb_keep {rx : DataRx} (hsynced : Synced rx) (hoff : rx.recvOff < actDataMtu) :
    ∃ started, recvCb rx =
      { rx with sendPartialTimerStarted := started, timerArmed := started } := by
  obtain ⟨started, hstart, -⟩ := startTimer_eq hsynced
  refine ⟨started, ?_⟩
  unfold recvCb
  rw [hstart]
  exact if_pos ⟨hoff, hsynced.rxAbort⟩

/-- A full buffer is queued, and the timer is stopped. -/
theorem recvCb_full {rx : DataRx} (hsynced : Synced rx) (hoff : rx.recvOff = actDataMtu) :
    recvCb rx = flush { rx with sendPartialTimerStarted := false, timerArmed := false } := by
  obtain ⟨started, hstart, hpos⟩ := startTimer_eq hsynced
  obtain rfl : started = true := hpos (by rw [hoff]; decide)
  unfold recvCb
  rw [hstart]
  dsimp only
  rw [if_neg (by rw [hoff]; exact fun h => Nat.lt_irrefl _ h.1), stopTimer,
    if_pos ⟨rfl, hsynced.rxAbort⟩, hsynced.rxAbort]

/-- When the timer fires, the buffer is queued as it is. -/
theorem sendPartialHandler_eq {rx : DataRx} (hsynced : Synced rx) (harmed : rx.timerArmed = true) :
    sendPartialHandler rx =
      flush { rx with sendPartialTimerStarted := false, timerArmed := false } := by
  have hstarted : rx.sendPartialTimerStarted = true := hsynced.timer.symm.trans harmed
  have hkeep : startTimer { rx with timerArmed := false, rxAbort := true } =
      { rx with timerArmed := false, rxAbort := true } :=
    if_neg (by simpa using fun _ => hstarted)
  have hstop : stopTimer { rx with timerArmed := false, rxAbort := true } =
      { rx with timerArmed := false, rxAbort := true } :=
    if_neg (by simp)
  unfold sendPartialHandler recvCb
  rw [if_pos harmed, hkeep]
  dsimp only
  rw [if_neg (by simp), hstop, hsynced.rxAbort]

/-! ## Queueing a buffer -/

theorem flush_cases (rx : DataRx) :
    (rx.availQueue = [] ∧ flush rx = { rx with recvOff := 0 }) ∨
      ∃ newBuf rest, rx.availQueue = newBuf :: rest ∧
        flush rx =
          { rx with
            availQueue := rest
            dataLen := Function.update rx.dataLen rx.recvBuf rx.recvOff
            datasQueue := rx.datasQueue ++ [rx.recvBuf]
            recvBuf := newBuf
            recvOff := 0 } := by
  unfold flush
  split
  next hempty => exact .inl ⟨hempty, rfl⟩
  next newBuf rest hcons => exact .inr ⟨newBuf, rest, hcons, rfl⟩

theorem flush_kept {rx : DataRx} (hpartitioned : Partitioned rx.places)
    (hoff : rx.recvOff ≤ actDataMtu)
    (hdataLen : ∀ buf ∈ rx.datasQueue, rx.dataLen buf ≤ actDataMtu) : BuffersKept (flush rx) := by
  rcases flush_cases rx with ⟨-, hflush⟩ | ⟨newBuf, rest, havail, hflush⟩
  · rw [hflush]
    exact ⟨hpartitioned, actDataMtu_pos, hdataLen⟩
  · rw [hflush]
    refine ⟨hpartitioned.perm ?_, actDataMtu_pos, ?_⟩
    · -- the free buffer and the one received into change places
      unfold DataRx.places
      dsimp only
      rw [havail, List.perm_iff_count]
      intro buf
      simp only [List.count_append, List.count_cons, List.count_nil]
      omega
    · intro buf hbuf
      dsimp only at hbuf ⊢
      by_cases heq : buf = rx.recvBuf
      · rw [heq, Function.update_self]
        exact hoff
      · rw [Function.update_of_ne heq]
        rcases List.mem_append.mp hbuf with hold | hnew
        · exact hdataLen buf hold
        · exact absurd (List.mem_singleton.mp hnew) heq

theorem recvBuf_not_mem {rx : DataRx} (hpartitioned : Partitioned rx.places) :
    rx.recvBuf ∉ rx.datasQueue := by
  intro hmem
  unfold DataRx.places at hpartitioned
  rw [List.append_assoc] at hpartitioned
  refine hpartitioned.ne (List.mem_append_right _ hmem) ?_ rfl
  exact List.mem_append_left _ List.mem_cons_self

theorem held_not_mem {rx : DataRx} (hpartitioned : Partitioned rx.places) {buf : DataBuf}
    (hheld : rx.held = some buf) : buf ∉ rx.datasQueue ∧ buf ≠ rx.recvBuf := by
  unfold DataRx.places at hpartitioned
  rw [hheld] at hpartitioned
  constructor
  · intro hmem
    have hother := List.mem_append_left [rx.recvBuf] (List.mem_append_right rx.availQueue hmem)
    exact hpartitioned.ne hother List.mem_cons_self rfl
  · have hrecv := List.mem_append_right (rx.availQueue ++ rx.datasQueue)
      (List.mem_singleton_self rx.recvBuf)
    exact (hpartitioned.ne hrecv List.mem_cons_self).symm

/-- The chunks of buffers that are left alone do not change. -/
theorem map_chunkOf_congr {rx next : DataRx} {bufs : List DataBuf}
    (hsame : ∀ buf ∈ bufs, next.data buf = rx.data buf ∧ next.dataLen buf = rx.dataLen buf) :
    bufs.map (chunkOf next) = bufs.map (chunkOf rx) := by
  apply List.map_congr_left
  intro buf hbuf
  unfold chunkOf
  rw [(hsame buf hbuf).1, (hsame buf hbuf).2]

/-- What is queued is still to be taken. -/
theorem flush_unhandled {rx : DataRx} (hpartitioned : Partitioned rx.places)
    (havail : rx.availQueue ≠ []) : (flush rx).unhandled = rx.unhandled := by
  rcases flush_cases rx with ⟨hempty, -⟩ | ⟨newBuf, rest, -, hflush⟩
  · exact absurd hempty havail
  · have hold : rx.datasQueue.map (chunkOf (flush rx)) = rx.datasQueue.map (chunkOf rx) := by
      apply map_chunkOf_congr
      intro buf hbuf
      rw [hflush]
      refine ⟨rfl, Function.update_of_ne ?_ _ _⟩
      rintro rfl
      exact recvBuf_not_mem hpartitioned hbuf
    have hnew : chunkOf (flush rx) rx.recvBuf = (rx.data rx.recvBuf).toList.take rx.recvOff := by
      rw [hflush]
      unfold chunkOf
      dsimp only
      rw [Function.update_self]
    have hqueue : (flush rx).datasQueue = rx.datasQueue ++ [rx.recvBuf] := by rw [hflush]
    have hempty : (flush rx).recvOff = 0 := by rw [hflush]
    rw [DataRx.unhandled, DataRx.unhandled, hqueue, List.map_append, hold, List.map_singleton,
      hnew, hempty, List.take_zero, List.append_nil, List.flatten_append, List.flatten_singleton]

/-! ## Steps -/

/-- What holds in every state of a run. -/
structure DataInv (rx : DataRx) : Prop extends BuffersKept rx, Synced rx

theorem flush_inv {rx : DataRx} (hpartitioned : Partitioned rx.places)
    (hoff : rx.recvOff ≤ actDataMtu)
    (hdataLen : ∀ buf ∈ rx.datasQueue, rx.dataLen buf ≤ actDataMtu) (hsynced : Synced rx) :
    DataInv (flush rx) := by
  refine ⟨flush_kept hpartitioned hoff hdataLen, ?_⟩
  rcases flush_cases rx with ⟨-, hflush⟩ | ⟨newBuf, rest, -, hflush⟩
  · rw [hflush]
    exact ⟨hsynced.rxAbort, hsynced.timer⟩
  · rw [hflush]
    exact ⟨hsynced.rxAbort, hsynced.timer⟩

/-- The state of the receiver after some bytes were read and before the callback. -/
def receive (bytes : List UInt8) (rx : DataRx) : DataRx :=
  { rx with
    data := Function.update rx.data rx.recvBuf (writeAt (rx.data rx.recvBuf) rx.recvOff bytes)
    recvOff := rx.recvOff + bytes.length }

theorem receive_unhandled {rx : DataRx} (hpartitioned : Partitioned rx.places)
    {bytes : List UInt8} (hfits : rx.recvOff + bytes.length ≤ actDataMtu) :
    (receive bytes rx).unhandled = rx.unhandled ++ bytes := by
  have hqueue : rx.datasQueue.map (chunkOf (receive bytes rx)) =
      rx.datasQueue.map (chunkOf rx) := by
    apply map_chunkOf_congr
    intro buf hbuf
    refine ⟨Function.update_of_ne ?_ _ _, rfl⟩
    rintro rfl
    exact recvBuf_not_mem hpartitioned hbuf
  have hcurrent : (receive bytes rx).data rx.recvBuf =
      writeAt (rx.data rx.recvBuf) rx.recvOff bytes := Function.update_self _ _ _
  change (rx.datasQueue.map (chunkOf (receive bytes rx))).flatten ++
    ((receive bytes rx).data rx.recvBuf).toList.take (rx.recvOff + bytes.length) =
      rx.unhandled ++ bytes
  rw [hqueue, hcurrent, take_writeAt _ hfits, DataRx.unhandled, List.append_assoc]

/-- One delivery keeps the buffers, and adds its bytes if nothing is dropped. -/
theorem actDataRxIsr_inv {rx : DataRx} (hinv : DataInv rx) {bytes : List UInt8}
    (hfits : bytes.length ≤ actDataMtu - rx.recvOff) :
    DataInv (actDataRxIsr bytes rx) ∧
      (¬ Drops rx (.rxIsr bytes) → (actDataRxIsr bytes rx).unhandled = rx.unhandled ++ bytes) := by
  have hoff := hinv.recvOff
  have hsynced : Synced (receive bytes rx) := ⟨hinv.rxAbort, hinv.timer⟩
  unfold actDataRxIsr
  by_cases hbytes : bytes = []
  · rw [if_pos hbytes]
    exact ⟨hinv, fun _ => by rw [hbytes, List.append_nil]⟩
  · rw [if_neg hbytes]
    change DataInv (recvCb (receive bytes rx)) ∧
      (_ → (recvCb (receive bytes rx)).unhandled = _)
    by_cases hfull : rx.recvOff + bytes.length = actDataMtu
    · rw [recvCb_full hsynced hfull]
      refine ⟨flush_inv hinv.partitioned (Nat.le_of_eq hfull) hinv.dataLen ⟨hinv.rxAbort, rfl⟩, ?_⟩
      intro hdrops
      have havail : rx.availQueue ≠ [] := fun havail => hdrops ⟨hfull, havail⟩
      refine (flush_unhandled ?_ ?_).trans (receive_unhandled hinv.partitioned (Nat.le_of_eq hfull))
      · exact hinv.partitioned
      · exact havail
    · have hless : (receive bytes rx).recvOff < actDataMtu := by
        change rx.recvOff + bytes.length < actDataMtu
        omega
      obtain ⟨started, hkeep⟩ := recvCb_keep hsynced hless
      rw [hkeep]
      refine ⟨⟨⟨hinv.partitioned, hless, hinv.dataLen⟩, hinv.rxAbort, rfl⟩, ?_⟩
      intro _
      exact receive_unhandled hinv.partitioned hless.le

theorem sendPartialHandler_inv {rx : DataRx} (hinv : DataInv rx) :
    DataInv (sendPartialHandler rx) ∧
      (¬ Drops rx .sendPartial → (sendPartialHandler rx).unhandled = rx.unhandled) := by
  by_cases harmed : rx.timerArmed = true
  · rw [sendPartialHandler_eq hinv.toSynced harmed]
    refine ⟨flush_inv hinv.partitioned hinv.recvOff.le hinv.dataLen ⟨hinv.rxAbort, rfl⟩, ?_⟩
    intro hdrops
    exact flush_unhandled hinv.partitioned fun havail => hdrops ⟨harmed, havail⟩
  · unfold sendPartialHandler
    rw [if_neg harmed]
    exact ⟨hinv, fun _ => rfl⟩

/-- The handler takes the first chunk that it is still to take. -/
theorem dataHandlerGet_inv {rx : DataRx} (hinv : DataInv rx) (trace : DataTrace) :
    DataInv (dataHandlerGet rx) ∧
      (observeData rx .handlerGet trace).handled.flatten ++ (dataHandlerGet rx).unhandled =
        trace.handled.flatten ++ rx.unhandled := by
  unfold dataHandlerGet observeData
  cases hheld : rx.held with
  | some buf => exact ⟨hinv, rfl⟩
  | none =>
      cases hqueue : rx.datasQueue with
      | nil => exact ⟨hinv, rfl⟩
      | cons buf rest =>
          have hsubset : ∀ other ∈ rest, other ∈ rx.datasQueue := by
            intro other hother
            rw [hqueue]
            exact List.mem_cons_of_mem _ hother
          refine ⟨⟨⟨hinv.partitioned.perm ?_, hinv.recvOff,
            fun other hother => hinv.dataLen other (hsubset other hother)⟩, hinv.rxAbort,
            hinv.timer⟩, ?_⟩
          · unfold DataRx.places
            rw [hheld, hqueue]
            exact perm_takeQueued rx.availQueue rest [rx.recvBuf] buf
          · rw [DataRx.unhandled, DataRx.unhandled, hqueue, List.map_cons, List.flatten_cons]
            simp only [List.flatten_append, List.flatten_singleton, List.append_assoc]
            rfl

theorem dataHandlerPut_inv {rx : DataRx} (hinv : DataInv rx) :
    DataInv (dataHandlerPut rx) ∧ (dataHandlerPut rx).unhandled = rx.unhandled := by
  unfold dataHandlerPut
  split
  next => exact ⟨hinv, rfl⟩
  next buf hheld =>
    obtain ⟨hqueue, hrecv⟩ := held_not_mem hinv.partitioned hheld
    refine ⟨⟨⟨hinv.partitioned.perm ?_, hinv.recvOff, ?_⟩, hinv.rxAbort, hinv.timer⟩, ?_⟩
    · unfold DataRx.places
      rw [hheld]
      exact perm_giveBack rx.availQueue rx.datasQueue [rx.recvBuf] buf
    · intro other hother
      have hne : other ≠ buf := fun heq => hqueue (heq ▸ hother)
      dsimp only
      rw [Function.update_of_ne hne]
      exact hinv.dataLen other hother
    · unfold DataRx.unhandled
      dsimp only
      rw [Function.update_of_ne (Ne.symm hrecv)]
      congr 2
      apply map_chunkOf_congr
      intro other hother
      have hne : other ≠ buf := fun heq => hqueue (heq ▸ hother)
      exact ⟨Function.update_of_ne hne _ _, Function.update_of_ne hne _ _⟩

/-- What one step keeps. -/
theorem dataStep_inv {rx : DataRx} (hinv : DataInv rx) (trace : DataTrace) {event : DataEvent}
    (hfits : Fits rx event) :
    DataInv (dataStep rx event) ∧
      (KeepsStream rx event → StreamKept ⟨rx, trace⟩ →
        StreamKept (dataRunStep ⟨rx, trace⟩ event)) := by
  cases event with
  | rxIsr bytes =>
      obtain ⟨hnext, hunhandled⟩ := actDataRxIsr_inv hinv hfits
      refine ⟨hnext, fun hkeeps hstream => ?_⟩
      change trace.handled.flatten ++ (actDataRxIsr bytes rx).unhandled = trace.received ++ bytes
      rw [hunhandled hkeeps.1, ← List.append_assoc]
      exact congrArg (· ++ bytes) hstream
  | sendPartial =>
      obtain ⟨hnext, hunhandled⟩ := sendPartialHandler_inv hinv
      refine ⟨hnext, fun hkeeps hstream => ?_⟩
      change trace.handled.flatten ++ (sendPartialHandler rx).unhandled = trace.received
      rw [hunhandled hkeeps.1]
      exact hstream
  | handlerGet =>
      obtain ⟨hnext, hunhandled⟩ := dataHandlerGet_inv hinv trace
      refine ⟨hnext, fun _ hstream => hunhandled.trans (hstream.trans ?_)⟩
      change trace.received = (observeData rx .handlerGet trace).received
      unfold observeData
      cases rx.held with
      | some buf => rfl
      | none =>
          cases rx.datasQueue with
          | nil => rfl
          | cons buf rest => rfl
  | handlerPut =>
      obtain ⟨hnext, hunhandled⟩ := dataHandlerPut_inv hinv
      refine ⟨hnext, fun _ hstream => ?_⟩
      change trace.handled.flatten ++ (dataHandlerPut rx).unhandled = trace.received
      rw [hunhandled]
      exact hstream
  | enterIntoDataMode =>
      refine ⟨⟨⟨hinv.partitioned, actDataMtu_pos, hinv.dataLen⟩, hinv.rxAbort, hinv.timer⟩, ?_⟩
      exact fun hkeeps => absurd rfl hkeeps.2

theorem actDataInit_inv : DataInv actDataInit := by
  refine ⟨⟨?_, actDataMtu_pos, nofun⟩, rfl, rfl⟩
  unfold Partitioned
  decide

theorem streamKept_init : StreamKept ⟨actDataInit, {}⟩ := by
  unfold StreamKept
  decide

/-- In every run the buffers are in one place each, the receiver has space left, and no
queued chunk is too long; and in every run that drops nothing and keeps the mode, the
chunks and the bytes in the current buffer are the bytes received. -/
theorem data_buffers_kept (events : List DataEvent)
    (hfits : Along dataStep Fits actDataInit events) :
    Throughout dataStep BuffersKept actDataInit events ∧
      (Along dataStep KeepsStream actDataInit events →
        Throughout dataRunStep StreamKept ⟨actDataInit, {}⟩ events) := by
  constructor
  · have hinv := throughout_of_invariant DataInv
      (fun rx event hinv hevent => (dataStep_inv hinv {} hevent).1) actDataInit_inv hfits
    exact hinv.imp fun rx hinv => hinv.toBuffersKept
  · intro hkeeps
    have hrun : Along dataRunStep
        (fun current event => Fits current.state event ∧ KeepsStream current.state event)
        ⟨actDataInit, {}⟩ events :=
      along_and.mpr ⟨along_trackedStep.mpr hfits, along_trackedStep.mpr hkeeps⟩
    refine (throughout_of_invariant
      (fun current : DataRun => DataInv current.state ∧ StreamKept current) ?_
      ⟨actDataInit_inv, streamKept_init⟩ hrun).imp fun _ hboth => hboth.2
    rintro ⟨rx, trace⟩ event ⟨hinv, hstream⟩ ⟨hfits, hkeeps⟩
    obtain ⟨hnext, hkept⟩ := dataStep_inv hinv trace hfits
    exact ⟨hnext, hkept hkeeps hstream⟩

/-- A full buffer is handled while the timer queues the start of the next one. -/
theorem fullAndPartial_kept :
    StreamKept (run dataRunStep ⟨actDataInit, {}⟩ [.rxIsr (List.replicate 20 7), .handlerGet,
      .rxIsr [1, 2], .sendPartial, .handlerPut, .rxIsr [3]]) :=
  ((data_buffers_kept _ (by decide)).2 (by decide)).last

end CubieBle.BleModule
