import CubieBle.BleModule.LineBuffers
import CubieBle.Machine.Bytes

/-! # Lines are delivered as they were typed

Every line buffer is in one place in every run, and every line in the queue is the text
that was typed since its buffer was acquired.
-/

namespace CubieBle.BleModule

open Machine

/-! ## Text in a buffer -/

theorem isprint_ne {byte : UInt8} (hprint : isprint byte = true) : byte ≠ 0 ∧ byte ≠ 0x0d := by
  constructor
  · rintro rfl
    exact absurd hprint (by decide)
  · rintro rfl
    exact absurd hprint (by decide)

theorem takeWhile_eq_take {text : List UInt8} {n : Nat}
    (hnonzero : ∀ byte ∈ text.take n, byte ≠ 0) (hzero : text[n]? = some 0) :
    text.takeWhile (· != 0) = text.take n := by
  obtain ⟨hlt, hbyte⟩ := List.getElem?_eq_some_iff.mp hzero
  conv_lhs => rw [← List.take_append_drop n text, List.drop_eq_getElem_cons hlt, hbyte]
  rw [List.takeWhile_append_of_pos]
  · simp
  · intro byte hmem
    simpa using hnonzero byte hmem

theorem toList_setIfInBounds (line : Line) (i : Nat) (byte : UInt8) :
    (line.setIfInBounds i byte).toList = line.toList.set i byte := by
  simp

/-- Setting the byte behind a text adds to it. -/
theorem take_set_self (text : List UInt8) (n : Nat) (byte : UInt8) :
    (text.set n byte).take n = text.take n := by
  rw [List.take_set_of_le (Nat.le_refl n)]

/-- The text of the buffer that the interrupt has. -/
structure Collects (rx : AtRx) (typed : List UInt8) : Prop where
  idle : rx.inputCmd = none → rx.inputCur = 0
  cursor : ∀ buf, rx.inputCmd = some buf →
    rx.inputCur = (typed.take (consoleMaxLineLen - 1)).length
  collected : ∀ buf, rx.inputCmd = some buf →
    (rx.line buf).toList.take rx.inputCur = typed.take (consoleMaxLineLen - 1)
  printable : ∀ byte ∈ typed, isprint byte = true

structure LineInv (rx : AtRx) (trace : LineTrace) : Prop
    extends LinesKept rx trace, Collects rx trace.typed

/-! ## Buffers that are left alone -/

/-- Queued lines do not change when another buffer is written. -/
theorem queue_of_line_eq {rx next : AtRx} {bufs : List LineBuf}
    (hline : ∀ buf ∈ bufs, next.line buf = rx.line buf) :
    bufs.map (lineText next) = bufs.map (lineText rx) := by
  apply List.map_congr_left
  intro buf hbuf
  unfold lineText
  rw [hline buf hbuf]

theorem inputCmd_not_mem {rx : AtRx} (hpartitioned : Partitioned rx.places) {buf : LineBuf}
    (hinput : rx.inputCmd = some buf) : buf ∉ rx.cmdsQueue := by
  intro hmem
  unfold AtRx.places at hpartitioned
  rw [hinput, List.append_assoc] at hpartitioned
  refine hpartitioned.ne (List.mem_append_right _ hmem) ?_ rfl
  exact List.mem_append_left _ List.mem_cons_self

theorem lineHeld_not_mem {rx : AtRx} (hpartitioned : Partitioned rx.places) {buf : LineBuf}
    (hheld : rx.held = some buf) : buf ∉ rx.cmdsQueue ∧ rx.inputCmd ≠ some buf := by
  unfold AtRx.places at hpartitioned
  rw [hheld] at hpartitioned
  constructor
  · intro hmem
    have hother := List.mem_append_left rx.inputCmd.toList
      (List.mem_append_right rx.availQueue hmem)
    exact hpartitioned.ne hother List.mem_cons_self rfl
  · intro hinput
    have hother := List.mem_append_right (rx.availQueue ++ rx.cmdsQueue)
      (Option.mem_toList.mpr hinput)
    exact hpartitioned.ne hother List.mem_cons_self rfl

theorem setByte_line_of_ne {rx : AtRx} {buf other : LineBuf} (hne : other ≠ buf) (i : Nat)
    (byte : UInt8) : (setByte buf i byte rx).line other = rx.line other :=
  Function.update_of_ne hne _ _

theorem setByte_toList (rx : AtRx) (buf : LineBuf) (i : Nat) (byte : UInt8) :
    ((setByte buf i byte rx).line buf).toList = (rx.line buf).toList.set i byte := by
  unfold setByte
  dsimp only
  rw [Function.update_self, toList_setIfInBounds]

/-! ## Receiving -/

section Receiving

variable {rx : AtRx} {trace : LineTrace}

theorem acquire_eq_none_iff : acquire rx = none ↔ rx.inputCmd = none ∧ rx.availQueue = [] := by
  unfold acquire
  cases rx.inputCmd with
  | some buf => simp
  | none =>
      cases rx.availQueue with
      | nil => simp
      | cons buf rest => simp

theorem acquire_inv (hinv : LineInv rx trace) {buf : LineBuf} {next : AtRx}
    (hacquire : acquire rx = some (buf, next)) :
    LineInv next { trace with typed := typedBefore rx trace } ∧ next.inputCmd = some buf := by
  unfold acquire at hacquire
  split at hacquire
  next held hheld =>
    obtain ⟨rfl, rfl⟩ := Prod.mk.inj (Option.some.inj hacquire)
    rw [typedBefore, hheld]
    exact ⟨hinv, rfl⟩
  next hnone =>
    rw [typedBefore, hnone]
    split at hacquire
    next => cases hacquire
    next first rest havail =>
      obtain ⟨rfl, rfl⟩ := Prod.mk.inj (Option.some.inj hacquire)
      have href := hinv.cmdQueueRef
      rw [hnone] at href
      have hidle := hinv.idle hnone
      refine ⟨⟨⟨hinv.partitioned.perm ?_, ?_, hinv.inputCur, hinv.text, hinv.terminated⟩,
        ⟨nofun, fun _ _ => hidle, ?_, nofun⟩⟩, rfl⟩
      · unfold AtRx.places
        dsimp only
        rw [hnone, havail, List.perm_iff_count]
        intro other
        simp only [List.count_append, List.count_cons, List.count_nil, Option.toList_some,
          Option.toList_none]
        omega
      · rw [href]
        rfl
      · intro _ _
        dsimp only
        rw [hidle]
        rfl

theorem consoleMaxLineLen_eq : consoleMaxLineLen = 128 := rfl

theorem length_line (line : Line) : line.toList.length = 256 := by
  rw [Vector.length_toList]
  rfl

/-- Writing to a buffer that is not queued keeps the queued lines. -/
theorem setByte_kept (hkept : LinesKept rx trace) {buf : LineBuf} (hqueue : buf ∉ rx.cmdsQueue)
    (i : Nat) (byte : UInt8) : LinesKept (setByte buf i byte rx) trace := by
  have hline : ∀ other ∈ rx.cmdsQueue, (setByte buf i byte rx).line other = rx.line other := by
    intro other hother
    apply setByte_line_of_ne
    rintro rfl
    exact hqueue hother
  refine ⟨hkept.partitioned, hkept.cmdQueueRef, hkept.inputCur,
    (queue_of_line_eq hline).trans hkept.text, ?_⟩
  intro other hother
  rw [hline other hother]
  exact hkept.terminated other hother

/-- A line that ends in its buffer joins the queued ones. -/
theorem LinesKept.endLine (hkept : LinesKept rx trace) {buf : LineBuf} {i : Nat}
    (hzero : (rx.line buf).toList[i]? = some 0) {line : List UInt8}
    (htext : lineText rx buf = line) :
    (rx.cmdsQueue ++ [buf]).map (lineText rx) = trace.expected ++ [line] ∧
      ∀ other ∈ rx.cmdsQueue ++ [buf], 0 ∈ (rx.line other).toList := by
  constructor
  · rw [List.map_append, List.map_singleton, htext]
    exact congrArg (· ++ _) hkept.text
  · intro other hother
    rcases List.mem_append.mp hother with hold | hnew
    · exact hkept.terminated other hold
    · rw [List.mem_singleton.mp hnew]
      exact List.mem_of_getElem? hzero

theorem typeChar_inv (hinv : LineInv rx trace) {buf : LineBuf}
    (hinput : rx.inputCmd = some buf) {byte : UInt8} (hprint : isprint byte = true) :
    LineInv (typeChar buf byte rx) { trace with typed := trace.typed ++ [byte] } := by
  have hcursor := hinv.cursor buf hinput
  have hcollected := hinv.collected buf hinput
  have hprintable : ∀ char ∈ trace.typed ++ [byte], isprint char = true := by
    intro char hchar
    rcases List.mem_append.mp hchar with hold | hnew
    · exact hinv.printable char hold
    · rw [List.mem_singleton.mp hnew]
      exact hprint
  have hsome : ∀ {other : LineBuf}, rx.inputCmd = some other → other = buf :=
    fun hother => Option.some.inj (hother.symm.trans hinput)
  have hlast : consoleMaxLineLen - 1 = 127 := rfl
  rw [List.length_take, hlast] at hcursor
  rw [hlast] at hcollected
  unfold typeChar
  by_cases hspace : rx.inputCur < consoleMaxLineLen - 1
  · rw [if_pos hspace]
    rw [hlast] at hspace
    have htyped : (trace.typed ++ [byte]).take 127 = trace.typed.take 127 ++ [byte] := by
      have hlength : (trace.typed ++ [byte]).length ≤ 127 := by
        rw [List.length_append, List.length_singleton]
        omega
      rw [List.take_of_length_le hlength, List.take_of_length_le (by omega)]
    have hset := setByte_kept hinv.toLinesKept (inputCmd_not_mem hinv.partitioned hinput)
      rx.inputCur byte
    refine ⟨⟨hset.partitioned, hset.cmdQueueRef, ?_, hset.text, hset.terminated⟩,
      ⟨?_, ?_, ?_, hprintable⟩⟩
    · change rx.inputCur + 1 < consoleMaxLineLen
      rw [consoleMaxLineLen_eq]
      omega
    · exact fun hnone => absurd (hinput.symm.trans hnone) nofun
    · intro other _
      change rx.inputCur + 1 = ((trace.typed ++ [byte]).take 127).length
      rw [htyped, List.length_append, List.length_take, List.length_singleton, ← hcursor]
    · intro other hother
      obtain rfl := hsome hother
      change ((setByte other rx.inputCur byte rx).line other).toList.take (rx.inputCur + 1) =
        (trace.typed ++ [byte]).take 127
      rw [setByte_toList, take_set_succ (by rw [length_line]; omega), hcollected, htyped]
  · rw [if_neg hspace]
    rw [hlast] at hspace
    have htyped : (trace.typed ++ [byte]).take 127 = trace.typed.take 127 :=
      List.take_append_of_le_length (by omega)
    refine ⟨⟨hinv.partitioned, hinv.cmdQueueRef, hinv.inputCur, hinv.text, hinv.terminated⟩,
      ⟨hinv.idle, ?_, ?_, hprintable⟩⟩
    · intro other _
      change rx.inputCur = ((trace.typed ++ [byte]).take 127).length
      rw [htyped, List.length_take, ← hcursor]
    · intro other hother
      obtain rfl := hsome hother
      change (rx.line other).toList.take rx.inputCur = (trace.typed ++ [byte]).take 127
      rw [hcollected, htyped]

/-- At the end of a line, the text of the buffer is what was typed. -/
theorem endLine_eq (hinv : LineInv rx trace) {buf : LineBuf}
    (hinput : rx.inputCmd = some buf) :
    endLine buf rx =
      { setByte buf rx.inputCur 0 rx with
        inputCur := 0
        cmdsQueue := rx.cmdsQueue ++ [buf]
        cmdQueueRef := rx.cmdQueueRef - 1
        inputCmd := none } := by
  have hcollected := hinv.collected buf hinput
  -- only printable characters are in front of the end, so no carriage return
  have hnone : ¬ (1 ≤ rx.inputCur ∧
      ((setByte buf rx.inputCur 0 rx).line buf).toList.getD (rx.inputCur - 1) 0 = 0x0d) := by
    rintro ⟨hpos, hreturn⟩
    have hcur := hinv.inputCur
    rw [consoleMaxLineLen_eq] at hcur
    have hbound : rx.inputCur - 1 < (rx.line buf).toList.length := by
      rw [length_line]
      omega
    rw [setByte_toList, List.getD_eq_getElem?_getD, List.getElem?_set_ne (by omega),
      List.getElem?_eq_getElem hbound, Option.getD_some] at hreturn
    have hmem : (rx.line buf).toList[rx.inputCur - 1] ∈ trace.typed := by
      apply List.mem_of_mem_take (i := consoleMaxLineLen - 1)
      rw [← hcollected, List.mem_take_iff_getElem]
      exact ⟨rx.inputCur - 1, by omega, rfl⟩
    exact (isprint_ne (hinv.printable _ hmem)).2 hreturn
  unfold endLine
  dsimp only
  rw [if_neg (by exact hnone)]
  rfl

theorem endLine_inv (hinv : LineInv rx trace) {buf : LineBuf}
    (hinput : rx.inputCmd = some buf) :
    LineInv (endLine buf rx)
      { trace with
        expected := trace.expected ++ [trace.typed.take (consoleMaxLineLen - 1)] } := by
  have hcollected := hinv.collected buf hinput
  have hnot := inputCmd_not_mem hinv.partitioned hinput
  have hset := setByte_kept hinv.toLinesKept hnot rx.inputCur 0
  have hcur := hinv.inputCur
  rw [consoleMaxLineLen_eq] at hcur
  have hbound : rx.inputCur < (rx.line buf).toList.length := by
    rw [length_line]
    omega
  have href := hinv.cmdQueueRef
  rw [hinput] at href
  have hzero : ((setByte buf rx.inputCur 0 rx).line buf).toList[rx.inputCur]? = some 0 := by
    rw [setByte_toList, List.getElem?_set_self hbound]
  have htext : lineText (setByte buf rx.inputCur 0 rx) buf =
      trace.typed.take (consoleMaxLineLen - 1) := by
    have htake : ((setByte buf rx.inputCur 0 rx).line buf).toList.take rx.inputCur =
        trace.typed.take (consoleMaxLineLen - 1) := by
      rw [setByte_toList, take_set_self, hcollected]
    unfold lineText
    rw [takeWhile_eq_take _ hzero, htake]
    intro byte hbyte
    rw [htake] at hbyte
    exact (isprint_ne (hinv.printable byte (List.mem_of_mem_take hbyte))).1
  rw [endLine_eq hinv hinput]
  refine ⟨⟨hinv.partitioned.perm ?_, ?_, ?_, ?_, ?_⟩, ⟨fun _ => rfl, nofun, nofun, hinv.printable⟩⟩
  · unfold AtRx.places
    change (rx.availQueue ++ (rx.cmdsQueue ++ [buf]) ++ [] ++ rx.held.toList).Perm _
    rw [hinput, Option.toList_some, List.append_nil, List.append_assoc rx.availQueue rx.cmdsQueue]
  · change rx.cmdQueueRef - 1 = 0
    rw [href]
    rfl
  · exact (by decide : 0 < consoleMaxLineLen)
  · exact (hset.endLine hzero htext).1
  · exact (hset.endLine hzero htext).2

theorem atCmdRxIsr_inv (hinv : LineInv rx trace) (byte : UInt8) :
    LineInv (atCmdRxIsr byte rx) (observeByte byte rx trace) := by
  unfold atCmdRxIsr observeByte
  cases hacquire : acquire rx with
  | none =>
      rw [if_pos (acquire_eq_none_iff.mp hacquire)]
      exact hinv
  | some acquired =>
      obtain ⟨buf, next⟩ := acquired
      obtain ⟨hnext, hinput⟩ := acquire_inv hinv hacquire
      have hbuffer : ¬(rx.inputCmd = none ∧ rx.availQueue = []) := by
        intro hlost
        rw [acquire_eq_none_iff.mpr hlost] at hacquire
        cases hacquire
      rw [if_neg hbuffer]
      dsimp only
      split
      next hprint => exact typeChar_inv hnext hinput hprint
      next =>
        split
        next => exact endLine_inv hnext hinput
        next => exact hnext

end Receiving

/-! ## The handler and the mode -/

section Handler

variable {rx : AtRx} {trace : LineTrace}

theorem atCmdHandlerGet_inv (hinv : LineInv rx trace) :
    LineInv (atCmdHandlerGet rx) (observeLine rx .handlerGet trace) := by
  rw [observeLine]
  unfold atCmdHandlerGet
  have htext := hinv.text
  cases hheld : rx.held with
  | some buf => exact hinv
  | none =>
      rw [if_pos rfl]
      cases hqueue : rx.cmdsQueue with
      | nil =>
          rw [hqueue, List.map_nil] at htext
          refine ⟨⟨hinv.partitioned, hinv.cmdQueueRef, hinv.inputCur, ?_, hinv.terminated⟩,
            ⟨hinv.idle, hinv.cursor, hinv.collected, hinv.printable⟩⟩
          rw [hqueue, ← htext]
          rfl
      | cons buf rest =>
          rw [hqueue, List.map_cons] at htext
          refine ⟨⟨hinv.partitioned.perm ?_, hinv.cmdQueueRef, hinv.inputCur, ?_, ?_⟩,
            ⟨hinv.idle, hinv.cursor, hinv.collected, hinv.printable⟩⟩
          · unfold AtRx.places
            rw [hheld, hqueue]
            exact perm_takeQueued rx.availQueue rest rx.inputCmd.toList buf
          · change rest.map (lineText rx) = trace.expected.tail
            rw [← htext, List.tail_cons]
          · intro other hother
            apply hinv.terminated
            rw [hqueue]
            exact List.mem_cons_of_mem _ hother

theorem atCmdHandlerPut_inv (hinv : LineInv rx trace) (line : Line) :
    LineInv (atCmdHandlerPut line rx) trace := by
  unfold atCmdHandlerPut
  split
  next => exact hinv
  next buf hheld =>
    obtain ⟨hqueue, hinput⟩ := lineHeld_not_mem hinv.partitioned hheld
    have hline : ∀ other, other ≠ buf →
        Function.update rx.line buf line other = rx.line other :=
      fun other hne => Function.update_of_ne hne _ _
    have hqueued : ∀ other ∈ rx.cmdsQueue,
        Function.update rx.line buf line other = rx.line other :=
      fun other hother => hline other fun heq => hqueue (heq ▸ hother)
    refine ⟨⟨hinv.partitioned.perm ?_, hinv.cmdQueueRef, hinv.inputCur,
      (queue_of_line_eq hqueued).trans hinv.text, ?_⟩, ⟨hinv.idle, hinv.cursor, ?_, hinv.printable⟩⟩
    · unfold AtRx.places
      rw [hheld]
      exact perm_giveBack rx.availQueue rx.cmdsQueue rx.inputCmd.toList buf
    · intro other hother
      dsimp only
      rw [hqueued other hother]
      exact hinv.terminated other hother
    · intro other hother
      dsimp only
      rw [hline other fun heq => hinput (heq ▸ hother)]
      exact hinv.collected other hother

theorem enterIntoAtCmdMode_inv (hinv : LineInv rx trace) :
    LineInv (enterIntoAtCmdMode rx) (observeLine rx .enterIntoAtCmdMode trace) := by
  rw [observeLine]
  unfold enterIntoAtCmdMode recoverInput
  cases hinput : rx.inputCmd with
  | none =>
      refine ⟨⟨hinv.partitioned.perm ?_, rfl, (by decide : 0 < consoleMaxLineLen), hinv.text,
        hinv.terminated⟩, ⟨fun _ => rfl, nofun, nofun, hinv.printable⟩⟩
      unfold AtRx.places
      dsimp only
      rw [hinput]
  | some buf =>
      have href := hinv.cmdQueueRef
      rw [hinput] at href
      have hset := setByte_kept hinv.toLinesKept (inputCmd_not_mem hinv.partitioned hinput) 0 0
      have hzero : ((setByte buf 0 0 rx).line buf).toList[0]? = some 0 := by
        rw [setByte_toList, List.getElem?_set_self (by rw [length_line]; decide)]
      have htext : lineText (setByte buf 0 0 rx) buf = [] := by
        unfold lineText
        rw [takeWhile_eq_take (by simp) hzero, List.take_zero]
      dsimp only
      rw [if_pos (by simp [href])]
      refine ⟨⟨hinv.partitioned.perm ?_, rfl, (by decide : 0 < consoleMaxLineLen), ?_, ?_⟩,
        ⟨fun _ => rfl, nofun, nofun, hinv.printable⟩⟩
      · unfold AtRx.places
        change (rx.availQueue ++ (rx.cmdsQueue ++ [buf]) ++ [] ++ rx.held.toList).Perm _
        rw [hinput, Option.toList_some, List.append_nil,
          List.append_assoc rx.availQueue rx.cmdsQueue]
      · exact (hset.endLine hzero htext).1
      · exact (hset.endLine hzero htext).2

theorem lineStep_inv (hinv : LineInv rx trace) (event : LineEvent) :
    LineInv (lineStep rx event) (observeLine rx event trace) := by
  cases event with
  | rxByte byte =>
      rw [lineStep, observeLine]
      split
      next => exact atCmdRxIsr_inv hinv byte
      next => exact hinv
  | handlerGet => exact atCmdHandlerGet_inv hinv
  | handlerPut line => exact atCmdHandlerPut_inv hinv line
  | enterIntoDataMode =>
      exact ⟨⟨hinv.partitioned, hinv.cmdQueueRef, hinv.inputCur, hinv.text, hinv.terminated⟩,
        ⟨hinv.idle, hinv.cursor, hinv.collected, hinv.printable⟩⟩
  | enterIntoAtCmdMode => exact enterIntoAtCmdMode_inv hinv

end Handler

theorem atCmdInit_inv : LineInv atCmdInit {} := by
  refine ⟨⟨?_, rfl, (by decide : 0 < consoleMaxLineLen), rfl, nofun⟩,
    ⟨fun _ => rfl, nofun, nofun, nofun⟩⟩
  unfold Partitioned
  decide

/-- In every state of every run the line buffers are in one place each, the counter
tells whether the interrupt has one, the cursor is inside the line, and the lines in the
queue are terminated and are what was typed, cut to its first 127 characters. -/
theorem line_buffers_kept (events : List LineEvent) :
    Throughout lineRunStep (fun current => LinesKept current.state current.history)
      ⟨atCmdInit, {}⟩ events := by
  have hinv : Throughout lineRunStep (fun current => LineInv current.state current.history)
      ⟨atCmdInit, {}⟩ events :=
    throughout_of_step (fun current : LineRun => LineInv current.state current.history)
      (fun _ event hinv => lineStep_inv hinv event) atCmdInit_inv events
  exact hinv.imp fun _ hinv => hinv.toLinesKept

end CubieBle.BleModule
