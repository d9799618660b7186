import CubieBle.Ota.EventLaws

/-! # Upload integrity

An upload is followed from its accepted put request on: the packets let through
to the flash, and where they were written. The transfer fields are shared with
the download path, whose data events advance them without asking which operation
is in progress. An upload is safe exactly in the runs where no such event is
handled while it is in progress; a put request for no bytes never completes.
-/

namespace CubieBle.Ota

open Machine

/-- An accepted put request, with the packets accepted for it so far. -/
structure Upload where
  addr : UInt32
  len : UInt32
  packets : List (List UInt8)
  writesBefore : Nat
deriving DecidableEq

namespace Upload

def total (upload : Upload) : Nat := (upload.packets.map List.length).sum

def Finished (upload : Upload) : Prop := upload.total = upload.len.toNat

instance (upload : Upload) : Decidable upload.Finished :=
  inferInstanceAs (Decidable (_ = _))

/-- Consecutive packets laid out from an address on. -/
def placed (addr : UInt32) : List (List UInt8) → List (UInt32 × List UInt8)
  | [] => []
  | packet :: rest => (addr, packet) :: placed (addr + UInt32.ofNat packet.length) rest

theorem placed_append (addr : UInt32) (packets : List (List UInt8)) (packet : List UInt8) :
    placed addr (packets ++ [packet]) =
      placed addr packets ++
        [(addr + UInt32.ofNat (packets.map List.length).sum, packet)] := by
  induction packets generalizing addr with
  | nil => simp [placed]
  | cons first rest ih =>
      simp only [List.cons_append, placed, ih, List.map_cons, List.sum_cons, UInt32.ofNat_add]
      rw [UInt32.add_assoc]

def add (upload : Upload) (packet : List UInt8) : Upload :=
  { upload with packets := upload.packets ++ [packet] }

theorem total_add (upload : Upload) (packet : List UInt8) :
    (upload.add packet).total = upload.total + packet.length := by
  simp [total, add]

end Upload

/-- Follow the upload in progress: it starts with an accepted put request, ends
with an abort, and a finished one is forgotten at the next step. -/
def observeUpload (sys : Sys) (action : Action) (upload : Option Upload) : Option Upload :=
  let current := upload.filter fun upload => ¬ upload.Finished
  match action with
  | .write _ .ftc packet =>
      if packet.len < 3 then current
      else
        match FtcOp.ofByte (packet.byte 0) with
        | some .putReq =>
            if sys.cb.ftInProgress = .none then
              some ⟨packet.uint32 3, packet.uint32 7, [], sys.flashWrites.length⟩
            else current
        | some .abort => none
        | _ => current
  | .write _ .ftd packet =>
      if FtdAccepts sys packet then current.map (·.add packet.payload) else current
  | _ => current

abbrev UploadRun := Tracked Sys (Option Upload)

def uploadStep (env : Env) : UploadRun → Action → UploadRun :=
  trackedStep (step env) observeUpload

def uploadInit (flash : Flash) (notifyOn : Handle → Bool) : UploadRun :=
  ⟨otaProfileInit flash notifyOn, none⟩

/-- Packets are written one behind the other, address and remaining length add
up, and the progress code is reset exactly when all bytes have arrived. -/
def UploadSafe (current : UploadRun) : Prop :=
  ∀ upload, current.history = some upload →
    current.state.flashWrites.drop upload.writesBefore =
        Upload.placed upload.addr upload.packets ∧
      current.state.cb.ftAddr + current.state.cb.ftLen = upload.addr + upload.len ∧
      (current.state.cb.ftInProgress = .none ↔ upload.Finished)

/-- Handling an event during an upload leaves the transfer alone. -/
def UploadUndisturbed (env : Env) (current : UploadRun) (action : Action) : Prop :=
  action = .dispatch → ∀ upload, current.history = some upload → ¬ upload.Finished →
    (step env current.state action).cb.ftAddr = current.state.cb.ftAddr ∧
      (step env current.state action).cb.ftLen = current.state.cb.ftLen ∧
      (step env current.state action).cb.ftInProgress = current.state.cb.ftInProgress

/-- No data event is handled while a put is in progress and data notifications
are on, and no put request for zero bytes is accepted. -/
def UploadCondition (current : UploadRun) (action : Action) : Prop :=
  (action = .dispatch → current.state.queue.head? = some .ftd →
      current.state.notifyOn .ftd = true → current.state.cb.ftInProgress ≠ .putReq) ∧
    ∀ conn packet, action = .write conn .ftc packet → 3 ≤ packet.len →
      FtcOp.ofByte (packet.byte 0) = some .putReq →
      current.state.cb.ftInProgress = .none → packet.uint32 7 ≠ 0

/-- What an upload in progress looks like in the control block. -/
structure Upload.Matches (upload : Upload) (sys : Sys) : Prop where
  writesBefore : upload.writesBefore ≤ sys.flashWrites.length
  written : sys.flashWrites.drop upload.writesBefore = placed upload.addr upload.packets
  addr : sys.cb.ftAddr = upload.addr + UInt32.ofNat upload.total
  remaining : upload.total + sys.cb.ftLen.toNat = upload.len.toNat
  progress : sys.cb.ftInProgress = if upload.Finished then .none else .putReq

structure UploadInv (current : UploadRun) : Prop where
  storage : current.state.cb.storage = true
  idle : current.history = none → current.state.cb.ftInProgress ≠ .putReq
  active : ∀ upload, current.history = some upload → upload.Matches current.state

theorem Upload.Matches.sum {upload : Upload} {sys : Sys} (hmatches : upload.Matches sys) :
    sys.cb.ftAddr + sys.cb.ftLen = upload.addr + upload.len := by
  have hlen : UInt32.ofNat upload.total + sys.cb.ftLen = upload.len := by
    have hcast := congrArg UInt32.ofNat hmatches.remaining
    simpa [UInt32.ofNat_add] using hcast
  rw [hmatches.addr, UInt32.add_assoc, hlen]

theorem Upload.Matches.none_iff {upload : Upload} {sys : Sys} (hmatches : upload.Matches sys) :
    sys.cb.ftInProgress = .none ↔ upload.Finished := by
  rw [hmatches.progress]
  split <;> simp [*]

/-- The match only depends on the transfer. -/
theorem Upload.Matches.congr {upload : Upload} {sys next : Sys} (hmatches : upload.Matches sys)
    (hsame : SameTransfer sys next) : upload.Matches next where
  writesBefore := by rw [hsame.flashWrites]; exact hmatches.writesBefore
  written := by rw [hsame.flashWrites]; exact hmatches.written
  addr := by rw [hsame.ftAddr]; exact hmatches.addr
  remaining := by rw [hsame.ftLen]; exact hmatches.remaining
  progress := by rw [hsame.ftInProgress]; exact hmatches.progress

theorem UploadInv.safe {current : UploadRun} (hinv : UploadInv current) : UploadSafe current := by
  intro upload hupload
  have hmatches := hinv.active upload hupload
  exact ⟨hmatches.written, hmatches.sum, hmatches.none_iff⟩

/-- Outside a put there is no upload left to follow. -/
theorem UploadInv.filter_eq_none {current : UploadRun} (hinv : UploadInv current)
    (hprogress : current.state.cb.ftInProgress ≠ .putReq) :
    current.history.filter (fun upload => ¬ upload.Finished) = none := by
  cases hupload : current.history with
  | none => rfl
  | some upload =>
      have hmatches := hinv.active upload hupload
      by_cases hfinished : upload.Finished
      · simp [hfinished]
      · rw [hmatches.progress, if_neg hfinished] at hprogress
        exact absurd rfl hprogress

/-- During a put there is an upload, and it is not finished. -/
theorem UploadInv.exists_upload {current : UploadRun} (hinv : UploadInv current)
    (hprogress : current.state.cb.ftInProgress = .putReq) :
    ∃ upload, current.history = some upload ∧ ¬ upload.Finished := by
  cases hupload : current.history with
  | none => exact absurd hprogress (hinv.idle hupload)
  | some upload =>
      refine ⟨upload, rfl, fun hfinished => ?_⟩
      have hmatches := hinv.active upload hupload
      rw [hmatches.progress, if_pos hfinished] at hprogress
      exact absurd hprogress (by decide)

theorem UploadInv.keep {current : UploadRun} (hinv : UploadInv current) {next : Sys}
    (hsame : SameTransfer current.state next) :
    UploadInv ⟨next, current.history.filter fun upload => ¬ upload.Finished⟩ where
  storage := by rw [hsame.storage]; exact hinv.storage
  idle := by
    intro hnone
    rw [hsame.ftInProgress]
    intro hput
    obtain ⟨upload, hupload, hopen⟩ := hinv.exists_upload hput
    simp [hupload, hopen] at hnone
  active := by
    intro upload hupload
    obtain ⟨hupload, -⟩ := Option.filter_eq_some_iff.mp hupload
    exact (hinv.active upload hupload).congr hsame

/-- The step that forgets the upload and leaves no put in progress. -/
theorem UploadInv.forget {next : Sys} (hstorage : next.cb.storage = true)
    (hprogress : next.cb.ftInProgress ≠ .putReq) : UploadInv ⟨next, none⟩ where
  storage := hstorage
  idle := fun _ => hprogress
  active := by simp

theorem Upload.matches_put (sys next : Sys) (packet : Packet)
    (haddr : next.cb.ftAddr = packet.uint32 3) (hlen : next.cb.ftLen = packet.uint32 7)
    (hprogress : next.cb.ftInProgress = .putReq)
    (hwrites : next.flashWrites = sys.flashWrites) (hzero : packet.uint32 7 ≠ 0) :
    Upload.Matches ⟨packet.uint32 3, packet.uint32 7, [], sys.flashWrites.length⟩ next where
  writesBefore := by rw [hwrites]
  written := by rw [hwrites]; simp [placed]
  addr := by simp [haddr, total]
  remaining := by simp [hlen, total]
  progress := by
    rw [if_neg, hprogress]
    intro hfinished
    apply hzero
    apply UInt32.toNat_inj.mp
    simpa [Finished, total] using hfinished.symm

/-- An accepted packet is laid behind those accepted before. -/
theorem Upload.Matches.accept {upload : Upload} {sys : Sys} (hmatches : upload.Matches sys)
    (packet : Packet) (haccepts : FtdAccepts sys packet) {next : Sys}
    (haddr : next.cb.ftAddr = sys.cb.ftAddr + packet.len.toUInt32)
    (hlen : next.cb.ftLen = sys.cb.ftLen - packet.len.toUInt32)
    (hwrites : next.flashWrites = sys.flashWrites ++ [(sys.cb.ftAddr, packet.payload)])
    (hprogress : next.cb.ftInProgress = if next.cb.ftLen = 0 then .none else .putReq) :
    (upload.add packet.payload).Matches next := by
  have hpayload : packet.payload.length = packet.len.toNat := by simp [Packet.payload]
  have hfits := UInt32.le_iff_toNat_le.mp haccepts.2.2
  have hsub : next.cb.ftLen.toNat = sys.cb.ftLen.toNat - packet.len.toNat := by
    rw [hlen, UInt32.toNat_sub_of_le _ _ haccepts.2.2]
    simp
  have hremaining : (upload.add packet.payload).total + next.cb.ftLen.toNat =
      upload.len.toNat := by
    have hbefore := hmatches.remaining
    simp only [UInt16.toNat_toUInt32] at hfits
    rw [total_add]
    omega
  refine ⟨?_, ?_, ?_, hremaining, ?_⟩
  · rw [hwrites, List.length_append]
    exact Nat.le_add_right_of_le hmatches.writesBefore
  · change next.flashWrites.drop upload.writesBefore = _
    rw [hwrites, List.drop_append_of_le_length hmatches.writesBefore, hmatches.written]
    simp only [add, placed_append, hmatches.addr, total]
  · rw [haddr, hmatches.addr, total_add, UInt32.ofNat_add, hpayload, UInt32.add_assoc]
    simp [add]
  · rw [hprogress]
    have hiff : next.cb.ftLen = 0 ↔ (upload.add packet.payload).Finished := by
      rw [← UInt32.toNat_inj, UInt32.toNat_zero, Finished]
      have hsame : (upload.add packet.payload).len = upload.len := rfl
      rw [hsame]
      omega
    simp only [hiff]

theorem observeUpload_put {sys : Sys} (conn : Conn) {packet : Packet} {upload : Option Upload}
    (hlen : 3 ≤ packet.len) (hop : FtcOp.ofByte (packet.byte 0) = some .putReq)
    (hidle : sys.cb.ftInProgress = .none) :
    observeUpload sys (.write conn .ftc packet) upload =
      some ⟨packet.uint32 3, packet.uint32 7, [], sys.flashWrites.length⟩ := by
  simp [observeUpload, UInt16.not_lt.mpr hlen, hop, hidle]

theorem observeUpload_abort {sys : Sys} (conn : Conn) {packet : Packet} {upload : Option Upload}
    (hlen : 3 ≤ packet.len) (hop : FtcOp.ofByte (packet.byte 0) = some .abort) :
    observeUpload sys (.write conn .ftc packet) upload = none := by
  simp [observeUpload, UInt16.not_lt.mpr hlen, hop]

theorem observeUpload_ftc {sys : Sys} (conn : Conn) {packet : Packet} {upload : Option Upload}
    (hput : 3 ≤ packet.len → FtcOp.ofByte (packet.byte 0) = some .putReq →
      sys.cb.ftInProgress ≠ .none)
    (habort : 3 ≤ packet.len → FtcOp.ofByte (packet.byte 0) ≠ some .abort) :
    observeUpload sys (.write conn .ftc packet) upload =
      upload.filter fun upload => ¬ upload.Finished := by
  simp only [observeUpload]
  split
  · rfl
  next hlen =>
    have hlen := UInt16.not_lt.mp hlen
    split
    next hop => rw [if_neg (hput hlen hop)]
    next hop => exact absurd hop (habort hlen)
    next => rfl

theorem uploadStep_ftc (env : Env) {current : UploadRun} (hinv : UploadInv current)
    (conn : Conn) (packet : Packet)
    (hcondition : UploadCondition current (.write conn .ftc packet)) :
    UploadInv (uploadStep env current (.write conn .ftc packet)) := by
  have heffect := (otaFtcWrite_effect env current.state.awake conn packet).transfer
  change UploadInv ⟨(otaFtcWrite env current.state.awake conn packet).2,
    observeUpload current.state (.write conn .ftc packet) current.history⟩
  generalize (otaFtcWrite env current.state.awake conn packet).2 = next at heffect
  have hstorage : next.cb.storage = true := by
    rw [heffect.storage, ftcSetup_storage]
    exact hinv.storage
  by_cases habort : 3 ≤ packet.len ∧ FtcOp.ofByte (packet.byte 0) = some .abort
  · obtain ⟨hlen, hop⟩ := habort
    rw [observeUpload_abort conn hlen hop]
    apply UploadInv.forget hstorage
    rw [heffect.ftInProgress, ftcSetup_abort env current.state.awake packet hlen hop,
      otaFtcProcAbort_ftInProgress]
    decide
  · have hnot : 3 ≤ packet.len → FtcOp.ofByte (packet.byte 0) ≠ some .abort :=
      fun hlen hop => habort ⟨hlen, hop⟩
    by_cases hidle : current.state.cb.ftInProgress = .none
    · by_cases hput : 3 ≤ packet.len ∧ FtcOp.ofByte (packet.byte 0) = some .putReq
      · obtain ⟨hlen, hop⟩ := hput
        rw [observeUpload_put conn hlen hop hidle]
        rw [ftcSetup_put env current.state.awake packet hlen hop hidle] at heffect
        refine ⟨hstorage, by simp, ?_⟩
        intro upload hupload
        obtain rfl := Option.some.inj hupload
        exact Upload.matches_put current.state next packet heffect.ftAddr heffect.ftLen
          heffect.ftInProgress heffect.flashWrites
          (hcondition.2 conn packet rfl hlen hop hidle)
      · rw [observeUpload_ftc conn (fun hlen hop => absurd ⟨hlen, hop⟩ hput) hnot,
          hinv.filter_eq_none (by rw [hidle]; decide)]
        apply UploadInv.forget hstorage
        rw [heffect.ftInProgress,
          ftcSetup_ftInProgress_of_idle env current.state.awake packet hidle]
        unfold startedOp
        split
        next => decide
        next hlen =>
          split
          next => decide
          next hop => exact absurd ⟨UInt16.not_lt.mp hlen, hop⟩ hput
          next => decide
    · rw [observeUpload_ftc conn (fun _ _ => hidle) hnot]
      rw [ftcSetup_of_busy env current.state.awake packet hidle hnot] at heffect
      exact hinv.keep ((awake_sameTransfer _).trans heffect)

theorem uploadStep_ftd (env : Env) {current : UploadRun} (hinv : UploadInv current)
    (conn : Conn) (packet : Packet) :
    UploadInv (uploadStep env current (.write conn .ftd packet)) := by
  change UploadInv ⟨(otaFtdWrite env current.state.awake conn packet).2,
    observeUpload current.state (.write conn .ftd packet) current.history⟩
  simp only [observeUpload]
  by_cases haccepts : FtdAccepts current.state packet
  · have htaken := otaFtdWrite_taken env current.state.awake conn packet haccepts
    obtain ⟨upload, hupload, hopen⟩ := hinv.exists_upload haccepts.1
    rw [if_pos haccepts, hupload]
    simp only [Option.filter_some, hopen, not_false_eq_true, decide_true, if_true,
      Option.map_some]
    refine ⟨htaken.storage.trans hinv.storage, by simp, ?_⟩
    intro next hnext
    obtain rfl := Option.some.inj hnext
    exact (hinv.active upload hupload).accept packet haccepts htaken.ftAddr htaken.ftLen
      (htaken.flashWrites hinv.storage) htaken.ftInProgress
  · rw [if_neg haccepts, otaFtdWrite_rejected env current.state.awake conn packet haccepts]
    exact hinv.keep (awake_sameTransfer _)

/-- Handling an event keeps the invariant unless it is a data event in a put. -/
theorem uploadStep_dispatch (env : Env) {current : UploadRun} (hinv : UploadInv current)
    (hcondition : UploadCondition current .dispatch) :
    UploadInv (uploadStep env current .dispatch) := by
  change UploadInv ⟨dispatch env current.state,
    current.history.filter fun upload => ¬ upload.Finished⟩
  by_cases hdata : current.state.queue.head? = some .ftd ∧ current.state.notifyOn .ftd = true
  · have hprogress := hcondition.1 rfl hdata.1 hdata.2
    rw [hinv.filter_eq_none hprogress]
    obtain ⟨rest, hqueue⟩ := List.head?_eq_some_iff.mp hdata.1
    have hsent := dispatch_ftd env current.state rest hqueue hdata.2
    apply UploadInv.forget (hsent.storage.trans hinv.storage)
    rw [hsent.ftInProgress]
    split
    · decide
    · exact hprogress
  · apply hinv.keep
    apply dispatch_sameTransfer env
    intro hhead
    simpa [hhead] using hdata

theorem uploadStep_inv (env : Env) (current : UploadRun) (action : Action)
    (hinv : UploadInv current) (hcondition : UploadCondition current action) :
    UploadInv (uploadStep env current action) := by
  cases action with
  | write conn handle packet =>
      cases handle with
      | dc =>
          exact hinv.keep ((awake_sameTransfer _).trans
            (otaDcWrite_sameTransfer current.state.awake conn packet))
      | ftc => exact uploadStep_ftc env hinv conn packet hcondition
      | ftd => exact uploadStep_ftd env hinv conn packet
      | au => exact hinv.keep (awake_sameTransfer _)
  | dispatch => exact uploadStep_dispatch env hinv hcondition
  | cccChanged handle value => exact hinv.keep ⟨rfl, rfl, rfl, rfl, rfl, rfl, rfl⟩
  | wakeupTimeout => exact hinv.keep ⟨rfl, rfl, rfl, rfl, rfl, rfl, rfl⟩

/-- A data event handled during a put moves the transfer or ends it. -/
theorem dispatch_disturbs (env : Env) (sys : Sys) (hhead : sys.queue.head? = some .ftd)
    (hon : sys.notifyOn .ftd = true) (hprogress : sys.cb.ftInProgress = .putReq) :
    (dispatch env sys).cb.ftLen ≠ sys.cb.ftLen ∨
      (dispatch env sys).cb.ftInProgress ≠ sys.cb.ftInProgress := by
  obtain ⟨rest, hqueue⟩ := List.head?_eq_some_iff.mp hhead
  have hsent := dispatch_ftd env sys rest hqueue hon
  by_cases hlast : sys.cb.ftLen ≤ 20
  · right
    rw [hsent.ftInProgress, if_pos hlast, hprogress]
    decide
  · left
    have hmore : 20 < sys.cb.ftLen := UInt32.not_le.mp hlast
    have hread : ftdReadLen sys = 20 := if_pos hmore
    have hsub := UInt32.toNat_sub_of_le _ _ (UInt32.le_of_lt hmore)
    have hlt := UInt32.lt_iff_toNat_lt.mp hmore
    rw [hsent.ftLen, hread]
    intro heq
    rw [heq] at hsub
    change 20 < _ at hlt
    change _ = _ - 20 at hsub
    omega

/-- In a state of the invariant, a step is safe exactly if it meets the condition. -/
theorem uploadStep_safe_iff (env : Env) (current : UploadRun) (action : Action)
    (hinv : UploadInv current) :
    (UploadSafe (uploadStep env current action) ∧ UploadUndisturbed env current action) ↔
      UploadCondition current action := by
  constructor
  · rintro ⟨hsafe, hundisturbed⟩
    constructor
    · rintro rfl hhead hon hprogress
      obtain ⟨upload, hupload, hopen⟩ := hinv.exists_upload hprogress
      obtain ⟨-, hlen, hsame⟩ := hundisturbed rfl upload hupload hopen
      rcases dispatch_disturbs env current.state hhead hon hprogress with hmoved | hended
      · exact hmoved hlen
      · exact hended hsame
    · rintro conn packet rfl hlen hop hidle hzero
      have heffect := (otaFtcWrite_effect env current.state.awake conn packet).transfer
      rw [ftcSetup_put env current.state.awake packet hlen hop hidle] at heffect
      obtain ⟨-, -, hdone⟩ := hsafe _ (observeUpload_put conn hlen hop hidle)
      have hprogress := hdone.mpr (by simp [Upload.Finished, Upload.total, hzero])
      have hput : (otaFtcWrite env current.state.awake conn packet).2.cb.ftInProgress = .putReq :=
        heffect.ftInProgress
      exact absurd (hput.symm.trans hprogress) (by decide)
  · intro hcondition
    refine ⟨(uploadStep_inv env current action hinv hcondition).safe, ?_⟩
    rintro rfl upload hupload hopen
    have hprogress : current.state.cb.ftInProgress = .putReq := by
      rw [(hinv.active upload hupload).progress, if_neg hopen]
    have hsame : SameTransfer current.state (dispatch env current.state) := by
      apply dispatch_sameTransfer
      intro hhead
      by_contra hon
      exact hcondition.1 rfl hhead (by simpa using hon) hprogress
    exact ⟨hsame.ftAddr, hsame.ftLen, hsame.ftInProgress⟩

theorem uploadInit_inv (flash : Flash) (notifyOn : Handle → Bool) :
    UploadInv (uploadInit flash notifyOn) where
  storage := rfl
  idle := by simp [uploadInit, otaProfileInit]
  active := by simp [uploadInit]

/-- An upload keeps its integrity in a run, whatever requests, packets, aborts
and events are interleaved, exactly if no data event is handled while a put is
in progress and no accepted put asks for zero bytes. -/
theorem upload_integrity_iff (env : Env) (flash : Flash) (notifyOn : Handle → Bool)
    (actions : List Action) :
    (Throughout (uploadStep env) UploadSafe (uploadInit flash notifyOn) actions ∧
        Along (uploadStep env) (UploadUndisturbed env) (uploadInit flash notifyOn) actions) ↔
      Along (uploadStep env) UploadCondition (uploadInit flash notifyOn) actions := by
  have hinit := uploadInit_inv flash notifyOn
  have hsafe := hinit.safe
  rw [throughout_iff_along, and_assoc, ← along_and, and_iff_right hsafe]
  exact along_congr_of_invariant UploadInv (uploadStep_safe_iff env)
    (fun current action => uploadStep_inv env current action) hinit

/-- A get of 100 bytes is aborted before its data event is handled, a put of 100
bytes follows, and then the leftover data event is handled. -/
def disturbedUpload : List Action :=
  [.control [0x01, 1, 0, 0, 0, 0, 0, 100, 0, 0, 0],
    .control [0x09, 1, 0],
    .dispatch,
    .control [0x03, 2, 0, 0, 0x10, 0, 0, 100, 0, 0, 0],
    .dispatch]

theorem upload_disturbed :
    ¬ (Throughout (uploadStep plainEnv) UploadSafe
          (uploadInit (fun _ => 0xff) fun _ => true) disturbedUpload ∧
        Along (uploadStep plainEnv) (UploadUndisturbed plainEnv)
          (uploadInit (fun _ => 0xff) fun _ => true) disturbedUpload) := by
  rintro ⟨-, -, -, -, -, hundisturbed, -⟩
  have hlen := (hundisturbed rfl ⟨0x1000, 100, [], 0⟩ (by decide +kernel) (by decide)).2.1
  exact absurd hlen (by decide +kernel)

end CubieBle.Ota
