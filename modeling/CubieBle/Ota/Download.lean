import CubieBle.Ota.EventLaws

/-! # Downloads

A get request is served by a chain of data events, each sending one piece and
posting the next event. Without aborts the queue holds a data event exactly while
a get is in progress, and the pieces sent so far are the flash from the requested
address up to the address the next event reads from.
-/

namespace CubieBle.Ota

open Machine

/-- The value of a data notification. -/
def ftdNote : HostCall → Option (List UInt8)
  | .notify _ .ftd value => some value
  | _ => none

/-- An accepted get request, the flash at that time and its notifications so far. -/
structure Download where
  handle : UInt16
  addr : UInt32
  len : UInt32
  flash : Flash
  notes : List (List UInt8)

/-- The control write is a get request that `ota_ftc_write` accepts. -/
def AcceptsGet (sys : Sys) (packet : Packet) : Prop :=
  3 ≤ packet.len ∧ FtcOp.ofByte (packet.byte 0) = some .getReq ∧ sys.cb.ftInProgress = .none

instance (sys : Sys) (packet : Packet) : Decidable (AcceptsGet sys packet) :=
  inferInstanceAs (Decidable (_ ∧ _ ∧ _))

/-- Follow the latest accepted get request. -/
def observeDownload (env : Env) (sys : Sys) (action : Action) (download : Option Download) :
    Option Download :=
  match action with
  | .write _ .ftc packet =>
      if AcceptsGet sys packet then
        some ⟨packet.uint16 1, packet.uint32 3, packet.uint32 7, sys.flash, []⟩
      else download
  | .dispatch =>
      download.map fun download => { download with
        notes := download.notes ++
          ((dispatch env sys).calls.drop sys.calls.length).filterMap ftdNote }
  | _ => download

abbrev DownloadRun := Tracked Sys (Option Download)

def downloadStep (env : Env) : DownloadRun → Action → DownloadRun :=
  trackedStep (step env) (observeDownload env)

def downloadInit (flash : Flash) (notifyOn : Handle → Bool) : DownloadRun :=
  ⟨otaProfileInit flash notifyOn, none⟩

/-- Control writes other than aborts, data writes and event handling. -/
def DownloadAction : Action → Prop
  | .write _ .ftc packet => FtcOp.ofByte (packet.byte 0) ≠ some .abort
  | .write _ .ftd _ => True
  | .dispatch => True
  | _ => False

instance : DecidablePred DownloadAction
  | .write _ .ftc _ => inferInstanceAs (Decidable (_ ≠ _))
  | .write _ .ftd _ => inferInstanceAs (Decidable True)
  | .write _ .dc _ => inferInstanceAs (Decidable False)
  | .write _ .au _ => inferInstanceAs (Decidable False)
  | .dispatch => inferInstanceAs (Decidable True)
  | .cccChanged _ _ => inferInstanceAs (Decidable False)
  | .wakeupTimeout => inferInstanceAs (Decidable False)

/-- One data event is queued if a get is in progress and none otherwise; pieces
have 1 to 20 bytes; they add up to the flash up to what is left of the get, and to
all of the requested range once the get is over. -/
def DownloadSafe (current : DownloadRun) : Prop :=
  current.state.queue.count .ftd = (if current.state.cb.ftInProgress = .getReq then 1 else 0) ∧
    ∀ download ∈ current.history,
      (∀ note ∈ download.notes, 1 ≤ note.length ∧ note.length ≤ 20) ∧
      (download.handle ≠ 0 → current.state.cb.ftInProgress = .getReq →
        current.state.cb.ftLen ≤ download.len ∧
          download.notes.flatten = flashRange current.state.flash download.addr
            (download.len - current.state.cb.ftLen).toNat) ∧
      (download.handle ≠ 0 → current.state.cb.ftInProgress ≠ .getReq →
        download.notes.flatten = flashRange download.flash download.addr download.len.toNat)

/-- A request received during a get leaves its fields and the flash alone. -/
def DownloadKept (env : Env) (current : DownloadRun) (action : Action) : Prop :=
  current.state.cb.ftInProgress = .getReq →
    ∀ conn handle packet, action = .write conn handle packet →
      (step env current.state action).cb.ftAddr = current.state.cb.ftAddr ∧
        (step env current.state action).cb.ftLen = current.state.cb.ftLen ∧
        (step env current.state action).cb.ftHandle = current.state.cb.ftHandle ∧
        (step env current.state action).flash = current.state.flash

/-! ## The invariant -/

/-- What a get in progress looks like in the control block. -/
structure Download.Matches (download : Download) (sys : Sys) : Prop where
  flash : sys.flash = download.flash
  remaining : sys.cb.ftLen ≤ download.len
  addr : sys.cb.ftAddr = download.addr + (download.len - sys.cb.ftLen)
  notes : download.notes.flatten =
    flashRange download.flash download.addr (download.len - sys.cb.ftLen).toNat

structure DownloadInv (current : DownloadRun) : Prop where
  notifyOn : current.state.notifyOn .ftd = true
  storage : current.state.cb.storage = true
  queued : current.state.queue.count .ftd =
    if current.state.cb.ftInProgress = .getReq then 1 else 0
  pieces : ∀ download ∈ current.history, ∀ note ∈ download.notes,
    1 ≤ note.length ∧ note.length ≤ 20
  sending : ∀ download ∈ current.history, download.handle ≠ 0 →
    current.state.cb.ftInProgress = .getReq → download.Matches current.state
  sent : ∀ download ∈ current.history, download.handle ≠ 0 →
    current.state.cb.ftInProgress ≠ .getReq →
      download.notes.flatten = flashRange download.flash download.addr download.len.toNat

theorem DownloadInv.safe {current : DownloadRun} (hinv : DownloadInv current) :
    DownloadSafe current := by
  refine ⟨hinv.queued, fun download hdownload => ⟨hinv.pieces download hdownload, ?_, ?_⟩⟩
  · intro hhandle hget
    have hmatches := hinv.sending download hdownload hhandle hget
    rw [hmatches.flash]
    exact ⟨hmatches.remaining, hmatches.notes⟩
  · exact hinv.sent download hdownload

/-- Steps that leave the transfer alone, queue no data event and send no data. -/
theorem DownloadInv.keep {current : DownloadRun} (hinv : DownloadInv current) {next : Sys}
    (hsame : SameTransfer current.state next) (hnotify : next.notifyOn = current.state.notifyOn)
    (hcount : next.queue.count .ftd = current.state.queue.count .ftd) :
    DownloadInv ⟨next, current.history⟩ where
  notifyOn := by rw [hnotify]; exact hinv.notifyOn
  storage := by rw [hsame.storage]; exact hinv.storage
  queued := by rw [hcount, hsame.ftInProgress]; exact hinv.queued
  pieces := hinv.pieces
  sending := by
    intro download hdownload hhandle
    rw [hsame.ftInProgress]
    intro hget
    obtain ⟨hflash, hremaining, haddr, hnotes⟩ := hinv.sending download hdownload hhandle hget
    refine ⟨hsame.flash.trans hflash, ?_, ?_, ?_⟩
    · rw [hsame.ftLen]
      exact hremaining
    · rw [hsame.ftAddr, hsame.ftLen]
      exact haddr
    · rw [hsame.ftLen]
      exact hnotes
  sent := by
    rw [hsame.ftInProgress]
    exact hinv.sent

/-- Outside a get, steps that do not start one. -/
theorem DownloadInv.other {current : DownloadRun} (hinv : DownloadInv current) {next : Sys}
    (hbefore : current.state.cb.ftInProgress ≠ .getReq) (hafter : next.cb.ftInProgress ≠ .getReq)
    (hstorage : next.cb.storage = current.state.cb.storage)
    (hnotify : next.notifyOn = current.state.notifyOn)
    (hcount : next.queue.count .ftd = current.state.queue.count .ftd) :
    DownloadInv ⟨next, current.history⟩ where
  notifyOn := by rw [hnotify]; exact hinv.notifyOn
  storage := by rw [hstorage]; exact hinv.storage
  queued := by
    rw [hcount, if_neg hafter]
    simpa [hbefore] using hinv.queued
  pieces := hinv.pieces
  sending := fun _ _ _ hget => absurd hget hafter
  sent := fun download hdownload hhandle _ => hinv.sent download hdownload hhandle hbefore

/-! ## Writes -/

theorem count_ftd_response (waiting : Bool) :
    List.count Event.ftd (if waiting then [] else [.ftc]) = 0 := by
  cases waiting <;> rfl

theorem FtcEffect.count_ftd {env : Env} {sys next : Sys} {packet : Packet}
    (heffect : FtcEffect env sys packet next) :
    next.queue.count .ftd = sys.queue.count .ftd + (ftcEvents sys packet).count .ftd := by
  rw [heffect.queue, List.count_append, List.count_append, count_ftd_response, Nat.add_zero]

theorem ftcEvents_count_ftd (sys : Sys) (packet : Packet) :
    (ftcEvents sys packet).count .ftd = if AcceptsGet sys packet then 1 else 0 := by
  by_cases haccepts : AcceptsGet sys packet
  · obtain ⟨hlen, hop, hidle⟩ := id haccepts
    rw [if_pos haccepts]
    simp [ftcEvents, UInt16.not_lt.mpr hlen, hop, hidle]
  · rw [if_neg haccepts]
    unfold ftcEvents
    split
    next => rfl
    next hlen =>
      split
      next hop =>
        have hbusy : sys.cb.ftInProgress ≠ .none :=
          fun hidle => haccepts ⟨UInt16.not_lt.mp hlen, hop, hidle⟩
        rw [if_pos hbusy]
        rfl
      next => rfl
      next => rfl

theorem downloadStep_ftc (env : Env) {current : DownloadRun} (hinv : DownloadInv current)
    (conn : Conn) (packet : Packet) (haction : DownloadAction (.write conn .ftc packet)) :
    DownloadInv (downloadStep env current (.write conn .ftc packet)) := by
  have heffect := otaFtcWrite_effect env current.state.awake conn packet
  change DownloadInv ⟨(otaFtcWrite env current.state.awake conn packet).2,
    observeDownload env current.state (.write conn .ftc packet) current.history⟩
  generalize (otaFtcWrite env current.state.awake conn packet).2 = next at heffect
  have hcount : next.queue.count .ftd = current.state.queue.count .ftd +
      if AcceptsGet current.state packet then 1 else 0 :=
    heffect.count_ftd.trans (congrArg (_ + ·) (ftcEvents_count_ftd current.state.awake packet))
  have hstorage : next.cb.storage = current.state.cb.storage := by
    rw [heffect.transfer.storage, ftcSetup_storage]
    rfl
  simp only [observeDownload]
  by_cases haccepts : AcceptsGet current.state packet
  · rw [if_pos haccepts] at hcount ⊢
    obtain ⟨hlen, hop, hidle⟩ := haccepts
    have htransfer := heffect.transfer
    rw [ftcSetup_get env current.state.awake packet hlen hop hidle] at htransfer
    have hget : next.cb.ftInProgress = .getReq := htransfer.ftInProgress
    refine ⟨by rw [heffect.notifyOn]; exact hinv.notifyOn, hstorage.trans hinv.storage,
      ?_, by simp, ?_, fun _ _ _ hnot => absurd hget hnot⟩
    · rw [hcount, hinv.queued, hidle, hget]
      rfl
    · intro download hdownload hhandle _
      obtain rfl := Option.some.inj hdownload
      have hfile : (packet.uint16 1 == 0) = false := by simpa using hhandle
      have hlength : next.cb.ftLen = packet.uint32 7 := by
        rw [htransfer.ftLen]
        simp [getReqSetup, hfile]
      refine ⟨htransfer.flash, by rw [hlength]; exact UInt32.le_refl _, ?_, ?_⟩
      · rw [htransfer.ftAddr, hlength, UInt32.sub_self, UInt32.add_zero]
        simp [getReqSetup, hfile]
      · rw [hlength, UInt32.sub_self]
        rfl
  · rw [if_neg haccepts] at hcount ⊢
    by_cases hidle : current.state.cb.ftInProgress = .none
    · have hprogress : next.cb.ftInProgress = startedOp packet := by
        rw [heffect.transfer.ftInProgress]
        exact ftcSetup_ftInProgress_of_idle env current.state.awake packet hidle
      apply hinv.other (by rw [hidle]; decide) _ hstorage heffect.notifyOn hcount
      rw [hprogress]
      unfold startedOp
      split
      next => decide
      next hlen =>
        split
        next hop => exact absurd ⟨UInt16.not_lt.mp hlen, hop, hidle⟩ haccepts
        next => decide
        next => decide
    · -- A busy service answers the request and touches nothing else.
      have htransfer := heffect.transfer
      rw [ftcSetup_of_busy env current.state.awake packet hidle fun _ => haction] at htransfer
      exact hinv.keep ((awake_sameTransfer _).trans htransfer) heffect.notifyOn hcount

theorem downloadStep_ftd (env : Env) {current : DownloadRun} (hinv : DownloadInv current)
    (conn : Conn) (packet : Packet) :
    DownloadInv (downloadStep env current (.write conn .ftd packet)) := by
  change DownloadInv ⟨(otaFtdWrite env current.state.awake conn packet).2, current.history⟩
  by_cases haccepts : FtdAccepts current.state packet
  · have htaken := otaFtdWrite_taken env current.state.awake conn packet haccepts
    have hwrite := otaFtdWrite_messages env current.state.awake conn packet haccepts
    apply hinv.other (by rw [haccepts.1]; decide) _ htaken.storage hwrite.notifyOn
    · rw [hwrite.queue, List.count_append]
      repeat' split
      all_goals simp [Sys.awake]
    · rw [htaken.ftInProgress]
      split <;> decide
  · rw [otaFtdWrite_rejected env current.state.awake conn packet haccepts]
    exact hinv.keep (awake_sameTransfer _) rfl rfl

/-! ## Events -/

theorem ftdNotes_of_other {calls added : List HostCall}
    (hadded : ∀ call ∈ added, ∀ conn value, call ≠ .notify conn .ftd value) :
    ((calls ++ added).drop calls.length).filterMap ftdNote = [] := by
  rw [List.drop_left, List.filterMap_eq_nil_iff]
  intro call hcall
  have hother := hadded call hcall
  cases call with
  | notify conn handle value =>
      cases handle with
      | ftd => exact absurd rfl (hother conn value)
      | _ => rfl
  | connParamUpdate => rfl
  | disconnect => rfl

theorem ftdReadLen_le (sys : Sys) : ftdReadLen sys ≤ sys.cb.ftLen := by
  unfold ftdReadLen
  split
  next hmore => exact UInt32.le_of_lt hmore
  next => exact UInt32.le_refl _

theorem ftdReadLen_toNat_le (sys : Sys) : (ftdReadLen sys).toNat ≤ 20 := by
  unfold ftdReadLen
  split
  · decide
  next hlast => exact UInt32.le_iff_toNat_le.mp (UInt32.not_lt.mp hlast)

/-- The data notified by one data event. -/
theorem ftdNotes_pieces (env : Env) (sys : Sys) (hstorage : sys.cb.storage = true) :
    ((sys.calls ++ ftdPieces env sys).drop sys.calls.length).filterMap ftdNote =
      if sys.cb.ftLen = 0 then []
      else [flashRange sys.flash sys.cb.ftAddr (ftdReadLen sys).toNat] := by
  rw [List.drop_left, ftdPieces]
  split
  · rfl
  · simp only [otaStorageRead, hstorage, if_true]
    rfl

/-- One more piece, and the get has moved on by its length. -/
theorem Download.Matches.piece {download : Download} {sys next : Sys}
    (hmatches : download.Matches sys) {notes : List (List UInt8)}
    (hnotes : notes.flatten = flashRange sys.flash sys.cb.ftAddr (ftdReadLen sys).toNat)
    (haddr : next.cb.ftAddr = sys.cb.ftAddr + ftdReadLen sys)
    (hlen : next.cb.ftLen = sys.cb.ftLen - ftdReadLen sys) (hflash : next.flash = sys.flash) :
    Download.Matches { download with notes := download.notes ++ notes } next := by
  have hread := ftdReadLen_le sys
  have hle : next.cb.ftLen ≤ sys.cb.ftLen := by
    rw [hlen, UInt32.le_iff_toNat_le, UInt32.toNat_sub_of_le _ _ hread]
    exact Nat.sub_le _ _
  have hdone : download.len - next.cb.ftLen =
      (download.len - sys.cb.ftLen) + ftdReadLen sys := by
    rw [hlen, sub_add]
  refine ⟨hflash.trans hmatches.flash, UInt32.le_trans hle hmatches.remaining, ?_, ?_⟩
  · change next.cb.ftAddr = download.addr + (download.len - next.cb.ftLen)
    rw [haddr, hmatches.addr, hdone, UInt32.add_assoc]
  · change (download.notes ++ notes).flatten = flashRange download.flash download.addr
      (download.len - next.cb.ftLen).toNat
    have hsum : (download.len - next.cb.ftLen).toNat =
        (download.len - sys.cb.ftLen).toNat + (ftdReadLen sys).toNat := by
      rw [UInt32.toNat_sub_of_le _ _ (UInt32.le_trans hle hmatches.remaining),
        UInt32.toNat_sub_of_le _ _ hmatches.remaining, hlen,
        UInt32.toNat_sub_of_le _ _ hread]
      have hbound := UInt32.le_iff_toNat_le.mp hmatches.remaining
      have hpiece := UInt32.le_iff_toNat_le.mp hread
      omega
    rw [List.flatten_append, hmatches.notes, hnotes, hmatches.flash, hmatches.addr, hsum,
      ← flashRange_add, UInt32.ofNat_toNat]

/-- Events only add notifications to the download. -/
theorem downloadStep_dispatch (env : Env) (current : DownloadRun) :
    downloadStep env current .dispatch = ⟨dispatch env current.state,
      current.history.map fun download => { download with
        notes := download.notes ++ ((dispatch env current.state).calls.drop
          current.state.calls.length).filterMap ftdNote }⟩ := rfl

/-- A data event sends the next piece; the last one ends the get. -/
theorem downloadStep_data (env : Env) {current : DownloadRun} (hinv : DownloadInv current)
    (rest : List Event) (hqueue : current.state.queue = .ftd :: rest) :
    DownloadInv (downloadStep env current .dispatch) := by
  have hsent := dispatch_ftd env current.state rest hqueue hinv.notifyOn
  rw [downloadStep_dispatch]
  generalize dispatch env current.state = next at hsent
  -- The queue holds this event, so a get is in progress and no other is queued.
  have hget : current.state.cb.ftInProgress = .getReq := by
    by_contra hother
    have hcount := hinv.queued
    simp [hqueue, hother] at hcount
  have hrest : rest.count .ftd = 0 := by
    have hcount := hinv.queued
    rw [hqueue, hget, List.count_cons_self] at hcount
    simpa using hcount
  have hnotes := ftdNotes_pieces env current.state hinv.storage
  rw [hsent.calls]
  generalize ((current.state.calls ++ ftdPieces env current.state).drop
    current.state.calls.length).filterMap ftdNote = notes at hnotes
  have hflatten : notes.flatten =
      flashRange current.state.flash current.state.cb.ftAddr (ftdReadLen current.state).toNat := by
    rw [hnotes]
    split
    next hzero => simp [ftdReadLen, hzero, flashRange]
    next => simp
  refine ⟨by rw [hsent.notifyOn]; exact hinv.notifyOn, hsent.storage.trans hinv.storage, ?_, ?_,
    ?_, ?_⟩
  · rw [hsent.queue, List.count_append, hrest, hsent.ftInProgress]
    by_cases hlast : current.state.cb.ftLen ≤ 20
    · rw [if_pos hlast, if_pos hlast, count_ftd_response]
      rfl
    · rw [if_neg hlast, if_neg hlast, hget]
      rfl
  · intro download hdownload note hnote
    obtain ⟨before, hbefore, rfl⟩ := Option.map_eq_some_iff.mp hdownload
    rcases List.mem_append.mp hnote with hold | hnew
    · exact hinv.pieces before hbefore note hold
    · rw [hnotes] at hnew
      split at hnew
      · simp at hnew
      next hpos =>
        obtain rfl := List.mem_singleton.mp hnew
        have hread := (ftdReadLen_pos current.state).mpr hpos
        rw [flashRange, List.length_map, List.length_range]
        exact ⟨UInt32.lt_iff_toNat_lt.mp hread, ftdReadLen_toNat_le current.state⟩
  · intro download hdownload hhandle _
    obtain ⟨before, hbefore, rfl⟩ := Option.map_eq_some_iff.mp hdownload
    exact (hinv.sending before hbefore hhandle hget).piece hflatten hsent.ftAddr hsent.ftLen
      hsent.flash
  · intro download hdownload hhandle hover
    obtain ⟨before, hbefore, rfl⟩ := Option.map_eq_some_iff.mp hdownload
    have hmatches := (hinv.sending before hbefore hhandle hget).piece hflatten hsent.ftAddr
      hsent.ftLen hsent.flash
    have hlast : current.state.cb.ftLen ≤ 20 := by
      by_contra hmore
      rw [hsent.ftInProgress, if_neg hmore] at hover
      exact hover hget
    have hzero : next.cb.ftLen = 0 := by
      rw [hsent.ftLen, ftdReadLen, if_neg (UInt32.not_lt.mpr hlast), UInt32.sub_self]
    have hall := hmatches.notes
    rw [hzero, UInt32.sub_zero] at hall
    exact hall

theorem downloadStep_other (env : Env) {current : DownloadRun} (hinv : DownloadInv current)
    (hevent : current.state.queue.head? ≠ some .ftd) :
    DownloadInv (downloadStep env current .dispatch) := by
  have hsent := dispatch_other env current.state hevent
  rw [downloadStep_dispatch]
  generalize dispatch env current.state = next at hsent
  obtain ⟨added, hcalls, hadded⟩ := hsent.calls
  rw [hcalls, ftdNotes_of_other hadded]
  simp only [List.append_nil, Option.map_id']
  apply hinv.keep hsent.transfer hsent.notifyOn
  rw [hsent.queue]
  cases hqueue : current.state.queue with
  | nil => rfl
  | cons event rest =>
      have hne : event ≠ .ftd := by simpa [hqueue] using hevent
      simp [hne]

theorem downloadStep_inv (env : Env) (current : DownloadRun) (action : Action)
    (hinv : DownloadInv current) (haction : DownloadAction action) :
    DownloadInv (downloadStep env current action) := by
  cases action with
  | write conn handle packet =>
      cases handle with
      | dc => exact haction.elim
      | ftc => exact downloadStep_ftc env hinv conn packet haction
      | ftd => exact downloadStep_ftd env hinv conn packet
      | au => exact haction.elim
  | dispatch =>
      by_cases hevent : current.state.queue.head? = some .ftd
      · obtain ⟨rest, hqueue⟩ := List.head?_eq_some_iff.mp hevent
        exact downloadStep_data env hinv rest hqueue
      · exact downloadStep_other env hinv hevent
  | cccChanged handle value => exact haction.elim
  | wakeupTimeout => exact haction.elim

theorem downloadStep_kept (env : Env) (current : DownloadRun) (action : Action)
    (haction : DownloadAction action) : DownloadKept env current action := by
  rintro hget conn handle packet rfl
  have hsame : SameTransfer current.state.awake
      (otaWriteCback env current.state conn handle packet).2 := by
    cases handle with
    | dc => exact haction.elim
    | ftc =>
        have hbusy : current.state.awake.cb.ftInProgress ≠ .none := by
          change current.state.cb.ftInProgress ≠ .none
          rw [hget]
          decide
        have heffect := (otaFtcWrite_effect env current.state.awake conn packet).transfer
        rw [ftcSetup_of_busy env current.state.awake packet hbusy fun _ => haction] at heffect
        exact heffect
    | ftd =>
        have hrejects : ¬ FtdAccepts current.state.awake packet := by
          rintro ⟨hput, -⟩
          exact absurd (hget.symm.trans hput) (by decide)
        have hkept := otaFtdWrite_rejected env current.state.awake conn packet hrejects
        change SameTransfer _ (otaFtdWrite env current.state.awake conn packet).2
        rw [hkept]
        exact SameTransfer.refl _
    | au => exact haction.elim
  exact ⟨hsame.ftAddr, hsame.ftLen, hsame.ftHandle, hsame.flash⟩

theorem downloadInit_inv (flash : Flash) (notifyOn : Handle → Bool)
    (hnotify : notifyOn .ftd = true) : DownloadInv (downloadInit flash notifyOn) where
  notifyOn := hnotify
  storage := rfl
  queued := rfl
  pieces := by simp [downloadInit]
  sending := by simp [downloadInit]
  sent := by simp [downloadInit]

/-- Downloads are correct in every run without aborts, and requests received
meanwhile leave them alone. -/
theorem download_correct (env : Env) (flash : Flash) (notifyOn : Handle → Bool)
    (hnotify : notifyOn .ftd = true) (actions : List Action)
    (hactions : ∀ action ∈ actions, DownloadAction action) :
    Throughout (downloadStep env) DownloadSafe (downloadInit flash notifyOn) actions ∧
      Along (downloadStep env) (DownloadKept env) (downloadInit flash notifyOn) actions := by
  have halong : Along (downloadStep env) (fun _ action => DownloadAction action)
      (downloadInit flash notifyOn) actions := along_of_forall_mem hactions
  have hinv := throughout_of_invariant DownloadInv (downloadStep_inv env)
    (downloadInit_inv flash notifyOn hnotify) halong
  exact ⟨hinv.imp fun _ => DownloadInv.safe, halong.imp (downloadStep_kept env)⟩

/-- A get of 25 bytes with an erase request received in the middle of it. -/
def interruptedDownload : List Action :=
  [.control [0x01, 1, 0, 0, 1, 0, 0, 25, 0, 0, 0], .dispatch, .dispatch,
    .control [0x05, 1, 0, 0, 0, 0, 0, 0, 4, 0, 0], .dispatch, .dispatch, .dispatch]

theorem interruptedDownload_correct :
    Throughout (downloadStep plainEnv) DownloadSafe
        (downloadInit (fun addr => addr.toUInt8) fun _ => true) interruptedDownload ∧
      Along (downloadStep plainEnv) (DownloadKept plainEnv)
        (downloadInit (fun addr => addr.toUInt8) fun _ => true) interruptedDownload :=
  download_correct plainEnv (fun addr => addr.toUInt8) (fun _ => true) rfl interruptedDownload
    (by decide)

end CubieBle.Ota
