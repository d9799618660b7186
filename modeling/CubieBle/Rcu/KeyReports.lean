import CubieBle.Rcu.Remote

/-! # Reports for key presses

The last report is a release unless a key that was reported is still held. A release that
has to be kept is sent as a whole press, so that a press is reported twice if the link was
lost while the key was held.
-/

namespace CubieBle.Rcu

open Machine

/-! ## The state machine and the keys -/

/-- The presses and their reports are as before. -/
structure SamePresses (remote next : Remote) : Prop where
  pendingKey : next.pendingKey = remote.pendingKey
  pendingPress : next.pendingPress = remote.pendingPress
  presses : next.presses = remote.presses
  held : next.held = remote.held
  reports : next.reports = remote.reports

/-- The connection is as before, too. -/
structure SameKeys (remote next : Remote) : Prop extends SamePresses remote next where
  pconn : next.pconn = remote.pconn
  security : next.rmcSecurityReadyFlag = remote.rmcSecurityReadyFlag

theorem SameKeys.refl (remote : Remote) : SameKeys remote remote :=
  ⟨⟨rfl, rfl, rfl, rfl, rfl⟩, rfl, rfl⟩

theorem SameKeys.trans {first second third : Remote} (hfirst : SameKeys first second)
    (hsecond : SameKeys second third) : SameKeys first third :=
  ⟨⟨hsecond.pendingKey.trans hfirst.pendingKey,
      hsecond.pendingPress.trans hfirst.pendingPress, hsecond.presses.trans hfirst.presses,
      hsecond.held.trans hfirst.held, hsecond.reports.trans hfirst.reports⟩,
    hsecond.pconn.trans hfirst.pconn, hsecond.security.trans hfirst.security⟩

theorem rmcStateTable_sendKey {status : RmcStatus} {evt : RmcMsg}
    (haction : (rmcStateTable status evt).2 = .sendKey) : evt = .bleSecConnected := by
  cases status <;> cases evt <;> first | rfl | cases haction

theorem rmcStateTable_bleSecConnected (status : RmcStatus) :
    rmcStateTable status .bleSecConnected = (.connected, .sendKey) := by
  cases status <;> rfl

theorem sameKeys_rmcSmActStartAdv (env : Env) (remote : Remote) :
    SameKeys remote (rmcSmActStartAdv env remote) := by
  unfold rmcSmActStartAdv
  split
  · exact SameKeys.refl remote
  · exact ⟨⟨rfl, rfl, rfl, rfl, rfl⟩, rfl, rfl⟩

theorem sameKeys_rmcSmActDisconnectConn (remote : Remote) :
    SameKeys remote (rmcSmActDisconnectConn remote) := by
  unfold rmcSmActDisconnectConn
  split
  · exact ⟨⟨rfl, rfl, rfl, rfl, rfl⟩, rfl, rfl⟩
  · exact SameKeys.refl remote

/-- The action touches neither the keys nor the state, and the event that it can give is
one of two. -/
theorem rmcSmActStartDirectAdv_cases (env : Env) (remote : Remote) :
    SameKeys remote (rmcSmActStartDirectAdv env remote).1 ∧
      (rmcSmActStartDirectAdv env remote).1.rmcStatus = remote.rmcStatus ∧
      ∀ evt, (rmcSmActStartDirectAdv env remote).2 = some evt →
        evt = .clearPiarKey ∨ evt = .reconnFail := by
  unfold rmcSmActStartDirectAdv
  split
  · dsimp only
    split
    · exact ⟨SameKeys.refl remote, rfl, nofun⟩
    · exact ⟨⟨⟨rfl, rfl, rfl, rfl, rfl⟩, rfl, rfl⟩, rfl, nofun⟩
  · refine ⟨⟨⟨rfl, rfl, rfl, rfl, rfl⟩, rfl, rfl⟩, rfl, ?_⟩
    intro evt hevt
    cases hevt
    split
    · exact .inl rfl
    · exact .inr rfl

/-- An action, and the event that it gives. -/
def rmcSmAct (env : Env) (remote : Remote) : RmcAct → Remote × Option RmcMsg
  | .none => (remote, none)
  | .adv => (rmcSmActStartAdv env remote, none)
  | .directAdv => rmcSmActStartDirectAdv env remote
  | .stopAdv => (rmcSmActStopAdv remote, none)
  | .disconnectConn => (rmcSmActDisconnectConn remote, none)
  | .sendKey => (sendPendingKeycode remote, none)
  | .connected => (rmcSmActConnected remote, none)

theorem sameKeys_rmcSmAct (env : Env) (remote : Remote) {action : RmcAct}
    (haction : action ≠ .sendKey) : SameKeys remote (rmcSmAct env remote action).1 := by
  cases action with
  | none => exact SameKeys.refl remote
  | adv => exact sameKeys_rmcSmActStartAdv env remote
  | directAdv => exact (rmcSmActStartDirectAdv_cases env remote).1
  | stopAdv => exact ⟨⟨rfl, rfl, rfl, rfl, rfl⟩, rfl, rfl⟩
  | disconnectConn => exact sameKeys_rmcSmActDisconnectConn remote
  | sendKey => exact absurd rfl haction
  | connected => exact ⟨⟨rfl, rfl, rfl, rfl, rfl⟩, rfl, rfl⟩

/-- Only direct advertising gives an event. -/
theorem rmcSmAct_nested {env : Env} {remote : Remote} {action : RmcAct} {evt : RmcMsg}
    (hevt : (rmcSmAct env remote action).2 = some evt) :
    action = .directAdv ∧ (evt = .clearPiarKey ∨ evt = .reconnFail) := by
  cases action with
  | directAdv => exact ⟨rfl, (rmcSmActStartDirectAdv_cases env remote).2.2 evt hevt⟩
  | _ => cases hevt

/-- One call: the table gives the next state and the action, and the action may give an event
for one more call. -/
theorem rmcSmExecute_succ (env : Env) (calls : Nat) (evt : RmcMsg) (remote : Remote) :
    rmcSmExecute env (calls + 1) evt remote =
      let after := rmcSmAct env
        { remote with rmcStatus := (rmcStateTable remote.rmcStatus evt).1 }
        (rmcStateTable remote.rmcStatus evt).2
      match after.2 with
      | none => some after.1
      | some nested => rmcSmExecute env calls nested after.1 := by
  rw [rmcSmExecute]
  cases haction : (rmcStateTable remote.rmcStatus evt).2 with
  | directAdv =>
      simp only [haction, rmcSmAct]
      generalize rmcSmActStartDirectAdv env _ = after
      obtain ⟨remote, nested⟩ := after
      cases nested with
      | none => rfl
      | some nested => rfl
  | _ => simp only [haction, rmcSmAct]

/-- Only the event for a secured link sends keys. -/
theorem sameKeys_rmcSmExecute (env : Env) {calls : Nat} {evt : RmcMsg} {remote next : Remote}
    (hevt : evt ≠ .bleSecConnected) (hexecute : rmcSmExecute env calls evt remote = some next) :
    SameKeys remote next := by
  induction calls generalizing evt remote with
  | zero => cases hexecute
  | succ calls ih =>
      have hstatus (status : RmcStatus) : SameKeys remote { remote with rmcStatus := status } :=
        ⟨⟨rfl, rfl, rfl, rfl, rfl⟩, rfl, rfl⟩
      have haction : (rmcStateTable remote.rmcStatus evt).2 ≠ .sendKey :=
        fun hsend => hevt (rmcStateTable_sendKey hsend)
      have hact := (hstatus _).trans (sameKeys_rmcSmAct env
        { remote with rmcStatus := (rmcStateTable remote.rmcStatus evt).1 } haction)
      rw [rmcSmExecute_succ] at hexecute
      dsimp only at hexecute
      split at hexecute
      next =>
        cases hexecute
        exact hact
      next nested hnested =>
        refine hact.trans (ih ?_ hexecute)
        rcases (rmcSmAct_nested hnested).2 with rfl | rfl
        · nofun
        · nofun

theorem rmcStateTable_nested {evt : RmcMsg} (hevt : evt = .clearPiarKey ∨ evt = .reconnFail)
    (status : RmcStatus) : (rmcStateTable status evt).2 ≠ .directAdv := by
  rcases hevt with rfl | rfl <;> cases status <;> nofun

/-- An event whose action gives no other event needs one call. -/
theorem isSome_rmcSmExecute_one (env : Env) {evt : RmcMsg} {remote : Remote}
    (haction : (rmcStateTable remote.rmcStatus evt).2 ≠ .directAdv) (calls : Nat) :
    (rmcSmExecute env (calls + 1) evt remote).isSome := by
  rw [rmcSmExecute_succ]
  dsimp only
  split
  next => rfl
  next nested hnested => exact absurd (rmcSmAct_nested hnested).1 haction

/-- No event leads to more than one other event. -/
theorem isSome_rmcSmExecute (env : Env) (evt : RmcMsg) (remote : Remote) :
    (rmcSmExecute env 2 evt remote).isSome := by
  rw [rmcSmExecute_succ]
  dsimp only
  split
  next => rfl
  next nested hnested =>
    exact isSome_rmcSmExecute_one env (rmcStateTable_nested (rmcSmAct_nested hnested).2 _) 0

theorem rmcSmExecute_eq_execute (env : Env) (evt : RmcMsg) (remote : Remote) :
    rmcSmExecute env 2 evt remote = some (execute env evt remote) := by
  unfold execute
  cases hexecute : rmcSmExecute env 2 evt remote with
  | none =>
      have hsome := isSome_rmcSmExecute env evt remote
      rw [hexecute] at hsome
      cases hsome
  | some next => rfl

theorem sameKeys_execute (env : Env) {evt : RmcMsg} (hevt : evt ≠ .bleSecConnected)
    (remote : Remote) : SameKeys remote (execute env evt remote) :=
  sameKeys_rmcSmExecute env hevt (rmcSmExecute_eq_execute env evt remote)

/-- A secured link connects the state machine and sends the key that was kept. -/
theorem execute_bleSecConnected (env : Env) (remote : Remote) :
    execute env .bleSecConnected remote =
      sendPendingKeycode { remote with rmcStatus := .connected } := by
  unfold execute
  rw [rmcSmExecute_succ, rmcStateTable_bleSecConnected]
  rfl

/-- The event after a failed reconnection does not connect the state machine. -/
theorem rmcStatus_nested (env : Env) {evt : RmcMsg} {remote : Remote}
    (hevt : evt = .clearPiarKey ∨ evt = .reconnFail) (hstatus : remote.rmcStatus = .advertising) :
    ∃ next, rmcSmExecute env 1 evt remote = some next ∧ next.rmcStatus ≠ .connected := by
  rcases hevt with rfl | rfl
  · refine ⟨rmcSmActStartAdv env { remote with rmcStatus := .advertising }, ?_, ?_⟩
    · rw [rmcSmExecute_succ, hstatus]
      rfl
    · unfold rmcSmActStartAdv
      split <;> nofun
  · refine ⟨{ remote with rmcStatus := .idle }, ?_, nofun⟩
    rw [rmcSmExecute_succ, hstatus]
    rfl

theorem rmcStatus_execute_inputKey (env : Env) {remote : Remote}
    (hstatus : remote.rmcStatus = .idle) :
    (execute env .inputKey remote).rmcStatus ≠ .connected := by
  have hkept := (rmcSmActStartDirectAdv_cases env
    { remote with rmcStatus := .advertising }).2.1
  unfold execute
  rw [rmcSmExecute_succ, hstatus]
  dsimp only [rmcStateTable, rmcSmAct]
  split
  next =>
    rw [Option.getD_some, hkept]
    nofun
  next nested hafter =>
    have hnested := (rmcSmActStartDirectAdv_cases env _).2.2 nested hafter
    obtain ⟨next, hnext, hne⟩ := rmcStatus_nested env hnested hkept
    rw [hnext]
    exact hne

/-- A key does not change whether the link is ready. -/
theorem ready_execute_inputKey (env : Env) (remote : Remote) :
    (execute env .inputKey remote).ready = remote.ready := by
  have hsame : SameKeys remote (execute env .inputKey remote) :=
    sameKeys_execute env (by decide) remote
  unfold Remote.ready
  rw [hsame.security]
  cases hstatus : remote.rmcStatus with
  | idle =>
      rw [decide_eq_false (rmcStatus_execute_inputKey env hstatus)]
      rfl
  | advertising =>
      unfold execute
      rw [rmcSmExecute_succ, hstatus]
      rfl
  | connected =>
      unfold execute
      rw [rmcSmExecute_succ, hstatus]
      rfl

/-! ## Reports -/

def LastReleased (remote : Remote) : Prop :=
  ∀ report ∈ remote.reports.getLast?, report.button = 0

theorem Delivered.congr {remote next : Remote} (hdelivered : Delivered remote)
    (hreports : next.reports = remote.reports) : Delivered next := by
  refine ⟨?_, ?_⟩
  · intro press
    rw [hreports]
    exact hdelivered.once press
  · rw [hreports]
    exact hdelivered.released

/-- A release can always be reported. -/
theorem Delivered.release {remote next : Remote} (hdelivered : Delivered remote) {press : Nat}
    (hreports : next.reports = remote.reports ++ [{ press := press, button := 0 }]) :
    Delivered next ∧ LastReleased next := by
  refine ⟨⟨?_, ?_⟩, ?_⟩
  · intro other
    rw [hreports, List.countP_append]
    simpa using hdelivered.once other
  · rw [hreports, List.isChain_append]
    refine ⟨hdelivered.released, List.isChain_singleton _, ?_⟩
    intro first _ second hsecond
    cases hsecond
    exact .inr rfl
  · intro report hreport
    rw [hreports, List.getLast?_concat] at hreport
    cases hreport
    rfl

theorem countP_eq_zero_of_not_reported {remote : Remote} {press : Nat}
    (hnot : ¬ Reported remote press) :
    remote.reports.countP (fun report => report.press = press ∧ report.button ≠ 0) = 0 := by
  rw [List.countP_eq_zero]
  intro report hreport hboth
  exact hnot ⟨report, hreport, of_decide_eq_true hboth⟩

/-- A press that was not reported can be reported after a release. -/
theorem Delivered.press {remote next : Remote} (hdelivered : Delivered remote)
    (hlast : LastReleased remote) {press : Nat} (hnot : ¬ Reported remote press) {button : UInt16}
    (hreports : next.reports = remote.reports ++ [{ press := press, button := button }]) :
    Delivered next := by
  refine ⟨?_, ?_⟩
  · intro other
    rw [hreports, List.countP_append, List.countP_singleton]
    by_cases hother : press = other
    · subst hother
      rw [countP_eq_zero_of_not_reported hnot]
      split <;> omega
    · rw [if_neg (by simp [hother])]
      exact hdelivered.once other
  · rw [hreports, List.isChain_append]
    refine ⟨hdelivered.released, List.isChain_singleton _, ?_⟩
    intro first hfirst second _
    exact .inl (hlast first hfirst)

/-! ## The invariant -/

theorem reported_congr {remote next : Remote} (hreports : next.reports = remote.reports)
    (press : Nat) : Reported next press ↔ Reported remote press := by
  unfold Reported
  rw [hreports]

theorem lastReleased_congr {remote next : Remote} (hreports : next.reports = remote.reports) :
    LastReleased next ↔ LastReleased remote := by
  unfold LastReleased
  rw [hreports]

/-- The codes of ordinary keys are no releases. -/
theorem ordinary_keycode {code : UInt16} (hordinary : ordinary code = true) :
    actsGetBleKeycode code ≠ 0 ∧ actsGetBleKeycode code ≠ keyReserved := by
  unfold ordinary at hordinary
  simp only [Bool.and_eq_true, decide_eq_true_eq] at hordinary
  refine ⟨?_, hordinary.1.1⟩
  unfold actsGetBleKeycode
  cases hfind : actsKeyMaps.find? fun map => map.1 = code with
  | none => decide
  | some map =>
      have hall : actsKeyMaps.all (fun map => map.2 ≠ 0) = true := by decide
      exact of_decide_eq_true (List.all_eq_true.mp hall map (List.mem_of_find?_eq_some hfind))

/-- The last report is a release, or its key is still held. -/
def Open (remote : Remote) : Prop :=
  LastReleased remote ∨ ∃ key ∈ remote.held, Reported remote key.2

structure KeyInv (remote : Remote) : Prop where
  link : remote.rmcSecurityReadyFlag = true → remote.pconn = true
  fresh : ∀ report ∈ remote.reports, report.press ≤ remote.presses
  held : ∀ key ∈ remote.held, ordinary key.1 = true ∧ key.2 ≤ remote.presses
  pending : remote.pendingKey = KeyValue.zero ∨ ordinary remote.pendingKey.code = true
  pendingPress : remote.pendingPress ≤ remote.presses
  pendingHeld : remote.pendingKey.down = true →
    (remote.pendingKey.code, remote.pendingPress) ∈ remote.held
  last : Open remote
  delivered : Delivered remote

theorem KeyInv.congr {remote next : Remote} (hsame : SamePresses remote next)
    (hlink : next.rmcSecurityReadyFlag = true → next.pconn = true) (hinv : KeyInv remote) :
    KeyInv next where
  link := hlink
  fresh := by
    rw [hsame.reports, hsame.presses]
    exact hinv.fresh
  held := by
    rw [hsame.held, hsame.presses]
    exact hinv.held
  pending := by
    rw [hsame.pendingKey]
    exact hinv.pending
  pendingPress := by
    rw [hsame.pendingPress, hsame.presses]
    exact hinv.pendingPress
  pendingHeld := by
    rw [hsame.pendingKey, hsame.pendingPress, hsame.held]
    exact hinv.pendingHeld
  last := by
    rcases hinv.last with hlast | ⟨key, hkey, hreported⟩
    · exact .inl ((lastReleased_congr hsame.reports).mpr hlast)
    · refine .inr ⟨key, ?_, (reported_congr hsame.reports key.2).mpr hreported⟩
      rw [hsame.held]
      exact hkey
  delivered := hinv.delivered.congr hsame.reports

theorem KeyInv.congrKeys {remote next : Remote} (hsame : SameKeys remote next)
    (hinv : KeyInv remote) : KeyInv next := by
  apply hinv.congr hsame.toSamePresses
  rw [hsame.security, hsame.pconn]
  exact hinv.link

theorem KeyInv.not_reported {remote : Remote} (hinv : KeyInv remote) {press : Nat}
    (hpress : remote.presses < press) : ¬ Reported remote press := by
  rintro ⟨report, hreport, rfl, _⟩
  exact absurd (hinv.fresh report hreport) (Nat.not_le.mpr hpress)

theorem KeyInv.lastReleased {remote : Remote} (hinv : KeyInv remote)
    (hnone : NoneReported remote) : LastReleased remote := by
  rcases hinv.last with hlast | ⟨key, hkey, hreported⟩
  · exact hlast
  · exact absurd hreported (hnone key hkey)

/-! ## Sending -/

theorem sendBleKeycode_of_not_ready {remote : Remote} (hready : remote.ready = false)
    (press : Nat) (key : KeyValue) :
    sendBleKeycode press key remote =
      { remote with pendingKey := key, pendingPress := press } := by
  rw [sendBleKeycode, hready]
  rfl

theorem hidAppRemoteReportEvent_of_link {remote : Remote} (hconn : remote.pconn = true)
    (hsecurity : remote.rmcSecurityReadyFlag = true) (press : Nat) (button : UInt16) :
    hidAppRemoteReportEvent press button remote =
      { remote with reports := remote.reports ++ [{ press := press, button := button }] } := by
  rw [hidAppRemoteReportEvent, hconn, hsecurity]
  rfl

theorem hidAppRemoteReportEvent_twice {remote : Remote} (hconn : remote.pconn = true)
    (hsecurity : remote.rmcSecurityReadyFlag = true) (press : Nat) (first second : UInt16) :
    hidAppRemoteReportEvent press second (hidAppRemoteReportEvent press first remote) =
      { remote with
        reports := remote.reports ++ [HidReport.mk press first] ++
          [HidReport.mk press second] } := by
  rw [hidAppRemoteReportEvent_of_link hconn hsecurity]
  apply hidAppRemoteReportEvent_of_link
  · exact hconn
  · exact hsecurity

theorem sendBleKeycode_of_ready {remote : Remote} (hready : remote.ready = true)
    (hconn : remote.pconn = true) (press : Nat) (key : KeyValue)
    (hcode : actsGetBleKeycode key.code ≠ keyReserved) :
    sendBleKeycode press key remote =
      { remote with
        pendingKey := KeyValue.zero
        reports := remote.reports ++
          [{ press := press, button := if key.down then actsGetBleKeycode key.code else 0 }] } := by
  have hsecurity : remote.rmcSecurityReadyFlag = true := by
    unfold Remote.ready at hready
    exact (Bool.and_eq_true_iff.mp hready).2
  rw [sendBleKeycode, hready, if_neg (by decide), if_neg hcode]
  dsimp only
  split
  · apply hidAppRemoteReportEvent_of_link
    · exact hconn
    · exact hsecurity
  · apply hidAppRemoteReportEvent_of_link
    · exact hconn
    · exact hsecurity

/-- The state in which a key is sent after the state machine and the timers. -/
theorem systemInputEventHandle_eq (env : Env) (press : Nat) (key : KeyValue) (remote : Remote) :
    ∃ before, SameKeys remote before ∧ before.ready = remote.ready ∧
      systemInputEventHandle env press key remote = sendBleKeycode press key before := by
  refine ⟨stopCombKeyTimers (execute env .inputKey remote), ?_, ?_, rfl⟩
  · exact (sameKeys_execute env (by decide) remote).trans ⟨⟨rfl, rfl, rfl, rfl, rfl⟩, rfl, rfl⟩
  · exact ready_execute_inputKey env remote

/-! ## Steps -/

theorem reported_of_append {next : Remote} {reports : List HidReport} {press : Nat}
    {button : UInt16} (hreports : next.reports = reports ++ [{ press := press, button := button }])
    (hbutton : button ≠ 0) : Reported next press := by
  refine ⟨{ press := press, button := button }, ?_, rfl, hbutton⟩
  rw [hreports]
  exact List.mem_append_right _ List.mem_cons_self

theorem fresh_append {reports : List HidReport} {presses press : Nat} {button : UInt16}
    (hfresh : ∀ report ∈ reports, report.press ≤ presses) (hpress : press ≤ presses) :
    ∀ report ∈ reports ++ [{ press := press, button := button }], report.press ≤ presses := by
  intro report hreport
  rcases List.mem_append.mp hreport with hold | hnew
  · exact hfresh report hold
  · rw [List.mem_singleton.mp hnew]
    exact hpress

/-- The code of a held key is reported after a release. -/
theorem KeyInv.report {remote : Remote} (hinv : KeyInv remote) {code : UInt16} {press : Nat}
    (hheld : (code, press) ∈ remote.held) (hlast : LastReleased remote)
    (hnot : ¬ Reported remote press) :
    KeyInv { remote with
      pendingKey := KeyValue.zero
      reports := remote.reports ++
        [{ press := press, button := actsGetBleKeycode code }] } where
  link := hinv.link
  fresh := fresh_append hinv.fresh (hinv.held _ hheld).2
  held := hinv.held
  pending := .inl rfl
  pendingPress := hinv.pendingPress
  pendingHeld := nofun
  last := by
    obtain ⟨hnonzero, _⟩ := ordinary_keycode (hinv.held _ hheld).1
    exact .inr ⟨(code, press), hheld, reported_of_append rfl hnonzero⟩
  delivered := hinv.delivered.press hlast hnot rfl

/-- The code of a held key is kept until the link is ready. -/
theorem KeyInv.keep {remote : Remote} (hinv : KeyInv remote) {code : UInt16} {press : Nat}
    (hheld : (code, press) ∈ remote.held) :
    KeyInv { remote with
      pendingKey := { code := code, down := true }
      pendingPress := press } where
  link := hinv.link
  fresh := hinv.fresh
  held := hinv.held
  pending := .inr (hinv.held _ hheld).1
  pendingPress := (hinv.held _ hheld).2
  pendingHeld _ := hheld
  last := hinv.last
  delivered := hinv.delivered.congr rfl

/-- A held key goes up on a ready link. -/
theorem KeyInv.release {remote : Remote} (hinv : KeyInv remote) {code : UInt16} {press : Nat}
    (hheld : (code, press) ∈ remote.held) :
    KeyInv { remote with
      held := remote.held.erase (code, press)
      pendingKey := KeyValue.zero
      reports := remote.reports ++ [{ press := press, button := 0 }] } where
  link := hinv.link
  fresh := fresh_append hinv.fresh (hinv.held _ hheld).2
  held key hkey := hinv.held key (List.mem_of_mem_erase hkey)
  pending := .inl rfl
  pendingPress := hinv.pendingPress
  pendingHeld := nofun
  last := .inl (hinv.delivered.release rfl).2
  delivered := (hinv.delivered.release rfl).1

/-- A held key that was not reported goes up before the link is ready. -/
theorem KeyInv.keepRelease {remote : Remote} (hinv : KeyInv remote) {code : UInt16}
    {press : Nat} (hheld : (code, press) ∈ remote.held) (hnot : ¬ Reported remote press) :
    KeyInv { remote with
      held := remote.held.erase (code, press)
      pendingKey := { code := code, down := false }
      pendingPress := press } where
  link := hinv.link
  fresh := hinv.fresh
  held key hkey := hinv.held key (List.mem_of_mem_erase hkey)
  pending := .inr (hinv.held _ hheld).1
  pendingPress := (hinv.held _ hheld).2
  pendingHeld := nofun
  last := by
    rcases hinv.last with hlast | ⟨key, hkey, hreported⟩
    · exact .inl hlast
    · refine .inr ⟨key, (List.mem_erase_of_ne ?_).mpr hkey, hreported⟩
      rintro rfl
      exact hnot hreported
  delivered := hinv.delivered.congr rfl

/-- A new press changes only the keys that are held. -/
theorem KeyInv.hold {remote : Remote} (hinv : KeyInv remote) {code : UInt16}
    (hordinary : ordinary code = true) :
    KeyInv { remote with
      presses := remote.presses + 1
      held := remote.held ++ [(code, remote.presses + 1)] } where
  link := hinv.link
  fresh report hreport := (hinv.fresh report hreport).trans (Nat.le_succ _)
  held key hkey := by
    rcases List.mem_append.mp hkey with hold | hnew
    · exact ⟨(hinv.held key hold).1, (hinv.held key hold).2.trans (Nat.le_succ _)⟩
    · rw [List.mem_singleton.mp hnew]
      exact ⟨hordinary, le_rfl⟩
  pending := hinv.pending
  pendingPress := hinv.pendingPress.trans (Nat.le_succ _)
  pendingHeld hdown := List.mem_append_left _ (hinv.pendingHeld hdown)
  last := by
    rcases hinv.last with hlast | ⟨key, hkey, hreported⟩
    · exact .inl hlast
    · exact .inr ⟨key, List.mem_append_left _ hkey, hreported⟩
  delivered := hinv.delivered.congr rfl

/-- A key goes down while no key that was reported is held, or it is kept. -/
theorem keyInv_keyDown {remote : Remote} (hinv : KeyInv remote) (env : Env) {code : UInt16}
    (hkept : PressKept remote (.keyDown env code)) : KeyInv (keyDown env code remote) := by
  unfold keyDown
  split
  next hordinary =>
    obtain ⟨before, hsame, hready, heq⟩ := systemInputEventHandle_eq env (remote.presses + 1)
      { code := code, down := true }
      { remote with
        presses := remote.presses + 1
        held := remote.held ++ [(code, remote.presses + 1)] }
    have hbeforeInv : KeyInv before := (hinv.hold hordinary).congrKeys hsame
    have hheld : (code, remote.presses + 1) ∈ before.held := by
      rw [hsame.held]
      exact List.mem_append_right _ List.mem_cons_self
    rw [heq]
    cases hbefore : before.ready with
    | false =>
        rw [sendBleKeycode_of_not_ready hbefore]
        exact hbeforeInv.keep hheld
    | true =>
        have hconn := hbeforeInv.link (Bool.and_eq_true_iff.mp hbefore).2
        have hnone := hkept hordinary (hready.symm.trans hbefore)
        have hlast : LastReleased before :=
          (lastReleased_congr hsame.reports).mpr (hinv.lastReleased hnone)
        have hnot : ¬ Reported before (remote.presses + 1) := by
          rw [reported_congr hsame.reports]
          exact hinv.not_reported (Nat.lt_succ_self remote.presses)
        rw [sendBleKeycode_of_ready hbefore hconn _ ⟨code, true⟩ (ordinary_keycode hordinary).2]
        exact hbeforeInv.report hheld hlast hnot
  next => exact hinv

theorem mem_held_of_heldPress {remote : Remote} {code : UInt16} {press : Nat}
    (hpress : heldPress remote code = some press) : (code, press) ∈ remote.held := by
  obtain ⟨key, hfind, rfl⟩ := Option.map_eq_some_iff.mp hpress
  have hcode : key.1 = code := by simpa using List.find?_some hfind
  subst hcode
  exact List.mem_of_find?_eq_some hfind

/-- A key goes up on a ready link, or its code was not reported. -/
theorem keyInv_keyUp {remote : Remote} (hinv : KeyInv remote) (env : Env) {code : UInt16}
    (hkept : PressKept remote (.keyUp env code)) : KeyInv (keyUp env code remote) := by
  unfold keyUp
  split
  next => exact hinv
  next press hpress =>
    have hheld : (code, press) ∈ remote.held := mem_held_of_heldPress hpress
    obtain ⟨before, hsame, hready, heq⟩ := systemInputEventHandle_eq env press
      { code := code, down := false }
      { remote with held := remote.held.erase (code, press) }
    rw [heq]
    cases hbefore : before.ready with
    | false =>
        have hnot : ¬ Reported remote press := by
          intro hreported
          have hlink : before.ready = true := hready.trans (hkept press hpress hreported)
          rw [hbefore] at hlink
          cases hlink
        rw [sendBleKeycode_of_not_ready hbefore]
        refine (hinv.keepRelease hheld hnot).congrKeys ?_
        exact ⟨⟨rfl, rfl, hsame.presses, hsame.held, hsame.reports⟩, hsame.pconn, hsame.security⟩
    | true =>
        have hsecurity := (Bool.and_eq_true_iff.mp hbefore).2
        have hconn : before.pconn = true := by
          rw [hsame.pconn]
          exact hinv.link (hsame.security.symm.trans hsecurity)
        obtain ⟨_, hcode⟩ := ordinary_keycode (hinv.held _ hheld).1
        rw [sendBleKeycode_of_ready hbefore hconn press ⟨code, false⟩ hcode]
        refine (hinv.release hheld).congrKeys ?_
        exact ⟨⟨rfl, hsame.pendingPress, hsame.presses, hsame.held,
          congrArg (· ++ [HidReport.mk press 0]) hsame.reports⟩, hsame.pconn, hsame.security⟩

/-! ## The kept key -/

theorem actsGetBleKeycode_zero : actsGetBleKeycode KeyValue.zero.code = keyReserved := by decide

/-- The whole press that is sent for a release that was kept. The release stays kept. -/
theorem KeyInv.replay {remote : Remote} (hinv : KeyInv remote) (hlast : LastReleased remote)
    (hnot : ¬ Reported remote remote.pendingPress) (button : UInt16) :
    KeyInv { remote with
      reports := remote.reports ++ [HidReport.mk remote.pendingPress button] ++
        [HidReport.mk remote.pendingPress 0] } := by
  have hdelivered : Delivered { remote with
      reports := remote.reports ++ [HidReport.mk remote.pendingPress button] } :=
    hinv.delivered.press hlast hnot rfl
  exact {
    link := hinv.link
    fresh := fresh_append (fresh_append hinv.fresh hinv.pendingPress) hinv.pendingPress
    held := hinv.held
    pending := hinv.pending
    pendingPress := hinv.pendingPress
    pendingHeld := hinv.pendingHeld
    last := .inl (hdelivered.release rfl).2
    delivered := (hdelivered.release rfl).1 }

/-- The step at which the link is secured. -/
theorem keyInv_sendPendingKeycode {remote : Remote} (hinv : KeyInv remote)
    (hkept : remote.rmcSecurityReadyFlag = true → remote.pendingKey ≠ KeyValue.zero →
      NoneReported remote ∧
        (remote.pendingKey.down = false → ¬ Reported remote remote.pendingPress)) :
    KeyInv (sendPendingKeycode remote) := by
  rcases hinv.pending with hzero | hordinary
  · rw [sendPendingKeycode, hzero, if_pos actsGetBleKeycode_zero]
    exact hinv
  have hcode := (ordinary_keycode hordinary).2
  have hpending : remote.pendingKey ≠ KeyValue.zero := by
    intro hzero
    rw [hzero] at hcode
    exact hcode actsGetBleKeycode_zero
  unfold sendPendingKeycode
  cases hdown : remote.pendingKey.down with
  | true =>
      have hheld := hinv.pendingHeld hdown
      rw [if_pos rfl]
      cases hready : remote.ready with
      | false =>
          rw [sendBleKeycode_of_not_ready hready]
          exact hinv
      | true =>
          have hsecurity := (Bool.and_eq_true_iff.mp hready).2
          obtain ⟨hnone, _⟩ := hkept hsecurity hpending
          rw [sendBleKeycode_of_ready hready (hinv.link hsecurity) _ _ hcode, hdown]
          exact hinv.report hheld (hinv.lastReleased hnone) (hnone _ hheld)
  | false =>
      rw [if_neg Bool.false_ne_true, if_neg hcode]
      cases hsecurity : remote.rmcSecurityReadyFlag with
      | false =>
          have hnone (press : Nat) (button : UInt16) :
              hidAppRemoteReportEvent press button remote = remote := by
            rw [hidAppRemoteReportEvent, hsecurity, Bool.and_false]
            rfl
          rw [hnone, hnone]
          exact hinv
      | true =>
          obtain ⟨hnone, hnot⟩ := hkept hsecurity hpending
          rw [hidAppRemoteReportEvent_twice (hinv.link hsecurity) hsecurity]
          exact hinv.replay (hinv.lastReleased hnone) (hnot hdown) _

theorem keyInv_systemBleEventHandle {remote : Remote} (hinv : KeyInv remote) (env : Env)
    (hkept : PressKept remote (.bleState env)) : KeyInv (systemBleEventHandle env remote) := by
  unfold systemBleEventHandle
  split
  next => exact hinv
  next msg rest hstates =>
    have hsame : SameKeys remote { remote with bleStates := rest, reconnTimes := 0 } :=
      ⟨⟨rfl, rfl, rfl, rfl, rfl⟩, rfl, rfl⟩
    by_cases hmsg : msg = .bleSecConnected
    · subst hmsg
      have hnext : SameKeys remote
          { remote with bleStates := rest, reconnTimes := 0, rmcStatus := .connected } :=
        ⟨⟨rfl, rfl, rfl, rfl, rfl⟩, rfl, rfl⟩
      rw [execute_bleSecConnected]
      apply keyInv_sendPendingKeycode
      · exact hinv.congrKeys hnext
      · exact hkept (by rw [hstates]; rfl)
    · exact (hinv.congrKeys hsame).congrKeys (sameKeys_execute env hmsg _)

/-! ## Callbacks -/

theorem sameKeys_sendMsg (env : Env) (msg : RmcMsg) (remote : Remote) :
    SameKeys remote (sendMsg env msg remote) := by
  unfold sendMsg
  split
  · exact ⟨⟨rfl, rfl, rfl, rfl, rfl⟩, rfl, rfl⟩
  · exact SameKeys.refl remote

theorem keyInv_connected {remote : Remote} (hinv : KeyInv remote) (env : Env) :
    KeyInv (connected env remote) := by
  unfold connected
  split
  · exact hinv
  · refine KeyInv.congrKeys (sameKeys_sendMsg env _ _) (hinv.congr ?_ fun _ => rfl)
    exact ⟨rfl, rfl, rfl, rfl, rfl⟩

theorem keyInv_disconnected {remote : Remote} (hinv : KeyInv remote) (env : Env)
    (userTerm : Bool) : KeyInv (disconnected env userTerm remote) := by
  unfold disconnected
  split
  · exact hinv
  · refine KeyInv.congrKeys (sameKeys_sendMsg env _ _) (hinv.congr ?_ nofun)
    exact ⟨rfl, rfl, rfl, rfl, rfl⟩

theorem keyInv_securityChanged {remote : Remote} (hinv : KeyInv remote) (env : Env) :
    KeyInv (securityChanged env remote) := by
  unfold securityChanged
  split
  next => exact hinv
  next hconn =>
    split
    · exact hinv.congrKeys (sameKeys_execute env (by decide) remote)
    · refine KeyInv.congrKeys (sameKeys_sendMsg env _ _) (hinv.congr ?_ fun _ => ?_)
      · exact ⟨rfl, rfl, rfl, rfl, rfl⟩
      · simpa using hconn

/-! ## All runs -/

theorem keyInv_rcuStep (remote : Remote) (action : RcuAction) (hinv : KeyInv remote)
    (hkept : PressKept remote action) : KeyInv (rcuStep remote action) := by
  cases action with
  | keyDown env code => exact keyInv_keyDown hinv env hkept
  | keyUp env code => exact keyInv_keyUp hinv env hkept
  | connected env => exact keyInv_connected hinv env
  | disconnected env userTerm => exact keyInv_disconnected hinv env userTerm
  | securityChanged env => exact keyInv_securityChanged hinv env
  | bleState env => exact keyInv_systemBleEventHandle hinv env hkept

theorem keyInv_btReady (env : Env) : KeyInv (btReady env) := by
  have hinit : KeyInv Remote.init := by
    refine ⟨nofun, nofun, nofun, .inl rfl, le_rfl, nofun, .inl nofun, ?_⟩
    exact ⟨fun _ => Nat.zero_le 1, List.isChain_nil⟩
  exact hinit.congrKeys (sameKeys_execute env (by decide) Remote.init)

/-- If codes are sent while no key that was reported is held, if a key that was reported is
released on a ready link, and if a release that was kept is not sent for a press that was
reported, then every press is reported once at most, and it is released before the next
one. -/
theorem presses_delivered (env : Env) (actions : List RcuAction)
    (hkept : Along rcuStep PressKept (btReady env) actions) :
    Throughout rcuStep Delivered (btReady env) actions := by
  have hinv := throughout_of_invariant KeyInv keyInv_rcuStep (keyInv_btReady env) hkept
  exact hinv.imp fun _ h => h.delivered

def sampleEnv : Env where
  paired := true
  advFails := false
  hidCccEnabled := true
  sent := true

/-- The link is made and secured, and both messages are handled. -/
def secureLink : List RcuAction :=
  [.connected sampleEnv, .bleState sampleEnv, .securityChanged sampleEnv, .bleState sampleEnv]

/-- Two keys are pressed together before the link is ready, and another one afterwards. -/
theorem twoPresses_delivered :
    Throughout rcuStep Delivered (btReady sampleEnv)
      ([.keyDown sampleEnv 8, .keyDown sampleEnv 10, .keyUp sampleEnv 8, .keyUp sampleEnv 10] ++
        secureLink ++ [.keyDown sampleEnv 11, .keyUp sampleEnv 11]) :=
  presses_delivered sampleEnv _ (by decide)

/-- A key is held while the link is lost and made again. -/
theorem heldKey_repeated :
    ¬ Throughout rcuStep Delivered (btReady sampleEnv)
      (secureLink ++ [.keyDown sampleEnv 8, .disconnected sampleEnv false, .bleState sampleEnv,
        .keyUp sampleEnv 8] ++ secureLink) := by
  intro hall
  have honce := hall.last.once 1
  revert honce
  decide

end CubieBle.Rcu
