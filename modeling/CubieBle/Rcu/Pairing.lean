import CubieBle.Rcu.KeyReports

/-! # Pairing mode

The callbacks of the stack, the keys and the timers put messages into one queue, and the main
loop hands them to the state machine. Between a callback and its message the connection can
change again. An observer notes the event under which pairing mode is entered.
-/

namespace CubieBle.Rcu

open Machine

/-! ## The state machine with its effects -/

/-- Advertising that was started: for pairing, under the event that is executed, or to
connect again. -/
inductive AdvEffect where
  | pairing (evt : RmcMsg)
  | reconnecting
deriving DecidableEq

/-- `rmc_sm_act_start_adv` with what it starts. -/
def startAdvEffects (env : Env) (evt : RmcMsg) (remote : Remote) : List AdvEffect :=
  if remote.pconn || env.advFails then [] else [.pairing evt]

/-- `rmc_sm_execute` with what its actions start. -/
def rmcSmTrace (env : Env) : Nat → RmcMsg → Remote → Option (Remote × List AdvEffect)
  | 0, _, _ => none
  | calls + 1, evt, remote =>
      let (next, action) := rmcStateTable remote.rmcStatus evt
      let remote := { remote with rmcStatus := next }
      match action with
      | .none => some (remote, [])
      | .adv => some (rmcSmActStartAdv env remote, startAdvEffects env evt remote)
      | .directAdv =>
          match rmcSmActStartDirectAdv env remote with
          | (remote, none) => some (remote, if env.advFails then [] else [.reconnecting])
          | (remote, some evt) => rmcSmTrace env calls evt remote
      | .stopAdv => some (rmcSmActStopAdv remote, [])
      | .disconnectConn => some (rmcSmActDisconnectConn remote, [])
      | .sendKey => some (sendPendingKeycode remote, [])
      | .connected => some (rmcSmActConnected remote, [])

/-- Without the effects it is the state machine. -/
theorem rmcSmTrace_fst (env : Env) (calls : Nat) (evt : RmcMsg) (remote : Remote) :
    (rmcSmTrace env calls evt remote).map Prod.fst = rmcSmExecute env calls evt remote := by
  induction calls generalizing evt remote with
  | zero => rfl
  | succ calls ih =>
      rw [rmcSmTrace, rmcSmExecute]
      dsimp only
      cases (rmcStateTable remote.rmcStatus evt).2 with
      | none => rfl
      | adv => rfl
      | directAdv =>
          dsimp only
          obtain ⟨after, nested⟩ := rmcSmActStartDirectAdv env
            { remote with rmcStatus := (rmcStateTable remote.rmcStatus evt).1 }
          cases nested with
          | none => rfl
          | some nested => exact ih nested after
      | stopAdv => rfl
      | disconnectConn => rfl
      | sendKey => rfl
      | connected => rfl

/-! ## The application -/

inductive TimerId where
  | adv
  | directAdv
  | noAct
  | adcBattery
  | pairCombKey
  | hciModeCombKey
  | rmcSec
deriving DecidableEq

/-- The messages of the main loop that concern the connection. -/
inductive AppMsg where
  | keyInput (key : KeyValue)
  | bleState (evt : RmcMsg)
  | appTimer (id : TimerId)
  | lowPower
deriving DecidableEq

/-- The remote control with the queue of the main loop and the timers that run; the events
under which pairing mode was entered are what an observer notes. -/
structure App where
  remote : Remote := Remote.init
  btReadyFlag : Bool := false
  rebooted : Bool := false
  msgs : List AppMsg := []
  timers : List TimerId := [.noAct]
  pairings : List RmcMsg := []
deriving DecidableEq

def rmcTimerStop (id : TimerId) (app : App) : App :=
  { app with timers := app.timers.filter fun other => other ≠ id }

def rmcTimerStart (id : TimerId) (app : App) : App :=
  { app with timers := app.timers.filter (fun other => other ≠ id) ++ [id] }

/-- What follows in an action when advertising was started. -/
def applyEffect (app : App) : AdvEffect → App
  | .pairing evt =>
      rmcTimerStart .adv
        (rmcTimerStop .directAdv { app with pairings := app.pairings ++ [evt] })
  | .reconnecting => rmcTimerStart .directAdv app

/-- `rmc_sm_execute` for the whole application. -/
def smExecute (env : Env) (evt : RmcMsg) (app : App) : App :=
  let (remote, effects) := (rmcSmTrace env 2 evt app.remote).getD (app.remote, [])
  effects.foldl applyEffect { app with remote := remote }

/-- A callback of the remote control puts its message into the queue. -/
def callBack (callback : Remote → Remote) (app : App) : App :=
  let remote := callback { app.remote with bleStates := [] }
  { app with
    remote := { remote with bleStates := [] }
    msgs := app.msgs ++ remote.bleStates.map .bleState }

/-- The callback without an error. There is one connection at most. -/
def connectedCb (env : Env) (app : App) : App :=
  if app.remote.pconn then app
  else rmcTimerStart .rmcSec (rmcTimerStart .adcBattery (callBack (connected env) app))

def disconnectedCb (env : Env) (userTerm : Bool) (app : App) : App :=
  if !app.remote.pconn then app
  else rmcTimerStop .adcBattery (callBack (disconnected env userTerm) app)

/-- A bond without enabled reports is cleared, in the thread of the stack. -/
def securityChangedCb (env : Env) (app : App) : App :=
  if !app.remote.pconn then app
  else if env.paired && !env.hidCccEnabled then smExecute env .clearPiarKey app
  else callBack (securityChanged env) (rmcTimerStop .rmcSec app)

/-- `hid_app_remote_report_channel_enable`. -/
def reportChannelEnable (env : Env) (app : App) : App :=
  if !app.remote.pconn then app else callBack (sendMsg env .bleInputEnabled) app

def sendAppMsg (env : Env) (msg : AppMsg) (app : App) : App :=
  if env.sent then { app with msgs := app.msgs ++ [msg] } else app

/-- `is_need_deliver_to_app`, and the key if it is to be sent. The flags of a voice session
are not part of the connection. -/
def deliverKey (key : KeyValue) (app : App) : App :=
  let code := actsGetBleKeycode key.code
  if code = remoteKeyVoiceCommand then app
  else if code ∈ remoteCombKeys.take 5 then
    let app := { app with remote := { app.remote with pairCombKeyTimerStart := key.down } }
    if key.down then rmcTimerStart .pairCombKey app else rmcTimerStop .pairCombKey app
  else if code ∈ remoteCombKeys then
    let app := { app with remote := { app.remote with hciModeCombKeyTimerStart := key.down } }
    if key.down then rmcTimerStart .hciModeCombKey app else rmcTimerStop .hciModeCombKey app
  else
    let app :=
      if app.remote.pairCombKeyTimerStart then rmcTimerStop .pairCombKey app else app
    let app :=
      if app.remote.hciModeCombKeyTimerStart then rmcTimerStop .hciModeCombKey app else app
    { app with remote := sendBleKeycode 0 key (stopCombKeyTimers app.remote) }

def inputEventHandle (env : Env) (key : KeyValue) (app : App) : App :=
  deliverKey key (smExecute env .inputKey app)

/-- `system_app_timer_event_handle`. The battery is measured again while connected, and the
application is left for the HCI mode. -/
def appTimerEventHandle (env : Env) (id : TimerId) (app : App) : App :=
  match id with
  | .adv => smExecute env .timerAdvTimeout app
  | .directAdv => smExecute env .timerDirectAdvTimeout app
  | .noAct => smExecute env .timerNoActTimeout app
  | .adcBattery =>
      if app.remote.rmcStatus = .connected then rmcTimerStart .adcBattery app else app
  | .pairCombKey => smExecute env .clearPiarKey app
  | .hciModeCombKey => { app with rebooted := true }
  | .rmcSec => smExecute env .timerSecTimeout app

def appMain (env : Env) (app : App) : App :=
  match app.msgs with
  | [] => app
  | msg :: rest =>
      let app := { app with msgs := rest }
      match msg with
      | .keyInput key =>
          let app := rmcTimerStart .noAct app
          if app.btReadyFlag then inputEventHandle env key app else app
      | .bleState evt =>
          smExecute env evt { app with remote := { app.remote with reconnTimes := 0 } }
      | .appTimer id => appTimerEventHandle env id app
      | .lowPower => smExecute env .lowPower app

inductive AppAction where
  | btReady (env : Env)
  | key (env : Env) (key : KeyValue)
  | connected (env : Env)
  | disconnected (env : Env) (userTerm : Bool)
  | securityChanged (env : Env)
  | reportChannelEnable (env : Env)
  | timer (env : Env) (id : TimerId)
  | lowPower (env : Env)
  | main (env : Env)
deriving DecidableEq

/-- A step of the application; after `rmc_sm_init` the stack gets ready once, and its
callbacks are registered then. -/
def appStep (app : App) (action : AppAction) : App :=
  if app.rebooted then app
  else
    match action with
    | .btReady env =>
        if app.btReadyFlag then app
        else { smExecute env .powerUp app with btReadyFlag := true }
    | .key env key => sendAppMsg env (.keyInput key) app
    | .connected env => if app.btReadyFlag then connectedCb env app else app
    | .disconnected env userTerm =>
        if app.btReadyFlag then disconnectedCb env userTerm app else app
    | .securityChanged env => if app.btReadyFlag then securityChangedCb env app else app
    | .reportChannelEnable env =>
        if app.btReadyFlag then reportChannelEnable env app else app
    | .timer env id =>
        if id ∈ app.timers then sendAppMsg env (.appTimer id) (rmcTimerStop id app) else app
    | .lowPower env => sendAppMsg env .lowPower app
    | .main env => appMain env app

/-! ## The contract -/

/-- Pairing mode was entered only while the pairing was cleared. -/
def OnlyCleared (app : App) : Prop := ∀ evt ∈ app.pairings, evt = .clearPiarKey

instance (app : App) : Decidable (OnlyCleared app) :=
  inferInstanceAs (Decidable (∀ evt ∈ app.pairings, evt = .clearPiarKey))

/-- Every chain of events that an event leads to is finite, and pairing mode is entered in
every state of a run only while the pairing is cleared. -/
def PairsWhenCleared (actions : List AppAction) : Prop :=
  (∀ env evt remote, ∃ calls, (rmcSmExecute env calls evt remote).isSome) ∧
    Throughout appStep OnlyCleared {} actions

/-- The message of a new connection is handled before the state machine is idle, or while
the connection is still there, or when advertising cannot start. -/
def ConnectedInTime (app : App) : AppAction → Prop
  | .main env =>
      app.rebooted = false → app.msgs.head? = some (.bleState .bleConnected) →
        app.remote.rmcStatus = .idle → app.remote.pconn = true ∨ env.advFails = true
  | _ => True

instance (app : App) (action : AppAction) : Decidable (ConnectedInTime app action) :=
  match action with
  | .main _ => inferInstanceAs (Decidable (_ → _ → _ → _ ∨ _))
  | .btReady _ => inferInstanceAs (Decidable True)
  | .key _ _ => inferInstanceAs (Decidable True)
  | .connected _ => inferInstanceAs (Decidable True)
  | .disconnected _ _ => inferInstanceAs (Decidable True)
  | .securityChanged _ => inferInstanceAs (Decidable True)
  | .reportChannelEnable _ => inferInstanceAs (Decidable True)
  | .timer _ _ => inferInstanceAs (Decidable True)
  | .lowPower _ => inferInstanceAs (Decidable True)

/-! ## What the state machine starts -/

/-- The cells of the table with the action for pairing. -/
theorem rmcStateTable_adv {status : RmcStatus} {evt : RmcMsg}
    (haction : (rmcStateTable status evt).2 = .adv) :
    evt = .clearPiarKey ∨ evt = .bleConnected ∧ status = .idle := by
  cases status <;> cases evt <;>
    first | exact .inl rfl | exact .inr ⟨rfl, rfl⟩ | cases haction

/-- The event starts pairing although no pairing is cleared. -/
def StartsPairing (env : Env) (evt : RmcMsg) (remote : Remote) : Prop :=
  evt = .bleConnected ∧ remote.rmcStatus = .idle ∧ remote.pconn = false ∧ env.advFails = false

/-- Any other event starts pairing only by clearing it. -/
theorem cleared_of_rmcSmTrace {env : Env} {calls : Nat} {evt : RmcMsg} {remote next : Remote}
    {effects : List AdvEffect} (htrace : rmcSmTrace env calls evt remote = some (next, effects))
    (hnot : ¬StartsPairing env evt remote) {cause : RmcMsg}
    (hpairing : AdvEffect.pairing cause ∈ effects) : cause = .clearPiarKey := by
  induction calls generalizing evt remote with
  | zero => cases htrace
  | succ calls ih =>
      rw [rmcSmTrace] at htrace
      dsimp only at htrace
      cases haction : (rmcStateTable remote.rmcStatus evt).2 with
      | adv =>
          rw [haction] at htrace
          cases htrace
          rw [startAdvEffects] at hpairing
          split at hpairing
          next => cases hpairing
          next hstarts =>
            rw [Bool.or_eq_true, not_or, Bool.not_eq_true, Bool.not_eq_true] at hstarts
            obtain rfl : cause = evt := by simpa using hpairing
            rcases rmcStateTable_adv haction with rfl | ⟨rfl, hidle⟩
            · rfl
            · exact absurd ⟨rfl, hidle, hstarts.1, hstarts.2⟩ hnot
      | directAdv =>
          rw [haction] at htrace
          obtain ⟨_, _, hnested⟩ := rmcSmActStartDirectAdv_cases env
            { remote with rmcStatus := (rmcStateTable remote.rmcStatus evt).1 }
          dsimp only at htrace
          split at htrace
          next after hafter =>
            cases htrace
            split at hpairing
            next => cases hpairing
            next => simp at hpairing
          next after nested hafter =>
            rw [hafter] at hnested
            refine ih htrace ?_
            rintro ⟨rfl, -⟩
            rcases hnested _ rfl with hevt | hevt
            · cases hevt
            · cases hevt
      | none | stopAdv | disconnectConn | sendKey | connected =>
          rw [haction] at htrace
          cases htrace
          cases hpairing

/-- The message of a connection that is gone starts pairing. -/
theorem rmcSmTrace_of_startsPairing {env : Env} {evt : RmcMsg} {remote : Remote}
    (hstarts : StartsPairing env evt remote) (calls : Nat) :
    ∃ next, rmcSmTrace env (calls + 1) evt remote = some (next, [.pairing .bleConnected]) := by
  obtain ⟨rfl, hidle, hpconn, hadv⟩ := hstarts
  rw [rmcSmTrace, hidle]
  simp [rmcStateTable, startAdvEffects, hpconn, hadv]

/-! ## Steps -/

section Steps

variable {env : Env} {app : App}

@[simp] theorem rmcTimerStop_pairings (id : TimerId) (app : App) :
    (rmcTimerStop id app).pairings = app.pairings := rfl

@[simp] theorem rmcTimerStart_pairings (id : TimerId) (app : App) :
    (rmcTimerStart id app).pairings = app.pairings := rfl

@[simp] theorem sendAppMsg_pairings (env : Env) (msg : AppMsg) (app : App) :
    (sendAppMsg env msg app).pairings = app.pairings := by
  rw [sendAppMsg]
  split
  next => rfl
  next => rfl

@[simp] theorem deliverKey_pairings (key : KeyValue) (app : App) :
    (deliverKey key app).pairings = app.pairings := by
  rw [deliverKey]
  dsimp only
  split_ifs
  all_goals rfl

/-- The event that an effect adds to the pairings. -/
def AdvEffect.cause : AdvEffect → Option RmcMsg
  | .pairing evt => some evt
  | .reconnecting => none

theorem foldl_applyEffect_pairings (effects : List AdvEffect) (app : App) :
    (effects.foldl applyEffect app).pairings =
      app.pairings ++ effects.filterMap AdvEffect.cause := by
  induction effects generalizing app with
  | nil => simp
  | cons effect rest ih =>
      rw [List.foldl_cons, ih]
      cases effect with
      | pairing evt => simp [applyEffect, AdvEffect.cause]
      | reconnecting => exact congrArg (app.pairings ++ ·) (List.filterMap_cons_none rfl).symm

/-- The state machine of the application ends, too. -/
theorem exists_rmcSmTrace (env : Env) (evt : RmcMsg) (remote : Remote) :
    ∃ next effects, rmcSmTrace env 2 evt remote = some (next, effects) := by
  have hsome := isSome_rmcSmExecute env evt remote
  rw [← rmcSmTrace_fst, Option.isSome_map] at hsome
  obtain ⟨⟨next, effects⟩, htrace⟩ := Option.isSome_iff_exists.mp hsome
  exact ⟨next, effects, htrace⟩

/-- The remote control of the application is the one of the state machine. -/
theorem smExecute_remote (env : Env) (evt : RmcMsg) (app : App) :
    (smExecute env evt app).remote = execute env evt app.remote := by
  obtain ⟨next, effects, htrace⟩ := exists_rmcSmTrace env evt app.remote
  have hexecute := rmcSmTrace_fst env 2 evt app.remote
  have hkept : ∀ (effects : List AdvEffect) (current : App),
      (effects.foldl applyEffect current).remote = current.remote := by
    intro effects
    induction effects with
    | nil => intro current; rfl
    | cons effect rest ih =>
        intro current
        rw [List.foldl_cons, ih]
        cases effect with
        | pairing evt => rfl
        | reconnecting => rfl
  rw [htrace] at hexecute
  rw [smExecute, htrace, execute, ← hexecute, Option.getD_some]
  exact hkept effects _

/-- An event keeps the contract exactly if it does not start pairing by itself. -/
theorem onlyCleared_smExecute_iff (hcleared : OnlyCleared app) (evt : RmcMsg) :
    OnlyCleared (smExecute env evt app) ↔ ¬StartsPairing env evt app.remote := by
  obtain ⟨next, effects, htrace⟩ := exists_rmcSmTrace env evt app.remote
  have hpairings : (smExecute env evt app).pairings =
      app.pairings ++ effects.filterMap AdvEffect.cause := by
    rw [smExecute, htrace]
    exact foldl_applyEffect_pairings effects _
  constructor
  · intro hafter hstarts
    obtain ⟨other, hother⟩ := rmcSmTrace_of_startsPairing hstarts 1
    rw [htrace] at hother
    obtain ⟨-, rfl⟩ := Prod.mk.inj (Option.some.inj hother)
    have hevt := hafter .bleConnected (by rw [hpairings]; simp [AdvEffect.cause])
    cases hevt
  · intro hnot cause hcause
    rw [hpairings, List.mem_append, List.mem_filterMap] at hcause
    rcases hcause with hbefore | ⟨effect, heffect, hevt⟩
    · exact hcleared cause hbefore
    · cases effect with
      | pairing evt' =>
          obtain rfl : evt' = cause := Option.some.inj hevt
          exact cleared_of_rmcSmTrace htrace hnot heffect
      | reconnecting => cases hevt

theorem onlyCleared_smExecute (hcleared : OnlyCleared app) {evt : RmcMsg}
    (hevt : evt ≠ .bleConnected) : OnlyCleared (smExecute env evt app) :=
  (onlyCleared_smExecute_iff hcleared evt).mpr fun hstarts => hevt hstarts.1

theorem onlyCleared_appTimerEventHandle (hcleared : OnlyCleared app) (id : TimerId) :
    OnlyCleared (appTimerEventHandle env id app) := by
  cases id with
  | adv => exact onlyCleared_smExecute hcleared (by decide)
  | directAdv => exact onlyCleared_smExecute hcleared (by decide)
  | noAct => exact onlyCleared_smExecute hcleared (by decide)
  | adcBattery =>
      rw [appTimerEventHandle]
      split
      next => exact hcleared
      next => exact hcleared
  | pairCombKey => exact onlyCleared_smExecute hcleared (by decide)
  | hciModeCombKey => exact hcleared
  | rmcSec => exact onlyCleared_smExecute hcleared (by decide)

/-- A step of the main loop keeps the contract exactly if it is in time. -/
theorem onlyCleared_appMain_iff (hcleared : OnlyCleared app) :
    OnlyCleared (appMain env app) ↔
      (app.msgs.head? = some (.bleState .bleConnected) → app.remote.rmcStatus = .idle →
        app.remote.pconn = true ∨ env.advFails = true) := by
  rw [appMain]
  cases app.msgs with
  | nil => exact iff_of_true hcleared (by simp)
  | cons msg rest =>
      have htaken : OnlyCleared { app with msgs := rest } := hcleared
      cases msg with
      | keyInput key =>
          refine iff_of_true ?_ (by simp)
          dsimp only
          split
          next =>
            have hstarted : OnlyCleared (rmcTimerStart .noAct { app with msgs := rest }) := hcleared
            rw [inputEventHandle, OnlyCleared, deliverKey_pairings]
            exact onlyCleared_smExecute hstarted (by decide)
          next => exact hcleared
      | bleState evt =>
          have hreset : OnlyCleared
              { app with msgs := rest, remote := { app.remote with reconnTimes := 0 } } := hcleared
          refine (onlyCleared_smExecute_iff hreset evt).trans ?_
          rw [StartsPairing, List.head?_cons, Option.some.injEq, AppMsg.bleState.injEq]
          simp only [not_and, Bool.not_eq_false]
          refine forall_congr' fun _ => forall_congr' fun _ => ?_
          cases app.remote.pconn with
          | false => simp
          | true => simp
      | appTimer id => exact iff_of_true (onlyCleared_appTimerEventHandle htaken id) (by simp)
      | lowPower =>
          have hlow : OnlyCleared (smExecute env .lowPower { app with msgs := rest }) :=
            onlyCleared_smExecute htaken (by decide)
          exact iff_of_true hlow (by simp)

/-- The callbacks clear the pairing themselves or leave pairing mode to the main loop. -/
theorem onlyCleared_securityChangedCb (hcleared : OnlyCleared app) :
    OnlyCleared (securityChangedCb env app) := by
  rw [securityChangedCb]
  split_ifs
  · exact hcleared
  · exact onlyCleared_smExecute hcleared (by decide)
  · exact hcleared

/-- Any step but one of the main loop keeps the contract. -/
theorem onlyCleared_appStep (hcleared : OnlyCleared app) {action : AppAction}
    (hother : ∀ env, action ≠ .main env) : OnlyCleared (appStep app action) := by
  unfold appStep
  split
  next => exact hcleared
  next =>
    cases action with
    | btReady env =>
        dsimp only
        split
        next => exact hcleared
        next => exact onlyCleared_smExecute hcleared (by decide)
    | key env key =>
        rw [OnlyCleared, sendAppMsg_pairings]
        exact hcleared
    | connected env =>
        dsimp only [connectedCb]
        split_ifs
        all_goals exact hcleared
    | disconnected env userTerm =>
        dsimp only [disconnectedCb]
        split_ifs
        all_goals exact hcleared
    | securityChanged env =>
        dsimp only
        split
        next => exact onlyCleared_securityChangedCb hcleared
        next => exact hcleared
    | reportChannelEnable env =>
        dsimp only [reportChannelEnable]
        split_ifs
        all_goals exact hcleared
    | timer env id =>
        dsimp only
        split
        next =>
          rw [OnlyCleared, sendAppMsg_pairings]
          exact hcleared
        next => exact hcleared
    | lowPower env =>
        rw [OnlyCleared, sendAppMsg_pairings]
        exact hcleared
    | main env => exact absurd rfl (hother env)

theorem onlyCleared_appStep_main_iff (hcleared : OnlyCleared app) :
    OnlyCleared (appStep app (.main env)) ↔ ConnectedInTime app (.main env) := by
  rw [appStep, ConnectedInTime]
  cases hrebooted : app.rebooted with
  | true => exact iff_of_true hcleared (by simp)
  | false =>
      rw [forall_prop_of_true rfl]
      exact onlyCleared_appMain_iff hcleared

theorem onlyCleared_appStep_iff (hcleared : OnlyCleared app) (action : AppAction) :
    OnlyCleared (appStep app action) ↔ ConnectedInTime app action := by
  cases action with
  | main env => exact onlyCleared_appStep_main_iff hcleared
  | _ => exact iff_of_true (onlyCleared_appStep hcleared (by simp)) trivial

end Steps

theorem onlyCleared_init : OnlyCleared {} := by decide

/-- Pairing mode is entered only while the pairing is cleared exactly if no message of a
connection is handled after the connection is gone and the state machine is idle. -/
theorem pairsWhenCleared_iff (actions : List AppAction) :
    PairsWhenCleared actions ↔ Along appStep ConnectedInTime {} actions := by
  have hfinite : ∀ env evt remote, ∃ calls, (rmcSmExecute env calls evt remote).isSome :=
    fun env evt remote => ⟨2, isSome_rmcSmExecute env evt remote⟩
  rw [PairsWhenCleared, and_iff_right hfinite, throughout_iff_along,
    and_iff_right onlyCleared_init]
  apply along_congr_of_invariant OnlyCleared
  · intro app action hcleared
    exact onlyCleared_appStep_iff hcleared action
  · intro app action hcleared htime
    exact (onlyCleared_appStep_iff hcleared action).mpr htime
  · exact onlyCleared_init

/-! ## A connection that is lost twice -/

/-- A bond is stored, and everything succeeds. -/
def bonded : Env := { paired := true, advFails := false, hidCccEnabled := true, sent := true }

/-- The timeout for the security is queued before the link is lost, so that the state machine
is idle when it tries to connect again; and the new connection is lost at once. -/
def lostTwice : List AppAction :=
  [.btReady bonded, .connected bonded, .main bonded, .timer bonded .rmcSec,
    .disconnected bonded false, .main bonded, .main bonded, .connected bonded,
    .disconnected bonded false, .main bonded]

theorem lostTwice_pairs :
    (run appStep {} lostTwice).pairings = [.bleConnected] ∧
      (run appStep {} lostTwice).remote.enterPairingMode = true ∧
      ¬PairsWhenCleared lostTwice := by
  refine ⟨by decide, by decide, ?_⟩
  rintro ⟨-, hall⟩
  have hlast := hall.last
  revert hlast
  decide

end CubieBle.Rcu
