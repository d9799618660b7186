import CubieBle.Central.Phases
import CubieBle.Machine.Rounds

/-! # Runs of the central

In every run the central is in one of its phases, and a connection that lasts brings it to the
last one.
-/

namespace CubieBle.Central

open Machine

section Runs

variable {btUuidCmp : Uuid → Uuid → Int} {served : HostCall → Prop} {rmc : Rmc}

/-! ## Every event keeps the phases -/

theorem phase_deviceFound (hphase : Phase btUuidCmp served rmc) (hlink : rmc.link = .scanning)
    {results : List ConnectResults}
    (hstops : results.countP (fun result => result.leScanStop = 0) ≤ 1) (type : UInt8)
    (ad : List UInt8) : Phase btUuidCmp served (deviceFound rmc type ad results) := by
  cases hphase with
  | searching _ hdown hqueue hmain hpast =>
      have hcase : FoundCase rmc (deviceFound rmc type ad results) :=
        deviceFound_cases hstops type ad
      generalize deviceFound rmc type ad results = next at hcase ⊢
      cases hcase with
      | ignored => exact .searching (.inl hlink) hdown hqueue hmain hpast
      | connecting =>
          exact .searching (.inr rfl) (hdown.frame rfl rfl rfl) hqueue hmain hpast
      | failed =>
          rw [sendAsyncMsg_of_lt (by rw [hqueue]; decide), hqueue]
          exact .restarting [] .scan rfl (hdown.frame rfl rfl rfl) rfl (.inl rfl) nofun
            (Nat.zero_le _) hpast
  | restarting _ _ hidle | stopped _ hidle => exact absurd (hlink.symm.trans hidle) nofun
  | connected _ _ _ _ _ hup => exact absurd (hlink.symm.trans hup.link) nofun

theorem phase_connected (hphase : Phase btUuidCmp served rmc) (hlink : rmc.link = .connecting)
    (found : Option Peer) : Phase btUuidCmp served (connected rmc found) := by
  cases hphase with
  | searching _ hdown hqueue hmain hpast =>
      cases found with
      | none =>
          rw [connected, sendAsyncMsg_of_lt (by rw [hqueue]; decide), hqueue]
          exact .restarting [] .scan rfl (hdown.frame rfl rfl rfl) rfl (.inl rfl) nofun
            (Nat.zero_le _) hpast
      | some peer =>
          rw [connected, sendAsyncMsg_of_lt (by rw [hqueue]; decide), hqueue]
          exact .connected peer [] 0 rmc.sessions _ ⟨rfl, rfl, hdown.fresh⟩ rfl
            (.found rfl hmain hdown.pending hdown.listed) hpast
  | restarting _ _ hidle | stopped _ hidle => exact absurd (hlink.symm.trans hidle) nofun
  | connected _ _ _ _ _ hup => exact absurd (hlink.symm.trans hup.link) nofun

theorem phase_report (hphase : Phase btUuidCmp served rmc) {err : Int}
    (hserved : served .gattDiscover → err = 0) : Phase btUuidCmp served (report rmc err) := by
  cases hphase with
  | searching hlink hdown hqueue hmain hpast =>
      rw [report_of_none hdown.pending]
      exact .searching hlink hdown hqueue hmain hpast
  | restarting earlier msg hlink hdown hqueue hmsg hearlier hroom hpast =>
      rw [report_of_none hdown.pending]
      exact .restarting earlier msg hlink hdown hqueue hmsg hearlier hroom hpast
  | stopped hfailed hlink hdown hqueue hmain hpast =>
      rw [report_of_none hdown.pending]
      exact .stopped hfailed hlink hdown hqueue hmain hpast
  | connected peer requests retries older left hup hsessions hstage hpast =>
      by_cases hpending : rmc.pending = none
      · rw [report_of_none hpending]
        exact .connected peer requests retries older left hup hsessions hstage hpast
      · obtain ⟨hnext, hsame, left', -, hstage'⟩ := stage_report hup hstage hpending hserved
        exact .connected peer requests retries older left' hnext (hsame.trans hsessions) hstage'
          hpast

/-- What is left in the queue when the connection is lost. -/
def Leftover (queue : List Msg) : Prop :=
  (∀ msg ∈ queue, msg = .connected ∨ msg = .discoverComplete) ∧ queue.length ≤ 1

theorem leftover_nil : Leftover [] := ⟨nofun, Nat.zero_le _⟩

theorem leftover_singleton {msg : Msg} (hmsg : msg = .connected ∨ msg = .discoverComplete) :
    Leftover [msg] :=
  ⟨fun _ hother => List.mem_singleton.mp hother ▸ hmsg, Nat.le_refl _⟩

theorem leftover_of_stage {peer : Peer} {requests : List Request} {left : Nat}
    (hstage : Stage btUuidCmp served rmc peer requests left) : Leftover rmc.queue := by
  cases hstage with
  | found hqueue =>
      rw [hqueue]
      exact leftover_singleton (.inl rfl)
  | complete hqueue =>
      rw [hqueue]
      exact leftover_singleton (.inr rfl)
  | discovering _ _ hqueue | notifying _ _ hqueue | subscribed hqueue | stalled _ hqueue =>
      rw [hqueue]
      exact leftover_nil

/-- Without a connection the end of a discovery starts no other one. -/
theorem leftover_discoverFunc (rmc : Rmc) (err : Int) (hlink : rmc.link = .idle)
    (hqueue : rmc.queue = []) :
    ∃ type queue, discoverFunc rmc err none = { rmc with discoverType := type, queue := queue } ∧
      Leftover queue := by
  have hnone : ∀ type, btGattDiscover { rmc with discoverType := type } err =
      { rmc with discoverType := type } := by
    intro type
    rw [btGattDiscover, hlink]
    exact ite_self _
  rw [discoverFunc]
  cases rmc.discoverType with
  | primary => exact ⟨.secondary, rmc.queue, hnone _, by rw [hqueue]; exact leftover_nil⟩
  | secondary => exact ⟨.characteristic, rmc.queue, hnone _, by rw [hqueue]; exact leftover_nil⟩
  | characteristic =>
      dsimp only
      rw [sendAsyncMsg_of_lt (by rw [hqueue]; decide), hqueue]
      exact ⟨.primary, [.discoverComplete], rfl, leftover_singleton (.inr rfl)⟩

theorem restarting_of_disconnected {peer : Peer} (hconn : rmc.defaultConn = some peer)
    (hlink : rmc.link = .idle) (hpending : rmc.pending = none) (hqueue : Leftover rmc.queue)
    (hpast : Past btUuidCmp rmc.sessions) : Phase btUuidCmp served (disconnected rmc) := by
  have hroom : rmc.queue.length < msgBufferPoolAsync := hqueue.2.trans_lt (by decide)
  have hnext : disconnected rmc =
      { rmc with
        table := serviceInit rmc.table
        defaultConn := none
        queue := rmc.queue ++ [.disconnected] } := by
    rw [disconnected, hconn]
    exact if_pos hroom
  rw [hnext]
  exact .restarting rmc.queue .disconnected hlink
    ⟨rfl, hpending, listed_serviceInit rmc.table, fresh_serviceInit rmc.table⟩ rfl (.inr rfl)
    hqueue.1 hqueue.2 hpast

theorem phase_linkLost {peer : Peer} (hphase : Phase btUuidCmp served rmc)
    (hlink : rmc.link = .connected peer) (aborted : Bool) (err : Int) :
    Phase btUuidCmp served (linkLost rmc aborted err) := by
  cases hphase with
  | searching hsearching =>
      rcases hsearching with hscanning | hconnecting
      · exact absurd (hlink.symm.trans hscanning) nofun
      · exact absurd (hlink.symm.trans hconnecting) nofun
  | restarting _ _ hidle | stopped _ hidle => exact absurd (hlink.symm.trans hidle) nofun
  | connected peer requests retries older left hup hsessions hstage hpast =>
      have hall : Past btUuidCmp rmc.sessions := by
        rw [hsessions]
        exact List.forall_mem_cons.mpr ⟨hstage.isPrefix, hpast⟩
      have hleftover := leftover_of_stage hstage
      cases hsome : rmc.pending with
      | none =>
          unfold linkLost
          rw [hsome]
          exact restarting_of_disconnected hup.conn rfl rfl hleftover hall
      | some reports =>
          unfold linkLost
          rw [hsome]
          cases aborted with
          | false =>
              exact restarting_of_disconnected hup.conn rfl rfl hleftover hall
          | true =>
              obtain ⟨hempty, -⟩ := idle_of_pending hstage (by rw [hsome]; exact nofun)
              obtain ⟨type, queue, hnext, hleftover⟩ :=
                leftover_discoverFunc { rmc with link := .idle, pending := none } err rfl hempty
              dsimp only
              rw [hnext]
              exact restarting_of_disconnected hup.conn rfl rfl hleftover hall

/-- A queue that ends with the message to search again. -/
theorem phase_appMain_restarting {earlier : List Msg} {msg : Msg} (hlink : rmc.link = .idle)
    (hdown : Down rmc) (hqueue : rmc.queue = earlier ++ [msg])
    (hmsg : msg = .scan ∨ msg = .disconnected)
    (hearlier : ∀ other ∈ earlier, other = .connected ∨ other = .discoverComplete)
    (hroom : earlier.length ≤ 1) (hpast : Past btUuidCmp rmc.sessions) {scanErr err : Int}
    (hserved : served .leScanStart → scanErr = 0) :
    Phase btUuidCmp served (appMain btUuidCmp rmc scanErr err) := by
  cases hmain : rmc.main with
  | notifying i j =>
      rw [appMain_of_notifying hmain]
      have hcase := nofityEnable_cases btUuidCmp rmc i j
      generalize nofityEnable btUuidCmp rmc i j = next at hcase ⊢
      cases hcase with
      | chrc _ _ hservice => rw [hdown.listed] at hservice; cases hservice
      | service _ hservice => rw [hdown.listed] at hservice; cases hservice
      | finished =>
          have hpair : pair rmc = rmc := by
            rw [pair, hdown.conn]
          rw [hpair]
          exact .restarting earlier msg hlink (hdown.frame rfl rfl rfl) hqueue hmsg hearlier hroom
            hpast
  | idle =>
      cases earlier with
      | nil =>
          rw [appMain_of_queue hmain hqueue]
          have hscan : handleMsg { rmc with queue := [] } scanErr err msg =
              startScan { rmc with queue := [] } scanErr := by
            rcases hmsg with rfl | rfl
            · rfl
            · rfl
          rw [hscan, startScan]
          by_cases hstarted : scanErr = 0
          · rw [if_neg (not_not.mpr hstarted)]
            exact .searching (.inl rfl) (hdown.frame rfl rfl rfl) rfl hmain hpast
          · rw [if_pos hstarted]
            exact .stopped (fun h => hstarted (hserved h)) hlink (hdown.frame rfl rfl rfl) rfl
              hmain hpast
      | cons first earlier =>
          rw [List.cons_append] at hqueue
          obtain ⟨hfirst, hrest⟩ := List.forall_mem_cons.mp hearlier
          rw [appMain_of_queue hmain hqueue]
          rcases hfirst with rfl | rfl
          · have hstart : startDiscover { rmc with queue := earlier ++ [msg] } err =
                { rmc with queue := earlier ++ [msg] } := by
              rw [startDiscover, hdown.conn]
            rw [handleMsg, hstart]
            exact .restarting earlier msg hlink (hdown.frame rfl rfl rfl) rfl hmsg hrest
              (Nat.le_of_succ_le hroom) hpast
          · exact .restarting earlier msg hlink (hdown.frame rfl rfl rfl) rfl hmsg hrest
              (Nat.le_of_succ_le hroom) hpast

theorem phase_appMain (hphase : Phase btUuidCmp served rmc) {scanErr err : Int}
    (hscan : served .leScanStart → scanErr = 0) (hdiscover : served .gattDiscover → err = 0) :
    Phase btUuidCmp served (appMain btUuidCmp rmc scanErr err) := by
  cases hphase with
  | searching hlink hdown hqueue hmain hpast =>
      rw [appMain_of_empty hmain hqueue]
      exact .searching hlink hdown hqueue hmain hpast
  | restarting earlier msg hlink hdown hqueue hmsg hearlier hroom hpast =>
      exact phase_appMain_restarting hlink hdown hqueue hmsg hearlier hroom hpast hscan
  | stopped hfailed hlink hdown hqueue hmain hpast =>
      rw [appMain_of_empty hmain hqueue]
      exact .stopped hfailed hlink hdown hqueue hmain hpast
  | connected peer requests retries older left hup hsessions hstage hpast =>
      by_cases hpending : rmc.pending = none
      · rcases stage_appMain scanErr hup hsessions hstage hpending hdiscover with
          ⟨-, hsame⟩ | ⟨hnext, requests', left', -, hsessions', hstage'⟩
        · rw [hsame]
          exact .connected peer requests retries older left hup hsessions hstage hpast
        · exact .connected peer requests' retries older left' hnext hsessions' hstage' hpast
      · rw [appMain_of_pending hstage hpending]
        exact .connected peer requests retries older left hup hsessions hstage hpast

theorem phase_securityChanged {peer : Peer} (hphase : Phase btUuidCmp served rmc)
    (hlink : rmc.link = .connected peer) (level : BtSecurity) (err : Int) :
    Phase btUuidCmp served (securityChanged rmc level err) := by
  cases hphase with
  | searching hsearching =>
      rcases hsearching with hscanning | hconnecting
      · exact absurd (hlink.symm.trans hscanning) nofun
      · exact absurd (hlink.symm.trans hconnecting) nofun
  | restarting _ _ hidle | stopped _ hidle => exact absurd (hlink.symm.trans hidle) nofun
  | connected peer requests retries older left hup hsessions hstage hpast =>
      obtain ⟨retries', count, hnext⟩ := securityChanged_cases rmc level err hsessions
      rw [hnext]
      exact .connected peer requests retries' older left ⟨hup.link, hup.conn, hup.fresh⟩ rfl
        (hstage.withSecurity count _) hpast

/-- The scan is stopped at most once by an event, and the calls that are served succeed. -/
def Event.Serves (served : HostCall → Prop) (event : Event) : Prop :=
  event.StopsOnce ∧ ∀ call, served call → event.Succeeds call

theorem phase_step (hphase : Phase btUuidCmp served rmc) {event : Event}
    (hserves : event.Serves served) : Phase btUuidCmp served (rmcStep btUuidCmp rmc event) := by
  obtain ⟨hstops, hsucceeds⟩ := hserves
  cases event with
  | deviceFound type ad results =>
      rw [rmcStep]
      split
      · exact phase_deviceFound hphase ‹_› hstops type ad
      · exact hphase
  | connectionComplete found =>
      rw [rmcStep]
      split
      · exact phase_connected hphase ‹_› found
      · exact hphase
  | report err => exact phase_report hphase (hsucceeds .gattDiscover)
  | linkLost aborted err =>
      rw [rmcStep]
      split
      · exact phase_linkLost hphase ‹_› aborted err
      · exact hphase
  | securityChanged level err =>
      rw [rmcStep]
      split
      · exact phase_securityChanged hphase ‹_› level err
      · exact hphase
  | main scanErr err =>
      exact phase_appMain hphase (hsucceeds .leScanStart) (hsucceeds .gattDiscover)

/-! ## What holds in every state -/

theorem phase_start (btUuidCmp : Uuid → Uuid → Int) {scanErr : Int}
    (hserved : served .leScanStart → scanErr = 0) :
    Phase btUuidCmp served (rmcStart scanErr) := by
  rw [rmcStart, startScan]
  by_cases hstarted : scanErr = 0
  · rw [if_neg (not_not.mpr hstarted)]
    exact .searching (.inl rfl) ⟨rfl, rfl, rfl, fresh_serviceInit _⟩ rfl rfl nofun
  · rw [if_pos hstarted]
    exact .stopped (fun h => hstarted (hserved h)) rfl ⟨rfl, rfl, rfl, fresh_serviceInit _⟩ rfl
      rfl nofun

theorem throughout_phase {scanErr : Int} (hserved : served .leScanStart → scanErr = 0)
    {events : List Event} (hserves : ∀ event ∈ events, event.Serves served) :
    Throughout (rmcStep btUuidCmp) (Phase btUuidCmp served) (rmcStart scanErr) events := by
  have hrun : Along (rmcStep btUuidCmp) (fun _ event => event.Serves served) (rmcStart scanErr)
      events := along_of_forall_mem hserves
  exact throughout_of_invariant _ (fun _ _ hphase hevent => phase_step hphase hevent)
    (phase_start btUuidCmp hserved) hrun

/-- The messages that start a scan. -/
def Msg.restarts : Msg → Bool
  | .scan | .disconnected => true
  | .connected | .discoverComplete => false

/-- The peer that is connected. -/
def Link.peer : Link → Option Peer
  | .connected peer => some peer
  | .idle | .scanning | .connecting => none

/-- No message is dropped, the connection is the present one, the table holds nothing but what its
peer has reported, and no peer was asked for more than its services call for. -/
structure Sound (btUuidCmp : Uuid → Uuid → Int) (rmc : Rmc) : Prop where
  restarts : rmc.queue.countP Msg.restarts ≤ if rmc.link = .idle then 1 else 0
  room : rmc.queue.length ≤ 2
  conn : rmc.defaultConn = rmc.link.peer
  listed : ∃ before, before <+: rmc.link.peer.toList.flatMap reports ∧
    rmc.table.listed = before.foldl listReport []
  requests : Past btUuidCmp rmc.sessions
  security : rmc.securityErrCnt ≤ rmcSecurityTryMaxTimes

/-- A search is about to start if nothing is searched for and nothing is connected. -/
def Restarts (rmc : Rmc) : Prop :=
  rmc.link = .idle → rmc.queue.countP Msg.restarts = 1

theorem countP_leftover {queue : List Msg} (hleftover : Leftover queue) :
    queue.countP Msg.restarts = 0 := by
  rw [List.countP_eq_zero]
  intro msg hmsg
  rcases hleftover.1 msg hmsg with rfl | rfl
  · exact Bool.false_ne_true
  · exact Bool.false_ne_true

theorem countP_restarting {earlier : List Msg} {msg : Msg}
    (hmsg : msg = .scan ∨ msg = .disconnected)
    (hearlier : ∀ other ∈ earlier, other = .connected ∨ other = .discoverComplete)
    (hroom : earlier.length ≤ 1) : (earlier ++ [msg]).countP Msg.restarts = 1 := by
  rw [List.countP_append, countP_leftover ⟨hearlier, hroom⟩]
  rcases hmsg with rfl | rfl
  · rfl
  · rfl

theorem Stage.listed {peer : Peer} {requests : List Request} {left : Nat}
    (hstage : Stage btUuidCmp served rmc peer requests left) :
    ListedFrom peer rmc.table.listed := by
  cases hstage with
  | found _ _ _ hlisted => exact ⟨[], List.nil_prefix, hlisted⟩
  | discovering before after _ _ _ hreported hlisted =>
      exact ⟨_, earlier_append_isPrefix hreported, hlisted⟩
  | complete _ _ _ hlisted | notifying _ _ _ _ _ hlisted | subscribed _ _ _ hlisted =>
      exact ⟨_, List.prefix_refl _, hlisted⟩
  | stalled _ _ _ _ hlisted => exact hlisted

/-- Nothing is connected, and at most one message is there to search again. -/
theorem sound_of_down (hdown : Down rmc) (hpeer : rmc.link.peer = none)
    (hrestarts : rmc.queue.countP Msg.restarts ≤ if rmc.link = .idle then 1 else 0)
    (hroom : rmc.queue.length ≤ 2) (hpast : Past btUuidCmp rmc.sessions)
    (hsecurity : rmc.securityErrCnt ≤ rmcSecurityTryMaxTimes) : Sound btUuidCmp rmc :=
  ⟨hrestarts, hroom, by rw [hdown.conn, hpeer], ⟨[], List.nil_prefix, hdown.listed⟩, hpast,
    hsecurity⟩

theorem Phase.sound (hphase : Phase btUuidCmp served rmc)
    (hsecurity : rmc.securityErrCnt ≤ rmcSecurityTryMaxTimes) : Sound btUuidCmp rmc := by
  cases hphase with
  | searching hlink hdown hqueue hmain hpast =>
      have hpeer : rmc.link.peer = none := by
        rcases hlink with hlink | hlink
        · rw [hlink]
          rfl
        · rw [hlink]
          rfl
      exact sound_of_down hdown hpeer (by simp [hqueue]) (by simp [hqueue]) hpast hsecurity
  | restarting earlier msg hlink hdown hqueue hmsg hearlier hroom hpast =>
      refine sound_of_down hdown (by rw [hlink]; rfl) ?_ ?_ hpast hsecurity
      · rw [hqueue, if_pos hlink, countP_restarting hmsg hearlier hroom]
      · rw [hqueue, List.length_append, List.length_singleton]
        omega
  | stopped _ hlink hdown hqueue hmain hpast =>
      exact sound_of_down hdown (by rw [hlink]; rfl) (by simp [hqueue]) (by simp [hqueue]) hpast
        hsecurity
  | connected peer requests retries older left hup hsessions hstage hpast =>
      have hleftover := leftover_of_stage hstage
      refine ⟨?_, hleftover.2.trans (by decide), ?_, ?_, ?_, hsecurity⟩
      · rw [countP_leftover hleftover]
        exact Nat.zero_le _
      · rw [hup.conn, hup.link]
        rfl
      · rw [hup.link, Link.peer, Option.toList_some, List.flatMap_singleton]
        exact hstage.listed
      · rw [hsessions]
        exact List.forall_mem_cons.mpr ⟨hstage.isPrefix, hpast⟩

theorem Phase.restarts (hphase : Phase btUuidCmp served rmc) (hserved : served .leScanStart) :
    Restarts rmc := by
  intro hidle
  cases hphase with
  | searching hlink =>
      rcases hlink with hlink | hlink
      · exact absurd (hidle.symm.trans hlink) nofun
      · exact absurd (hidle.symm.trans hlink) nofun
  | restarting earlier msg _ _ hqueue hmsg hearlier hroom =>
      rw [hqueue]
      exact countP_restarting hmsg hearlier hroom
  | stopped hfailed => exact absurd hserved hfailed
  | connected _ _ _ _ _ hup => exact absurd (hidle.symm.trans hup.link) nofun

/-! ## The counter of failed security changes -/

section Security

@[simp] theorem sendAsyncMsg_securityErrCnt (rmc : Rmc) (msgType : Msg) :
    (sendAsyncMsg rmc msgType).securityErrCnt = rmc.securityErrCnt := by
  rw [sendAsyncMsg]
  split
  · rfl
  · rfl

@[simp] theorem ask_securityErrCnt (rmc : Rmc) (request : Request) :
    (ask rmc request).securityErrCnt = rmc.securityErrCnt := by
  unfold ask
  split
  · rfl
  · rfl

@[simp] theorem pair_securityErrCnt (rmc : Rmc) :
    (pair rmc).securityErrCnt = rmc.securityErrCnt := by
  rw [pair]
  cases rmc.defaultConn with
  | none => rfl
  | some _ => exact ask_securityErrCnt rmc .security

@[simp] theorem btGattDiscover_securityErrCnt (rmc : Rmc) (err : Int) :
    (btGattDiscover rmc err).securityErrCnt = rmc.securityErrCnt := by
  rw [btGattDiscover]
  split
  · rfl
  · cases rmc.link with
    | _ => rfl

@[simp] theorem discoverFunc_securityErrCnt (rmc : Rmc) (err : Int) (attr : Option Attr) :
    (discoverFunc rmc err attr).securityErrCnt = rmc.securityErrCnt := by
  cases attr with
  | none =>
      rw [discoverFunc]
      cases rmc.discoverType with
      | _ => simp
  | some attr =>
      obtain ⟨handle, declaration⟩ := attr
      rw [discoverFunc]
      cases rmc.discoverType with
      | _ =>
          cases declaration with
          | _ => rfl

@[simp] theorem disconnected_securityErrCnt (rmc : Rmc) :
    (disconnected rmc).securityErrCnt = rmc.securityErrCnt := by
  rw [disconnected]
  cases rmc.defaultConn with
  | none => rfl
  | some _ => exact sendAsyncMsg_securityErrCnt _ _

theorem nofityEnable_securityErrCnt (rmc : Rmc) (i j : Nat) :
    (nofityEnable btUuidCmp rmc i j).securityErrCnt = rmc.securityErrCnt := by
  have hcase := nofityEnable_cases btUuidCmp rmc i j
  generalize nofityEnable btUuidCmp rmc i j = next at hcase ⊢
  cases hcase with
  | chrc =>
      dsimp only
      split
      · exact ask_securityErrCnt rmc _
      · rfl
  | service => rfl
  | finished => exact pair_securityErrCnt rmc

theorem appMain_securityErrCnt (rmc : Rmc) (scanErr err : Int) :
    (appMain btUuidCmp rmc scanErr err).securityErrCnt = rmc.securityErrCnt := by
  cases hmain : rmc.main with
  | notifying i j =>
      rw [appMain_of_notifying hmain]
      exact nofityEnable_securityErrCnt rmc i j
  | idle =>
      cases hqueue : rmc.queue with
      | nil => rw [appMain_of_empty hmain hqueue]
      | cons msg rest =>
          rw [appMain_of_queue hmain hqueue]
          cases msg with
          | connected =>
              rw [handleMsg, startDiscover]
              cases rmc.defaultConn with
              | none => rfl
              | some _ => exact btGattDiscover_securityErrCnt _ _
          | scan | disconnected =>
              rw [handleMsg, startScan]
              split
              · rfl
              · rfl
          | discoverComplete => rfl

theorem securityChanged_le (rmc : Rmc) (level : BtSecurity) (err : Int) :
    (securityChanged rmc level err).securityErrCnt ≤ rmcSecurityTryMaxTimes := by
  rw [securityChanged]
  split
  · split
    next hless =>
      split
      · exact UInt8.zero_le
      · rw [rmcSecurityTryMaxTimes, UInt8.lt_iff_toNat_lt] at hless
        rw [rmcSecurityTryMaxTimes, UInt8.le_iff_toNat_le, UInt8.toNat_add]
        exact (Nat.mod_le _ _).trans hless
    next => exact UInt8.zero_le
  · exact UInt8.zero_le

/-- In a row, no more failed changes are answered than the source allows. -/
theorem securityErrCnt_step (hle : rmc.securityErrCnt ≤ rmcSecurityTryMaxTimes) {event : Event}
    (hstops : event.StopsOnce) :
    (rmcStep btUuidCmp rmc event).securityErrCnt ≤ rmcSecurityTryMaxTimes := by
  cases event with
  | deviceFound type ad results =>
      have hcase : FoundCase rmc (deviceFound rmc type ad results) :=
        deviceFound_cases hstops type ad
      rw [rmcStep]
      generalize deviceFound rmc type ad results = next at hcase ⊢
      split
      · cases hcase with
        | ignored | connecting => exact hle
        | failed => simpa using hle
      · exact hle
  | connectionComplete found =>
      rw [rmcStep]
      split
      · cases found with
        | none | some => simpa [connected] using hle
      · exact hle
  | report err =>
      rw [rmcStep, report]
      split
      · exact hle
      · simpa using hle
      · simpa using hle
  | linkLost aborted err =>
      rw [rmcStep]
      split
      · unfold linkLost
        split
        · simpa using hle
        · simpa using hle
      · exact hle
  | securityChanged level err =>
      rw [rmcStep]
      split
      · exact securityChanged_le rmc level err
      · exact hle
  | main scanErr err =>
      rw [rmcStep, appMain_securityErrCnt]
      exact hle

theorem rmcStart_securityErrCnt (scanErr : Int) : (rmcStart scanErr).securityErrCnt = 0 := by
  rw [rmcStart, startScan]
  split
  · rfl
  · rfl

end Security

/-- In whatever order the events come and whatever the calls of the host return, as long as a scan
is not stopped twice, the messages of the two threads never get lost and never cross: no message
to search again waits while something is searched for or connected, the connection that the main
thread uses is the present one, what is listed was reported by its peer, and no peer is asked for
more than its own services call for. If every start of a scan succeeds, there is one message to
search again wherever nothing is searched for or connected. -/
theorem rmc_sound (btUuidCmp : Uuid → Uuid → Int) (scanErr : Int) (events : List Event)
    (hstops : ∀ event ∈ events, event.StopsOnce) :
    Throughout (rmcStep btUuidCmp) (Sound btUuidCmp) (rmcStart scanErr) events ∧
      (scanErr = 0 → (∀ event ∈ events, event.Succeeds .leScanStart) →
        Throughout (rmcStep btUuidCmp) Restarts (rmcStart scanErr) events) := by
  have hrun : Along (rmcStep btUuidCmp) (fun _ event => event.StopsOnce) (rmcStart scanErr)
      events := along_of_forall_mem hstops
  constructor
  · refine (throughout_of_invariant
      (fun rmc => Phase btUuidCmp (fun _ => False) rmc ∧
        rmc.securityErrCnt ≤ rmcSecurityTryMaxTimes) ?_ ⟨phase_start btUuidCmp nofun, ?_⟩
      hrun).imp fun _ hboth => hboth.1.sound hboth.2
    · rintro rmc event ⟨hphase, hle⟩ hevent
      exact ⟨phase_step hphase ⟨hevent, nofun⟩, securityErrCnt_step hle hevent⟩
    · rw [rmcStart_securityErrCnt]
      decide
  · intro hstart hscans
    have hserves : ∀ event ∈ events, event.Serves fun call => call = .leScanStart := by
      intro event hmem
      refine ⟨hstops event hmem, ?_⟩
      rintro call rfl
      exact hscans event hmem
    exact (throughout_phase (fun _ => hstart) hserves).imp fun _ hphase => hphase.restarts rfl

/-- A directed report whose connection is not created, and one whose scan is not stopped. -/
theorem rmc_sound_of_failures :
    let events : List Event :=
      [.deviceFound btLeAdvDirectInd [] [⟨-5, true⟩], .deviceFound btLeAdvDirectInd [] [⟨0, false⟩],
        .main 0 0]
    Throughout (rmcStep fun _ _ => 0) (Sound fun _ _ => 0) (rmcStart 0) events ∧
      Throughout (rmcStep fun _ _ => 0) Restarts (rmcStart 0) events := by
  intro events
  have hsound := rmc_sound (fun _ _ => 0) 0 events (by simp [events, Event.StopsOnce])
  exact ⟨hsound.1, hsound.2 rfl (by simp [events, Event.Succeeds])⟩

/-! ## A connection that lasts -/

/-- A service that is found, without its characteristics. -/
def Attr.service (attr : Attr) : Option Listed :=
  match attr.declaration with
  | .primary uuid endHandle | .secondary uuid endHandle =>
      some ⟨.secondary, uuid, attr.handle, endHandle, []⟩
  | .characteristic _ _ => none

def Attr.chrc (attr : Attr) : Option BleChrc :=
  match attr.declaration with
  | .primary _ _ | .secondary _ _ => none
  | .characteristic uuid properties => some ⟨uuid, attr.handle, properties⟩

def services (peer : Peer) : List Listed :=
  (DiscoverType.characteristic.earlier peer).filterMap Attr.service

def chrcs (peer : Peer) : List BleChrc := (reported peer .characteristic).filterMap Attr.chrc

theorem foldl_listReport_service (old : List Listed) (attrs : List Attr)
    (hservice : ∀ attr ∈ attrs, attr.chrc = none) :
    attrs.foldl listReport old = (attrs.filterMap Attr.service).foldl addService old := by
  induction attrs generalizing old with
  | nil => rfl
  | cons attr rest ih =>
      obtain ⟨hattr, hrest⟩ := List.forall_mem_cons.mp hservice
      obtain ⟨handle, declaration⟩ := attr
      cases declaration with
      | primary uuid endHandle => exact ih _ hrest
      | secondary uuid endHandle => exact ih _ hrest
      | characteristic uuid properties => cases hattr

theorem foldl_listReport_chrc (old : List Listed) (attrs : List Attr)
    (hchrc : ∀ attr ∈ attrs, attr.service = none) :
    attrs.foldl listReport old = (attrs.filterMap Attr.chrc).foldl addChrc old := by
  induction attrs generalizing old with
  | nil => rfl
  | cons attr rest ih =>
      obtain ⟨hattr, hrest⟩ := List.forall_mem_cons.mp hchrc
      obtain ⟨handle, declaration⟩ := attr
      cases declaration with
      | primary uuid endHandle => cases hattr
      | secondary uuid endHandle => cases hattr
      | characteristic uuid properties => exact ih _ hrest

theorem reports_of_mem {peer : Peer} {type : DiscoverType} {attr : Attr}
    (hmem : attr ∈ reported peer type) : type.reports attr.declaration = true := by
  rw [reported, List.mem_filter, decide_eq_true_eq] at hmem
  exact hmem.2.2

theorem chrcs_of_services {peer : Peer} {service : Listed} (hservice : service ∈ services peer) :
    service.chrcs = [] := by
  rw [services, List.mem_filterMap] at hservice
  obtain ⟨⟨handle, declaration⟩, -, hattr⟩ := hservice
  cases declaration with
  | primary uuid endHandle => exact Option.some.inj hattr ▸ rfl
  | secondary uuid endHandle => exact Option.some.inj hattr ▸ rfl
  | characteristic uuid properties => cases hattr

theorem discovered_eq (peer : Peer) :
    discovered peer = assign ((services peer).take svcMaxCnt) (chrcs peer) := by
  have hservices : ∀ attr ∈ DiscoverType.characteristic.earlier peer, attr.chrc = none := by
    intro attr hattr
    obtain ⟨handle, declaration⟩ := attr
    rcases List.mem_append.mp hattr with hmem | hmem
    · cases declaration with
      | primary uuid endHandle => rfl
      | secondary uuid endHandle => rfl
      | characteristic uuid properties => cases reports_of_mem hmem
    · cases declaration with
      | primary uuid endHandle => rfl
      | secondary uuid endHandle => rfl
      | characteristic uuid properties => cases reports_of_mem hmem
  have hchrcs : ∀ attr ∈ reported peer .characteristic, attr.service = none := by
    intro attr hattr
    obtain ⟨handle, declaration⟩ := attr
    cases declaration with
    | primary uuid endHandle => cases reports_of_mem hattr
    | secondary uuid endHandle => cases reports_of_mem hattr
    | characteristic uuid properties => rfl
  rw [discovered, reports, List.foldl_append, foldl_listReport_service _ _ hservices,
    foldl_addService _ _ (Nat.zero_le _), List.nil_append, foldl_listReport_chrc _ _ hchrcs]
  refine foldl_addChrc _ _ fun service hservice => ?_
  rw [chrcs_of_services (List.mem_of_mem_take hservice)]
  exact Nat.zero_le _

theorem length_assign (services : List Listed) (chrcs : List BleChrc) :
    (assign services chrcs).length = services.length := by
  induction services generalizing chrcs with
  | nil => rfl
  | cons service rest ih => rw [assign, List.length_cons, ih, List.length_cons]

theorem length_chrcs_assign (services : List Listed) (chrcs : List BleChrc) :
    ∀ service ∈ assign services chrcs, service.chrcs.length ≤ chrcMaxCnt := by
  induction services generalizing chrcs with
  | nil => exact nofun
  | cons service rest ih =>
      rw [assign]
      refine List.forall_mem_cons.mpr ⟨?_, ih _⟩
      rw [List.length_take]
      exact Nat.min_le_left _ _

theorem tests_le (peer : Peer) :
    tests (discovered peer) 0 0 ≤ svcMaxCnt * (chrcMaxCnt + 1) := by
  have hsum : ∀ listed : List Listed,
      (∀ service ∈ listed, service.chrcs.length ≤ chrcMaxCnt) →
      tests listed 0 0 ≤ listed.length * (chrcMaxCnt + 1) := by
    intro listed hchrcs
    induction listed with
    | nil => exact Nat.zero_le _
    | cons service rest ih =>
        obtain ⟨hservice, hrest⟩ := List.forall_mem_cons.mp hchrcs
        have hih := ih hrest
        simp only [tests, List.drop_zero, List.map_cons, List.sum_cons, List.length_cons,
          Nat.sub_zero, Nat.succ_mul] at hih ⊢
        omega
  rw [discovered_eq]
  refine (hsum _ (length_chrcs_assign _ _)).trans (Nat.mul_le_mul_right _ ?_)
  rw [length_assign, List.length_take]
  exact Nat.min_le_left _ _

theorem length_reported_le (peer : Peer) :
    (reported peer .primary).length + (reported peer .secondary).length +
      (reported peer .characteristic).length ≤ peer.length := by
  simp only [reported]
  induction peer with
  | nil => exact Nat.le_refl 0
  | cons attr rest ih =>
      obtain ⟨handle, declaration⟩ := attr
      by_cases hhandle : 0x0001 ≤ handle
      · cases declaration with
        | primary | secondary | characteristic =>
            simp [DiscoverType.reports, hhandle] at ih ⊢
            omega
      · simp [hhandle] at ih ⊢
        omega

/-- The rounds that a discovery and the subscriptions take at most. -/
def roundsOf (peer : Peer) : Nat := peer.length + svcMaxCnt * (chrcMaxCnt + 1) + 6

/-- A connection with `left` steps to go, and the sessions before it. -/
def Connecting (btUuidCmp : Uuid → Uuid → Int) (peer : Peer) (older : List Session) (rmc : Rmc)
    (left : Nat) : Prop :=
  Up rmc peer ∧ ∃ requests retries, rmc.sessions = ⟨peer, requests, retries⟩ :: older ∧
    Stage btUuidCmp (fun call => call = .gattDiscover) rmc peer requests left

/-- The next step is the host's during a discovery, and otherwise that of the main thread. -/
def Helps (rmc : Rmc) : Event → Prop
  | .report _ => rmc.pending ≠ none
  | .main _ _ => rmc.pending = none
  | _ => False

/-- The link stays up, and no discovery fails. -/
def Event.Keeps (event : Event) : Prop :=
  (∀ aborted gattDiscover, event ≠ .linkLost aborted gattDiscover) ∧
    event.Succeeds .gattDiscover

theorem connecting_progresses (btUuidCmp : Uuid → Uuid → Int) (peer : Peer)
    (older : List Session) :
    Progresses (rmcStep btUuidCmp) (Connecting btUuidCmp peer older) Event.Keeps Helps := by
  rintro rmc left event ⟨hup, requests, retries, hsessions, hstage⟩ ⟨hkept, hsucceeds⟩
  have hserved : ∀ {err : Int}, err = 0 → (HostCall.gattDiscover = .gattDiscover → err = 0) :=
    fun h _ => h
  cases event with
  | deviceFound type ad results =>
      have hsame : rmcStep btUuidCmp rmc (.deviceFound type ad results) = rmc := by
        rw [rmcStep, hup.link, if_neg nofun]
      rw [hsame]
      exact .inl ⟨⟨hup, requests, retries, hsessions, hstage⟩, fun _ h => h, fun _ => nofun⟩
  | connectionComplete found =>
      have hsame : rmcStep btUuidCmp rmc (.connectionComplete found) = rmc := by
        rw [rmcStep, hup.link, if_neg nofun]
      rw [hsame]
      exact .inl ⟨⟨hup, requests, retries, hsessions, hstage⟩, fun _ h => h, fun _ => nofun⟩
  | report err =>
      by_cases hpending : rmc.pending = none
      · have hsame : rmcStep btUuidCmp rmc (.report err) = rmc := report_of_none hpending err
        rw [hsame]
        exact .inl ⟨⟨hup, requests, retries, hsessions, hstage⟩, fun _ h => h,
          fun _ hhelps => hhelps hpending⟩
      · obtain ⟨hnext, hsame, left', hlt, hstage'⟩ :=
          stage_report hup hstage hpending (hserved hsucceeds)
        exact .inr ⟨left', hlt, hnext, requests, retries, hsame.trans hsessions, hstage'⟩
  | linkLost aborted err => exact absurd rfl (hkept aborted err)
  | securityChanged level err =>
      obtain ⟨retries', count, hnext⟩ := securityChanged_cases rmc level err hsessions
      have hstep : rmcStep btUuidCmp rmc (.securityChanged level err) =
          { rmc with
            securityErrCnt := count
            sessions := ⟨peer, requests, retries'⟩ :: older } := by
        rw [← hnext, rmcStep, hup.link]
      rw [hstep]
      refine .inl ⟨⟨⟨hup.link, hup.conn, hup.fresh⟩, requests, retries', rfl,
        hstage.withSecurity count _⟩, fun other hother => ?_, fun _ => nofun⟩
      cases other with
      | report | main => exact hother
      | _ => exact hother.elim
  | main scanErr err =>
      by_cases hpending : rmc.pending = none
      · have hmain := stage_appMain scanErr hup hsessions hstage hpending (hserved hsucceeds)
        rcases hmain with ⟨hzero, hsame⟩ | ⟨hnext, requests', left', hlt, hsessions', hstage'⟩
        · have hstep : rmcStep btUuidCmp rmc (.main scanErr err) = rmc := hsame
          rw [hstep]
          exact .inl ⟨⟨hup, requests, retries, hsessions, hstage⟩, fun _ h => h,
            fun hpos => absurd hzero hpos.ne'⟩
        · exact .inr ⟨left', hlt, hnext, requests', retries, hsessions', hstage'⟩
      · have hsame : rmcStep btUuidCmp rmc (.main scanErr err) = rmc :=
          appMain_of_pending hstage hpending
        rw [hsame]
        exact .inl ⟨⟨hup, requests, retries, hsessions, hstage⟩, fun _ h => h,
          fun _ hhelps => hpending hhelps⟩

theorem Stage.left_le {peer : Peer} {requests : List Request} {left : Nat}
    (hstage : Stage btUuidCmp served rmc peer requests left) : left ≤ roundsOf peer := by
  have htests := tests_le peer
  have hreported := length_reported_le peer
  rw [roundsOf]
  cases hstage with
  | found =>
      simp only [DiscoverType.later]
      omega
  | discovering before after _ _ _ hafter =>
      have hlength := congrArg List.length hafter
      rw [List.length_append] at hlength
      cases htype : rmc.discoverType with
      | primary | secondary | characteristic =>
          rw [htype] at hlength
          simp only [DiscoverType.later]
          omega
  | complete => omega
  | notifying i j =>
      have hless : tests (discovered peer) i j ≤ tests (discovered peer) 0 0 := by
        simp only [tests, Nat.sub_zero, List.drop_zero]
        conv_rhs => rw [← List.take_append_drop i (discovered peer), List.map_append,
          List.sum_append]
        omega
      omega
  | subscribed | stalled => exact Nat.zero_le _

/-- Whatever has happened before, a connection that lasts for enough rounds of the two threads has
its services discovered, if the host accepts every request for a discovery: each characteristic is
listed under the first of the first eight services that contains it, as far as there is room, and
what the main thread asked of the peer is to subscribe to those of the services for remote
controls, in their order, and then to pair. -/
theorem discovery_completes (btUuidCmp : Uuid → Uuid → Int) {scanErr : Int} {before : List Event}
    {peer : Peer}
    (hlink : (run (rmcStep btUuidCmp) (rmcStart scanErr) before).link = .connected peer)
    {rounds : List (List Event)}
    (hstops : ∀ event ∈ before, event.StopsOnce)
    (hbefore : ∀ event ∈ before, event.Succeeds .gattDiscover)
    (hkept : ∀ round ∈ rounds, ∀ event ∈ round, event.Keeps)
    (hround : ∀ round ∈ rounds, (∃ gattDiscover, .report gattDiscover ∈ round) ∧
      ∃ leScanStart gattDiscover, .main leScanStart gattDiscover ∈ round)
    (hmany : roundsOf peer ≤ rounds.length) :
    let last := run (rmcStep btUuidCmp) (rmcStart scanErr) (before ++ rounds.flatten)
    last.link = .connected peer ∧ last.queue = [] ∧ last.main = .idle ∧ last.pending = none ∧
      last.table.listed = assign ((services peer).take svcMaxCnt) (chrcs peer) ∧
      ∃ retries, last.sessions.head? = some ⟨peer,
        last.table.listed.flatMap (serviceRequests btUuidCmp) ++ [.security], retries⟩ := by
  intro last
  have hserves : ∀ event ∈ before, event.Serves fun call => call = .gattDiscover := by
    intro event hmem
    refine ⟨hstops event hmem, ?_⟩
    rintro call rfl
    exact hbefore event hmem
  have hrun : Throughout (rmcStep btUuidCmp) _ (rmcStart scanErr) before :=
    throughout_phase nofun hserves
  cases hrun.last with
  | searching hsearching =>
      rcases hsearching with hscanning | hconnecting
      · exact absurd (hlink.symm.trans hscanning) nofun
      · exact absurd (hlink.symm.trans hconnecting) nofun
  | restarting _ _ hidle | stopped _ hidle => exact absurd (hlink.symm.trans hidle) nofun
  | connected found requests retries older left hup hsessions hstage hpast =>
      obtain rfl : peer = found := Link.connected.inj (hlink.symm.trans hup.link)
      have hleft := hstage.left_le
      have hhelps : ∀ round ∈ rounds, ∀ rmc, ∃ event ∈ round, Helps rmc event := by
        intro round hmem rmc
        obtain ⟨⟨_, hreport⟩, _, _, hmain⟩ := hround round hmem
        by_cases hpending : rmc.pending = none
        · exact ⟨_, hmain, hpending⟩
        · exact ⟨_, hreport, hpending⟩
      obtain ⟨left', hle, hlast⟩ := (connecting_progresses btUuidCmp peer older).rounds
        ⟨hup, requests, retries, hsessions, hstage⟩ hkept hhelps
      rw [← run_append] at hlast
      change Connecting btUuidCmp peer older last left' at hlast
      obtain ⟨hup', requests', retries', hsessions', hstage'⟩ := hlast
      have hzero : left' = 0 := by omega
      cases hstage' with
      | found | discovering | complete | notifying => omega
      | stalled hfailed => exact absurd rfl hfailed
      | subscribed hqueue hmain hpending hlisted =>
          refine ⟨hup'.link, hqueue, hmain, hpending, hlisted.trans (discovered_eq peer), retries',
            ?_⟩
          rw [hsessions', List.head?_cons, hlisted]
          rfl

/-- A remote control: its services for reports, with one report, and for its battery. -/
def remoteControl : Peer :=
  [⟨1, .primary btUuidHids 4⟩, ⟨2, .characteristic (.uuid16 0x2A4D) btGattChrcNotify⟩,
    ⟨5, .primary (.uuid16 0x180F) 7⟩, ⟨6, .characteristic (.uuid16 0x2A19) btGattChrcNotify⟩]

/-- A scan is not stopped at first, a first connection fails, and a second one is lost at once. -/
def searchEvents : List Event :=
  let found (leScanStop : Int) : Event :=
    .deviceFound btLeAdvInd (8 :: btDataNameComplete :: rmcName) [⟨leScanStop, true⟩]
  [found (-5), found 0, .connectionComplete none, .main 0 0, found 0,
    .connectionComplete (some remoteControl), .linkLost false 0, .main 0 0, .main 0 0, found 0,
    .connectionComplete (some remoteControl), .securityChanged .low 0]

def uuidCmp (first second : Uuid) : Int := if first = second then 0 else 1

theorem discovery_completes_remoteControl :
    let last := run (rmcStep uuidCmp) (rmcStart 0)
      (searchEvents ++
        (List.replicate 114 [.main 0 0, .securityChanged .low (-1), .report 0]).flatten)
    last.link = .connected remoteControl ∧ last.queue = [] ∧ last.main = .idle ∧
      last.pending = none ∧
      last.table.listed = assign ((services remoteControl).take svcMaxCnt) (chrcs remoteControl) ∧
      ∃ retries, last.sessions.head? = some ⟨remoteControl,
        last.table.listed.flatMap (serviceRequests uuidCmp) ++ [.security], retries⟩ := by
  refine discovery_completes uuidCmp rfl ?_ ?_ ?_ ?_ (by decide)
  · simp [searchEvents, Event.StopsOnce]
  · simp [searchEvents, Event.Succeeds]
  · intro round hround
    rw [List.eq_of_mem_replicate hround]
    simp [Event.Keeps, Event.Succeeds]
  · intro round hround
    rw [List.eq_of_mem_replicate hround]
    simp

end Runs

end CubieBle.Central
