import CubieBle.Central.Rmc

/-! # The phases of the central

The central is always in one of its phases, and goes from one to the next: it searches, discovers
what it is connected to, subscribes, and searches again when the connection is lost. It comes to a
halt only where a call of the host fails that is not tried again.
-/

namespace CubieBle.Central

open Machine

/-! ## What a peer is worth -/

/-- A report and the services that are listed. -/
def listReport (services : List Listed) (attr : Attr) : List Listed :=
  match attr.declaration with
  | .primary uuid endHandle | .secondary uuid endHandle =>
      addService services ⟨.secondary, uuid, attr.handle, endHandle, []⟩
  | .characteristic uuid properties => addChrc services ⟨uuid, attr.handle, properties⟩

/-- The reports of the discoveries before that of a type. -/
def DiscoverType.earlier (peer : Peer) : DiscoverType → List Attr
  | .primary => []
  | .secondary => reported peer .primary
  | .characteristic => reported peer .primary ++ reported peer .secondary

/-- Everything that the peer reports, in the order of the discoveries. -/
def reports (peer : Peer) : List Attr :=
  DiscoverType.characteristic.earlier peer ++ reported peer .characteristic

theorem earlier_append_isPrefix {peer : Peer} {type : DiscoverType} {before after : List Attr}
    (hreported : reported peer type = before ++ after) :
    type.earlier peer ++ before <+: reports peer := by
  have hbefore : before <+: reported peer type := ⟨after, hreported.symm⟩
  cases type with
  | primary =>
      rw [reports, DiscoverType.earlier, DiscoverType.earlier, List.nil_append, List.append_assoc]
      exact hbefore.trans (List.prefix_append _ _)
  | secondary =>
      rw [reports, DiscoverType.earlier, DiscoverType.earlier, List.append_assoc]
      exact (List.prefix_append_right_inj _).mpr (hbefore.trans (List.prefix_append _ _))
  | characteristic => exact (List.prefix_append_right_inj _).mpr hbefore

theorem earlier_isPrefix (peer : Peer) (type : DiscoverType) :
    type.earlier peer <+: reports peer :=
  (List.prefix_append _ _).trans
    (earlier_append_isPrefix (List.append_nil (reported peer type)).symm)

/-- The services of a peer, as they are listed in the end. -/
def discovered (peer : Peer) : List Listed := (reports peer).foldl listReport []

/-- What an initial part of the reports of a peer leaves in the table. -/
def ListedFrom (peer : Peer) (listed : List Listed) : Prop :=
  ∃ before, before <+: reports peer ∧ listed = before.foldl listReport []

section Requests

variable (btUuidCmp : Uuid → Uuid → Int)

/-- The subscriptions to the characteristics of a service. -/
def serviceRequests (service : Listed) : List Request :=
  if isSubscribed btUuidCmp service.uuid then
    (service.chrcs.filter BleChrc.notifies).map fun chrc => .subscribe chrc.subscribeParams
  else []

/-- What is asked of a peer in the end. -/
def expected (peer : Peer) : List Request :=
  (discovered peer).flatMap (serviceRequests btUuidCmp) ++ [.security]

/-- The subscriptions that the loops have made where they are at `i` and `j`. -/
def requestsUpTo (services : List Listed) (i j : Nat) : List Request :=
  (services.take i).flatMap (serviceRequests btUuidCmp) ++
    (services[i]?).toList.flatMap fun service =>
      serviceRequests btUuidCmp { service with chrcs := service.chrcs.take j }

/-- No more was asked of a peer than what is expected. -/
def Past (sessions : List Session) : Prop :=
  ∀ session ∈ sessions, session.requests <+: expected btUuidCmp session.peer

end Requests

/-! ## Phases -/

/-- Nothing is left of a connection. -/
structure Down (rmc : Rmc) : Prop where
  conn : rmc.defaultConn = none
  pending : rmc.pending = none
  listed : rmc.table.listed = []
  fresh : rmc.table.Fresh

/-- A peer is connected. -/
structure Up (rmc : Rmc) (peer : Peer) : Prop where
  link : rmc.link = .connected peer
  conn : rmc.defaultConn = some peer
  fresh : rmc.table.Fresh

/-- The reports of the discoveries after that of a type, with the last one of each. -/
def DiscoverType.later (peer : Peer) : DiscoverType → Nat
  | .primary =>
      (reported peer .secondary).length + 1 + ((reported peer .characteristic).length + 1)
  | .secondary => (reported peer .characteristic).length + 1
  | .characteristic => 0

/-- The tests that are left of the loops where they are at `i` and `j`. -/
def tests (services : List Listed) (i j : Nat) : Nat :=
  ((services.drop i).map fun service => service.chrcs.length + 1).sum - j

/-- How far a connection has got, with what was asked of the peer and the number of the steps that
are left. The calls that are served do not fail. -/
inductive Stage (btUuidCmp : Uuid → Uuid → Int) (served : HostCall → Prop) (rmc : Rmc)
    (peer : Peer) : List Request → Nat → Prop where
  | found (hqueue : rmc.queue = [.connected]) (hmain : rmc.main = .idle)
      (hpending : rmc.pending = none) (hlisted : rmc.table.listed = []) :
      Stage btUuidCmp served rmc peer []
        ((reported peer .primary).length + DiscoverType.primary.later peer +
          tests (discovered peer) 0 0 + 4)
  | discovering (before after : List Attr) (hqueue : rmc.queue = []) (hmain : rmc.main = .idle)
      (hpending : rmc.pending = some after)
      (hreported : reported peer rmc.discoverType = before ++ after)
      (hlisted : rmc.table.listed =
        (rmc.discoverType.earlier peer ++ before).foldl listReport []) :
      Stage btUuidCmp served rmc peer []
        (after.length + rmc.discoverType.later peer + tests (discovered peer) 0 0 + 3)
  | complete (hqueue : rmc.queue = [.discoverComplete]) (hmain : rmc.main = .idle)
      (hpending : rmc.pending = none) (hlisted : rmc.table.listed = discovered peer) :
      Stage btUuidCmp served rmc peer [] (tests (discovered peer) 0 0 + 2)
  | notifying (i j : Nat) (hqueue : rmc.queue = []) (hmain : rmc.main = .notifying i j)
      (hpending : rmc.pending = none) (hlisted : rmc.table.listed = discovered peer)
      (hj : ∀ service, (discovered peer)[i]? = some service → j ≤ service.chrcs.length) :
      Stage btUuidCmp served rmc peer (requestsUpTo btUuidCmp (discovered peer) i j)
        (tests (discovered peer) i j + 1)
  | subscribed (hqueue : rmc.queue = []) (hmain : rmc.main = .idle)
      (hpending : rmc.pending = none) (hlisted : rmc.table.listed = discovered peer) :
      Stage btUuidCmp served rmc peer (expected btUuidCmp peer) 0
  -- a discovery has failed, and there is no message that it is complete
  | stalled (hserved : ¬served .gattDiscover) (hqueue : rmc.queue = []) (hmain : rmc.main = .idle)
      (hpending : rmc.pending = none) (hlisted : ListedFrom peer rmc.table.listed) :
      Stage btUuidCmp served rmc peer [] 0

inductive Phase (btUuidCmp : Uuid → Uuid → Int) (served : HostCall → Prop) (rmc : Rmc) :
    Prop where
  | searching (hlink : rmc.link = .scanning ∨ rmc.link = .connecting) (hdown : Down rmc)
      (hqueue : rmc.queue = []) (hmain : rmc.main = .idle)
      (hpast : Past btUuidCmp rmc.sessions)
  | restarting (earlier : List Msg) (msg : Msg) (hlink : rmc.link = .idle) (hdown : Down rmc)
      (hqueue : rmc.queue = earlier ++ [msg]) (hmsg : msg = .scan ∨ msg = .disconnected)
      (hearlier : ∀ other ∈ earlier, other = .connected ∨ other = .discoverComplete)
      (hroom : earlier.length ≤ 1) (hpast : Past btUuidCmp rmc.sessions)
  | connected (peer : Peer) (requests : List Request) (retries : Nat) (older : List Session)
      (left : Nat) (hup : Up rmc peer)
      (hsessions : rmc.sessions = ⟨peer, requests, retries⟩ :: older)
      (hstage : Stage btUuidCmp served rmc peer requests left) (hpast : Past btUuidCmp older)
  -- a scan could not be started, and there is no message to try it again
  | stopped (hserved : ¬served .leScanStart) (hlink : rmc.link = .idle) (hdown : Down rmc)
      (hqueue : rmc.queue = []) (hmain : rmc.main = .idle) (hpast : Past btUuidCmp rmc.sessions)

section Steps

variable {btUuidCmp : Uuid → Uuid → Int} {served : HostCall → Prop} {rmc : Rmc}

/-! ## Searching -/

theorem sendAsyncMsg_of_lt (hroom : rmc.queue.length < msgBufferPoolAsync) (msgType : Msg) :
    sendAsyncMsg rmc msgType = { rmc with queue := rmc.queue ++ [msgType] } := if_pos hroom

@[simp] theorem sendAsyncMsg_link (rmc : Rmc) (msgType : Msg) :
    (sendAsyncMsg rmc msgType).link = rmc.link := by
  rw [sendAsyncMsg]
  split
  · rfl
  · rfl

/-- What an advertising report can lead to. -/
inductive FoundCase (rmc : Rmc) : Rmc → Prop where
  | ignored : FoundCase rmc rmc
  | connecting : FoundCase rmc { rmc with link := .connecting }
  | failed : FoundCase rmc (sendAsyncMsg { rmc with link := .idle } .scan)

theorem rmcConnect_of_ne {results : ConnectResults} (hstop : results.leScanStop ≠ 0) :
    rmcConnect rmc results = (-1, rmc) := if_pos hstop

theorem rmcConnect_cases (rmc : Rmc) (results : ConnectResults) :
    FoundCase rmc (rmcConnect rmc results).2 := by
  rw [rmcConnect]
  split
  · exact .ignored
  · split
    · exact .connecting
    · exact .failed

/-- An element of the data is not the name, or a connection is tried. -/
theorem rmcFound_cases (rmc : Rmc) (type : UInt8) (data : List UInt8)
    (results : ConnectResults) :
    rmcFound rmc type data results = (false, rmc) ∨
      rmcFound rmc type data results =
        (decide ((rmcConnect rmc results).1 = 0), (rmcConnect rmc results).2) := by
  rw [rmcFound]
  split
  · split
    · exact .inr rfl
    · exact .inl rfl
  · exact .inl rfl

theorem rmcFound_of_ne {results : ConnectResults} (hstop : results.leScanStop ≠ 0) (type : UInt8)
    (data : List UInt8) : rmcFound rmc type data results = (false, rmc) := by
  rcases rmcFound_cases rmc type data results with hfound | hfound
  · exact hfound
  · rw [hfound, rmcConnect_of_ne hstop]
    rfl

theorem nextResults_of_forall {results : List ConnectResults}
    (hstops : ∀ result ∈ results, result.leScanStop ≠ 0) :
    (nextResults results).leScanStop ≠ 0 := by
  cases results with
  | nil => decide
  | cons result rest => exact hstops result (List.mem_cons_self ..)

/-- Where the scan is not stopped the report is ignored. -/
theorem advParse_of_forall {results : List ConnectResults}
    (hstops : ∀ result ∈ results, result.leScanStop ≠ 0) (fuel : Nat) (data : List UInt8) :
    advParse results fuel rmc data = rmc := by
  induction fuel generalizing results data with
  | zero => rw [advParse]; intros; contradiction
  | succ fuel ih =>
      match data with
      | [] => rfl
      | [_] => rfl
      | len :: type :: data =>
          rw [advParse, rmcFound_of_ne (nextResults_of_forall hstops)]
          split
          · rfl
          · exact ih (fun result hmem => hstops result (List.mem_of_mem_tail hmem)) _

theorem countP_stops_zero {results : List ConnectResults} :
    results.countP (fun result => result.leScanStop = 0) = 0 ↔
      ∀ result ∈ results, result.leScanStop ≠ 0 := by
  simp [List.countP_eq_zero]

/-- After the results that stop the scan there are none that stop it again. -/
theorem tail_of_stopsOnce {results : List ConnectResults}
    (hstops : results.countP (fun result => result.leScanStop = 0) ≤ 1)
    (hstop : (nextResults results).leScanStop = 0) :
    ∀ result ∈ results.tail, result.leScanStop ≠ 0 := by
  cases results with
  | nil => exact nofun
  | cons result rest =>
      rw [List.countP_cons_of_pos (by simpa [nextResults] using hstop)] at hstops
      exact countP_stops_zero.mp (Nat.le_zero.mp (Nat.le_of_succ_le_succ hstops))

theorem advParse_cases {results : List ConnectResults}
    (hstops : results.countP (fun result => result.leScanStop = 0) ≤ 1) (fuel : Nat)
    (data : List UInt8) : FoundCase rmc (advParse results fuel rmc data) := by
  induction fuel generalizing results data with
  | zero => rw [advParse]; exact .ignored; intros; contradiction
  | succ fuel ih =>
      match data with
      | [] => exact .ignored
      | [_] => exact .ignored
      | len :: type :: data =>
          have hrest : results.tail.countP (fun result => result.leScanStop = 0) ≤ 1 :=
            (List.Sublist.countP_le (List.tail_sublist results)).trans hstops
          rw [advParse]
          split
          · exact .ignored
          · by_cases hstop : (nextResults results).leScanStop = 0
            · rcases rmcFound_cases rmc type (data.take (len.toNat - 1)) (nextResults results) with
                hfound | hfound
              · rw [hfound]
                exact ih hrest _
              · have hcase := rmcConnect_cases rmc (nextResults results)
                rw [hfound]
                split
                next found heq =>
                  rw [← (Prod.mk.inj heq).2]
                  exact hcase
                next found heq =>
                  rw [← (Prod.mk.inj heq).2, advParse_of_forall (tail_of_stopsOnce hstops hstop)]
                  exact hcase
            · rw [rmcFound_of_ne hstop]
              exact ih hrest _

theorem deviceFound_cases {results : List ConnectResults}
    (hstops : results.countP (fun result => result.leScanStop = 0) ≤ 1) (type : UInt8)
    (ad : List UInt8) : FoundCase rmc (deviceFound rmc type ad results) := by
  rw [deviceFound]
  split
  · exact advParse_cases hstops _ ad
  · split
    · exact rmcConnect_cases rmc _
    · exact .ignored

theorem Down.frame (hdown : Down rmc) {next : Rmc} (hconn : next.defaultConn = rmc.defaultConn)
    (hpending : next.pending = rmc.pending) (htable : next.table = rmc.table) : Down next := by
  refine ⟨hconn.trans hdown.conn, hpending.trans hdown.pending, ?_, ?_⟩
  · rw [htable]
    exact hdown.listed
  · rw [htable]
    exact hdown.fresh

/-! ## Discovery -/

theorem discoverFunc_some (rmc : Rmc) (err : Int) (hfresh : rmc.table.Fresh) {attr : Attr}
    (hreports : rmc.discoverType.reports attr.declaration = true) :
    ∃ table : ServiceTable, discoverFunc rmc err (some attr) = { rmc with table } ∧
      table.listed = listReport rmc.table.listed attr ∧ table.Fresh := by
  obtain ⟨handle, declaration⟩ := attr
  rw [discoverFunc]
  cases htype : rmc.discoverType with
  | primary =>
      cases declaration with
      | primary uuid endHandle =>
          exact ⟨_, rfl, listed_parseService hfresh uuid handle endHandle .secondary⟩
      | secondary uuid endHandle => rw [htype] at hreports; cases hreports
      | characteristic uuid properties => rw [htype] at hreports; cases hreports
  | secondary =>
      cases declaration with
      | primary uuid endHandle => rw [htype] at hreports; cases hreports
      | secondary uuid endHandle =>
          exact ⟨_, rfl, listed_parseService hfresh uuid handle endHandle .secondary⟩
      | characteristic uuid properties => rw [htype] at hreports; cases hreports
  | characteristic =>
      cases declaration with
      | primary uuid endHandle => rw [htype] at hreports; cases hreports
      | secondary uuid endHandle => rw [htype] at hreports; cases hreports
      | characteristic uuid properties =>
          exact ⟨_, rfl, listed_parseCharicteristic hfresh ⟨uuid, handle, properties⟩⟩

theorem reports_of_reported {peer : Peer} {type : DiscoverType} {before after : List Attr}
    {attr : Attr} (hreported : reported peer type = before ++ attr :: after) :
    type.reports attr.declaration = true := by
  have hmem : attr ∈ reported peer type := by
    rw [hreported]
    exact List.mem_append_right _ (List.mem_cons_self ..)
  rw [reported, List.mem_filter, decide_eq_true_eq] at hmem
  exact hmem.2.2

section Connected

variable {peer : Peer} {requests : List Request} {retries : Nat} {older : List Session}
  {left : Nat}

theorem btGattDiscover_of_up (hup : Up rmc peer) :
    btGattDiscover rmc 0 = { rmc with pending := some (reported peer rmc.discoverType) } := by
  rw [btGattDiscover, if_neg (by decide), hup.link]

theorem btGattDiscover_of_ne {err : Int} (hfailed : err ≠ 0) : btGattDiscover rmc err = rmc :=
  if_pos hfailed

/-- The next discovery is asked for, and has started if the host accepts it. -/
theorem stage_next (btUuidCmp : Uuid → Uuid → Int) (hup : Up rmc peer) (type : DiscoverType)
    {err : Int} (hserved : served .gattDiscover → err = 0) (hqueue : rmc.queue = [])
    (hmain : rmc.main = .idle) (hpending : rmc.pending = none)
    (hlisted : rmc.table.listed = (type.earlier peer).foldl listReport []) :
    Up (btGattDiscover { rmc with discoverType := type } err) peer ∧
      (btGattDiscover { rmc with discoverType := type } err).sessions = rmc.sessions ∧
      ∃ left ≤ (reported peer type).length + type.later peer + tests (discovered peer) 0 0 + 3,
        Stage btUuidCmp served (btGattDiscover { rmc with discoverType := type } err) peer []
          left := by
  have hnext : Up { rmc with discoverType := type } peer := ⟨hup.link, hup.conn, hup.fresh⟩
  by_cases herr : err = 0
  · rw [herr, btGattDiscover_of_up hnext]
    refine ⟨⟨hup.link, hup.conn, hup.fresh⟩, rfl, _, Nat.le_refl _,
      .discovering [] _ hqueue hmain rfl rfl ?_⟩
    rw [List.append_nil]
    exact hlisted
  · rw [btGattDiscover_of_ne herr]
    exact ⟨hnext, rfl, 0, Nat.zero_le _, .stalled (fun h => herr (hserved h)) hqueue hmain hpending
      ⟨_, earlier_isPrefix peer type, hlisted⟩⟩

theorem report_of_none (hpending : rmc.pending = none) (err : Int) : report rmc err = rmc := by
  rw [report, hpending]

/-- The next report of a discovery, or the request for the next discovery. -/
theorem stage_report (hup : Up rmc peer) (hstage : Stage btUuidCmp served rmc peer requests left)
    (hpending : rmc.pending ≠ none) {err : Int} (hserved : served .gattDiscover → err = 0) :
    Up (report rmc err) peer ∧ (report rmc err).sessions = rmc.sessions ∧
      ∃ left' < left, Stage btUuidCmp served (report rmc err) peer requests left' := by
  cases hstage with
  | found _ _ hnone | complete _ _ hnone | notifying _ _ _ _ hnone | subscribed _ _ hnone
  | stalled _ _ _ hnone => exact absurd hnone hpending
  | discovering before after hqueue hmain hpending hreported hlisted =>
      rw [report, hpending]
      cases after with
      | nil =>
          rw [List.append_nil] at hreported
          rw [← hreported] at hlisted
          have hdone : Up { rmc with pending := none } peer := ⟨hup.link, hup.conn, hup.fresh⟩
          dsimp only
          rw [discoverFunc]
          cases htype : rmc.discoverType with
          | primary =>
              rw [htype] at hlisted
              obtain ⟨hnext, hsessions, left', hle, hstage⟩ :=
                stage_next btUuidCmp hdone .secondary hserved hqueue hmain rfl hlisted
              refine ⟨hnext, hsessions, left', hle.trans_lt ?_, hstage⟩
              simp only [DiscoverType.later, List.length_nil]
              omega
          | secondary =>
              rw [htype] at hlisted
              obtain ⟨hnext, hsessions, left', hle, hstage⟩ :=
                stage_next btUuidCmp hdone .characteristic hserved hqueue hmain rfl hlisted
              refine ⟨hnext, hsessions, left', hle.trans_lt ?_, hstage⟩
              simp only [DiscoverType.later, List.length_nil]
              omega
          | characteristic =>
              rw [htype] at hlisted
              dsimp only
              rw [sendAsyncMsg_of_lt (by rw [hqueue]; decide), hqueue]
              refine ⟨⟨hup.link, hup.conn, hup.fresh⟩, rfl, _, ?_,
                .complete rfl hmain rfl hlisted⟩
              simp only [DiscoverType.later, List.length_nil]
              omega
      | cons attr after =>
          obtain ⟨table, hnext, htable, hfresh⟩ := discoverFunc_some
            { rmc with pending := some after } err hup.fresh (reports_of_reported hreported)
          dsimp only
          rw [hnext]
          refine ⟨⟨hup.link, hup.conn, hfresh⟩, rfl, _, ?_,
            .discovering (before ++ [attr]) after hqueue hmain rfl ?_ ?_⟩
          · dsimp only
            rw [List.length_cons]
            omega
          · rw [hreported, List.append_assoc]
            rfl
          · rw [htable, ← List.append_assoc, List.foldl_append, ← hlisted]
            rfl

/-! ## Subscriptions -/

theorem requestsUpTo_start (services : List Listed) : requestsUpTo btUuidCmp services 0 0 = [] := by
  cases services with
  | nil => rfl
  | cons service rest =>
      rw [requestsUpTo, List.take_zero, List.getElem?_cons_zero]
      simp [serviceRequests]

theorem requestsUpTo_of_le {services : List Listed} {i : Nat} (hi : services.length ≤ i)
    (j : Nat) :
    requestsUpTo btUuidCmp services i j = services.flatMap (serviceRequests btUuidCmp) := by
  rw [requestsUpTo, List.take_of_length_le hi, List.getElem?_eq_none hi]
  exact List.append_nil _

/-- The inner loop at a characteristic. -/
theorem requestsUpTo_chrc {services : List Listed} {i j : Nat} {service : Listed}
    {chrc : BleChrc} (hservice : services[i]? = some service)
    (hsubscribed : isSubscribed btUuidCmp service.uuid = true)
    (hchrc : service.chrcs[j]? = some chrc) :
    requestsUpTo btUuidCmp services i (j + 1) = requestsUpTo btUuidCmp services i j ++
      if chrc.notifies then [.subscribe chrc.subscribeParams] else [] := by
  have htake : service.chrcs.take (j + 1) = service.chrcs.take j ++ [chrc] := by
    rw [List.take_add_one, hchrc, Option.toList_some]
  rw [requestsUpTo, requestsUpTo, hservice, List.append_assoc]
  simp only [Option.toList_some, List.flatMap_singleton, serviceRequests, hsubscribed, if_true]
  rw [htake, List.filter_append, List.map_append, List.filter_singleton]
  by_cases hnotifies : chrc.notifies = true
  · simp [hnotifies]
  · simp [hnotifies]

/-- The inner loop is over, or passed over. -/
theorem requestsUpTo_service {services : List Listed} {i j : Nat} {service : Listed}
    (hservice : services[i]? = some service)
    (hover : ¬(isSubscribed btUuidCmp service.uuid = true ∧ j < service.chrcs.length)) :
    requestsUpTo btUuidCmp services (i + 1) 0 = requestsUpTo btUuidCmp services i j := by
  have hall : serviceRequests btUuidCmp { service with chrcs := service.chrcs.take j } =
      serviceRequests btUuidCmp service := by
    by_cases hsubscribed : isSubscribed btUuidCmp service.uuid = true
    · rw [List.take_of_length_le (Nat.le_of_not_lt fun hj => hover ⟨hsubscribed, hj⟩)]
    · simp only [serviceRequests, hsubscribed, Bool.false_eq_true, if_false]
  have hnone : ∀ next : Listed, serviceRequests btUuidCmp { next with chrcs := [] } = [] := by
    intro next
    simp [serviceRequests]
  rw [requestsUpTo, requestsUpTo, List.take_add_one, hservice, List.flatMap_append]
  simp only [Option.toList_some, List.flatMap_singleton, hall, List.append_assoc]
  cases services[i + 1]? with
  | none => simp
  | some next => simp [hnone]

theorem requestsUpTo_isPrefix (services : List Listed) (i j : Nat) :
    requestsUpTo btUuidCmp services i j <+: services.flatMap (serviceRequests btUuidCmp) := by
  by_cases hi : i < services.length
  · have hservice : serviceRequests btUuidCmp { services[i] with
        chrcs := services[i].chrcs.take j } <+: serviceRequests btUuidCmp services[i] := by
      simp only [serviceRequests]
      split
      · exact ((List.take_prefix j _).filter _).map _
      · exact List.prefix_refl []
    have hsplit : services.flatMap (serviceRequests btUuidCmp) =
        (services.take i).flatMap (serviceRequests btUuidCmp) ++
          (serviceRequests btUuidCmp services[i] ++
            (services.drop (i + 1)).flatMap (serviceRequests btUuidCmp)) := by
      rw [← List.flatMap_cons, ← List.drop_eq_getElem_cons hi, ← List.flatMap_append,
        List.take_append_drop]
    rw [hsplit, requestsUpTo, List.getElem?_eq_getElem hi, Option.toList_some,
      List.flatMap_singleton]
    exact (List.prefix_append_right_inj _).mpr (hservice.trans (List.prefix_append _ _))
  · rw [requestsUpTo_of_le (Nat.le_of_not_lt hi)]

theorem Stage.isPrefix (hstage : Stage btUuidCmp served rmc peer requests left) :
    requests <+: expected btUuidCmp peer := by
  cases hstage with
  | found | discovering | complete | stalled => exact List.nil_prefix
  | notifying i j => exact (requestsUpTo_isPrefix _ i j).trans (List.prefix_append _ _)
  | subscribed => exact List.prefix_refl _

theorem ask_of_up (hup : Up rmc peer)
    (hsessions : rmc.sessions = ⟨peer, requests, retries⟩ :: older) (request : Request) :
    ask rmc request = { rmc with sessions := ⟨peer, requests ++ [request], retries⟩ :: older } := by
  rw [ask, hup.link, hup.conn, hsessions]

/-- What the loops of `nofity_enable` can do at a test. -/
inductive NotifyCase (btUuidCmp : Uuid → Uuid → Int) (rmc : Rmc) (i j : Nat) : Rmc → Prop where
  | chrc (service : Listed) (chrc : BleChrc) (hservice : rmc.table.listed[i]? = some service)
      (hsubscribed : isSubscribed btUuidCmp service.uuid = true)
      (hchrc : service.chrcs[j]? = some chrc) :
      NotifyCase btUuidCmp rmc i j
        { (if chrc.notifies then ask rmc (.subscribe chrc.subscribeParams) else rmc) with
          main := .notifying i (j + 1) }
  | service (service : Listed) (hservice : rmc.table.listed[i]? = some service)
      (hover : ¬(isSubscribed btUuidCmp service.uuid = true ∧ j < service.chrcs.length)) :
      NotifyCase btUuidCmp rmc i j { rmc with main := .notifying (i + 1) 0 }
  | finished (hi : rmc.table.listed.length ≤ i) :
      NotifyCase btUuidCmp rmc i j { pair rmc with main := .idle }

theorem nofityEnable_cases (btUuidCmp : Uuid → Uuid → Int) (rmc : Rmc) (i j : Nat) :
    NotifyCase btUuidCmp rmc i j (nofityEnable btUuidCmp rmc i j) := by
  rw [nofityEnable]
  by_cases hi : i < rmc.table.svcCnt
  · have hservice := listed_getElem? rmc.table hi
    rw [dif_pos hi]
    dsimp only
    split
    next hj =>
      exact .chrc _ _ hservice hj.1 (inUse_getElem? hj.2 (BleService.chrcCnt_le _))
    next hj =>
      refine .service _ hservice fun hover => hj ⟨hover.1, hover.2.trans_eq ?_⟩
      exact length_inUse (BleService.chrcCnt_le _)
  · rw [dif_neg hi]
    exact .finished (by rw [length_listed]; exact Nat.le_of_not_lt hi)

theorem tests_chrc {services : List Listed} {i j : Nat} {service : Listed}
    (hservice : services[i]? = some service) (hj : j ≤ service.chrcs.length) :
    tests services i j =
      tests services (i + 1) 0 + (service.chrcs.length + 1 - j) := by
  obtain ⟨hi, rfl⟩ := List.getElem?_eq_some_iff.mp hservice
  rw [tests, tests, List.drop_eq_getElem_cons hi, List.map_cons, List.sum_cons]
  omega

/-- The next test of the loops, or their end. -/
theorem stage_nofityEnable {i j : Nat} (hup : Up rmc peer) (hqueue : rmc.queue = [])
    (hpending : rmc.pending = none) (hlisted : rmc.table.listed = discovered peer)
    (hj : ∀ service, (discovered peer)[i]? = some service → j ≤ service.chrcs.length)
    (hsessions : rmc.sessions =
      ⟨peer, requestsUpTo btUuidCmp (discovered peer) i j, retries⟩ :: older) :
    Up (nofityEnable btUuidCmp rmc i j) peer ∧
      ∃ requests' left', left' < tests (discovered peer) i j + 1 ∧
        (nofityEnable btUuidCmp rmc i j).sessions = ⟨peer, requests', retries⟩ :: older ∧
        Stage btUuidCmp served (nofityEnable btUuidCmp rmc i j) peer requests' left' := by
  have hcase := nofityEnable_cases btUuidCmp rmc i j
  generalize nofityEnable btUuidCmp rmc i j = next at hcase ⊢
  cases hcase with
  | chrc service chrc hservice hsubscribed hchrc =>
      rw [hlisted] at hservice
      obtain ⟨hlt, -⟩ := List.getElem?_eq_some_iff.mp hchrc
      have hmore := requestsUpTo_chrc hservice hsubscribed hchrc
      have hnext : ∀ other, (discovered peer)[i]? = some other →
          j + 1 ≤ other.chrcs.length := by
        intro other hother
        rw [hservice] at hother
        rw [← Option.some.inj hother]
        exact hlt
      have hfewer : tests (discovered peer) i (j + 1) + 1 < tests (discovered peer) i j + 1 := by
        rw [tests_chrc hservice hlt, tests_chrc hservice hlt.le]
        omega
      by_cases hnotifies : chrc.notifies = true
      · rw [if_pos hnotifies] at hmore
        rw [if_pos hnotifies, ask_of_up hup hsessions, ← hmore]
        exact ⟨⟨hup.link, hup.conn, hup.fresh⟩, _, _, hfewer, rfl,
          .notifying i (j + 1) hqueue rfl hpending hlisted hnext⟩
      · rw [if_neg hnotifies, List.append_nil] at hmore
        rw [if_neg hnotifies]
        refine ⟨⟨hup.link, hup.conn, hup.fresh⟩, _, _, hfewer, ?_,
          .notifying i (j + 1) hqueue rfl hpending hlisted hnext⟩
        rw [hmore]
        exact hsessions
  | service service hservice hover =>
      rw [hlisted] at hservice
      refine ⟨⟨hup.link, hup.conn, hup.fresh⟩, _, _, ?_, ?_,
        .notifying (i + 1) 0 hqueue rfl hpending hlisted fun _ _ => Nat.zero_le _⟩
      · have hle := hj service hservice
        rw [tests_chrc hservice hle]
        omega
      · rw [requestsUpTo_service hservice hover]
        exact hsessions
  | finished hi =>
      rw [hlisted] at hi
      rw [requestsUpTo_of_le hi] at hsessions
      have hpair : pair rmc = ask rmc .security := by
        rw [pair, hup.conn]
      rw [hpair, ask_of_up hup hsessions .security]
      exact ⟨⟨hup.link, hup.conn, hup.fresh⟩, _, 0, Nat.succ_pos _, rfl,
        .subscribed hqueue rfl hpending hlisted⟩

variable {scanErr err : Int}

theorem appMain_of_queue {msg : Msg} {rest : List Msg} (hmain : rmc.main = .idle)
    (hqueue : rmc.queue = msg :: rest) :
    appMain btUuidCmp rmc scanErr err = handleMsg { rmc with queue := rest } scanErr err msg := by
  rw [appMain, hmain, hqueue]

theorem appMain_of_empty (hmain : rmc.main = .idle) (hqueue : rmc.queue = []) :
    appMain btUuidCmp rmc scanErr err = rmc := by
  rw [appMain, hmain, hqueue]

theorem appMain_of_notifying {i j : Nat} (hmain : rmc.main = .notifying i j) :
    appMain btUuidCmp rmc scanErr err = nofityEnable btUuidCmp rmc i j := by
  rw [appMain, hmain]

/-- The main thread has nothing to do during a discovery. -/
theorem idle_of_pending (hstage : Stage btUuidCmp served rmc peer requests left)
    (hpending : rmc.pending ≠ none) : rmc.queue = [] ∧ rmc.main = .idle := by
  cases hstage with
  | found _ _ hnone | complete _ _ hnone | notifying _ _ _ _ hnone | subscribed _ _ hnone
  | stalled _ _ _ hnone => exact absurd hnone hpending
  | discovering before after hqueue hmain => exact ⟨hqueue, hmain⟩

theorem appMain_of_pending (hstage : Stage btUuidCmp served rmc peer requests left)
    (hpending : rmc.pending ≠ none) : appMain btUuidCmp rmc scanErr err = rmc := by
  obtain ⟨hqueue, hmain⟩ := idle_of_pending hstage hpending
  exact appMain_of_empty hmain hqueue

/-- The main thread handles its message or goes on with its loops, if there is anything left. -/
theorem stage_appMain (scanErr : Int) (hup : Up rmc peer)
    (hsessions : rmc.sessions = ⟨peer, requests, retries⟩ :: older)
    (hstage : Stage btUuidCmp served rmc peer requests left) (hpending : rmc.pending = none)
    (hserved : served .gattDiscover → err = 0) :
    (left = 0 ∧ appMain btUuidCmp rmc scanErr err = rmc) ∨
      (Up (appMain btUuidCmp rmc scanErr err) peer ∧ ∃ requests' left', left' < left ∧
        (appMain btUuidCmp rmc scanErr err).sessions = ⟨peer, requests', retries⟩ :: older ∧
        Stage btUuidCmp served (appMain btUuidCmp rmc scanErr err) peer requests' left') := by
  cases hstage with
  | found hqueue hmain hnone hlisted =>
      have hstart : startDiscover { rmc with queue := [] } err =
          btGattDiscover { rmc with queue := [], discoverType := .primary } err := by
        rw [startDiscover, hup.conn]
      rw [appMain_of_queue hmain hqueue, handleMsg, hstart]
      have hempty : Up { rmc with queue := [] } peer := ⟨hup.link, hup.conn, hup.fresh⟩
      obtain ⟨hnext, hsame, left', hle, hstage⟩ :=
        stage_next btUuidCmp hempty .primary hserved rfl hmain hnone hlisted
      exact .inr ⟨hnext, [], left', Nat.lt_succ_of_le hle, hsame.trans hsessions, hstage⟩
  | discovering before after _ _ hsome =>
      rw [hpending] at hsome
      cases hsome
  | complete hqueue hmain hnone hlisted =>
      rw [appMain_of_queue hmain hqueue, handleMsg]
      refine .inr ⟨⟨hup.link, hup.conn, hup.fresh⟩, requestsUpTo btUuidCmp (discovered peer) 0 0,
        _, Nat.lt_succ_self _, ?_,
        .notifying 0 0 rfl rfl hnone hlisted fun _ _ => Nat.zero_le _⟩
      rw [requestsUpTo_start]
      exact hsessions
  | notifying i j hqueue hmain hnone hlisted hj =>
      rw [appMain_of_notifying hmain]
      exact .inr (stage_nofityEnable hup hqueue hnone hlisted hj hsessions)
  | subscribed hqueue hmain | stalled _ hqueue hmain =>
      exact .inl ⟨rfl, appMain_of_empty hmain hqueue⟩

/-! ## Security -/

/-- Another level of security changes the counter, and the number of times it was asked for. -/
theorem securityChanged_cases (rmc : Rmc) (level : BtSecurity) (err : Int)
    (hsessions : rmc.sessions = ⟨peer, requests, retries⟩ :: older) :
    ∃ retries' count, securityChanged rmc level err =
      { rmc with
        securityErrCnt := count
        sessions := ⟨peer, requests, retries'⟩ :: older } := by
  have hsame : rmc = { rmc with sessions := ⟨peer, requests, retries⟩ :: older } := by
    rw [← hsessions]
  have hretry : retrySecurity rmc =
      { rmc with sessions := ⟨peer, requests, retries + 1⟩ :: older } := by
    rw [retrySecurity, hsessions]
  rw [securityChanged, hretry]
  split
  · split
    · split
      · exact ⟨_, _, rfl⟩
      · exact ⟨_, _, rfl⟩
    · rw [hsame]
      exact ⟨_, _, rfl⟩
  · rw [hsame]
    exact ⟨_, _, rfl⟩

theorem Stage.withSecurity (hstage : Stage btUuidCmp served rmc peer requests left)
    (count : UInt8) (sessions : List Session) :
    Stage btUuidCmp served { rmc with securityErrCnt := count, sessions := sessions } peer requests
      left := by
  cases hstage with
  | found hqueue hmain hpending hlisted => exact .found hqueue hmain hpending hlisted
  | discovering before after hqueue hmain hpending hreported hlisted =>
      exact .discovering before after hqueue hmain hpending hreported hlisted
  | complete hqueue hmain hpending hlisted => exact .complete hqueue hmain hpending hlisted
  | notifying i j hqueue hmain hpending hlisted hj =>
      exact .notifying i j hqueue hmain hpending hlisted hj
  | subscribed hqueue hmain hpending hlisted => exact .subscribed hqueue hmain hpending hlisted
  | stalled hserved hqueue hmain hpending hlisted =>
      exact .stalled hserved hqueue hmain hpending hlisted

end Connected

end Steps

end CubieBle.Central
