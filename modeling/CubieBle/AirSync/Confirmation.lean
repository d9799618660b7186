import CubieBle.AirSync.Handshake

/-! # Waiting for a confirmation

The application sends a command in pieces and waits for the confirmation of each one, with the
lock held from the first to the last. Confirmations come through the receive thread, which takes
the same lock for a packet and for a change of the subscription.
-/

namespace CubieBle.AirSync

open Machine

/-! ## The two threads -/

def wechatMaxPkt : Nat := 20

/-- Where the application thread is. With `remaining` it holds the lock, and so many bytes of
the command are not confirmed. -/
inductive AppThread
  | handle
  /-- before `bt_gatt_indicate` -/
  | indicate (remaining : Nat)
  /-- after its success and before `g_indicating = 1` -/
  | mark (remaining : Nat)
  /-- in the loop of `__send_and_wait` -/
  | wait (remaining : Nat)
  | unlock
deriving DecidableEq

/-- Where the receive thread is: between two events, or at the lock. -/
inductive RecvThread
  | idle
  | packet
  | indStatus (onoff : Bool)
deriving DecidableEq

structure Link where
  as : AirsyncPriv
  gIndicating : Bool
  app : AppThread
  recv : RecvThread
  /-- indications whose confirmation was not handled yet -/
  outstanding : Nat

inductive LinkEvent
  /-- `airsync_proto_handle` takes the lock and chooses a command -/
  | lock
  /-- `bt_gatt_indicate` with its result -/
  | indicate (ret : Int)
  | mark
  /-- one look at `g_indicating` -/
  | poll
  | unlock
  | write (write : Write)
  | cccCfgChanged (value : Nat)
  /-- `__indicate_cb` -/
  | confirm
  /-- the receive thread takes the lock and finishes its event -/
  | recvLock

def btGattCccIndicate : Nat := 2

def AppThread.holdsLock : AppThread → Bool
  | .handle => false
  | _ => true

/-- The head of the loop of `wechat_send_data`, with the bytes that are left. -/
def sendData (remaining : Nat) : AppThread := if 0 < remaining then .indicate remaining else .unlock

section Code

variable (unpack : Unpackers)
-- how long a command is that `data_produce_func_send` makes
variable (lengthOf : Cmd → Nat)

/-- The steps of the application thread. -/
def Link.appStep (link : Link) : LinkEvent → Link
  | .lock =>
      if link.app = .handle then
        match airsyncProtoHandle link.as with
        | (as, some cmd) => { link with as := as, app := sendData (lengthOf cmd) }
        | (as, none) => { link with as := as, app := .unlock }
      else link
  | .indicate ret =>
      match link.app with
      | .indicate remaining =>
          if ret = 0 then
            { link with app := .mark remaining, outstanding := link.outstanding + 1 }
          else { link with app := .wait remaining }
      | _ => link
  | .mark =>
      match link.app with
      | .mark remaining => { link with gIndicating := true, app := .wait remaining }
      | _ => link
  | .poll =>
      match link.app with
      | .wait remaining =>
          if link.gIndicating then link
          else { link with app := sendData (remaining - wechatMaxPkt) }
      | _ => link
  | .unlock => if link.app = .unlock then { link with app := .handle } else link
  | _ => link

/-- The steps of the receive thread, which handles one event at a time. -/
def Link.recvStep (link : Link) : LinkEvent → Link
  | .write write =>
      if link.recv = .idle then
        let (ret, as) := recvParse unpack link.as write
        { link with
          as := as
          recv := if 0 < ret then .packet else .idle }
      else link
  | .cccCfgChanged value =>
      if link.recv = .idle then
        { link with
          gIndicating := false
          recv := .indStatus (value = btGattCccIndicate) }
      else link
  | .confirm =>
      if link.recv = .idle ∧ 0 < link.outstanding then
        { link with
          gIndicating := false
          outstanding := link.outstanding - 1 }
      else link
  | .recvLock =>
      if link.app.holdsLock then link
      else
        match link.recv with
        | .idle => link
        | .packet => { link with as := recvCommit link.as, recv := .idle }
        | .indStatus onoff =>
            { link with
              as := airsyncProtoIndStatusCb link.as onoff
              recv := .idle }
  | _ => link

def Link.step (link : Link) (event : LinkEvent) : Link :=
  match event with
  | .lock | .indicate _ | .mark | .poll | .unlock => link.appStep lengthOf event
  | .write _ | .cccCfgChanged _ | .confirm | .recvLock => link.recvStep unpack event

end Code

/-- The receive thread waits for the lock. -/
def Link.Blocked (link : Link) : Prop := link.recv ≠ .idle ∧ link.app.holdsLock = true

/-- Who waits for a confirmation waits for one that can come. -/
def Link.ConfirmationCanCome (link : Link) : Prop :=
  ∀ remaining, link.app = .wait remaining → link.gIndicating = true →
    0 < link.outstanding ∧ ¬ link.Blocked

/-- The system before any event. -/
def linkStarted (as : AirsyncPriv) : Link := ⟨as, false, .handle, .idle, 0⟩

/-! ## When it can come -/

/-- The receive thread is needed for a confirmation: one was asked for, and `g_indicating` is or
will be 1. -/
def Link.Awaiting (link : Link) : Prop :=
  (∃ remaining, link.app = .mark remaining) ∨
    (∃ remaining, link.app = .wait remaining) ∧ link.gIndicating = true

/-- The receive thread does not go to the lock while it is needed, it does not handle the only
confirmation too early, and it is not at the lock when it gets needed. -/
def Timely (unpack : Unpackers) (link : Link) : LinkEvent → Prop
  | .indicate ret => ret = 0 → link.recv = .idle
  | .write write =>
      link.Awaiting → ∀ packet ∈ completedBy link.as write, Rejected unpack write.freed packet
  | .cccCfgChanged _ => ∀ remaining, link.app ≠ .mark remaining
  | .confirm => ∀ remaining, link.app = .mark remaining → link.outstanding ≠ 1
  | _ => True

section Invariant

variable (unpack : Unpackers) (lengthOf : Cmd → Nat) {link : Link}

structure Link.Consistent (link : Link) : Prop where
  waits : link.gIndicating = true → ∃ remaining, link.app = .wait remaining
  needed : link.Awaiting → 0 < link.outstanding ∧ link.recv = .idle

/-- Outside of the two places where the receive thread is needed nothing is asked of it. -/
theorem not_awaiting (hclear : link.gIndicating = false)
    (hmark : ∀ remaining, link.app ≠ .mark remaining) : ¬ link.Awaiting := by
  intro hawaiting
  rcases hawaiting with ⟨remaining, happ⟩ | ⟨-, hset⟩
  · exact hmark remaining happ
  · rw [hclear] at hset
    exact absurd hset (by decide)

theorem consistent_of_clear (hclear : link.gIndicating = false)
    (hmark : ∀ remaining, link.app ≠ .mark remaining) : link.Consistent where
  waits hset := by
    rw [hclear] at hset
    exact absurd hset (by decide)
  needed hawaiting := absurd hawaiting (not_awaiting hclear hmark)

/-- In front of the loop the flag is clear. -/
theorem Link.Consistent.clear (hconsistent : link.Consistent)
    (happ : ∀ remaining, link.app ≠ .wait remaining) : link.gIndicating = false := by
  cases hset : link.gIndicating with
  | false => rfl
  | true =>
      obtain ⟨remaining, hwait⟩ := hconsistent.waits hset
      exact absurd hwait (happ remaining)

theorem sendData_ne_mark (length remaining : Nat) : sendData length ≠ .mark remaining := by
  rw [sendData]
  split <;> simp

theorem consistent_lock (hconsistent : link.Consistent) :
    (link.appStep lengthOf .lock).Consistent := by
  by_cases happ : link.app = .handle
  · have hclear := hconsistent.clear (fun remaining => by simp [happ])
    simp only [Link.appStep.eq_def, if_pos happ]
    rcases airsyncProtoHandle link.as with ⟨as, none | cmd⟩
    · exact consistent_of_clear hclear (fun remaining => by simp)
    · exact consistent_of_clear hclear (sendData_ne_mark _)
  · simp only [Link.appStep.eq_def, if_neg happ]
    exact hconsistent

theorem consistent_indicate (hconsistent : link.Consistent) {ret : Int}
    (htimely : ret = 0 → link.recv = .idle) :
    (link.appStep lengthOf (.indicate ret)).Consistent := by
  simp only [Link.appStep.eq_def]
  cases happ : link.app with
  | indicate remaining =>
      have hclear := hconsistent.clear (fun other => by simp [happ])
      by_cases hret : ret = 0
      · simp only [if_pos hret]
        refine ⟨fun hset => ?_, fun _ => ⟨Nat.succ_pos _, htimely hret⟩⟩
        rw [hclear] at hset
        exact absurd hset (by decide)
      · simp only [if_neg hret]
        exact consistent_of_clear hclear (fun other => by simp)
  | _ => exact hconsistent

theorem consistent_mark (hconsistent : link.Consistent) :
    (link.appStep lengthOf .mark).Consistent := by
  simp only [Link.appStep.eq_def]
  cases happ : link.app with
  | mark remaining =>
      have hneeded := hconsistent.needed (.inl ⟨remaining, happ⟩)
      exact ⟨fun _ => ⟨remaining, rfl⟩, fun _ => hneeded⟩
  | _ => exact hconsistent

theorem consistent_poll (hconsistent : link.Consistent) :
    (link.appStep lengthOf .poll).Consistent := by
  simp only [Link.appStep.eq_def]
  cases happ : link.app with
  | wait remaining =>
      cases hset : link.gIndicating with
      | true => exact hconsistent
      | false => exact consistent_of_clear rfl (sendData_ne_mark _)
  | _ => exact hconsistent

theorem consistent_unlock (hconsistent : link.Consistent) :
    (link.appStep lengthOf .unlock).Consistent := by
  by_cases happ : link.app = .unlock
  · have hclear := hconsistent.clear (fun remaining => by simp [happ])
    simp only [Link.appStep.eq_def, if_pos happ]
    exact consistent_of_clear hclear (fun remaining => by simp)
  · simp only [Link.appStep.eq_def, if_neg happ]
    exact hconsistent

theorem consistent_write (hconsistent : link.Consistent) {write : Write}
    (htimely : Timely unpack link (.write write)) :
    (link.recvStep unpack (.write write)).Consistent := by
  by_cases hidle : link.recv = .idle
  · simp only [Link.recvStep.eq_def, if_pos hidle]
    refine ⟨hconsistent.waits, fun hawaiting => ⟨(hconsistent.needed hawaiting).1, ?_⟩⟩
    rw [if_neg]
    intro hpos
    obtain ⟨packet, hcompleted, hrejected⟩ := exists_completed_of_pos hpos
    exact hrejected (htimely hawaiting packet hcompleted)
  · simp only [Link.recvStep.eq_def, if_neg hidle]
    exact hconsistent

theorem consistent_cccCfgChanged (hconsistent : link.Consistent) {value : Nat}
    (htimely : ∀ remaining, link.app ≠ .mark remaining) :
    (link.recvStep unpack (.cccCfgChanged value)).Consistent := by
  by_cases hidle : link.recv = .idle
  · simp only [Link.recvStep.eq_def, if_pos hidle]
    exact consistent_of_clear rfl htimely
  · simp only [Link.recvStep.eq_def, if_neg hidle]
    exact hconsistent

theorem consistent_confirm (hconsistent : link.Consistent)
    (htimely : ∀ remaining, link.app = .mark remaining → link.outstanding ≠ 1) :
    (link.recvStep unpack .confirm).Consistent := by
  by_cases hcan : link.recv = .idle ∧ 0 < link.outstanding
  · simp only [Link.recvStep.eq_def, if_pos hcan]
    refine ⟨nofun, fun hawaiting => ⟨?_, hcan.1⟩⟩
    rcases hawaiting with ⟨remaining, happ⟩ | ⟨-, hset⟩
    · have hmore := htimely remaining happ
      have hsome := hcan.2
      show 0 < link.outstanding - 1
      omega
    · exact absurd hset Bool.false_ne_true
  · simp only [Link.recvStep.eq_def, if_neg hcan]
    exact hconsistent

theorem consistent_recvLock (hconsistent : link.Consistent) :
    (link.recvStep unpack .recvLock).Consistent := by
  simp only [Link.recvStep.eq_def]
  cases hlock : link.app.holdsLock with
  | true => exact hconsistent
  | false =>
      rw [if_neg (by decide)]
      cases hrecv : link.recv with
      | idle => exact hconsistent
      | packet => exact ⟨hconsistent.waits, fun h => ⟨(hconsistent.needed h).1, rfl⟩⟩
      | indStatus onoff => exact ⟨hconsistent.waits, fun h => ⟨(hconsistent.needed h).1, rfl⟩⟩

theorem consistent_step (link : Link) (event : LinkEvent) (hconsistent : link.Consistent)
    (htimely : Timely unpack link event) : (link.step unpack lengthOf event).Consistent := by
  cases event with
  | lock => exact consistent_lock lengthOf hconsistent
  | indicate ret => exact consistent_indicate lengthOf hconsistent htimely
  | mark => exact consistent_mark lengthOf hconsistent
  | poll => exact consistent_poll lengthOf hconsistent
  | unlock => exact consistent_unlock lengthOf hconsistent
  | write write => exact consistent_write unpack hconsistent htimely
  | cccCfgChanged value => exact consistent_cccCfgChanged unpack hconsistent htimely
  | confirm => exact consistent_confirm unpack hconsistent htimely
  | recvLock => exact consistent_recvLock unpack hconsistent

theorem Link.Consistent.confirmationCanCome (hconsistent : link.Consistent) :
    link.ConfirmationCanCome := by
  intro remaining happ hset
  obtain ⟨hsome, hidle⟩ := hconsistent.needed (.inr ⟨⟨remaining, happ⟩, hset⟩)
  exact ⟨hsome, fun hblocked => hblocked.1 hidle⟩

end Invariant

/-- In every run in which the receive thread stays free while a confirmation is awaited, and
takes none too early, the one that is waited for can come. -/
theorem confirmationCanCome_of_timely (unpack : Unpackers) (lengthOf : Cmd → Nat)
    (as : AirsyncPriv) (events : List LinkEvent)
    (hrun : Along (Link.step unpack lengthOf) (Timely unpack) (linkStarted as) events) :
    Throughout (Link.step unpack lengthOf) Link.ConfirmationCanCome (linkStarted as) events := by
  have hinit : (linkStarted as).Consistent := consistent_of_clear rfl (fun remaining => nofun)
  have hall := throughout_of_invariant Link.Consistent (consistent_step unpack lengthOf) hinit hrun
  exact hall.imp fun _ hconsistent => hconsistent.confirmationCanCome

/-- Two pieces of `CMD_AUTH` and their confirmations, then a packet. -/
theorem confirmationCanCome_two_pieces :
    let events : List LinkEvent :=
      [.cccCfgChanged 2, .recvLock, .lock, .indicate 0, .mark, .poll, .confirm, .poll, .indicate 0,
        .mark, .confirm, .poll, .unlock,
        .write (packetWrite (0x4e, 0x21) [0x0a, 2, 8, 0, 0x12, 0]), .recvLock]
    (run (Link.step sampleUnpackers fun _ => 32) (linkStarted started.state.as)
        events).as.protoStatus = .authRspReceived ∧
      Throughout (Link.step sampleUnpackers fun _ => 32) Link.ConfirmationCanCome
        (linkStarted started.state.as) events := by
  intro events
  refine ⟨by decide, confirmationCanCome_of_timely sampleUnpackers _ _ _ ?_⟩
  refine ⟨nofun, trivial, trivial, fun _ => rfl, trivial, trivial, nofun, trivial, fun _ => rfl,
    trivial, nofun, trivial, trivial, ?_, trivial, trivial⟩
  intro hawaiting
  exact absurd hawaiting (not_awaiting rfl nofun)

/-- A confirmation before `g_indicating = 1`, and a packet while one is awaited. -/
theorem waits_for_nothing :
    ¬ Throughout (Link.step sampleUnpackers fun _ => 32) Link.ConfirmationCanCome
        (linkStarted started.state.as)
        [.cccCfgChanged 2, .recvLock, .lock, .indicate 0, .confirm, .mark] ∧
      ¬ Throughout (Link.step sampleUnpackers fun _ => 32) Link.ConfirmationCanCome
        (linkStarted started.state.as)
        [.cccCfgChanged 2, .recvLock, .lock, .indicate 0, .mark,
          .write (packetWrite (0x4e, 0x21) [0x0a, 2, 8, 0, 0x12, 0])] := by
  constructor
  · intro hall
    have hsome := (hall.last 32 (by decide) (by decide)).1
    exact absurd hsome (by decide)
  · intro hall
    have hfree := (hall.last 32 (by decide) (by decide)).2
    exact hfree ⟨by decide, by decide⟩

end CubieBle.AirSync
