import CubieBle.Ancs.Decoder
import CubieBle.Machine.Run

/-! # Asking about notifications

A notification leaves its UID in one global buffer and posts a message; the main
thread builds the request from the buffer when it handles the message, and skips
the write while another one is outstanding. So a UID is asked for exactly if the
buffer still holds it when its message is handled and no write is outstanding then.
-/

namespace CubieBle.Ancs

open Machine

abbrev Uid := Vector UInt8 4

/-- A `struct bt_conn *`; the null pointer is `0`. -/
abbrev Conn := Nat

def ancsEventIdNotifRemoved : UInt8 := 2

def ancsNotifAttIdTitle : UInt8 := 1
def ancsNotifAttIdSubtitle : UInt8 := 2
def ancsNotifAttIdMessage : UInt8 := 3
def ancsNotifAttIdMessageSize : UInt8 := 4
def ancsNotifAttIdDate : UInt8 := 5

/-- The fields of a Notification Source value. -/
structure Notification where
  eventId : UInt8
  eventFlags : UInt8
  catId : UInt8
  catCount : UInt8
  uid : Uid

/-- The request buffers and the messages between the two threads. `writes` are
the values handed to `bt_gatt_write`, `pconn` is that of `app_cb`. -/
structure Service where
  pconn : Conn
  uuidData : Uid := #v[0, 0, 0, 0]
  gLastReceivedNotification : UInt16 := 0
  notifAttrReq : List UInt8 := []
  pendingFlag : Bool := false
  pendingCmd : UInt16 := ancsCmdGetNotificationAtt
  messages : List Conn := []
  writes : List (List UInt8) := []

def ancsHandleNotificationSourceData (service : Service) (conn : Conn)
    (notification : Notification) : Service :=
  if notification.eventId = ancsEventIdNotifRemoved then service
  else
    { service with
      uuidData := notification.uid
      gLastReceivedNotification := notification.catId.toUInt16
      messages := service.messages ++ [conn] }

/-- `bt_gatt_write` accepts a request made while none is outstanding, which is
the only kind made here. -/
def ancsWriteRequest (service : Service) (data : List UInt8) : Service :=
  if service.pendingFlag then service
  else { service with writes := service.writes ++ [data], pendingFlag := true }

/-- The attributes asked for; the ids are used as if they were bits. -/
def features : UInt8 :=
  ancsNotifAttIdTitle ||| ancsNotifAttIdSubtitle ||| ancsNotifAttIdMessage |||
    ancsNotifAttIdMessageSize ||| ancsNotifAttIdDate

/-- The used part of `notif_attr_req`. -/
def notificationAttributeRequest (uid : Uid) : List UInt8 :=
  [0] ++ uid.toList ++ [ancsNotifAttIdTitle, 0x14, 0] ++
    (if features &&& ancsNotifAttIdSubtitle ≠ 0 then [ancsNotifAttIdSubtitle, 0x14, 0] else []) ++
    (if features &&& ancsNotifAttIdMessage ≠ 0 then [ancsNotifAttIdMessage] else []) ++
    (if features &&& ancsNotifAttIdMessageSize ≠ 0 then [ancsNotifAttIdMessageSize] else []) ++
    [ancsNotifAttIdDate]

def ancsGetNotificationAttributeCmd (service : Service) : Service :=
  let value := notificationAttributeRequest service.uuidData
  let service := ancsWriteRequest { service with notifAttrReq := value } value
  { service with pendingCmd := ancsCmdGetNotificationAtt }

/-- The main loop's `MSG_ANCS_SERVICE` case; `receive_msg` blocks without one. -/
def handleMessage (service : Service) : Service :=
  match service.messages with
  | [] => service
  | _ :: rest =>
      if service.pconn ≠ 0 then ancsGetNotificationAttributeCmd { service with messages := rest }
      else { service with messages := rest }

/-- The completion of the outstanding write. -/
def writeFunc (service : Service) : Service := { service with pendingFlag := false }

inductive ServiceAction where
  | notification (conn : Conn) (notification : Notification)
  | handle
  | complete

def serviceStep (service : Service) : ServiceAction → Service
  | .notification conn notification =>
      ancsHandleNotificationSourceData service conn notification
  | .handle => handleMessage service
  | .complete => writeFunc service

/-! ## Asked and received -/

/-- The UID in a control point write. -/
def askedUid (data : List UInt8) : List UInt8 := (data.drop 1).take 4

/-- The UIDs asked about so far. -/
def Service.asked (service : Service) : List (List UInt8) := service.writes.map askedUid

/-- Record the UIDs received. -/
def observeUid (_ : Service) : ServiceAction → List Uid → List Uid
  | .notification _ notification, uids =>
      if notification.eventId = ancsEventIdNotifRemoved then uids else uids ++ [notification.uid]
  | _, uids => uids

abbrev UidRun := Tracked Service (List Uid)

def uidStep : UidRun → ServiceAction → UidRun := trackedStep serviceStep observeUid

def uidInit (conn : Conn) : UidRun := ⟨{ pconn := conn }, []⟩

/-- The number of messages handled: each UID received has posted one. -/
def UidRun.handled (current : UidRun) : Nat :=
  current.history.length - current.state.messages.length

/-- A message is handled while no write is outstanding and the buffer still
holds the UID of the notification that posted it. -/
def AskCondition (current : UidRun) : ServiceAction → Prop
  | .handle => current.state.messages ≠ [] →
      current.state.pendingFlag = false ∧
        current.history[UidRun.handled current]? = some current.state.uuidData
  | _ => True

theorem askedUid_request (uid : Uid) :
    askedUid (notificationAttributeRequest uid) = uid.toList := by
  have hlength : uid.toList.length = 4 := by simp
  simp only [askedUid, notificationAttributeRequest, List.append_assoc, List.cons_append,
    List.nil_append, List.drop_succ_cons, List.drop_zero]
  rw [List.take_append_of_le_length hlength.ge, List.take_of_length_le hlength.le]

/-- The UIDs asked about are those received, up to the messages still queued. -/
def AllAsked (current : UidRun) : Prop :=
  current.state.asked = (current.history.take (UidRun.handled current)).map Vector.toList

structure UidInv (current : UidRun) : Prop where
  pconn : current.state.pconn ≠ 0
  messages : current.state.messages.length ≤ current.history.length
  writes : current.state.writes.length ≤ UidRun.handled current

/-! ## Steps -/

/-- Handling a message either writes a request for the buffered UID or skips it. -/
theorem handleMessage_cons (service : Service) (hpconn : service.pconn ≠ 0) {conn : Conn}
    {rest : List Conn} (hmessages : service.messages = conn :: rest) :
    (handleMessage service).messages = rest ∧ (handleMessage service).pconn = service.pconn ∧
      (handleMessage service).writes =
        if service.pendingFlag then service.writes
        else service.writes ++ [notificationAttributeRequest service.uuidData] := by
  rw [handleMessage, hmessages]
  simp only [if_pos hpconn, ancsGetNotificationAttributeCmd, ancsWriteRequest]
  split <;> exact ⟨rfl, rfl, rfl⟩

theorem UidRun.handled_cons {current : UidRun} (hinv : UidInv current) {conn : Conn}
    {rest : List Conn} (hmessages : current.state.messages = conn :: rest) :
    current.history.length - rest.length = UidRun.handled current + 1 ∧
      UidRun.handled current < current.history.length := by
  have hle := hinv.messages
  rw [hmessages, List.length_cons] at hle
  rw [handled, hmessages, List.length_cons]
  omega

theorem uidStep_inv (current : UidRun) (action : ServiceAction) (hinv : UidInv current) :
    UidInv (uidStep current action) := by
  obtain ⟨hpconn, hmessages, hwrites⟩ := id hinv
  cases action with
  | notification conn notification =>
      simp only [uidStep, trackedStep, serviceStep, ancsHandleNotificationSourceData, observeUid]
      split
      · exact hinv
      · refine ⟨hpconn, by simpa using hmessages, ?_⟩
        simpa [UidRun.handled] using hwrites
  | handle =>
      cases hqueue : current.state.messages with
      | nil =>
          have hsame : uidStep current .handle = current := by
            simp only [uidStep, trackedStep, serviceStep, handleMessage, hqueue, observeUid]
          rw [hsame]
          exact hinv
      | cons conn rest =>
          obtain ⟨hrest, hkept, hadded⟩ := handleMessage_cons current.state hpconn hqueue
          obtain ⟨hhandled, hlt⟩ := UidRun.handled_cons hinv hqueue
          refine ⟨?_, ?_, ?_⟩
          · change (handleMessage current.state).pconn ≠ 0
            rw [hkept]
            exact hpconn
          · change (handleMessage current.state).messages.length ≤ current.history.length
            rw [hrest]
            omega
          · change (handleMessage current.state).writes.length ≤
              current.history.length - (handleMessage current.state).messages.length
            rw [hrest, hhandled, hadded]
            split
            · omega
            · rw [List.length_append, List.length_singleton]
              omega
  | complete => exact ⟨hpconn, hmessages, hwrites⟩

/-- A step keeps all asked, and leads there only from there, exactly if it meets
the condition. -/
theorem allAsked_step (current : UidRun) (action : ServiceAction) (hinv : UidInv current) :
    AllAsked (uidStep current action) ↔ AllAsked current ∧ AskCondition current action := by
  cases action with
  | notification conn notification =>
      have hcondition : AskCondition current (.notification conn notification) := trivial
      rw [and_iff_left hcondition]
      simp only [uidStep, trackedStep, serviceStep, ancsHandleNotificationSourceData, observeUid]
      split
      · exact Iff.rfl
      · simp only [AllAsked, UidRun.handled, List.length_append, List.length_singleton,
          Nat.add_sub_add_right]
        rw [List.take_append_of_le_length (Nat.sub_le _ _)]
        exact Iff.rfl
  | complete => exact (and_iff_left trivial).symm
  | handle =>
      cases hqueue : current.state.messages with
      | nil =>
          have hsame : uidStep current .handle = current := by
            simp only [uidStep, trackedStep, serviceStep, handleMessage, hqueue, observeUid]
          have hcondition : AskCondition current .handle := fun hsome => absurd hqueue hsome
          rw [hsame, and_iff_left hcondition]
      | cons conn rest =>
          obtain ⟨hrest, -, hadded⟩ := handleMessage_cons current.state hinv.pconn hqueue
          obtain ⟨hhandled, hlt⟩ := UidRun.handled_cons hinv hqueue
          have hcondition : AskCondition current .handle ↔
              current.state.pendingFlag = false ∧
                current.history[UidRun.handled current]? = some current.state.uuidData :=
            imp_iff_right (by rw [hqueue]; simp)
          have hnext : AllAsked (uidStep current .handle) ↔
              (handleMessage current.state).writes.map askedUid =
                (current.history.take (UidRun.handled current + 1)).map Vector.toList := by
            rw [← hhandled, ← hrest]
            exact Iff.rfl
          rw [hnext, hcondition, hadded]
          cases hpending : current.state.pendingFlag with
          | true =>
              -- The skipped write leaves one request too few.
              refine iff_of_false (fun hall => ?_) (by simp)
              have hlength := congrArg List.length hall
              have hwrites := hinv.writes
              simp only [if_true, List.length_map, List.length_take] at hlength
              omega
          | false =>
              rw [List.take_add_one, List.getElem?_eq_getElem hlt]
              simp only [Bool.false_eq_true, if_false, List.map_append, List.map_cons,
                List.map_nil, Option.toList_some, askedUid_request, true_and, Option.some.injEq]
              constructor
              · intro hall
                obtain ⟨hbefore, hlast⟩ := List.append_inj' hall rfl
                exact ⟨hbefore, (Vector.toList_inj.mp (List.cons.inj hlast).1).symm⟩
              · rintro ⟨hbefore, hlast⟩
                rw [hlast]
                exact congrArg (· ++ _) hbefore

theorem uidInit_inv (conn : Conn) (hconn : conn ≠ 0) : UidInv (uidInit conn) :=
  ⟨hconn, Nat.le_refl 0, Nat.le_refl 0⟩

/-- When all messages have been handled, the UIDs asked about are exactly those
received if and only if every message was handled while no write was outstanding
and its UID was still in the buffer. -/
theorem asked_iff (conn : Conn) (hconn : conn ≠ 0) (actions : List ServiceAction)
    (hmessages : (run uidStep (uidInit conn) actions).state.messages = []) :
    (run uidStep (uidInit conn) actions).state.asked =
        (run uidStep (uidInit conn) actions).history.map Vector.toList ↔
      Along uidStep AskCondition (uidInit conn) actions := by
  have hall : AllAsked (run uidStep (uidInit conn) actions) ↔
      AllAsked (uidInit conn) ∧ Along uidStep AskCondition (uidInit conn) actions :=
    run_iff_along UidInv uidStep_inv allAsked_step (uidInit_inv conn hconn)
  have hinit : AllAsked (uidInit conn) := rfl
  rw [and_iff_right hinit] at hall
  rw [← hall, AllAsked, UidRun.handled, hmessages, List.length_nil, Nat.sub_zero,
    List.take_length]

/-- A notification of a new message. -/
def added (uid : Uid) : ServiceAction := .notification 1 ⟨0, 2, 4, 1, uid⟩

/-- Two notifications, the second after the first has been asked about. -/
def spacedNotifications : List ServiceAction :=
  [added #v[1, 0, 0, 0], .handle, .complete, added #v[2, 0, 0, 0], .handle, .complete]

theorem spacedNotifications_asked_iff :
    (run uidStep (uidInit 1) spacedNotifications).state.asked =
        (run uidStep (uidInit 1) spacedNotifications).history.map Vector.toList ↔
      Along uidStep AskCondition (uidInit 1) spacedNotifications :=
  asked_iff 1 (by decide) spacedNotifications (by decide)

/-- Two notifications before the first message is handled. -/
def closeNotifications : List ServiceAction :=
  [added #v[1, 0, 0, 0], added #v[2, 0, 0, 0], .handle, .complete, .handle, .complete]

theorem closeNotifications_asked_twice :
    (run uidStep (uidInit 1) closeNotifications).state.messages = [] ∧
      (run uidStep (uidInit 1) closeNotifications).state.pendingFlag = false ∧
      (run uidStep (uidInit 1) closeNotifications).state.asked = [[2, 0, 0, 0], [2, 0, 0, 0]] ∧
      (run uidStep (uidInit 1) closeNotifications).state.asked ≠
        (run uidStep (uidInit 1) closeNotifications).history.map Vector.toList := by
  decide

end CubieBle.Ancs
