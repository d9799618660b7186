import Mathlib.Data.UInt
import CubieBle.Machine.Run

/-! # Postponed updates of the connection parameters

After a connection is made, a work item asks for new parameters. It is postponed while the
application is not ready, thirty times at most, and the postponements are counted in one byte for
all connections.
-/

namespace CubieBle.Host.ConnUpdate

open Machine

inductive BtConnState
  | disconnected
  | connectScan
  | connect
  | connected
  | disconnect
deriving DecidableEq

structure BtLeConnParam where
  intervalMin : UInt16
  intervalMax : UInt16
  latency : UInt16
  timeout : UInt16
deriving DecidableEq

/-- The parameters of `struct bt_conn_le` are those that the host wants. -/
structure BtConn where
  state : BtConnState
  master : Bool
  le : BtLeConnParam
deriving DecidableEq

/-- What a firing of the work item does. -/
inductive UpdateCall
  | disconnect
  | submit (noWait : Bool)
  | leParamUpdate (param : BtLeConnParam)
deriving DecidableEq

def UpdateCall.IsRequest : UpdateCall → Prop
  | .leParamUpdate _ => True
  | _ => False

/-- What a firing finds: the connection, the answer of `app_ready_update` if one is registered,
and the parameters of `p_update_cfg` if it is set. -/
structure Firing where
  conn : BtConn
  appReadyUpdate : Option Bool
  pUpdateCfg : Option BtLeConnParam
deriving DecidableEq

def updateConnParam (conn : BtConn) : UpdateCall := .submit conn.master

/-- `le_conn_update_new`: the counter of the postponements after it, and what it does. -/
def leConnUpdate (updateDelayTimes : UInt8) (firing : Firing) : UInt8 × UpdateCall :=
  if firing.conn.state = .connect then (updateDelayTimes, .disconnect)
  else
    -- the counter is incremented only if the application is asked and is not ready
    let (postponed, updateDelayTimes) :=
      match firing.appReadyUpdate with
      | some false => (decide (updateDelayTimes < 30), updateDelayTimes + 1)
      | _ => (false, updateDelayTimes)
    if postponed then (updateDelayTimes, updateConnParam firing.conn)
    else (0, .leParamUpdate (firing.pUpdateCfg.getD firing.conn.le))

/-! ## Connections -/

/-- The firings of the work item while one connection lasts. -/
structure Connection where
  firings : List Firing
  established : ∀ firing ∈ firings, firing.conn.state ≠ .connect

def fire (updateDelayTimes : UInt8) (firing : Firing) : UInt8 :=
  (leConnUpdate updateDelayTimes firing).1

/-- The counter after a connection. A disconnection leaves it alone. -/
def serve (updateDelayTimes : UInt8) (connection : Connection) : UInt8 :=
  run fire updateDelayTimes connection.firings

/-- What the firing with the index `k` does. -/
def callAt (updateDelayTimes : UInt8) (firings : List Firing) (k : Nat) : Option UpdateCall :=
  firings[k]?.map fun firing => (leConnUpdate (run fire updateDelayTimes (firings.take k)) firing).2

/-- The application is not ready at a firing. -/
def Firing.NotReady (firing : Firing) : Prop := firing.appReadyUpdate = some false

instance (firing : Firing) : Decidable firing.NotReady :=
  inferInstanceAs (Decidable (firing.appReadyUpdate = some false))

/-- The update is due: the application is ready, or it is the 31st firing. -/
def Due (firings : List Firing) (k : Nat) : Prop :=
  k = 30 ∨ ∀ firing ∈ firings[k]?, ¬firing.NotReady

/-- The parameters are requested at the first firing at which this is due, and not before. -/
def RequestedWhenDue (updateDelayTimes : UInt8) (connection : Connection) : Prop :=
  ∀ k call, callAt updateDelayTimes connection.firings k = some call →
    (∀ i < k, ¬Due connection.firings i) → (call.IsRequest ↔ Due connection.firings k)

/-- The counter starts above zero, and reaches thirty before the application is ready. -/
def CutShort (updateDelayTimes : UInt8) (connection : Connection) : Prop :=
  updateDelayTimes ≠ 0 ∧
    ∀ k ≤ 30 - updateDelayTimes.toNat, ∃ firing, connection.firings[k]? = some firing ∧
      firing.NotReady

/-! ## One firing -/

section OneFiring

variable {times : UInt8} {firing : Firing}

theorem leConnUpdate_of_ready (hstate : firing.conn.state ≠ .connect)
    (hready : ¬firing.NotReady) :
    leConnUpdate times firing = (0, .leParamUpdate (firing.pUpdateCfg.getD firing.conn.le)) := by
  rw [Firing.NotReady] at hready
  rw [leConnUpdate, if_neg hstate]
  cases hanswer : firing.appReadyUpdate with
  | none => rfl
  | some answer =>
      cases answer with
      | false => exact absurd hanswer hready
      | true => rfl

theorem leConnUpdate_of_notReady (hstate : firing.conn.state ≠ .connect)
    (hnot : firing.NotReady) :
    leConnUpdate times firing =
      if times < 30 then (times + 1, updateConnParam firing.conn)
      else (0, .leParamUpdate (firing.pUpdateCfg.getD firing.conn.le)) := by
  rw [Firing.NotReady] at hnot
  rw [leConnUpdate, if_neg hstate, hnot]
  by_cases hfew : times < 30
  · simp [hfew]
  · simp [hfew]

/-- A firing that is not a request is a postponement. -/
theorem isRequest_iff (hstate : firing.conn.state ≠ .connect) :
    (leConnUpdate times firing).2.IsRequest ↔ (firing.NotReady → 30 ≤ times.toNat) := by
  by_cases hnot : firing.NotReady
  · rw [leConnUpdate_of_notReady hstate hnot]
    have hfew : times < 30 ↔ times.toNat < 30 := UInt8.lt_iff_toNat_lt
    split_ifs with htimes
    · have hlt := hfew.mp htimes
      simp only [updateConnParam, UpdateCall.IsRequest, hnot, true_imp_iff, false_iff]
      omega
    · have hle : 30 ≤ times.toNat := Nat.le_of_not_lt fun hlt => htimes (hfew.mpr hlt)
      simp [UpdateCall.IsRequest, hle]
  · rw [leConnUpdate_of_ready hstate hnot]
    simp [UpdateCall.IsRequest, hnot]

/-- The counter never passes thirty. -/
theorem fire_le (htimes : times.toNat ≤ 30) (firing : Firing) :
    (fire times firing).toNat ≤ 30 := by
  rw [fire]
  by_cases hstate : firing.conn.state = .connect
  · rw [leConnUpdate, if_pos hstate]
    exact htimes
  · by_cases hnot : firing.NotReady
    · rw [leConnUpdate_of_notReady hstate hnot]
      split_ifs with hfew
      · rw [UInt8.lt_iff_toNat_lt] at hfew
        change times.toNat < 30 at hfew
        rw [UInt8.toNat_add, UInt8.toNat_one]
        omega
      · exact Nat.zero_le 30
    · rw [leConnUpdate_of_ready hstate hnot]
      exact Nat.zero_le 30

end OneFiring

/-! ## One connection -/

/-- Firings that are all postponed are counted. -/
theorem toNat_run_fire {times : UInt8} {firings : List Firing}
    (hstate : ∀ firing ∈ firings, firing.conn.state ≠ .connect)
    (hnot : ∀ firing ∈ firings, firing.NotReady) (hfew : times.toNat + firings.length ≤ 30) :
    (run fire times firings).toNat = times.toNat + firings.length := by
  induction firings generalizing times with
  | nil => rfl
  | cons firing rest ih =>
      rw [List.length_cons] at hfew
      have hlt : times < 30 := by
        rw [UInt8.lt_iff_toNat_lt]
        change times.toNat < 30
        omega
      have hfire : fire times firing = times + 1 := by
        rw [fire, leConnUpdate_of_notReady (hstate firing (by simp)) (hnot firing (by simp)),
          if_pos hlt]
      have hsucc : (times + 1).toNat = times.toNat + 1 := by
        rw [UInt8.toNat_add, UInt8.toNat_one]
        omega
      rw [run_cons, hfire, ih (fun other hother => hstate other (by simp [hother]))
        (fun other hother => hnot other (by simp [hother])) (by omega), hsucc, List.length_cons]
      omega

section OneConnection

variable {times : UInt8} {connection : Connection}

theorem run_fire_le (htimes : times.toNat ≤ 30) (firings : List Firing) :
    (run fire times firings).toNat ≤ 30 := by
  have hall := throughout_of_step (fun times : UInt8 => times.toNat ≤ 30)
    (fun _ firing hle => fire_le hle firing) htimes firings
  exact hall.last

theorem not_due_iff {firings : List Firing} {i : Nat} :
    ¬Due firings i ↔ i ≠ 30 ∧ ∃ firing, firings[i]? = some firing ∧ firing.NotReady := by
  rw [Due, not_or]
  apply and_congr_right
  intro _
  cases hfiring : firings[i]? with
  | none => simp
  | some firing => simp

/-- As long as nothing is due all firings are postponed, and the call at the next one depends on
their number alone. -/
theorem callAt_of_not_due {k : Nat} {call : UpdateCall}
    (hcall : callAt times connection.firings k = some call)
    (hnot : ∀ i < k, ¬Due connection.firings i) (hfew : times.toNat + k ≤ 30) :
    ∃ firing, connection.firings[k]? = some firing ∧
      (call.IsRequest ↔ (firing.NotReady → times.toNat + k = 30)) := by
  obtain ⟨firing, hfiring, hcall⟩ := Option.map_eq_some_iff.mp hcall
  refine ⟨firing, hfiring, ?_⟩
  have hk : k < connection.firings.length := (List.getElem?_eq_some_iff.mp hfiring).1
  have hlength : (connection.firings.take k).length = k :=
    List.length_take_of_le (Nat.le_of_lt hk)
  have hpostponed : ∀ other ∈ connection.firings.take k, other.NotReady := by
    intro other hother
    obtain ⟨i, hi, heq⟩ := List.mem_iff_getElem.mp hother
    rw [hlength] at hi
    obtain ⟨-, at_, hat, hready⟩ := not_due_iff.mp (hnot i hi)
    rw [List.getElem_take] at heq
    rw [List.getElem?_eq_getElem (Nat.lt_trans hi hk), Option.some.injEq, heq] at hat
    rwa [hat]
  have hcount := toNat_run_fire
    (fun other hother => connection.established other (List.mem_of_mem_take hother)) hpostponed
    (by rwa [hlength])
  rw [hlength] at hcount
  rw [← hcall, isRequest_iff (connection.established firing (List.mem_of_getElem? hfiring)), hcount]
  apply imp_congr_right
  intro _
  omega

theorem CutShort.not_requestedWhenDue (hcut : CutShort times connection)
    (htimes : times.toNat ≤ 30) : ¬RequestedWhenDue times connection := by
  intro hrequested
  obtain ⟨hne, hall⟩ := hcut
  have hpos : times.toNat ≠ 0 := by
    intro hzero
    exact hne (UInt8.toNat_inj.mp hzero)
  -- the firing at which the counter is thirty
  obtain ⟨last, hlast, hnotLast⟩ := hall _ (Nat.le_refl _)
  obtain ⟨call, hcall⟩ :
      ∃ call, callAt times connection.firings (30 - times.toNat) = some call := by
    rw [callAt, hlast]
    exact ⟨_, rfl⟩
  have hnot : ∀ i < 30 - times.toNat, ¬Due connection.firings i := by
    intro i hi
    exact not_due_iff.mpr ⟨by omega, hall i (Nat.le_of_lt hi)⟩
  obtain ⟨firing, -, hiff⟩ := callAt_of_not_due hcall hnot (by omega)
  have hrequest := hiff.mpr fun _ => by omega
  have hdue := (hrequested _ _ hcall hnot).mp hrequest
  exact not_due_iff.mpr ⟨by omega, last, hlast, hnotLast⟩ hdue

/-- In one connection the update is requested when it is due exactly if it is not cut short. -/
theorem requestedWhenDue_iff (htimes : times.toNat ≤ 30) :
    RequestedWhenDue times connection ↔ ¬CutShort times connection := by
  constructor
  · intro hrequested hcut
    exact hcut.not_requestedWhenDue htimes hrequested
  · intro hnotCut k call hcall hnot
    have hk : k ≤ 30 := by
      by_contra hlate
      exact hnot 30 (by omega) (.inl rfl)
    have hpostponed : ∀ i < k, ∃ firing, connection.firings[i]? = some firing ∧
        firing.NotReady := fun i hi => (not_due_iff.mp (hnot i hi)).2
    have hlow : times.toNat + k ≤ 30 := by
      by_contra hhigh
      have hne : times ≠ 0 := by
        intro heq
        rw [heq] at hhigh
        exact hhigh (by simpa using hk)
      exact hnotCut ⟨hne, fun i hi => hpostponed i (by omega)⟩
    obtain ⟨firing, hfiring, hiff⟩ := callAt_of_not_due hcall hnot hlow
    rw [hiff, Due, hfiring]
    by_cases hready : firing.NotReady
    · constructor
      · intro hlast
        have hsum := hlast hready
        by_contra hdue
        have hne : times ≠ 0 := by
          intro heq
          rw [heq] at hsum
          exact hdue (.inl (by simpa using hsum))
        apply hnotCut
        refine ⟨hne, ?_⟩
        intro i hi
        by_cases hbefore : i < k
        · exact hpostponed i hbefore
        · have heq : i = k := by omega
          rw [heq]
          exact ⟨firing, hfiring, hready⟩
      · rintro (hlast | hnotReady) _
        · omega
        · exact absurd hready (hnotReady firing rfl)
    · simp [hready]

end OneConnection

/-! ## All connections -/

/-- Over any sequence of connections, the update is requested when it is due in each of them
exactly if none is cut short by what is left in the counter. -/
theorem updates_requested_iff (connections : List Connection) :
    Along serve RequestedWhenDue 0 connections ↔
      Along serve (fun times connection => ¬CutShort times connection) 0 connections := by
  apply along_congr_of_invariant (fun times : UInt8 => times.toNat ≤ 30)
  · intro times connection htimes
    exact requestedWhenDue_iff htimes
  · intro times connection htimes _
    exact run_fire_le htimes connection.firings
  · exact Nat.zero_le 30

/-- A peripheral's firing with a registered callback. -/
def slaveFiring (ready : Bool) : Firing where
  conn := ⟨.connected, false, ⟨24, 40, 0, 42⟩⟩
  appReadyUpdate := some ready
  pUpdateCfg := none

/-- A connection with so many firings while the application is not ready. -/
def notReadyConnection (count : Nat) : Connection where
  firings := List.replicate count (slaveFiring false)
  established := by
    intro firing hfiring
    rw [List.eq_of_mem_replicate hfiring]
    decide

/-- A connection that ends after one postponement takes one away from the next. -/
theorem later_connection_cut_short :
    ¬Along serve RequestedWhenDue 0 [notReadyConnection 1, notReadyConnection 30] := by
  rintro ⟨-, hlater, -⟩
  have hcounter : serve 0 (notReadyConnection 1) = 1 := by decide
  rw [hcounter] at hlater
  have hcut : CutShort 1 (notReadyConnection 30) := by
    refine ⟨by decide, ?_⟩
    intro k hk
    have hlt : k < 30 := by
      have hone : (1 : UInt8).toNat = 1 := rfl
      omega
    exact ⟨slaveFiring false, List.getElem?_replicate_of_lt hlt, rfl⟩
  exact hcut.not_requestedWhenDue (by decide) hlater

end CubieBle.Host.ConnUpdate
