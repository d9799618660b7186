import CubieBle.BleModule.Rename
import CubieBle.BleModule.Transparent

/-! # The commands a master recognises

The command to update has to be in one chunk, and it makes the module a slave. The command to
disconnect may be spread over chunks, but a chunk that breaks off an earlier start of it is
not looked at again. So the command is missed exactly if less than `AT+DISCON` is under way.
-/

namespace CubieBle.BleModule

open Machine

/-- What `data_handler` goes by. -/
structure DataHandler where
  role : BleRole
  master : DataMode
  slave : SlaveMode

/-- A master that has received nothing. -/
def DataHandler.init : DataHandler where
  role := .master
  master := .init
  slave := .init

/-- One iteration of `data_handler` with a connection. `at_cmd_ota` changes the role; the
message to disconnect that it sends itself is a part of the update. -/
def dataHandler (noEqualSign : Bool) (handler : DataHandler) (chunk : Chunk) : DataHandler :=
  match handler.role with
  | .slave => { handler with slave := slaveDataHandler noEqualSign handler.slave chunk.data }
  | .master =>
      { handler with
        role := if (atOtaMatch chunk).1 then .slave else .master
        master := masterDataHandler handler.master chunk }

/-! ## The matchers -/

section Matchers

variable {data : List UInt8} {matchCnt : Nat} {chunk : Chunk}

theorem atDiscon_drop_cons {byte : UInt8} (hbyte : byte = atDisconnCmd.getD matchCnt 0) :
    atDiscon.drop matchCnt <+: byte :: data ↔ atDiscon.drop (matchCnt + 1) <+: data := by
  by_cases hlt : matchCnt < 9
  · rw [drop_atDiscon hlt, List.cons_prefix_cons, and_iff_right hbyte.symm]
  · have hle : atDiscon.length ≤ matchCnt := Nat.le_of_not_lt hlt
    rw [List.drop_of_length_le hle, List.drop_of_length_le (Nat.le_succ_of_le hle)]
    exact iff_of_true List.nil_prefix List.nil_prefix

/-- The chunk goes on with the command, or the counter is cleared; then the message is sent
exactly if the start that is enough is complete. -/
theorem atDisconnLoop_cases (data : List UInt8) (len : Nat) (hlt : matchCnt < 15) :
    (data <+: atDisconnCmd.drop matchCnt ∧ matchCnt + data.length < 15 ∧
        atDisconnLoop len data matchCnt = (matchCnt + data.length, false, len % 256)) ∨
      (atDiscon.drop matchCnt <+: data ∧ atDisconnLoop len data matchCnt = (0, true, len % 256)) ∨
        (¬atDiscon.drop matchCnt <+: data ∧ ¬data <+: atDisconnCmd.drop matchCnt ∧
          atDisconnLoop len data matchCnt = (0, false, 0)) := by
  induction data generalizing matchCnt with
  | nil => exact .inl ⟨List.nil_prefix, hlt, rfl⟩
  | cons byte rest ih =>
      rw [atDisconnLoop, drop_atDisconnCmd hlt, List.cons_prefix_cons, length_atDisconnCmd]
      by_cases hbyte : byte = atDisconnCmd.getD matchCnt 0
      · rw [if_pos hbyte, and_iff_right hbyte, atDiscon_drop_cons hbyte]
        by_cases hlast : matchCnt + 1 = 15
        · rw [if_pos hlast]
          refine .inr (.inl ⟨?_, rfl⟩)
          rw [List.drop_of_length_le (by rw [length_atDiscon]; omega)]
          exact List.nil_prefix
        · rw [if_neg hlast, List.length_cons, Nat.add_comm rest.length, ← Nat.add_assoc]
          exact ih (Nat.lt_of_le_of_ne hlt hlast)
      · rw [if_neg hbyte, length_atDiscon]
        by_cases henough : 9 ≤ matchCnt
        · rw [if_pos henough]
          refine .inr (.inl ⟨?_, rfl⟩)
          rw [List.drop_of_length_le (show atDiscon.length ≤ matchCnt from henough)]
          exact List.nil_prefix
        · rw [if_neg henough]
          refine .inr (.inr ⟨?_, fun hboth => hbyte hboth.1, rfl⟩)
          rw [drop_atDiscon (Nat.lt_of_not_le henough), List.cons_prefix_cons]
          exact fun hboth => hbyte hboth.1.symm

/-- The bytes the loop of `at_ota_match` compares with: the command, its zero, the stack. -/
def otaText (stack : Nat → UInt8) (i : Nat) : UInt8 := (atOtaCmd ++ [0]).getD i (stack i)

/-- The update is started as soon as `match_len` has counted to the length of the command,
from whatever it was. -/
theorem atOtaLoop_eq (stack : Nat → UInt8) (len i : Nat) (matchLen : UInt8) :
    atOtaLoop stack len i data matchLen =
      if ∃ k < data.length, (matchLen.toNat + k + 1) % 256 = 8 ∧
          ∀ j ≤ k, data[j]? = some (otaText stack (i + j)) then (true, len % 256)
      else (false, 0) := by
  induction data generalizing i matchLen with
  | nil => exact (if_neg fun ⟨_, hlt, _⟩ => Nat.not_lt_zero _ hlt).symm
  | cons byte rest ih =>
      have hadd : (matchLen + 1).toNat = (matchLen.toNat + 1) % 256 := UInt8.toNat_add _ _
      -- the first byte, and the count it gives
      have hcons : (∃ k < (byte :: rest).length, (matchLen.toNat + k + 1) % 256 = 8 ∧
            ∀ j ≤ k, (byte :: rest)[j]? = some (otaText stack (i + j))) ↔
          byte = otaText stack i ∧ ((matchLen + 1).toNat = 8 ∨
            ∃ k < rest.length, ((matchLen + 1).toNat + k + 1) % 256 = 8 ∧
              ∀ j ≤ k, rest[j]? = some (otaText stack (i + 1 + j))) := by
        constructor
        · rintro ⟨k, hlt, hcount, hmatch⟩
          refine ⟨Option.some.inj (hmatch 0 (Nat.zero_le k)), ?_⟩
          cases k with
          | zero => exact .inl (hadd.trans hcount)
          | succ k =>
              refine .inr ⟨k, Nat.lt_of_succ_lt_succ hlt, by rw [hadd]; omega, ?_⟩
              intro j hj
              have hnext := hmatch (j + 1) (Nat.succ_le_succ hj)
              rwa [List.getElem?_cons_succ, ← Nat.add_assoc, Nat.add_right_comm] at hnext
        · rintro ⟨hbyte, hcount | ⟨k, hlt, hcount, hmatch⟩⟩
          · refine ⟨0, Nat.succ_pos _, hadd.symm.trans hcount, ?_⟩
            intro j hj
            rw [Nat.le_zero.mp hj, hbyte]
            rfl
          · refine ⟨k + 1, Nat.succ_lt_succ hlt, by rw [hadd] at hcount; omega, ?_⟩
            intro j hj
            cases j with
            | zero => exact congrArg some hbyte
            | succ j =>
                rw [List.getElem?_cons_succ, ← Nat.add_assoc, Nat.add_right_comm]
                exact hmatch j (Nat.le_of_succ_le_succ hj)
      rw [atOtaLoop, length_atOtaCmd, ← otaText]
      by_cases hbyte : byte = otaText stack i
      · rw [if_pos hbyte]
        by_cases hcount : (matchLen + 1).toNat = 8
        · rw [if_pos hcount, if_pos (hcons.mpr ⟨hbyte, .inl hcount⟩)]
        · rw [if_neg hcount, ih]
          refine if_congr ?_ rfl rfl
          rw [hcons, and_iff_right hbyte, or_iff_right hcount]
      · rw [if_neg hbyte, if_neg fun h => hbyte (hcons.mp h).1]

/-- The unset `match_len` neither hides the command to update nor completes a part of it.
Behind the command it may run on to 8 over the zero and what the stack holds. -/
def OtaExact (chunk : Chunk) : Prop :=
  if atOtaCmd <+: chunk.data then
    chunk.matchLen.toNat ≤ 7 ∨
      ∃ k < chunk.data.length, 8 ≤ k ∧ chunk.matchLen.toNat + k = 263 ∧
        ∀ j ≤ k, 8 ≤ j → chunk.data[j]? = some (otaText chunk.stack j)
  else OtaSafe chunk

theorem otaText_of_lt (stack : Nat → UInt8) {j : Nat} (hlt : j < 8) :
    some (otaText stack j) = atOtaCmd[j]? := by
  have hlength : j < atOtaCmd.length := hlt
  rw [otaText, List.getD_eq_getElem?_getD, List.getElem?_append_left hlength,
    List.getElem?_eq_getElem hlength, Option.getD_some]

/-- What `at_ota_match` finds is that the chunk starts with the command, if the unset value is
no obstacle; only then. -/
theorem atOtaMatch_iff (hle : chunk.data.length ≤ actDataMtu) :
    ((atOtaMatch chunk).1 = true ↔ atOtaCmd <+: chunk.data) ↔ OtaExact chunk := by
  unfold OtaExact
  split
  next hstarts =>
    have hlength := hstarts.length_le
    have hcmd : ∀ j < 8, chunk.data[j]? = some (otaText chunk.stack j) := by
      intro j hj
      rw [otaText_of_lt _ hj]
      exact (List.prefix_iff_getElem?.mp hstarts j hj).trans
        (List.getElem?_eq_getElem (show j < atOtaCmd.length from hj)).symm
    rw [iff_true_right hstarts, atOtaMatch, if_neg (by rw [length_atOtaCmd] at hlength; omega),
      atOtaLoop_eq]
    have hbound := chunk.matchLen.toNat_lt
    rw [actDataMtu] at hle
    rw [length_atOtaCmd] at hlength
    constructor
    · intro hfound
      split at hfound
      next hmatch =>
        obtain ⟨k, hlt, hcount, hmatch⟩ := hmatch
        by_cases hsmall : chunk.matchLen.toNat ≤ 7
        · exact .inl hsmall
        · refine .inr ⟨k, hlt, by omega, by omega, ?_⟩
          intro j hj _
          rw [hmatch j hj, Nat.zero_add]
      next => exact absurd hfound Bool.false_ne_true
    · intro hexact
      rw [if_pos]
      rcases hexact with hsmall | ⟨k, hlt, hge, hcount, hmatch⟩
      · refine ⟨7 - chunk.matchLen.toNat, by omega, by omega, ?_⟩
        intro j hj
        rw [Nat.zero_add]
        exact hcmd j (by omega)
      · refine ⟨k, hlt, by omega, ?_⟩
        intro j hj
        rw [Nat.zero_add]
        by_cases hin : j < 8
        · exact hcmd j hin
        · exact hmatch j hj (Nat.le_of_not_lt hin)
  next hstarts =>
    rw [iff_false_right hstarts]
    rcases atOtaMatch_cases hstarts with ⟨hmatch, hsafe⟩ | ⟨hmatch, hunsafe⟩
    · rw [hmatch]
      exact iff_of_true Bool.false_ne_true hsafe
    · rw [hmatch]
      exact iff_of_false (not_not.mpr rfl) hunsafe

end Matchers

/-! ## One chunk -/

section Step

variable {noEqualSign : Bool} {handler : DataHandler} {chunk : Chunk}

theorem atOtaMatch_skip (chunk : Chunk) :
    (atOtaMatch chunk).2 = if (atOtaMatch chunk).1 then chunk.data.length % 256 else 0 := by
  unfold atOtaMatch
  split
  next => rfl
  next =>
    rw [atOtaLoop_eq]
    split
    next => rfl
    next => rfl

theorem bleSendFrom_atDisconnMatchCnt (dataStart : Nat) (data : List UInt8) (mode : DataMode) :
    (bleSendFrom dataStart data mode).atDisconnMatchCnt = mode.atDisconnMatchCnt := by
  unfold bleSendFrom
  split
  next => rfl
  next => rfl

theorem bleSendFrom_disconnects (dataStart : Nat) (data : List UInt8) (mode : DataMode) :
    (bleSendFrom dataStart data mode).disconnects = mode.disconnects := by
  unfold bleSendFrom
  split
  next => rfl
  next => rfl

theorem bleSendFrom_updates (dataStart : Nat) (data : List UInt8) (mode : DataMode) :
    (bleSendFrom dataStart data mode).updates = mode.updates := by
  unfold bleSendFrom
  split
  next => rfl
  next => rfl

theorem dataHandler_slave (noEqualSign : Bool) (chunk : Chunk)
    (hrole : handler.role = .slave) :
    (dataHandler noEqualSign handler chunk).role = .slave ∧
      (dataHandler noEqualSign handler chunk).master = handler.master := by
  rw [dataHandler, hrole]
  exact ⟨rfl, rfl⟩

/-- The update ends the role of the master. -/
theorem dataHandler_update (noEqualSign : Bool) (hrole : handler.role = .master)
    (hmatch : (atOtaMatch chunk).1 = true) (hpos : 0 < chunk.data.length)
    (hle : chunk.data.length ≤ actDataMtu) :
    (dataHandler noEqualSign handler chunk).role = .slave ∧
      (dataHandler noEqualSign handler chunk).master.updates = handler.master.updates + 1 ∧
        (dataHandler noEqualSign handler chunk).master.atDisconnMatchCnt =
            handler.master.atDisconnMatchCnt ∧
          (dataHandler noEqualSign handler chunk).master.disconnects =
            handler.master.disconnects := by
  have hskip := atOtaMatch_skip chunk
  rw [hmatch, if_pos rfl] at hskip
  have hmod : chunk.data.length % 256 ≠ 0 := by
    rw [actDataMtu] at hle
    omega
  simp only [dataHandler, hrole, hmatch, if_true,
    masterDataHandler_update handler.master (Prod.ext hmatch hskip) hmod,
    bleSendFrom_atDisconnMatchCnt, bleSendFrom_disconnects, bleSendFrom_updates, and_self]

/-- Without the update, the chunk is searched for the command to disconnect. -/
theorem dataHandler_search (noEqualSign : Bool) (hrole : handler.role = .master)
    (hmatch : (atOtaMatch chunk).1 = false) :
    (dataHandler noEqualSign handler chunk).role = .master ∧
      (dataHandler noEqualSign handler chunk).master.updates = handler.master.updates ∧
        (dataHandler noEqualSign handler chunk).master.atDisconnMatchCnt =
            (atDisconnMatch chunk.data handler.master.atDisconnMatchCnt).1 ∧
          (dataHandler noEqualSign handler chunk).master.disconnects =
            if (atDisconnMatch chunk.data handler.master.atDisconnMatchCnt).2.1 then
              handler.master.disconnects + 1
            else handler.master.disconnects := by
  have hskip := atOtaMatch_skip chunk
  rw [hmatch, if_neg Bool.false_ne_true] at hskip
  simp only [dataHandler, hrole, hmatch, masterDataHandler_data handler.master
    (Prod.ext hmatch hskip), bleSendFrom_atDisconnMatchCnt, bleSendFrom_disconnects,
    bleSendFrom_updates, Bool.false_eq_true, if_false, and_self]

theorem disconnects_le_dataHandler (hpos : 0 < chunk.data.length)
    (hle : chunk.data.length ≤ actDataMtu) :
    handler.master.disconnects ≤ (dataHandler noEqualSign handler chunk).master.disconnects := by
  cases hrole : handler.role with
  | slave => rw [(dataHandler_slave noEqualSign chunk hrole).2]
  | master =>
      cases hmatch : (atOtaMatch chunk).1 with
      | true => rw [(dataHandler_update noEqualSign hrole hmatch hpos hle).2.2.2]
      | false =>
          rw [(dataHandler_search noEqualSign hrole hmatch).2.2.2]
          split
          next => exact Nat.le_succ _
          next => exact Nat.le_refl _

/-- The update is run exactly for the command, or the unset value decides. -/
theorem updates_iff (hrole : handler.role = .master) (hpos : 0 < chunk.data.length)
    (hle : chunk.data.length ≤ actDataMtu) :
    (handler.master.updates < (dataHandler noEqualSign handler chunk).master.updates ↔
      atOtaCmd <+: chunk.data) ↔ OtaExact chunk := by
  rw [← atOtaMatch_iff hle]
  cases hmatch : (atOtaMatch chunk).1 with
  | true =>
      rw [(dataHandler_update noEqualSign hrole hmatch hpos hle).2.1]
      simp
  | false =>
      rw [(dataHandler_search noEqualSign hrole hmatch).2.1]
      simp

end Step

/-! ## A stream -/

/-- The chunks of a stream have 1 to `ACT_DATA_MTU` bytes. -/
def Sized (chunks : List Chunk) : Prop :=
  ∀ chunk ∈ chunks, 0 < chunk.data.length ∧ chunk.data.length ≤ actDataMtu

def ExactAsMaster (handler : DataHandler) (chunk : Chunk) : Prop :=
  handler.role = .master → OtaExact chunk

section Stream

variable {noEqualSign : Bool} {handler : DataHandler} {chunks : List Chunk}

theorem Sized.head {chunk : Chunk} {later : List Chunk} (hsized : Sized (chunk :: later)) :
    0 < chunk.data.length ∧ chunk.data.length ≤ actDataMtu := hsized chunk List.mem_cons_self

theorem Sized.tail {chunk : Chunk} {later : List Chunk} (hsized : Sized (chunk :: later)) :
    Sized later := fun other hother => hsized other (List.mem_cons_of_mem _ hother)

theorem received_append (first second : List Chunk) :
    received (first ++ second) = received first ++ received second := by
  simp [received]

theorem disconnects_le_run (hsized : Sized chunks) :
    handler.master.disconnects ≤
      (run (dataHandler noEqualSign) handler chunks).master.disconnects := by
  induction chunks generalizing handler with
  | nil => exact Nat.le_refl _
  | cons chunk later ih =>
      exact (disconnects_le_dataHandler hsized.head.1 hsized.head.2).trans (ih hsized.tail)

/-- No part of the command to disconnect starts with the command to update. -/
theorem atOtaMatch_of_part {chunk : Chunk} {count : Nat} (hexact : OtaExact chunk)
    (hle : chunk.data.length ≤ actDataMtu) (hpart : chunk.data <+: atDisconnCmd.drop count) :
    (atOtaMatch chunk).1 = false := by
  have hnone : ∀ count < 15, ¬atOtaCmd <+: atDisconnCmd.drop count := by decide
  have hstarts : ¬atOtaCmd <+: chunk.data := by
    intro hstarts
    by_cases hlt : count < 15
    · exact hnone count hlt (hstarts.trans hpart)
    · rw [List.drop_of_length_le (Nat.le_of_not_lt hlt)] at hpart
      exact absurd (List.prefix_nil.mp (hstarts.trans hpart)) (List.cons_ne_nil _ _)
  exact Bool.eq_false_iff.mpr fun hfound => hstarts (((atOtaMatch_iff hle).mpr hexact).mp hfound)

/-- The command goes on where its start ended. -/
theorem disconnects_lt_run (hrole : handler.role = .master)
    (hlt : handler.master.atDisconnMatchCnt < 15) (hsized : Sized chunks)
    (hexact : Along (dataHandler noEqualSign) ExactAsMaster handler chunks)
    (hstream : received chunks = atDisconnCmd.drop handler.master.atDisconnMatchCnt) :
    handler.master.disconnects <
      (run (dataHandler noEqualSign) handler chunks).master.disconnects := by
  induction chunks generalizing handler with
  | nil =>
      have hlength := congrArg List.length hstream
      rw [List.length_drop, length_atDisconnCmd] at hlength
      exact absurd hlength.symm (Nat.sub_ne_zero_of_lt hlt)
  | cons chunk later ih =>
      rw [received_cons] at hstream
      have hpart : chunk.data <+: atDisconnCmd.drop handler.master.atDisconnMatchCnt :=
        ⟨_, hstream⟩
      have hmatch := atOtaMatch_of_part (hexact.1 hrole) hsized.head.2 hpart
      obtain ⟨hrole', -, hcnt, hposts⟩ := dataHandler_search noEqualSign hrole hmatch
      rw [run_cons]
      rcases atDisconnLoop_cases chunk.data chunk.data.length hlt with
        ⟨-, hmore, hloop⟩ | ⟨-, hloop⟩ | ⟨-, hnot, -⟩
      · rw [atDisconnMatch, hloop] at hcnt hposts
        have hnext := ih hrole' (by rw [hcnt]; exact hmore) hsized.tail hexact.2
          (by rw [hcnt, ← List.drop_drop, ← hstream, List.drop_left])
        exact lt_of_eq_of_lt hposts.symm hnext
      · rw [atDisconnMatch, hloop] at hposts
        refine lt_of_lt_of_le ?_ (disconnects_le_run hsized.tail)
        rw [hposts, if_pos rfl]
        exact Nat.lt_succ_self _
      · exact (hnot hpart).elim

/-- Behind its first byte the command has no byte that starts it. -/
theorem notMem_drop_atDisconnCmd {count : Nat} (hpos : 0 < count) :
    (0x41 : UInt8) ∉ atDisconnCmd.drop count := by
  intro hmem
  have hnone : (0x41 : UInt8) ∉ atDisconnCmd.drop 1 := by decide
  exact hnone ((List.drop_sublist_drop_left _ hpos).mem hmem)

theorem mem_of_starts {data : List UInt8} (hne : data ≠ []) (hstarts : data <+: atDisconnCmd) :
    (0x41 : UInt8) ∈ data := by
  cases data with
  | nil => exact (hne rfl).elim
  | cons byte rest =>
      obtain ⟨hbyte, -⟩ := List.cons_prefix_cons.mp hstarts
      exact hbyte ▸ List.mem_cons_self

/-- When the command starts over what is under way, the message is sent if that is enough, and
otherwise the new start is lost. -/
theorem atDisconnLoop_restart {data : List UInt8} {matchCnt : Nat} (len : Nat)
    (hlt : matchCnt < 15) (hpos : 0 < matchCnt) (hne : data ≠ [])
    (hstarts : data <+: atDisconnCmd) :
    atDisconnLoop len data matchCnt =
      if 9 ≤ matchCnt then (0, true, len % 256) else (0, false, 0) := by
  have hmem := mem_of_starts hne hstarts
  rcases atDisconnLoop_cases data len hlt with ⟨hpart, -⟩ | ⟨hdiscon, hloop⟩ | ⟨hnot, -, hloop⟩
  · exact (notMem_drop_atDisconnCmd hpos (hpart.mem hmem)).elim
  · by_cases henough : 9 ≤ matchCnt
    · rw [hloop, if_pos henough]
    · -- the byte that is missing is not the first one of the command
      cases data with
      | nil => exact (hne rfl).elim
      | cons byte rest =>
          obtain ⟨hbyte, -⟩ := List.cons_prefix_cons.mp hstarts
          rw [drop_atDiscon (Nat.lt_of_not_le henough), List.cons_prefix_cons] at hdiscon
          have hdrop := notMem_drop_atDisconnCmd hpos
          rw [drop_atDisconnCmd hlt, hdiscon.1, hbyte] at hdrop
          exact (hdrop List.mem_cons_self).elim
  · rw [if_neg, hloop]
    intro henough
    refine hnot ?_
    rw [List.drop_of_length_le (show atDiscon.length ≤ matchCnt from henough)]
    exact List.nil_prefix

/-- With nothing under way, no chunk from behind the first byte of the command counts. -/
theorem atDisconnLoop_behind {data : List UInt8} {count : Nat} (len : Nat) (hpos : 0 < count)
    (hne : data ≠ []) (hpart : data <+: atDisconnCmd.drop count) :
    atDisconnLoop len data 0 = (0, false, 0) := by
  have hnot : (0x41 : UInt8) ∉ data := fun hmem =>
    notMem_drop_atDisconnCmd hpos (hpart.mem hmem)
  rcases atDisconnLoop_cases data len (Nat.zero_lt_succ 14) with
    ⟨hstarts, -⟩ | ⟨hdiscon, -⟩ | ⟨-, -, hloop⟩
  · exact (hnot (mem_of_starts hne hstarts)).elim
  · exact (hnot (hdiscon.mem (by decide))).elim
  · exact hloop

/-- Once its first chunk is lost, the command is. -/
theorem disconnects_eq_run {count : Nat} (hrole : handler.role = .master) (hpos : 0 < count)
    (hidle : handler.master.atDisconnMatchCnt = 0) (hsized : Sized chunks)
    (hexact : Along (dataHandler noEqualSign) ExactAsMaster handler chunks)
    (hstream : received chunks = atDisconnCmd.drop count) :
    (run (dataHandler noEqualSign) handler chunks).master.disconnects =
      handler.master.disconnects := by
  induction chunks generalizing handler count with
  | nil => rfl
  | cons chunk later ih =>
      rw [received_cons] at hstream
      have hpart : chunk.data <+: atDisconnCmd.drop count := ⟨_, hstream⟩
      have hne : chunk.data ≠ [] := List.length_pos_iff.mp hsized.head.1
      have hmatch := atOtaMatch_of_part (hexact.1 hrole) hsized.head.2 hpart
      obtain ⟨hrole', -, hcnt, hposts⟩ := dataHandler_search noEqualSign hrole hmatch
      rw [hidle, atDisconnMatch, atDisconnLoop_behind _ hpos hne hpart] at hcnt hposts
      have hlater : received later = atDisconnCmd.drop (count + chunk.data.length) := by
        rw [← List.drop_drop, ← hstream, List.drop_left]
      have hnext := ih hrole' (Nat.add_pos_left hpos _) hcnt hsized.tail hexact.2 hlater
      exact hnext.trans hposts

/-- A run of chunks with the command is recognised unless it breaks off a start of the command
that is not enough. -/
theorem disconnects_lt_run_iff (hrole : handler.role = .master)
    (hlt : handler.master.atDisconnMatchCnt < 15) (hsized : Sized chunks)
    (hexact : Along (dataHandler noEqualSign) ExactAsMaster handler chunks)
    (hstream : received chunks = atDisconnCmd) :
    handler.master.disconnects <
        (run (dataHandler noEqualSign) handler chunks).master.disconnects ↔
      handler.master.atDisconnMatchCnt = 0 ∨ 9 ≤ handler.master.atDisconnMatchCnt := by
  by_cases hidle : handler.master.atDisconnMatchCnt = 0
  · refine iff_of_true (disconnects_lt_run hrole hlt hsized hexact ?_) (.inl hidle)
    rw [hidle, hstream, List.drop_zero]
  · rw [or_iff_right hidle]
    cases chunks with
    | nil => exact absurd hstream.symm (List.cons_ne_nil _ _)
    | cons chunk later =>
        have hstarts : chunk.data <+: atDisconnCmd := ⟨_, hstream⟩
        have hne : chunk.data ≠ [] := List.length_pos_iff.mp hsized.head.1
        have hpart : chunk.data <+: atDisconnCmd.drop 0 := hstarts
        have hmatch := atOtaMatch_of_part (hexact.1 hrole) hsized.head.2 hpart
        obtain ⟨hrole', -, hcnt, hposts⟩ := dataHandler_search noEqualSign hrole hmatch
        rw [atDisconnMatch,
          atDisconnLoop_restart _ hlt (Nat.pos_of_ne_zero hidle) hne hstarts] at hcnt hposts
        rw [run_cons]
        by_cases henough : 9 ≤ handler.master.atDisconnMatchCnt
        · rw [if_pos henough, if_pos rfl] at hposts
          refine iff_of_true (lt_of_lt_of_le ?_ (disconnects_le_run hsized.tail)) henough
          rw [hposts]
          exact Nat.lt_succ_self _
        · rw [if_neg henough] at hcnt hposts
          have hlater : received later = atDisconnCmd.drop chunk.data.length := by
            rw [← hstream, received_cons, List.drop_left]
          rw [disconnects_eq_run hrole' hsized.head.1 hcnt hsized.tail hexact.2 hlater, hposts]
          exact iff_of_false (Nat.lt_irrefl _) henough

theorem atDiscon_starts {matchCnt : Nat} {data : List UInt8}
    (hdiscon : atDiscon.drop matchCnt <+: data) :
    atDiscon <+: atDisconnCmd.take matchCnt ++ data := by
  by_cases henough : 9 ≤ matchCnt
  · have htake : atDiscon <+: atDisconnCmd.take matchCnt :=
      List.take_prefix_take_left henough
    exact htake.trans (List.prefix_append _ _)
  · have htake : atDiscon.take matchCnt = atDisconnCmd.take matchCnt := by
      rw [atDiscon, List.take_take, Nat.min_eq_left (by omega)]
    rw [← List.take_append_drop matchCnt atDiscon, htake]
    exact (List.prefix_append_right_inj _).mpr hdiscon

/-- What is under way are the last chunks, and a message was sent for a start of the command at
a chunk boundary. -/
structure Follows (start handler : DataHandler) (chunks : List Chunk) : Prop where
  bound : handler.master.atDisconnMatchCnt < 15
  underWay : handler.role = .master → ∃ last, last <:+ chunks ∧
    received last = atDisconnCmd.take handler.master.atDisconnMatchCnt
  posted : start.master.disconnects < handler.master.disconnects →
    ∃ later ∈ chunks.tails, atDiscon <+: received later

theorem follows_run (noEqualSign : Bool) {start : DataHandler}
    (hidle : start.master.atDisconnMatchCnt = 0) (hsized : Sized chunks) :
    Follows start (run (dataHandler noEqualSign) start chunks) chunks := by
  induction chunks using List.reverseRecOn with
  | nil =>
      refine ⟨by rw [run_nil, hidle]; decide, fun _ => ⟨[], List.suffix_rfl, ?_⟩,
        fun hlt => (Nat.lt_irrefl _ hlt).elim⟩
      rw [run_nil, hidle]
      rfl
  | append_singleton before chunk ih =>
      obtain ⟨hpos, hle⟩ := hsized chunk (List.mem_append_right _ List.mem_cons_self)
      obtain ⟨hbound, hunder, hposted⟩ := ih fun other hother =>
        hsized other (List.mem_append_left _ hother)
      rw [run_append, run_cons, run_nil]
      generalize run (dataHandler noEqualSign) start before = handler at hbound hunder hposted ⊢
      -- what was sent before was sent for a start that is still in the stream
      have hearlier : start.master.disconnects < handler.master.disconnects →
          ∃ later ∈ (before ++ [chunk]).tails, atDiscon <+: received later := fun hlt => by
        obtain ⟨later, hlater, hstarts⟩ := hposted hlt
        obtain ⟨first, rfl⟩ := (List.mem_tails _ _).mp hlater
        refine ⟨later ++ [chunk], (List.mem_tails _ _).mpr ⟨first, by simp⟩, ?_⟩
        rw [received_append]
        exact hstarts.trans (List.prefix_append _ _)
      cases hrole : handler.role with
      | slave =>
          obtain ⟨hrole', hmaster⟩ := dataHandler_slave noEqualSign chunk hrole
          refine ⟨by rw [hmaster]; exact hbound, fun h => ?_, by rw [hmaster]; exact hearlier⟩
          rw [hrole'] at h
          exact BleRole.noConfusion h
      | master =>
          cases hmatch : (atOtaMatch chunk).1 with
          | true =>
              obtain ⟨hrole', -, hcnt, hposts⟩ :=
                dataHandler_update noEqualSign hrole hmatch hpos hle
              refine ⟨by rw [hcnt]; exact hbound, fun h => ?_, by rw [hposts]; exact hearlier⟩
              rw [hrole'] at h
              exact BleRole.noConfusion h
          | false =>
              obtain ⟨-, -, hcnt, hposts⟩ := dataHandler_search noEqualSign hrole hmatch
              obtain ⟨last, ⟨first, rfl⟩, hlast⟩ := hunder hrole
              rcases atDisconnLoop_cases chunk.data chunk.data.length hbound with
                ⟨hpart, hmore, hloop⟩ | ⟨hdiscon, hloop⟩ | ⟨-, -, hloop⟩
              · rw [atDisconnMatch, hloop] at hcnt hposts
                refine ⟨by rw [hcnt]; exact hmore, fun _ => ⟨last ++ [chunk], ⟨first, by simp⟩, ?_⟩,
                  by rw [hposts]; exact hearlier⟩
                rw [received_append, hlast, hcnt, List.take_add]
                exact congrArg _ ((List.append_nil _).trans (List.prefix_iff_eq_take.mp hpart))
              · rw [atDisconnMatch, hloop] at hcnt
                refine ⟨by rw [hcnt]; exact Nat.zero_lt_succ 14,
                  fun _ => ⟨[], List.nil_suffix, by rw [hcnt]; rfl⟩,
                  fun _ => ⟨last ++ [chunk], (List.mem_tails _ _).mpr ⟨first, by simp⟩, ?_⟩⟩
                rw [received_append, hlast]
                exact atDiscon_starts (hdiscon.trans (List.prefix_append chunk.data []))
              · rw [atDisconnMatch, hloop] at hcnt hposts
                exact ⟨by rw [hcnt]; exact Nat.zero_lt_succ 14,
                  fun _ => ⟨[], List.nil_suffix, by rw [hcnt]; rfl⟩,
                  by rw [hposts]; exact hearlier⟩

end Stream

/-- The in-band commands of a master in a stream: the update is run for a chunk exactly if it
starts with the command, the message to disconnect is sent for every run of chunks with the
command, and only if some start of it begins with a chunk. -/
structure Recognised (noEqualSign : Bool) (start : DataHandler) (chunks : List Chunk) : Prop where
  update : Along (dataHandler noEqualSign)
    (fun handler chunk => handler.role = .master →
      (handler.master.updates < (dataHandler noEqualSign handler chunk).master.updates ↔
        atOtaCmd <+: chunk.data)) start chunks
  disconnect : ∀ before command after, chunks = before ++ command ++ after →
    (run (dataHandler noEqualSign) start before).role = .master →
      received command = atDisconnCmd →
        (run (dataHandler noEqualSign) start before).master.disconnects <
          (run (dataHandler noEqualSign) start (before ++ command)).master.disconnects
  never : start.master.disconnects <
      (run (dataHandler noEqualSign) start chunks).master.disconnects →
    ∃ later ∈ chunks.tails, atDiscon <+: received later

/-- Where a run of chunks with the command begins, nothing or enough of it is under way. -/
def StartsOver (noEqualSign : Bool) (start : DataHandler) (chunks : List Chunk) : Prop :=
  ∀ before command after, chunks = before ++ command ++ after →
    (run (dataHandler noEqualSign) start before).role = .master →
      received command = atDisconnCmd →
        (run (dataHandler noEqualSign) start before).master.atDisconnMatchCnt = 0 ∨
          9 ≤ (run (dataHandler noEqualSign) start before).master.atDisconnMatchCnt

section Main

variable {noEqualSign : Bool} {start : DataHandler} {chunks : List Chunk}

theorem along_update_iff (hsized : Sized chunks) :
    Along (dataHandler noEqualSign)
        (fun handler chunk => handler.role = .master →
          (handler.master.updates < (dataHandler noEqualSign handler chunk).master.updates ↔
            atOtaCmd <+: chunk.data)) start chunks ↔
      Along (dataHandler noEqualSign) ExactAsMaster start chunks := by
  induction chunks generalizing start with
  | nil => exact Iff.rfl
  | cons chunk later ih =>
      rw [Along, Along, ih hsized.tail, ExactAsMaster]
      refine and_congr_left fun _ => forall_congr' fun hrole => ?_
      exact updates_iff hrole hsized.head.1 hsized.head.2

/-- The commands are recognised exactly if the unset value never decides and every command
starts over. -/
theorem recognised_iff (noEqualSign : Bool) (start : DataHandler)
    (hidle : start.master.atDisconnMatchCnt = 0) (chunks : List Chunk) (hsized : Sized chunks) :
    Recognised noEqualSign start chunks ↔
      Along (dataHandler noEqualSign) ExactAsMaster start chunks ∧
        StartsOver noEqualSign start chunks := by
  -- a command somewhere in the stream, if the unset value never decides
  have hcommand : ∀ before command after, chunks = before ++ command ++ after →
      Along (dataHandler noEqualSign) ExactAsMaster start chunks →
        (run (dataHandler noEqualSign) start before).role = .master →
          received command = atDisconnCmd →
            ((run (dataHandler noEqualSign) start before).master.disconnects <
                (run (dataHandler noEqualSign) start (before ++ command)).master.disconnects ↔
              (run (dataHandler noEqualSign) start before).master.atDisconnMatchCnt = 0 ∨
                9 ≤ (run (dataHandler noEqualSign) start before).master.atDisconnMatchCnt) := by
    rintro before command after rfl hexact hrole hstream
    have hbefore : Sized before := fun chunk hchunk =>
      hsized chunk (List.mem_append_left _ (List.mem_append_left _ hchunk))
    have hsized' : Sized command := fun chunk hchunk =>
      hsized chunk (List.mem_append_left _ (List.mem_append_right _ hchunk))
    have hbound := (follows_run noEqualSign hidle hbefore).bound
    rw [run_append]
    exact disconnects_lt_run_iff hrole hbound hsized'
      (along_append.mp (along_append.mp hexact).1).2 hstream
  constructor
  · intro hrecognised
    have hexact := (along_update_iff hsized).mp hrecognised.update
    refine ⟨hexact, ?_⟩
    intro before command after hsplit hrole hstream
    exact (hcommand before command after hsplit hexact hrole hstream).mp
      (hrecognised.disconnect before command after hsplit hrole hstream)
  · rintro ⟨hexact, hover⟩
    refine ⟨(along_update_iff hsized).mpr hexact, ?_, (follows_run noEqualSign hidle hsized).posted⟩
    intro before command after hsplit hrole hstream
    exact (hcommand before command after hsplit hexact hrole hstream).mpr
      (hover before command after hsplit hrole hstream)

theorem cut_command_recognised :
    Recognised false .init
      [.ofText ['A', 'T', '+', 'D', 'I', 'S'],
        .ofText ['C', 'O', 'N', 'N', 'E', 'C', 'T', '\r', '\n']] := by
  refine (recognised_iff false .init rfl _ ?_).mpr ⟨?_, ?_⟩
  · unfold Sized
    decide
  · refine ⟨fun _ => ?_, fun _ => ?_, trivial⟩
    all_goals unfold OtaExact
    all_goals decide
  · rintro before command after hsplit - hstream
    cases before with
    | nil => exact .inl rfl
    | cons first before =>
        -- not enough is left of the stream
        rw [List.cons_append, List.cons_append] at hsplit
        have hlength := congrArg (fun chunks => (received chunks).length)
          (List.cons.inj hsplit).2
        simp only [received_append, List.length_append, hstream, length_atDisconnCmd] at hlength
        exact absurd hlength (by simp [received, Chunk.ofText, ascii]; omega)

/-- The chunk that breaks off `AT+D` is not looked at again. -/
theorem broken_start_not_recognised :
    ¬∀ (noEqualSign : Bool) (start : DataHandler) (chunks : List Chunk), start.role = .master →
      start.master.atDisconnMatchCnt = 0 → Sized chunks →
        Recognised noEqualSign start chunks := by
  intro hall
  have hsized : Sized [.ofText ['A', 'T', '+', 'D'],
      { data := atDisconnCmd, matchLen := 0, stack := fun _ => 0 }] := by
    unfold Sized
    decide
  have hfound := (hall false .init _ rfl rfl hsized).disconnect [.ofText ['A', 'T', '+', 'D']]
    [{ data := atDisconnCmd, matchLen := 0, stack := fun _ => 0 }] [] rfl (by decide) (by decide)
  exact absurd hfound (by decide)

end Main

end CubieBle.BleModule
