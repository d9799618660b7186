import CubieBle.BleModule.DataHandler

/-! # What a master loses

A chunk that is a part of the command to disconnect is held back, and it is not given
back when the next chunk does not continue the command. So the stream is passed on as
it was received exactly if no chunk is the start of the command.
-/

namespace CubieBle.BleModule

open Machine

/-! ## The commands -/

theorem length_atDisconnCmd : atDisconnCmd.length = 15 := rfl

theorem length_atDiscon : atDiscon.length = 9 := rfl

theorem length_atOtaCmd : atOtaCmd.length = 8 := rfl

theorem drop_atDisconnCmd {matchCnt : Nat} (hlt : matchCnt < 15) :
    atDisconnCmd.drop matchCnt =
      atDisconnCmd.getD matchCnt 0 :: atDisconnCmd.drop (matchCnt + 1) := by
  have hlength : matchCnt < atDisconnCmd.length := hlt
  rw [List.drop_eq_getElem_cons hlength, List.getD_eq_getElem?_getD,
    List.getElem?_eq_getElem hlength, Option.getD_some]

theorem drop_atDiscon {matchCnt : Nat} (hlt : matchCnt < 9) :
    atDiscon.drop matchCnt = atDisconnCmd.getD matchCnt 0 :: atDiscon.drop (matchCnt + 1) := by
  have hrest : 9 - matchCnt = 9 - (matchCnt + 1) + 1 := by omega
  rw [atDiscon, List.drop_take, List.drop_take, drop_atDisconnCmd (by omega), hrest,
    List.take_succ_cons]

/-- A chunk that continues the command is held back. -/
theorem atDisconnLoop_of_start (len : Nat) {data : List UInt8} (matchCnt : Nat)
    (hlt : matchCnt < 15) (hstarts : data <+: atDisconnCmd.drop matchCnt) :
    (atDisconnLoop len data matchCnt).2.2 = len % 256 := by
  induction data generalizing matchCnt with
  | nil => rfl
  | cons byte rest ih =>
      rw [drop_atDisconnCmd hlt, List.cons_prefix_cons] at hstarts
      obtain ⟨hbyte, hrest⟩ := hstarts
      rw [atDisconnLoop, if_pos hbyte]
      split
      next => rfl
      next hnext =>
        rw [length_atDisconnCmd] at hnext
        exact ih (matchCnt + 1) (by omega) hrest

/-- A chunk that leaves the command before it is recognised is passed on as a whole. -/
theorem atDisconnLoop_of_not_start (len : Nat) {data : List UInt8} (matchCnt : Nat)
    (hstarts : ¬ data <+: atDisconnCmd.drop matchCnt)
    (hdiscon : ¬ atDiscon.drop matchCnt <+: data) :
    atDisconnLoop len data matchCnt = (0, false, 0) := by
  induction data generalizing matchCnt with
  | nil => exact absurd List.nil_prefix hstarts
  | cons byte rest ih =>
      have hlt : matchCnt < 9 := by
        by_contra hge
        rw [List.drop_eq_nil_of_le (by rw [length_atDiscon]; omega)] at hdiscon
        exact hdiscon List.nil_prefix
      rw [drop_atDisconnCmd (by omega), List.cons_prefix_cons] at hstarts
      rw [drop_atDiscon hlt, List.cons_prefix_cons] at hdiscon
      rw [atDisconnLoop]
      split
      next hbyte =>
        rw [length_atDisconnCmd, if_neg (by omega)]
        apply ih (matchCnt + 1)
        · exact fun hrest => hstarts ⟨hbyte, hrest⟩
        · exact fun hrest => hdiscon ⟨hbyte.symm, hrest⟩
      next => rw [length_atDiscon, if_neg (by omega)]

theorem drop_atOtaCmd {i : Nat} (hlt : i < 8) (stack : Nat → UInt8) :
    atOtaCmd.drop i = (atOtaCmd ++ [0]).getD i (stack i) :: atOtaCmd.drop (i + 1) := by
  have hlength : i < atOtaCmd.length := hlt
  rw [List.drop_eq_getElem_cons hlength, List.getD_eq_getElem?_getD,
    List.getElem?_append_left hlength, List.getElem?_eq_getElem hlength, Option.getD_some]

/-- Something of the command is missing. -/
theorem lt_of_not_prefix {i : Nat} {data : List UInt8} (hcommand : ¬ atOtaCmd.drop i <+: data) :
    i < 8 := by
  by_contra hge
  rw [List.drop_eq_nil_of_le (by rw [length_atOtaCmd]; omega)] at hcommand
  exact hcommand List.nil_prefix

/-- If the command to update does not follow, the loop starts the update exactly if the
first value of `match_len` stands for the bytes that are missing. -/
theorem atOtaLoop_cases (stack : Nat → UInt8) (len : Nat) {data : List UInt8} (i : Nat)
    {matchLen : UInt8} (hcommand : ¬ atOtaCmd.drop i <+: data) :
    (atOtaLoop stack len i data matchLen = (false, 0) ∧
        ∀ k ≤ 7, 0 < k → matchLen.toNat + k = 8 → ¬ (atOtaCmd.drop i).take k <+: data) ∨
      (atOtaLoop stack len i data matchLen = (true, len % 256) ∧
        ∃ k ≤ 7, 0 < k ∧ matchLen.toNat + k = 8 ∧ (atOtaCmd.drop i).take k <+: data) := by
  have hlt := lt_of_not_prefix hcommand
  induction data generalizing i matchLen with
  | nil =>
      refine .inl ⟨rfl, ?_⟩
      intro k _ hk _ hstarts
      rw [drop_atOtaCmd hlt stack, ← Nat.succ_pred_eq_of_pos hk, List.take_succ_cons] at hstarts
      exact absurd (List.prefix_nil.mp hstarts) (List.cons_ne_nil _ _)
  | cons byte rest ih =>
      rw [drop_atOtaCmd hlt stack] at hcommand ⊢
      rw [atOtaLoop]
      split
      next hbyte =>
        have hrest : ¬ atOtaCmd.drop (i + 1) <+: rest := by
          intro hrest
          rw [List.cons_prefix_cons] at hcommand
          exact hcommand ⟨hbyte.symm, hrest⟩
        have hlt' := lt_of_not_prefix hrest
        have hbound := matchLen.toNat_lt
        have hadd : (matchLen + 1).toNat = (matchLen.toNat + 1) % 256 := UInt8.toNat_add _ _
        have htake : ∀ k, (((atOtaCmd ++ [0]).getD i (stack i) :: atOtaCmd.drop (i + 1)).take
            (k + 1) <+: byte :: rest) ↔ (atOtaCmd.drop (i + 1)).take k <+: rest := by
          intro k
          rw [List.take_succ_cons, List.cons_prefix_cons]
          exact ⟨And.right, fun h => ⟨hbyte.symm, h⟩⟩
        rw [length_atOtaCmd]
        split
        next hfound =>
          refine .inr ⟨rfl, 1, by omega, by omega, by omega, ?_⟩
          rw [htake]
          exact List.nil_prefix
        next hmore =>
          rcases ih (i + 1) hrest hlt' with ⟨hloop, hnone⟩ | ⟨hloop, k, hle, hpos, hsum, hstarts⟩
          · refine .inl ⟨hloop, ?_⟩
            intro k hle hpos hsum
            obtain ⟨j, rfl⟩ : ∃ j, k = j + 1 := ⟨k - 1, by omega⟩
            rw [htake]
            exact hnone j (by omega) (by omega) (by omega)
          · -- seven more bytes would complete the command
            have hseven : k ≠ 7 := by
              rintro rfl
              rw [List.take_of_length_le (by rw [List.length_drop, length_atOtaCmd]; omega)]
                at hstarts
              exact hrest hstarts
            refine .inr ⟨hloop, k + 1, by omega, by omega, by omega, ?_⟩
            rwa [htake]
      next hbyte =>
        refine .inl ⟨rfl, ?_⟩
        intro k _ hpos _ hstarts
        rw [← Nat.succ_pred_eq_of_pos hpos, List.take_succ_cons, List.cons_prefix_cons] at hstarts
        exact hbyte hstarts.1.symm

/-! ## One chunk -/

theorem atOtaMatch_cases {chunk : Chunk} (hota : ¬ atOtaCmd <+: chunk.data) :
    (atOtaMatch chunk = (false, 0) ∧ OtaSafe chunk) ∨
      (atOtaMatch chunk = (true, chunk.data.length % 256) ∧ ¬ OtaSafe chunk) := by
  unfold atOtaMatch OtaSafe
  split
  next hshort =>
    refine .inl ⟨rfl, ?_⟩
    intro hlong
    omega
  next hlong =>
    rcases atOtaLoop_cases chunk.stack chunk.data.length 0 hota with
      ⟨hloop, hnone⟩ | ⟨hloop, k, hle, hpos, hsum, hstarts⟩
    · exact .inl ⟨hloop, fun _ => hnone⟩
    · refine .inr ⟨hloop, ?_⟩
      intro hsafe
      exact hsafe (by omega) k hle hpos hsum hstarts

theorem masterDataHandler_data (mode : DataMode) {chunk : Chunk}
    (hmatch : atOtaMatch chunk = (false, 0)) :
    masterDataHandler mode chunk =
      bleSendFrom (atDisconnMatch chunk.data mode.atDisconnMatchCnt).2.2 chunk.data
        { mode with
          atDisconnMatchCnt := (atDisconnMatch chunk.data mode.atDisconnMatchCnt).1
          disconnects :=
            if (atDisconnMatch chunk.data mode.atDisconnMatchCnt).2.1 then mode.disconnects + 1
            else mode.disconnects } := by
  unfold masterDataHandler
  rw [hmatch]
  rfl

theorem masterDataHandler_update (mode : DataMode) {chunk : Chunk} {dataStart : Nat}
    (hmatch : atOtaMatch chunk = (true, dataStart)) (hpos : dataStart ≠ 0) :
    masterDataHandler mode chunk =
      bleSendFrom dataStart chunk.data { mode with updates := mode.updates + 1 } := by
  unfold masterDataHandler
  rw [hmatch]
  exact if_neg hpos

/-- With no command under way, a chunk is passed on as a whole or not at all; what is
passed on leaves no command under way. -/
theorem masterDataHandler_cases {mode : DataMode} (hidle : mode.atDisconnMatchCnt = 0)
    {chunk : Chunk} (hpos : 0 < chunk.data.length) (hle : chunk.data.length ≤ actDataMtu)
    (hdiscon : ¬ atDiscon <+: chunk.data) (hota : ¬ atOtaCmd <+: chunk.data) :
    ((¬ chunk.data <+: atDisconnCmd ∧ OtaSafe chunk) ∧
        (masterDataHandler mode chunk).atDisconnMatchCnt = 0 ∧
          (masterDataHandler mode chunk).sent = mode.sent ++ chunk.data) ∨
      (¬ (¬ chunk.data <+: atDisconnCmd ∧ OtaSafe chunk) ∧
        (masterDataHandler mode chunk).sent = mode.sent) := by
  have hmod : chunk.data.length % 256 = chunk.data.length := by
    rw [actDataMtu] at hle
    omega
  have hskip : ∀ next : DataMode, bleSendFrom chunk.data.length chunk.data next = next :=
    fun next => if_neg (Nat.lt_irrefl _)
  rcases atOtaMatch_cases hota with ⟨hmatch, hsafe⟩ | ⟨hmatch, hunsafe⟩
  · rw [masterDataHandler_data mode hmatch, hidle, atDisconnMatch]
    by_cases hstarts : chunk.data <+: atDisconnCmd
    · refine .inr ⟨fun hpassed => hpassed.1 hstarts, ?_⟩
      rw [atDisconnLoop_of_start chunk.data.length 0 (by decide) hstarts, hmod, hskip]
    · refine .inl ⟨⟨hstarts, hsafe⟩, ?_⟩
      rw [atDisconnLoop_of_not_start chunk.data.length 0 hstarts hdiscon, bleSendFrom,
        if_pos hpos]
      exact ⟨rfl, rfl⟩
  · refine .inr ⟨fun hpassed => hunsafe hpassed.2, ?_⟩
    rw [hmod] at hmatch
    rw [masterDataHandler_update mode hmatch (by omega), hskip]

/-! ## Streams -/

theorem received_cons (chunk : Chunk) (rest : List Chunk) :
    received (chunk :: rest) = chunk.data ++ received rest := rfl

theorem length_bleSendFrom_le (dataStart : Nat) (data : List UInt8) (mode : DataMode) :
    (bleSendFrom dataStart data mode).sent.length ≤ mode.sent.length + data.length := by
  unfold bleSendFrom
  split
  next =>
    rw [List.length_append, List.length_drop]
    omega
  next => exact Nat.le_add_right _ _

theorem length_masterDataHandler_le (mode : DataMode) (chunk : Chunk) :
    (masterDataHandler mode chunk).sent.length ≤ mode.sent.length + chunk.data.length := by
  have hsent : ∀ update : Bool,
      (if update then { mode with updates := mode.updates + 1 } else mode).sent = mode.sent := by
    intro update
    cases update with
    | true => rfl
    | false => rfl
  unfold masterDataHandler
  dsimp only
  split
  next =>
    refine (length_bleSendFrom_le _ _ _).trans_eq ?_
    dsimp only
    rw [hsent]
  next =>
    refine (length_bleSendFrom_le _ _ _).trans_eq ?_
    rw [hsent]

/-- No more is ever sent than was received. -/
theorem length_run_le (mode : DataMode) (chunks : List Chunk) :
    (run masterDataHandler mode chunks).sent.length ≤
      mode.sent.length + (received chunks).length := by
  induction chunks generalizing mode with
  | nil => exact Nat.le_add_right _ _
  | cons chunk rest ih =>
      have hhead := length_masterDataHandler_le mode chunk
      have htail := ih (masterDataHandler mode chunk)
      rw [run_cons, received_cons, List.length_append]
      omega

theorem NoCommand.tail {chunk : Chunk} {rest : List Chunk} (hno : NoCommand (chunk :: rest)) :
    NoCommand rest := by
  intro later hlater
  apply hno later
  rw [List.tails_cons]
  exact List.mem_cons_of_mem _ hlater

theorem NoCommand.head {chunk : Chunk} {rest : List Chunk} (hno : NoCommand (chunk :: rest)) :
    ¬ atDiscon <+: chunk.data ∧ ¬ atOtaCmd <+: chunk.data := by
  have hhead := hno (chunk :: rest) (by rw [List.tails_cons]; exact List.mem_cons_self)
  rw [received_cons] at hhead
  exact ⟨fun h => hhead.1 (h.trans (List.prefix_append _ _)),
    fun h => hhead.2 (h.trans (List.prefix_append _ _))⟩

/-- The chunks that are passed on. -/
def Passed (chunk : Chunk) : Prop := ¬ chunk.data <+: atDisconnCmd ∧ OtaSafe chunk

theorem run_sent_iff {mode : DataMode} (hidle : mode.atDisconnMatchCnt = 0)
    {chunks : List Chunk}
    (hsizes : ∀ chunk ∈ chunks, 0 < chunk.data.length ∧ chunk.data.length ≤ actDataMtu)
    (hno : NoCommand chunks) :
    (run masterDataHandler mode chunks).sent = mode.sent ++ received chunks ↔
      ∀ chunk ∈ chunks, Passed chunk := by
  induction chunks generalizing mode with
  | nil => simp [received]
  | cons chunk rest ih =>
      obtain ⟨⟨hpos, hle⟩, hrest⟩ := List.forall_mem_cons.mp hsizes
      rw [run_cons, received_cons, List.forall_mem_cons]
      rcases masterDataHandler_cases hidle hpos hle hno.head.1 hno.head.2 with
        ⟨hpassed, hnext, hsent⟩ | ⟨hlost, hsent⟩
      · rw [← List.append_assoc, ← hsent, ih hnext hrest hno.tail]
        exact ⟨fun h => ⟨hpassed, h⟩, fun h => h.2⟩
      · -- what is held back is missing at the end
        refine ⟨fun heq => ?_, fun h => absurd h.1 hlost⟩
        have hlength := length_run_le (masterDataHandler mode chunk) rest
        rw [heq, hsent, List.length_append, List.length_append] at hlength
        omega

/-- For every stream in which no chunk boundary is followed by a command: a master
passes on what it received, unless the stream ends in a part of a command, exactly if no
chunk is the start of the command to disconnect and the unset counter of the command to
update does no harm. -/
theorem master_transparent_iff (chunks : List Chunk)
    (hsizes : ∀ chunk ∈ chunks, 0 < chunk.data.length ∧ chunk.data.length ≤ actDataMtu)
    (hno : NoCommand chunks) :
    (¬ EndsInCommand chunks → sentBytes chunks = received chunks) ↔
      EndsInCommand chunks ∨
        ∀ chunk ∈ chunks, ¬ chunk.data <+: atDisconnCmd ∧ OtaSafe chunk := by
  have hiff : sentBytes chunks = received chunks ↔ ∀ chunk ∈ chunks, Passed chunk :=
    run_sent_iff rfl hsizes hno
  rw [hiff, or_iff_not_imp_left]
  rfl

/-- A chunk whose stack is zero. -/
def Chunk.ofText (text : List Char) : Chunk where
  data := ascii text
  matchLen := 0
  stack _ := 0

theorem plainText_sent :
    sentBytes [.ofText ['h', 'e'], .ofText ['A', 'T', '!']] =
      received [.ofText ['h', 'e'], .ofText ['A', 'T', '!']] := by
  apply (master_transparent_iff [.ofText ['h', 'e'], .ofText ['A', 'T', '!']]
    (by decide) (by decide)).mpr
  · right
    decide
  · decide

/-- A chunk `"A"` is lost when the next one is `"B"`. -/
theorem splitText_lost :
    NoCommand [.ofText ['A'], .ofText ['B']] ∧ ¬ EndsInCommand [.ofText ['A'], .ofText ['B']] ∧
      sentBytes [.ofText ['A'], .ofText ['B']] ≠ received [.ofText ['A'], .ofText ['B']] := by
  decide

end CubieBle.BleModule
