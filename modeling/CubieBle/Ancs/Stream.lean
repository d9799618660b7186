import CubieBle.Ancs.Decoder
import CubieBle.Machine.Bytes
import CubieBle.Machine.Stream

/-! # Decoding a response byte by byte

What the decoder is for: a machine that reads the attributes of a response one
byte at a time and reports them. `ancs_parse_data` follows it over every fragment,
so the reports do not depend on how a response is cut.
-/

namespace CubieBle.Ancs

open Machine

/-! ## Reports -/

/-- An attribute as far as it has been shown. -/
structure Reported where
  id : UInt8
  len : Option UInt16 := none
  data : List UInt8 := []
deriving DecidableEq, Repr

/-- Add what is shown to the reports, the latest of which stands first. -/
def addDisplay : List Reported → Display → List Reported
  | reports, .attrId id _ => { id := id } :: reports
  | latest :: earlier, .attrLen len => { latest with len := some len } :: earlier
  | latest :: earlier, .attrData piece =>
      { latest with data := latest.data ++ piece } :: earlier
  | reports, _ => reports

def addDisplays (reports : List Reported) (shown : List Display) : List Reported :=
  shown.foldl addDisplay reports

/-- The attributes reported by what was shown, in order. -/
def report (shown : List Display) : List Reported := (addDisplays [] shown).reverse

theorem addDisplays_append (reports : List Reported) (first second : List Display) :
    addDisplays reports (first ++ second) = addDisplays (addDisplays reports first) second :=
  List.foldl_append

theorem addDisplays_snoc (reports : List Reported) (shown : List Display) (display : Display) :
    addDisplays reports (shown ++ [display]) = addDisplay (addDisplays reports shown) display :=
  addDisplays_append reports shown [display]

theorem addDisplay_data_append (reports : List Reported) (first second : List UInt8) :
    addDisplay (addDisplay reports (.attrData first)) (.attrData second) =
      addDisplay reports (.attrData (first ++ second)) := by
  cases reports with
  | nil => rfl
  | cons latest earlier => simp [addDisplay]

theorem addDisplay_data_nil (reports : List Reported) :
    addDisplay reports (.attrData []) = reports := by
  cases reports with
  | nil => rfl
  | cons latest earlier => simp [addDisplay]

/-! ## The byte machine -/

/-- What the next byte of a response is. Behind an empty attribute no data is
left, and the next byte is an attribute id. -/
inductive Mode where
  | id | lenLow | lenHigh (low : UInt8) | data (left : Nat)
deriving DecidableEq, Repr

abbrev Progress := Mode × List Reported

/-- Only the attribute ids `1` to `5` are part of a response. -/
def readId (reports : List Reported) (byte : UInt8) : Option Progress :=
  if 1 ≤ byte ∧ byte ≤ 5 then some (.lenLow, { id := byte } :: reports) else none

def readByte : Progress → UInt8 → Option Progress
  | (.id, reports), byte => readId reports byte
  | (.lenLow, reports), byte => some (.lenHigh byte, reports)
  | (.lenHigh low, reports), byte =>
      let len := low.toUInt16 ||| (byte.toUInt16 <<< 8)
      some (.data len.toNat, addDisplay reports (.attrLen len))
  | (.data 0, reports), byte => readId reports byte
  | (.data (left + 1), reports), byte =>
      some (if left = 0 then .id else .data left, addDisplay reports (.attrData [byte]))

theorem readId_eq_some {reports : List Reported} {byte : UInt8} {next : Progress}
    (hread : readId reports byte = some next) :
    (1 ≤ byte ∧ byte ≤ 5) ∧ next = (.lenLow, { id := byte } :: reports) := by
  unfold readId at hread
  split at hread
  next hrange => exact ⟨hrange, (Option.some.inj hread).symm⟩
  next => simp at hread

/-- A piece of the data of an attribute. -/
theorem feed_data (left : Nat) (reports : List Reported) (piece : List UInt8)
    (hpiece : piece ≠ []) (hle : piece.length ≤ left) :
    feed readByte (.data left, reports) piece =
      some (if piece.length = left then .id else .data (left - piece.length),
        addDisplay reports (.attrData piece)) := by
  induction piece generalizing left reports with
  | nil => exact absurd rfl hpiece
  | cons byte rest ih =>
      obtain ⟨left, rfl⟩ : ∃ k, left = k + 1 :=
        Nat.exists_eq_succ_of_ne_zero (by intro hzero; simp [hzero] at hle)
      rw [feed_cons]
      simp only [readByte, Option.bind_some]
      cases rest with
      | nil => simp
      | cons second rest =>
          have hleft : left ≠ 0 := by
            rintro rfl
            simp at hle
          rw [if_neg hleft, ih left _ (by simp) (by simpa using hle), addDisplay_data_append]
          simp

/-! ## The decoder follows the byte machine -/

/-- The decoder variables that stand for a mode. Before the first data byte of
an attribute its length is still in `attr_len`. -/
def Follows (data : AttributeData) (state : DsDecoderState) : Mode → Prop
  | .id => state = .attrid ∧ data.pendingLen = false ∧ data.attrLen = 0 ∧
      data.pendingAttrData = 0
  | .lenLow => state = .attrlen ∧ data.pendingLen = false ∧ data.attrLen = 0 ∧
      data.pendingAttrData = 0
  | .lenHigh low => state = .attrlen ∧ data.pendingLen = true ∧ data.attrLen = 0 ∧
      data.pendingAttrData = 0 ∧ data.remAttrLen = low.toUInt16
  | .data left => state = .attrdata ∧ data.pendingLen = false ∧
      (data.attrLen.toNat = left ∧ data.pendingAttrData = 0 ∨
        data.attrLen = 0 ∧ data.pendingAttrData.toNat = left)

/-- The loop of `ancs_parse_data` in the middle of a fragment. -/
structure Parse.Follows (fragment : List UInt8) (reports : List Reported) (last : Progress)
    (parse : Parse) (progress : Progress) : Prop where
  skip : parse.skipReserved = false
  mode : Ancs.Follows parse.data parse.state progress.1
  shown : addDisplays reports parse.shown = progress.2
  rest : feed readByte progress (fragment.drop parse.count) = some last

/-- The rounds of the loop that consume nothing before the next byte. -/
def idleRounds (parse : Parse) : Nat :=
  if parse.state = .attrdata then
    if parse.data.pendingAttrData = 0 ∧ parse.data.attrLen ≠ 0 then 2 else 1
  else 0

theorem idleRounds_le (parse : Parse) : idleRounds parse ≤ 2 := by
  unfold idleRounds
  repeat' split
  all_goals decide

/-- A bound on the rounds left in the loop. -/
def rounds (fragment : List UInt8) (parse : Parse) : Nat :=
  3 * (fragment.length - parse.count) + idleRounds parse

/-- A round that consumes a byte. -/
theorem rounds_lt {fragment : List UInt8} {parse next : Parse} (hcount : parse.count < next.count)
    (hle : next.count ≤ fragment.length) : rounds fragment next < rounds fragment parse := by
  have hidle := idleRounds_le next
  unfold rounds
  omega

/-- One round of the loop: the byte machine reads what the round consumes. -/
structure Round (fragment : List UInt8) (reports : List Reported) (last : Progress)
    (parse next : Parse) : Prop where
  switch : parseSwitch fragment parse = .ok (true, next)
  follows : ∃ progress, Parse.Follows fragment reports last next progress
  rounds : rounds fragment next < rounds fragment parse
  cmd : next.data.pendingCmd = parse.data.pendingCmd

theorem byteAt_of_drop {fragment : List UInt8} {i : Nat} {byte : UInt8} {rest : List UInt8}
    (hdrop : fragment.drop i = byte :: rest) : byteAt fragment i = .ok byte := by
  have hget : fragment[i]? = some byte := by
    rw [← List.head?_drop, hdrop]
    rfl
  rw [byteAt, hget]

theorem drop_succ_of_drop {fragment : List UInt8} {i : Nat} {byte : UInt8} {rest : List UInt8}
    (hdrop : fragment.drop i = byte :: rest) : fragment.drop (i + 1) = rest := by
  rw [← List.drop_drop, hdrop]
  rfl

theorem copyLoop_eq (fragment : List UInt8) (count at_ left : Nat)
    (hfragment : count + at_ + left ≤ fragment.length)
    (hbuffer : at_ + left ≤ ancsMaxNotifAttLength) :
    copyLoop fragment count at_ left = .ok ((fragment.drop (count + at_)).take left) := by
  induction left generalizing at_ with
  | zero =>
      rw [copyLoop, if_pos (by omega)]
      simp
  | succ left ih =>
      obtain ⟨byte, rest, hdrop⟩ : ∃ byte rest, fragment.drop (count + at_) = byte :: rest := by
        cases hcase : fragment.drop (count + at_) with
        | nil =>
            have hlength := congrArg List.length hcase
            simp only [List.length_drop, List.length_nil] at hlength
            omega
        | cons byte rest => exact ⟨byte, rest, rfl⟩
      rw [copyLoop, if_pos (by omega), byteAt_of_drop hdrop, ih (at_ + 1) (by omega) (by omega)]
      rw [show count + (at_ + 1) = count + at_ + 1 from rfl, drop_succ_of_drop hdrop, hdrop]
      rfl

theorem notifAttName_isSome {id : UInt8} (hid : 1 ≤ id ∧ id ≤ 5) :
    ∃ name, notifAttName id = some name := by
  unfold notifAttName
  repeat' split
  all_goals first | exact ⟨_, rfl⟩ | skip
  exfalso
  obtain ⟨hlow, hhigh⟩ := hid
  have hlow := UInt8.le_iff_toNat_le.mp hlow
  have hhigh := UInt8.le_iff_toNat_le.mp hhigh
  simp only [← UInt8.toNat_inj] at *
  simp only [UInt8.reduceToNat] at *
  omega

section Rounds

variable {fragment : List UInt8} {reports found : List Reported} {last : Progress} {parse : Parse}
  {byte : UInt8} {rest : List UInt8}

theorem lt_length_of_drop {i : Nat} (hdrop : fragment.drop i = byte :: rest) :
    i + rest.length + 1 = fragment.length := by
  have hlength := congrArg List.length hdrop
  simp only [List.length_drop, List.length_cons] at hlength
  omega

theorem parseSwitch_id (hdrop : fragment.drop parse.count = byte :: rest)
    (hstate : parse.state = .attrid) {name : String} (hname : notifAttName byte = some name) :
    parseSwitch fragment parse = .ok (true, { parse with
      count := parse.count + 1
      data.attrId := byte.toUInt16
      state := .attrlen
      shown := parse.shown ++ [.attrId byte name] }) := by
  simp only [parseSwitch, hstate, parseAttrid, byteAt_of_drop hdrop, bind, Except.bind, hname]
  rfl

theorem round_id (hdrop : fragment.drop parse.count = byte :: rest)
    (hfollows : parse.Follows fragment reports last (.id, found)) :
    ∃ next, Round fragment reports last parse next := by
  obtain ⟨hskip, ⟨hstate, hpending, hlen, hdata⟩, hshown, hrest⟩ := hfollows
  rw [hdrop, feed_cons] at hrest
  obtain ⟨progress, hread, hrest⟩ := Option.bind_eq_some_iff.mp hrest
  obtain ⟨hrange, rfl⟩ := readId_eq_some hread
  obtain ⟨name, hname⟩ := notifAttName_isSome hrange
  have hlt := lt_length_of_drop hdrop
  refine ⟨_, parseSwitch_id hdrop hstate hname, ⟨(.lenLow, { id := byte } :: found), ?_⟩, ?_, rfl⟩
  · refine ⟨hskip, ⟨rfl, hpending, hlen, hdata⟩, ?_, ?_⟩
    · rw [addDisplays_snoc, hshown]
      rfl
    · rw [drop_succ_of_drop hdrop]
      exact hrest
  · apply rounds_lt
    · exact Nat.lt_add_one _
    · change parse.count + 1 ≤ _
      omega

theorem attrLenDone_follows {next : Parse} {len : UInt16} (hskip : next.skipReserved = false)
    (hpending : next.data.pendingLen = false) (hdata : next.data.pendingAttrData = 0)
    (hshown : addDisplays reports next.shown = found)
    (hrest : feed readByte (.data len.toNat, addDisplay found (.attrLen len))
      (fragment.drop next.count) = some last) :
    (attrLenDone next len).Follows fragment reports last
      (.data len.toNat, addDisplay found (.attrLen len)) where
  skip := hskip
  mode := ⟨rfl, hpending, .inl ⟨rfl, hdata⟩⟩
  shown := by rw [attrLenDone, addDisplays_snoc, hshown]
  rest := hrest

/-- A length byte at the end of the fragment, or both of them. -/
theorem round_lenLow (hdrop : fragment.drop parse.count = byte :: rest)
    (hfollows : parse.Follows fragment reports last (.lenLow, found)) :
    ∃ next, Round fragment reports last parse next := by
  obtain ⟨hskip, ⟨hstate, hpending, hlen, hdata⟩, hshown, hrest⟩ := hfollows
  rw [hdrop, feed_cons] at hrest
  have hlt := lt_length_of_drop hdrop
  cases rest with
  | nil =>
      have hswitch : parseSwitch fragment parse = .ok (true, { parse with
          count := parse.count + 1
          data.remAttrLen := byte.toUInt16
          data.pendingLen := true }) := by
        simp only [List.length_nil] at hlt
        simp only [parseSwitch, hstate, parseAttrlen, hpending, Bool.false_eq_true, if_false,
          byteAt_of_drop hdrop]
        rw [if_neg (by omega)]
        rfl
      refine ⟨_, hswitch, ⟨(.lenHigh byte, found), hskip, ⟨hstate, rfl, hlen, hdata, rfl⟩, hshown,
        ?_⟩, ?_, rfl⟩
      · rw [drop_succ_of_drop hdrop]
        exact hrest
      · exact rounds_lt (Nat.lt_add_one _) (by simp at hlt; exact hlt.le)
  | cons high rest =>
      have hnext := drop_succ_of_drop hdrop
      have hswitch : parseSwitch fragment parse = .ok (true, attrLenDone
          { parse with count := parse.count + 2 } (byte.toUInt16 ||| (high.toUInt16 <<< 8))) := by
        simp only [List.length_cons] at hlt
        simp only [parseSwitch, hstate, parseAttrlen, hpending, Bool.false_eq_true, if_false,
          byteAt_of_drop hdrop, byteAt_of_drop hnext]
        rw [if_pos (by omega)]
        rfl
      rw [readByte, Option.bind_some, feed_cons] at hrest
      refine ⟨_, hswitch, ⟨_, attrLenDone_follows hskip hpending hdata hshown ?_⟩, ?_, rfl⟩
      · change feed readByte _ (fragment.drop (parse.count + 1 + 1)) = _
        rw [drop_succ_of_drop hnext]
        exact hrest
      · simp only [List.length_cons] at hlt
        apply rounds_lt
        · exact Nat.lt_add_of_pos_right (by decide)
        · change parse.count + 2 ≤ _
          omega

theorem round_lenHigh {low : UInt8} (hdrop : fragment.drop parse.count = byte :: rest)
    (hfollows : parse.Follows fragment reports last (.lenHigh low, found)) :
    ∃ next, Round fragment reports last parse next := by
  obtain ⟨hskip, ⟨hstate, hpending, hlen, hdata, hlow⟩, hshown, hrest⟩ := hfollows
  rw [hdrop, feed_cons] at hrest
  have hlt := lt_length_of_drop hdrop
  have hswitch : parseSwitch fragment parse = .ok (true, attrLenDone
      { parse with
        count := parse.count + 1
        data.remAttrLen := 0
        data.pendingLen := false } (low.toUInt16 ||| (byte.toUInt16 <<< 8))) := by
    simp only [parseSwitch, hstate, parseAttrlen, hpending, if_true, byteAt_of_drop hdrop]
    rw [hlow, UInt16.or_comm]
    rfl
  refine ⟨_, hswitch, ⟨_, attrLenDone_follows hskip rfl hdata hshown ?_⟩, ?_, rfl⟩
  · change feed readByte _ (fragment.drop (parse.count + 1)) = _
    rw [drop_succ_of_drop hdrop]
    exact hrest
  · apply rounds_lt
    · exact Nat.lt_add_one _
    · change parse.count + 1 ≤ _
      omega

/-- With no length and no pending data, nothing is left. -/
theorem Follows.empty {data : AttributeData} {state : DsDecoderState}
    (hmode : Follows data state (.data 0)) : data.attrLen = 0 ∧ data.pendingAttrData = 0 := by
  obtain ⟨-, -, ⟨hlen, hdata⟩ | ⟨hlen, hdata⟩⟩ := hmode
  · exact ⟨UInt16.toNat_inj.mp hlen, hdata⟩
  · exact ⟨hlen, UInt16.toNat_inj.mp hdata⟩

theorem parseSwitch_empty (hstate : parse.state = .attrdata) (hlen : parse.data.attrLen = 0)
    (hdata : parse.data.pendingAttrData = 0) :
    parseSwitch fragment parse =
      .ok (true, { parse with state := .attrid, data.attrId := 0xff }) := by
  have hdone : attrDataDone parse = { parse with state := .attrid, data.attrId := 0xff } := by
    rw [attrDataDone, if_pos (by simp [hlen, hdata])]
  have hnot : ¬ 0 < parse.data.attrLen := by
    rw [hlen]
    decide
  simp only [parseSwitch, hstate, parseAttrdata]
  rw [if_neg (not_not.mpr hdata), if_neg hnot, hdone]
  rfl

/-- Nothing is left of the data: the next byte is an attribute id. -/
theorem round_empty (hdrop : fragment.drop parse.count = byte :: rest)
    (hfollows : parse.Follows fragment reports last (.data 0, found)) :
    ∃ next, Round fragment reports last parse next := by
  obtain ⟨hlen, hdata⟩ := Follows.empty hfollows.mode
  obtain ⟨hskip, ⟨hstate, hpending, -⟩, hshown, hrest⟩ := hfollows
  have hswitch : parseSwitch fragment parse = _ := parseSwitch_empty hstate hlen hdata
  refine ⟨_, hswitch, ⟨(.id, found), hskip, ⟨rfl, hpending, hlen, hdata⟩, hshown, ?_⟩, ?_, rfl⟩
  · rw [hdrop, feed_cons] at hrest ⊢
    exact hrest
  · simp [rounds, idleRounds, hstate, hlen]

/-- The first visit to the data only moves the length to `pending_attr_data`. -/
theorem round_first {left : Nat}
    (hfollows : parse.Follows fragment reports last (.data left, found))
    (hlen : parse.data.attrLen.toNat = left) (hdata : parse.data.pendingAttrData = 0)
    (hleft : left ≠ 0) : ∃ next, Round fragment reports last parse next := by
  obtain ⟨hskip, ⟨hstate, hpending, -⟩, hshown, hrest⟩ := hfollows
  have hpos : parse.data.attrLen ≠ 0 := by
    intro hzero
    rw [hzero] at hlen
    exact hleft hlen.symm
  have hswitch : parseSwitch fragment parse = .ok (true, { parse with
      data.pendingAttrData := parse.data.attrLen
      data.attrLen := 0
      shown := parse.shown ++ [.attrData []] }) := by
    have hcopy : copyLoop fragment parse.count 0 0 = .ok [] := rfl
    have hlt : 0 < parse.data.attrLen := UInt16.pos_iff_ne_zero.mpr hpos
    simp [parseSwitch, hstate, parseAttrdata, attrDataDone, hdata, hcopy, hlt, hpos, bind,
      Except.bind]
    rfl
  refine ⟨_, hswitch, ⟨(.data left, found), hskip, ⟨hstate, hpending, .inr ⟨rfl, hlen⟩⟩, ?_,
    hrest⟩, ?_, rfl⟩
  · rw [addDisplays_snoc, hshown, addDisplay_data_nil]
  · simp [rounds, idleRounds, hstate, hdata, hpos]

theorem parseSwitch_piece (hlength : fragment.length ≤ ancsMaxNotifAttLength)
    (hle : parse.count ≤ fragment.length) (hstate : parse.state = .attrdata)
    (hdata : parse.data.pendingAttrData ≠ 0) (size : Nat)
    (hsize : size = min parse.data.pendingAttrData.toNat (fragment.length - parse.count)) :
    parseSwitch fragment parse = .ok (true, attrDataDone { parse with
      count := parse.count + size
      data.pendingAttrData := parse.data.pendingAttrData - UInt16.ofNat size
      shown := parse.shown ++ [.attrData ((fragment.drop parse.count).take size)] }) := by
  have hcopy : copyLoop fragment parse.count 0 size =
      .ok ((fragment.drop parse.count).take size) :=
    copyLoop_eq fragment parse.count 0 size (by omega) (by omega)
  simp only [parseSwitch, hstate, parseAttrdata, if_pos hdata, ← hsize, hcopy]
  rfl

/-- A piece of the data, up to the end of the attribute or of the fragment. -/
theorem round_piece (hlength : fragment.length ≤ ancsMaxNotifAttLength)
    (hdrop : fragment.drop parse.count = byte :: rest) {left : Nat}
    (hfollows : parse.Follows fragment reports last (.data left, found))
    (hlen : parse.data.attrLen = 0) (hdata : parse.data.pendingAttrData.toNat = left)
    (hleft : left ≠ 0) : ∃ next, Round fragment reports last parse next := by
  obtain ⟨hskip, ⟨hstate, hpending, -⟩, hshown, hrest⟩ := hfollows
  have hlt := lt_length_of_drop hdrop
  have hpos : parse.data.pendingAttrData ≠ 0 := by
    intro hzero
    rw [hzero] at hdata
    exact hleft hdata.symm
  obtain ⟨size, hsize⟩ : ∃ size, size = min left (fragment.length - parse.count) := ⟨_, rfl⟩
  have hswitch := parseSwitch_piece hlength (by omega) hstate hpos size (by rw [hdata, hsize])
  obtain ⟨piece, hpiece⟩ : ∃ piece, piece = (fragment.drop parse.count).take size := ⟨_, rfl⟩
  have hpieceLen : piece.length = size := by
    rw [hpiece, List.length_take, List.length_drop]
    omega
  have hsplit : fragment.drop parse.count = piece ++ fragment.drop (parse.count + size) := by
    rw [hpiece, ← List.drop_drop, List.take_append_drop]
  rw [← hpiece] at hswitch
  rw [hsplit] at hrest
  obtain ⟨middle, hread, hrest⟩ := exists_feed_of_append hrest
  rw [feed_data left found piece (by rw [← List.length_pos_iff]; omega) (by omega)] at hread
  obtain rfl := Option.some.inj hread
  have hsub : (parse.data.pendingAttrData - UInt16.ofNat size).toNat = left - size := by
    have hbound := parse.data.pendingAttrData.toNat_lt
    have hcast : (UInt16.ofNat size).toNat = size :=
      UInt16.toNat_ofNat_of_lt' (by rw [UInt16.size]; omega)
    rw [UInt16.toNat_sub_of_le, hdata, hcast]
    rw [UInt16.le_iff_toNat_le, hdata, hcast]
    omega
  have hreports : addDisplays reports (parse.shown ++ [.attrData piece]) =
      addDisplay found (.attrData piece) := by rw [addDisplays_snoc, hshown]
  refine ⟨_, hswitch, ?_, ?_, ?_⟩
  · by_cases hall : piece.length = left
    · -- The attribute ends with this piece.
      rw [if_pos hall] at hrest
      have hzero : parse.data.pendingAttrData - UInt16.ofNat size = 0 := by
        rw [← UInt16.toNat_inj, hsub, UInt16.toNat_zero]
        omega
      rw [attrDataDone, if_pos (by simp [hzero, hlen])]
      exact ⟨(.id, _), hskip, ⟨rfl, hpending, hlen, hzero⟩, hreports, hrest⟩
    · rw [if_neg hall] at hrest
      have hmore : parse.data.pendingAttrData - UInt16.ofNat size ≠ 0 := by
        rw [← UInt16.toNat_inj.ne, hsub, UInt16.toNat_zero]
        omega
      rw [attrDataDone, if_neg (by simp [hmore])]
      refine ⟨(.data (left - piece.length), _), hskip, ⟨hstate, hpending, .inr ⟨hlen, ?_⟩⟩,
        hreports, hrest⟩
      rw [hpieceLen]
      exact hsub
  · have hcount (next : Parse) : (attrDataDone next).count = next.count := by
      unfold attrDataDone
      split <;> rfl
    apply rounds_lt
    · rw [hcount]
      exact Nat.lt_add_of_pos_right (by omega)
    · rw [hcount]
      change parse.count + size ≤ _
      omega
  · unfold attrDataDone
    split <;> rfl

end Rounds

theorem exists_round {fragment : List UInt8} (hlength : fragment.length ≤ ancsMaxNotifAttLength)
    {reports : List Reported} {last progress : Progress} {parse : Parse}
    (hcount : parse.count < fragment.length)
    (hfollows : parse.Follows fragment reports last progress) :
    ∃ next, Round fragment reports last parse next := by
  obtain ⟨byte, rest, hdrop⟩ : ∃ byte rest, fragment.drop parse.count = byte :: rest :=
    List.exists_cons_of_ne_nil (by simpa [List.drop_eq_nil_iff] using hcount)
  obtain ⟨mode, found⟩ := progress
  cases mode with
  | id => exact round_id hdrop hfollows
  | lenLow => exact round_lenLow hdrop hfollows
  | lenHigh low => exact round_lenHigh hdrop hfollows
  | data left =>
      by_cases hleft : left = 0
      · subst hleft
        exact round_empty hdrop hfollows
      · obtain ⟨-, -, ⟨hlen, hdata⟩ | ⟨hlen, hdata⟩⟩ := hfollows.mode
        · exact round_first hfollows hlen hdata hleft
        · exact round_piece hlength hdrop hfollows hlen hdata hleft

theorem parseLoop_continue {fragment : List UInt8} {parse next : Parse} (fuel : Nat)
    (hcount : parse.count < fragment.length) (hskip : parse.skipReserved = false)
    (hswitch : parseSwitch fragment parse = .ok (true, next)) :
    parseLoop fragment (fuel + 1) parse = parseLoop fragment fuel next := by
  rw [parseLoop, if_pos ⟨hcount, hskip⟩, hswitch]
  rfl

/-- The loop follows the byte machine to the end of the fragment. -/
theorem parseLoop_follows {fragment : List UInt8}
    (hlength : fragment.length ≤ ancsMaxNotifAttLength) {reports : List Reported}
    {last : Progress} (fuel : Nat) {parse : Parse} {progress : Progress}
    (hfuel : rounds fragment parse < fuel)
    (hfollows : parse.Follows fragment reports last progress) :
    ∃ final, parseLoop fragment fuel parse = .ok (true, final) ∧
      Follows final.data final.data.dsDecoderState last.1 ∧
      addDisplays reports final.shown = last.2 ∧
      final.data.pendingCmd = parse.data.pendingCmd := by
  induction fuel generalizing parse progress with
  | zero => omega
  | succ fuel ih =>
      by_cases hcount : parse.count < fragment.length
      · obtain ⟨next, hround⟩ := exists_round hlength hcount hfollows
        obtain ⟨nextProgress, hnext⟩ := hround.follows
        have hless := hround.rounds
        obtain ⟨final, hloop, hmode, hshown, hcmd⟩ := ih (by omega) hnext
        refine ⟨final, ?_, hmode, hshown, hcmd.trans hround.cmd⟩
        rw [parseLoop_continue fuel hcount hfollows.skip hround.switch]
        exact hloop
      · rw [parseLoop, if_neg fun hboth => hcount hboth.1]
        have hend := hfollows.rest
        rw [List.drop_eq_nil_of_le (Nat.not_lt.mp hcount)] at hend
        obtain rfl := Option.some.inj hend
        exact ⟨_, rfl, hfollows.mode, hfollows.shown, rfl⟩

end CubieBle.Ancs
