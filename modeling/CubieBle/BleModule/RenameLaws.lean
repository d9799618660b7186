import CubieBle.BleModule.Rename
import CubieBle.Machine.Run

/-! # The name and the cutting of the stream

The chunks of a command are collected until its line ends, however they are cut. Only if the
first chunk ends with the prefix is the name taken to be empty.
-/

namespace CubieBle.BleModule

open Machine

/-! ## The name that is received -/

/-- A text and zeros behind it. -/
structure AdName.Holds (name : AdName) (text : List UInt8) : Prop where
  bytes : name.bytes = text ++ List.replicate (31 - text.length) 0
  length : text.length ≤ 30
  noZero : (0 : UInt8) ∉ text

section Name

variable {name : AdName} {text data : List UInt8}

theorem AdName.holds_zero : AdName.zero.Holds [] where
  bytes := rfl
  length := Nat.zero_le 30
  noZero := List.not_mem_nil

theorem cstr_replicate {count : Nat} (hpos : 0 < count) (htext : (0 : UInt8) ∉ text) :
    cstr (text ++ List.replicate count 0) 0 = text := by
  have hcstr : ∀ rest : List UInt8, cstr ([] ++ (text ++ 0 :: rest)) 0 = text :=
    fun rest => cstr_append htext
  rw [← Nat.succ_pred_eq_of_pos hpos, List.replicate_succ]
  exact hcstr _

theorem AdName.Holds.text_eq (hholds : name.Holds text) : name.text = text := by
  rw [AdName.text, hholds.bytes]
  exact cstr_replicate (Nat.sub_pos_of_lt (Nat.lt_succ_of_le hholds.length)) hholds.noZero

theorem AdName.Holds.append (hholds : name.Holds text) (hdata : (0 : UInt8) ∉ data)
    (hlength : text.length + data.length ≤ 30) : (name.append data).Holds (text ++ data) where
  bytes := by
    have hrest : 31 - text.length - data.length = 30 - text.length - data.length + 1 := by omega
    simp only [AdName.append, hholds.text_eq]
    rw [hholds.bytes, List.take_left, List.drop_append, List.drop_of_length_le (by omega),
      List.nil_append, Nat.add_sub_cancel_left, List.drop_replicate, hrest,
      List.replicate_succ', ← List.append_assoc, List.take_left', List.append_assoc,
      List.length_append, ← Nat.sub_sub, hrest, List.replicate_succ']
    rw [List.length_append, List.length_append, List.length_replicate]
    omega
  length := by
    rw [List.length_append]
    exact hlength
  noZero := by
    rw [List.mem_append, not_or]
    exact ⟨hholds.noZero, hdata⟩

end Name

/-! ## One chunk -/

theorem atNameMatch_iff {data cmd : List UInt8} (hcmd : cmd ≠ []) :
    atNameMatch data cmd = true ↔ cmd <+: data := by
  induction cmd generalizing data with
  | nil => exact (hcmd rfl).elim
  | cons char cmd ih =>
      cases data with
      | nil => simp [atNameMatch]
      | cons byte data =>
          rw [List.cons_prefix_cons, atNameMatch]
          split
          next hchar =>
            cases cmd with
            | nil => simp [hchar]
            | cons other cmd =>
                rw [List.isEmpty_cons, Bool.false_or, ih (List.cons_ne_nil _ _)]
                simp [hchar]
          next hchar => simp [Ne.symm hchar]

theorem slaveSendFrom_eq {dataStart : Nat} (hlt : dataStart < 256) (data : List UInt8)
    (mode : SlaveMode) :
    slaveSendFrom dataStart data mode =
      { mode with sent := mode.sent ++ data.drop dataStart } := by
  rw [slaveSendFrom, Nat.mod_eq_of_lt hlt]
  split
  next => rfl
  next hge => rw [List.drop_of_length_le (Nat.le_of_not_lt hge), List.append_nil]

/-- A name is being received: what there is of it, and whether its line was seen to end. -/
structure SlaveMode.Collects (mode : SlaveMode) (text : List UInt8) (returned : Bool) : Prop where
  getting : mode.atNameGetting = true
  returned : mode.atNameGetR = returned
  holds : mode.adName.Holds text

/-- The name was set, and nothing is being received. -/
structure SlaveMode.Named (mode : SlaveMode) (text sent : List UInt8) : Prop where
  idle : mode.atNameGetting = false
  name : cstr mode.advName 0 = text.take (bleNameMaxLen - 1)
  sent : mode.sent = sent

section Step

variable (noEqualSign : Bool) {mode : SlaveMode} {text part data : List UInt8} {returned : Bool}

theorem named_atNameSet (mode : SlaveMode) (hidle : mode.atNameGetting = false)
    (hholds : mode.adName.Holds text) : (atNameSet mode).Named text mode.sent where
  idle := hidle
  name := by
    have hcut : (if bleNameMaxLen - 1 < text.length then bleNameMaxLen - 1 else text.length) =
        min (bleNameMaxLen - 1) text.length := by
      rw [Nat.min_def]
      split_ifs
      all_goals omega
    have htake : (0 : UInt8) ∉ text.take (min (bleNameMaxLen - 1) text.length) :=
      fun hzero => hholds.noZero (List.mem_of_mem_take hzero)
    simp only [atNameSet, hholds.text_eq, hcut]
    rw [cstr_replicate (by rw [bleNameMaxLen]; omega) htake, ← List.take_take, List.take_length]
  sent := rfl

theorem slaveDataHandler_getting (mode : SlaveMode) (hgetting : mode.atNameGetting = true)
    (hlt : (atNameGet mode data).2 < 256) :
    slaveDataHandler noEqualSign mode data =
      { (atNameGet mode data).1 with
        sent := (atNameGet mode data).1.sent ++ data.drop (atNameGet mode data).2 } := by
  rw [slaveDataHandler, if_pos hgetting]
  exact slaveSendFrom_eq hlt data _

theorem findIdx_of_end {kind : UInt8 → Bool} {byte : UInt8} (hpart : ∀ other ∈ part, ¬kind other)
    (hbyte : kind byte) : (part ++ byte :: data).findIdx kind = part.length := by
  rw [List.findIdx_append, List.findIdx_eq_length_of_false (by simpa using hpart),
    if_neg (Nat.lt_irrefl _), List.findIdx_cons, hbyte]
  simp

/-- What is not the end of the line is added to the name. -/
theorem slaveDataHandler_part (hcollects : mode.Collects text false)
    (hpart : ∀ byte ∈ part, ¬endsName false byte) (hzero : (0 : UInt8) ∉ part) (hne : part ≠ [])
    (hlength : text.length + part.length ≤ 30) :
    (slaveDataHandler noEqualSign mode part).Collects (text ++ part) false ∧
      (slaveDataHandler noEqualSign mode part).sent = mode.sent := by
  have hpos : 0 < part.length := List.length_pos_iff.mpr hne
  have hget : atNameGet mode part =
      ({ mode with adName := mode.adName.append part }, part.length) := by
    have hi : part.findIdx (endsName false) = part.length :=
      List.findIdx_eq_length_of_false (by simpa using hpart)
    have hcp : (if part.length < 31 - text.length - 1 then part.length
        else 31 - text.length - 1) = part.length := by
      split_ifs
      all_goals omega
    simp only [atNameGet, hcollects.returned, hcollects.holds.text_eq, hi, hcp, if_true,
      Bool.false_eq_true, if_false, Nat.ne_of_gt hpos, List.take_length]
  rw [slaveDataHandler_getting noEqualSign mode hcollects.getting
    (by rw [hget]; dsimp only; omega), hget]
  refine ⟨⟨hcollects.getting, hcollects.returned, ?_⟩, ?_⟩
  · exact hcollects.holds.append hzero hlength
  · rw [List.drop_length, List.append_nil]

/-- What is done at the end of the line depends on the byte and on what follows it. -/
theorem atNameGet_end (part : List UInt8) (byte : UInt8) (data : List UInt8)
    (hcollects : mode.Collects text returned)
    (hpart : ∀ other ∈ part, ¬endsName returned other) (hbyte : endsName returned byte)
    (hlength : text.length + part.length ≤ 30) :
    atNameGet mode (part ++ byte :: data) =
      if byte = carriageReturn then
        if data = [] then
          ({ mode with adName := mode.adName.append part, atNameGetR := true }, part.length + 1)
        else
          (atNameSet { mode with
              adName := mode.adName.append part, atNameGetR := true, atNameGetting := false },
            if data.head? = some lineFeed then part.length + 2 else part.length + 1)
      else
        (atNameSet { mode with adName := mode.adName.append part, atNameGetting := false },
          part.length + 1) := by
  have hi : (part ++ byte :: data).findIdx (endsName returned) = part.length :=
    findIdx_of_end hpart hbyte
  have hcp : (if part.length < 31 - text.length - 1 then part.length
      else 31 - text.length - 1) = part.length := by
    split_ifs
    all_goals omega
  have hin : part.length ≠ (part ++ byte :: data).length := by
    rw [List.length_append, List.length_cons]
    omega
  have hbyte' : (part ++ byte :: data).getD part.length 0 = byte := by simp
  simp only [atNameGet, hcollects.returned, hcollects.holds.text_eq, hi, hcp, if_neg hin,
    List.take_left, hbyte']
  cases data with
  | nil => simp
  | cons next more =>
      have hnext : (part ++ byte :: next :: more).getD (part.length + 1) 0 = next := by
        simp [List.getD_eq_getElem?_getD]
      have hmore : part.length + 1 < (part ++ byte :: next :: more).length := by
        simp
      rw [hnext, if_pos hmore]
      by_cases hfeed : next = lineFeed
      all_goals simp [hfeed]

/-- The whole end of the line is in the chunk. -/
theorem slaveDataHandler_line (data : List UInt8) (hcollects : mode.Collects text false)
    (hpart : ∀ byte ∈ part, ¬endsName false byte) (hzero : (0 : UInt8) ∉ part)
    (hlength : text.length + part.length ≤ 30) :
    (slaveDataHandler noEqualSign mode (part ++ carriageReturn :: lineFeed :: data)).Named
      (text ++ part) (mode.sent ++ data) := by
  have hget := atNameGet_end part carriageReturn (lineFeed :: data) hcollects hpart rfl hlength
  rw [if_pos rfl, if_neg (List.cons_ne_nil _ _), List.head?_cons, if_pos rfl] at hget
  rw [slaveDataHandler_getting noEqualSign mode hcollects.getting
    (by rw [hget]; dsimp only; omega), hget]
  have hnamed := named_atNameSet { mode with
    adName := mode.adName.append part, atNameGetR := true, atNameGetting := false } rfl
    (hcollects.holds.append hzero hlength)
  refine ⟨hnamed.idle, hnamed.name, ?_⟩
  rw [List.drop_append, List.drop_of_length_le (by omega), Nat.add_sub_cancel_left]
  rfl

/-- The chunk ends inside the end of the line. -/
theorem slaveDataHandler_return (hcollects : mode.Collects text false)
    (hpart : ∀ byte ∈ part, ¬endsName false byte) (hzero : (0 : UInt8) ∉ part)
    (hlength : text.length + part.length ≤ 30) :
    (slaveDataHandler noEqualSign mode (part ++ [carriageReturn])).Collects (text ++ part) true ∧
      (slaveDataHandler noEqualSign mode (part ++ [carriageReturn])).sent = mode.sent := by
  have hget := atNameGet_end part carriageReturn [] hcollects hpart rfl hlength
  rw [if_pos rfl, if_pos rfl] at hget
  rw [slaveDataHandler_getting noEqualSign mode hcollects.getting
    (by rw [hget]; dsimp only; omega), hget]
  refine ⟨⟨hcollects.getting, rfl, hcollects.holds.append hzero hlength⟩, ?_⟩
  rw [List.drop_of_length_le (by simp), List.append_nil]

/-- The name is set from what was collected, with nothing added to it. -/
theorem SlaveMode.Collects.completed (hcollects : mode.Collects text returned) :
    (atNameSet { mode with adName := mode.adName.append [], atNameGetting := false }).Named text
      mode.sent := by
  have hholds := hcollects.holds.append List.not_mem_nil hcollects.holds.length
  rw [List.append_nil] at hholds
  exact named_atNameSet { mode with
    adName := mode.adName.append [], atNameGetting := false } rfl hholds

/-- The chunk begins inside the end of the line. -/
theorem slaveDataHandler_feed (hcollects : mode.Collects text true) :
    (slaveDataHandler noEqualSign mode (lineFeed :: data)).Named text (mode.sent ++ data) := by
  have hget := atNameGet_end [] lineFeed data hcollects
    (fun _ hmem => absurd hmem List.not_mem_nil) rfl hcollects.holds.length
  rw [if_neg (by decide), List.nil_append] at hget
  rw [slaveDataHandler_getting noEqualSign mode hcollects.getting
    (by rw [hget]; dsimp only [List.length_nil]; omega), hget]
  have hnamed := hcollects.completed
  exact ⟨hnamed.idle, hnamed.name, rfl⟩

/-- If nothing follows, the name is taken to be complete. -/
theorem slaveDataHandler_nil (hcollects : mode.Collects text false) :
    (slaveDataHandler noEqualSign mode []).Named text mode.sent := by
  have hget : atNameGet mode [] =
      (atNameSet { mode with adName := mode.adName.append [], atNameGetting := false }, 0) := by
    have hcp : (if 0 < 31 - text.length - 1 then 0 else 31 - text.length - 1) = 0 := by
      split_ifs
      all_goals omega
    have hi : ([] : List UInt8).findIdx (endsName false) = 0 := rfl
    simp only [atNameGet, hcollects.returned, hcollects.holds.text_eq, hi, hcp, List.length_nil,
      List.take_nil, Bool.false_eq_true, if_true, if_false]
  rw [slaveDataHandler_getting noEqualSign mode hcollects.getting
    (by rw [hget]; dsimp only [List.length_nil]; omega), hget]
  have hnamed := hcollects.completed
  exact ⟨hnamed.idle, hnamed.name, List.append_nil _⟩

/-- Without the prefix, a chunk is passed on. -/
theorem slaveDataHandler_data (hidle : mode.atNameGetting = false)
    (hstarts : ¬atNameCmd noEqualSign <+: data) :
    slaveDataHandler noEqualSign mode data = { mode with sent := mode.sent ++ data } := by
  have hmatch : ¬((atNameCmd noEqualSign).length ≤ data.length ∧
      atNameMatch data (atNameCmd noEqualSign) = true) := fun hboth =>
    hstarts ((atNameMatch_iff (by cases noEqualSign <;> exact List.cons_ne_nil _ _)).mp hboth.2)
  rw [slaveDataHandler, if_neg (by simp [hidle]), if_neg hmatch,
    slaveSendFrom_eq (by decide), List.drop_zero]

theorem collects_started (mode : SlaveMode) : mode.started.Collects [] false where
  getting := rfl
  returned := rfl
  holds := AdName.holds_zero

theorem atNameGet_le (mode : SlaveMode) (data : List UInt8) :
    (atNameGet mode data).2 ≤ data.length := by
  have hle : data.findIdx (endsName mode.atNameGetR) ≤ data.length := List.findIdx_le_length
  unfold atNameGet
  dsimp only
  split_ifs
  all_goals dsimp only
  all_goals omega

/-- Behind the prefix a chunk is handled like one that goes on with the name. -/
theorem slaveDataHandler_command (hidle : mode.atNameGetting = false) (hlt : part.length < 248) :
    slaveDataHandler noEqualSign mode (atNameCmd noEqualSign ++ part) =
      slaveDataHandler noEqualSign mode.started part := by
  have hle := atNameGet_le mode.started part
  have hcmd : (atNameCmd noEqualSign).length ≤ 8 := by
    cases noEqualSign <;> decide
  have hmatch : (atNameCmd noEqualSign).length ≤ (atNameCmd noEqualSign ++ part).length ∧
      atNameMatch (atNameCmd noEqualSign ++ part) (atNameCmd noEqualSign) = true := by
    refine ⟨by simp, (atNameMatch_iff ?_).mpr (List.prefix_append _ _)⟩
    cases noEqualSign <;> exact List.cons_ne_nil _ _
  rw [slaveDataHandler_getting noEqualSign mode.started rfl (by omega), slaveDataHandler,
    if_neg (by simp [hidle]), if_pos hmatch, List.drop_left]
  dsimp only
  rw [slaveSendFrom_eq (by omega), Nat.add_comm, ← List.drop_drop, List.drop_left]

end Step

/-! ## All chunks -/

/-- No chunk of the data that follow the command starts with the prefix. -/
def DataPasses (noEqualSign : Bool) (rest : List UInt8) (chunks : List (List UInt8)) : Prop :=
  ∀ chunk later, chunk :: later <:+ chunks → (chunk :: later).flatten <:+ rest →
    ¬atNameCmd noEqualSign <+: chunk

section Run

variable {noEqualSign : Bool} {mode : SlaveMode} {text name rest sent chunk : List UInt8}
  {later chunks : List (List UInt8)}

theorem DataPasses.tail (hdata : DataPasses noEqualSign rest (chunk :: later)) :
    DataPasses noEqualSign rest later := fun other after hsuffix =>
  hdata other after (hsuffix.trans (List.suffix_cons chunk later))

/-- A chunk that begins in front of the data may be anything. -/
theorem DataPasses.cons (hdata : DataPasses noEqualSign rest later)
    (hlong : rest.length < (chunk ++ later.flatten).length) :
    DataPasses noEqualSign rest (chunk :: later) := by
  intro other after hsuffix hrest
  rcases List.suffix_cons_iff.mp hsuffix with heq | hlater
  · obtain ⟨rfl, rfl⟩ := List.cons.inj heq
    exact absurd hrest.length_le (Nat.not_le_of_gt hlong)
  · exact hdata other after hlater hrest

theorem named_run_data (hnamed : mode.Named text sent) (hdata : DataPasses noEqualSign rest chunks)
    (hsuffix : chunks.flatten <:+ rest) :
    (run (slaveDataHandler noEqualSign) mode chunks).Named text (sent ++ chunks.flatten) := by
  induction chunks generalizing mode sent with
  | nil =>
      rw [List.flatten_nil, List.append_nil]
      exact hnamed
  | cons chunk later ih =>
      have hstarts := hdata chunk later List.suffix_rfl hsuffix
      rw [List.flatten_cons] at hsuffix
      rw [run_cons, slaveDataHandler_data noEqualSign hnamed.idle hstarts, List.flatten_cons,
        ← List.append_assoc]
      refine ih ⟨hnamed.idle, hnamed.name, ?_⟩ hdata.tail
        ((List.suffix_append chunk later.flatten).trans hsuffix)
      rw [hnamed.sent]

/-- The end of the line is behind a chunk, cut by its end, or inside it. -/
theorem line_cases {behind : List UInt8}
    (hline : chunk ++ behind = name ++ carriageReturn :: lineFeed :: rest) :
    (∃ more, name = chunk ++ more ∧ behind = more ++ carriageReturn :: lineFeed :: rest) ∨
      (chunk = name ++ [carriageReturn] ∧ behind = lineFeed :: rest) ∨
        ∃ data, chunk = name ++ carriageReturn :: lineFeed :: data ∧ rest = data ++ behind := by
  rcases List.append_eq_append_iff.mp hline with ⟨more, hname, hbehind⟩ | ⟨data, rfl, hdata⟩
  · exact .inl ⟨more, hname, hbehind⟩
  · cases data with
    | nil => exact .inl ⟨[], by simp, hdata.symm⟩
    | cons byte data =>
        obtain ⟨rfl, htail⟩ := List.cons.inj hdata
        cases data with
        | nil => exact .inr (.inl ⟨rfl, htail.symm⟩)
        | cons other data =>
            obtain ⟨rfl, hrest⟩ := List.cons.inj htail
            exact .inr (.inr ⟨data, rfl, hrest⟩)

theorem named_run_feed (hcollects : mode.Collects text true) (hne : [] ∉ chunks)
    (hstream : chunks.flatten = lineFeed :: rest) (hdata : DataPasses noEqualSign rest chunks) :
    (run (slaveDataHandler noEqualSign) mode chunks).Named text (mode.sent ++ rest) := by
  cases chunks with
  | nil => exact absurd hstream.symm (List.cons_ne_nil _ _)
  | cons chunk later =>
      cases chunk with
      | nil => exact (hne List.mem_cons_self).elim
      | cons byte data =>
          rw [List.flatten_cons, List.cons_append] at hstream
          obtain ⟨rfl, rfl⟩ := List.cons.inj hstream
          rw [run_cons, ← List.append_assoc]
          exact named_run_data (slaveDataHandler_feed noEqualSign hcollects) hdata.tail
            (List.suffix_append _ _)

/-- However the rest of the line is cut, the name is completed and the data are passed on. -/
theorem named_run_collects (hcollects : mode.Collects text false)
    (hname : ∀ byte ∈ name, ¬endsName false byte) (hzero : (0 : UInt8) ∉ name)
    (hlength : text.length + name.length ≤ 30) (hne : [] ∉ chunks)
    (hstream : chunks.flatten = name ++ carriageReturn :: lineFeed :: rest)
    (hdata : DataPasses noEqualSign rest chunks) :
    (run (slaveDataHandler noEqualSign) mode chunks).Named (text ++ name)
      (mode.sent ++ rest) := by
  induction chunks generalizing mode text name with
  | nil => simp at hstream
  | cons chunk later ih =>
      obtain ⟨hchunk, hlater⟩ := not_or.mp (mt List.mem_cons.mpr hne)
      rw [List.flatten_cons] at hstream
      rw [run_cons]
      rcases line_cases hstream with ⟨more, rfl, hbehind⟩ | ⟨rfl, hbehind⟩ | ⟨data, rfl, rfl⟩
      · -- a part of the name
        rw [List.length_append] at hlength
        obtain ⟨hnext, hsent⟩ := slaveDataHandler_part noEqualSign hcollects
          (fun byte hbyte => hname byte (List.mem_append_left _ hbyte))
          (fun hmem => hzero (List.mem_append_left _ hmem)) (Ne.symm hchunk) (by omega)
        rw [← List.append_assoc, ← hsent]
        refine ih hnext (fun byte hbyte => hname byte (List.mem_append_right _ hbyte))
          (fun hmem => hzero (List.mem_append_right _ hmem)) ?_ hlater hbehind hdata.tail
        rw [List.length_append]
        omega
      · -- cut inside the end of the line
        obtain ⟨hnext, hsent⟩ :=
          slaveDataHandler_return noEqualSign hcollects hname hzero hlength
        rw [← hsent]
        exact named_run_feed hnext hlater hbehind hdata.tail
      · have hnext := slaveDataHandler_line noEqualSign data hcollects hname hzero
          hlength
        rw [← List.append_assoc]
        exact named_run_data hnext hdata.tail (List.suffix_append _ _)

end Run

/-! ## With the prefix cut off -/

section Cut

variable {noEqualSign : Bool} {mode : SlaveMode} {name rest before behind : List UInt8}
  {chunks : List (List UInt8)}

theorem head_atNameCmd (noEqualSign : Bool) :
    ∃ cmd, atNameCmd noEqualSign = 0x41 :: cmd ∧ carriageReturn ∉ 0x41 :: cmd := by
  cases noEqualSign
  all_goals exact ⟨_, rfl, by decide⟩

/-- A prefix at the start of the line is a part of the name. -/
theorem command_in_name
    (hline : atNameCmd noEqualSign ++ behind = name ++ carriageReturn :: lineFeed :: rest) :
    ∃ more, name = atNameCmd noEqualSign ++ more ∧
      behind = more ++ carriageReturn :: lineFeed :: rest := by
  obtain ⟨cmd, hcmd, hfree⟩ := head_atNameCmd noEqualSign
  rw [← hcmd] at hfree
  rcases line_cases hline with hin | ⟨hcut, -⟩ | ⟨data, hcut, -⟩
  · exact hin
  · exact (hfree (hcut ▸ by simp)).elim
  · exact (hfree (hcut ▸ by simp)).elim

/-- A prefix in what is left of the stream is a part of the data or of the name. -/
theorem command_in_stream (hsuffix : atNameCmd noEqualSign ++ behind <:+
      name ++ carriageReturn :: lineFeed :: rest) :
    atNameCmd noEqualSign ++ behind <:+ rest ∨
      ∃ before more, name = before ++ atNameCmd noEqualSign ++ more ∧
        behind = more ++ carriageReturn :: lineFeed :: rest := by
  obtain ⟨before, hline⟩ := hsuffix
  obtain ⟨cmd, hcmd, -⟩ := head_atNameCmd noEqualSign
  rcases line_cases hline with ⟨more, rfl, hbehind⟩ | ⟨-, hbehind⟩ | ⟨data, -, hrest⟩
  · obtain ⟨tail, rfl, htail⟩ := command_in_name hbehind
    exact .inr ⟨before, tail, (List.append_assoc _ _ _).symm, htail⟩
  · rw [hcmd, List.cons_append] at hbehind
    exact absurd (List.cons.inj hbehind).1 (by decide)
  · exact .inl ⟨data, hrest.symm⟩

/-- With nothing under way, the data of the line and behind it are passed on unless they are
part of a name, and such a name is short. -/
theorem run_idle (hidle : mode.atNameGetting = false)
    (hname : ∀ byte ∈ name, ¬endsName false byte) (hzero : (0 : UInt8) ∉ name)
    (hlength : name.length ≤ 30) (hsizes : ∀ chunk ∈ chunks, chunk.length ≤ actDataMtu)
    (hne : [] ∉ chunks) (hdata : DataPasses noEqualSign rest chunks)
    (hsuffix : chunks.flatten <:+ name ++ carriageReturn :: lineFeed :: rest)
    (hadv : (cstr mode.advName 0).length ≤ name.length - (atNameCmd noEqualSign).length) :
    (cstr (run (slaveDataHandler noEqualSign) mode chunks).advName 0).length ≤
        name.length - (atNameCmd noEqualSign).length ∧
      mode.sent.length + min chunks.flatten.length rest.length ≤
        (run (slaveDataHandler noEqualSign) mode chunks).sent.length := by
  induction chunks generalizing mode with
  | nil => exact ⟨hadv, by simp⟩
  | cons chunk later ih =>
      obtain ⟨hchunk, hlater⟩ := not_or.mp (mt List.mem_cons.mpr hne)
      have hsize := hsizes chunk List.mem_cons_self
      have hsizes' : ∀ other ∈ later, other.length ≤ actDataMtu := fun other hother =>
        hsizes other (List.mem_cons_of_mem _ hother)
      have hsuffix' : later.flatten <:+ name ++ carriageReturn :: lineFeed :: rest :=
        (List.suffix_append chunk later.flatten).trans hsuffix
      rw [run_cons, List.flatten_cons, List.length_append]
      by_cases hstarts : atNameCmd noEqualSign <+: chunk
      · obtain ⟨part, rfl⟩ := hstarts
        have hpart : part.length < 248 := by
          rw [List.length_append, actDataMtu] at hsize
          omega
        rw [List.flatten_cons, List.append_assoc] at hsuffix
        rw [slaveDataHandler_command noEqualSign hidle hpart]
        rcases command_in_stream hsuffix with hrest | ⟨before, more, rfl, hbehind⟩
        · refine (hdata _ later List.suffix_rfl ?_ (List.prefix_append _ part)).elim
          rw [List.flatten_cons, List.append_assoc]
          exact hrest
        · have hmore : more.length ≤
              (before ++ atNameCmd noEqualSign ++ more).length -
                (atNameCmd noEqualSign).length := by
            simp only [List.length_append]
            omega
          by_cases hnil : part = []
          · subst hnil
            have hnamed := slaveDataHandler_nil noEqualSign (collects_started mode)
            rw [List.nil_append] at hbehind
            have hnext := ih hnamed.idle hsizes' hlater hdata.tail hsuffix'
              (by rw [hnamed.name]; exact Nat.zero_le _)
            refine ⟨hnext.1, le_trans ?_ hnext.2⟩
            rw [hnamed.sent, hbehind]
            simp only [List.length_append, List.length_cons, SlaveMode.started]
            omega
          · have hnamed := named_run_collects (collects_started mode)
              (fun byte hbyte => hname byte (List.mem_append_right _ hbyte))
              (fun hmem => hzero (List.mem_append_right _ hmem))
              (by rw [List.length_nil]; omega)
              (fun hmem => (List.mem_cons.mp hmem).elim (Ne.symm hnil) hlater)
              hbehind (hdata.tail.cons (by rw [hbehind]; simp; omega))
            rw [run_cons, List.nil_append] at hnamed
            rw [hnamed.name, hnamed.sent]
            refine ⟨(List.length_take_le' _ _).trans hmore, ?_⟩
            refine (Nat.add_le_add_left (Nat.min_le_right _ _) _).trans_eq ?_
            exact List.length_append.symm
      · rw [slaveDataHandler_data noEqualSign hidle hstarts]
        have hidle' :
            ({ mode with sent := mode.sent ++ chunk } : SlaveMode).atNameGetting = false := hidle
        have hnext := ih hidle' hsizes' hlater hdata.tail hsuffix' hadv
        refine ⟨hnext.1, le_trans ?_ hnext.2⟩
        rw [List.length_append]
        omega

/-- The start of the prefix written again and again. -/
def repeatedCmd (noEqualSign : Bool) : List UInt8 :=
  (List.replicate 4 (atNameCmd noEqualSign)).flatten.take ((atNameCmd noEqualSign).length + 17)

/-- Two names are the same up to their length limit, one without the prefix of the other, if
the longer one repeats the prefix. -/
theorem take_eq_iff_repeats (noEqualSign : Bool) {more : List UInt8} :
    more.take 17 = (atNameCmd noEqualSign ++ more).take 17 ↔
      repeatedCmd noEqualSign <+: atNameCmd noEqualSign ++ more := by
  have hcmd : 7 ≤ (atNameCmd noEqualSign).length ∧ (atNameCmd noEqualSign).length ≤ 8 := by
    cases noEqualSign
    all_goals decide
  have hwhole : (atNameCmd noEqualSign ++ more).take ((atNameCmd noEqualSign).length + 17) =
      atNameCmd noEqualSign ++ more.take 17 := List.take_length_add_append 17
  constructor
  · intro htake
    have hname : (atNameCmd noEqualSign ++ more).take 17 =
        atNameCmd noEqualSign ++ more.take (17 - (atNameCmd noEqualSign).length) := by
      rw [List.take_append,
        List.take_of_length_le (show (atNameCmd noEqualSign).length ≤ 17 by omega)]
    -- the prefix comes back behind itself, as far as the limit reaches
    have hstep : ∀ count ≤ 17, more.take count =
        (atNameCmd noEqualSign ++ more.take (17 - (atNameCmd noEqualSign).length)).take count := by
      intro count hcount
      rw [← hname, ← htake, List.take_take, Nat.min_eq_left hcount]
    have hsecond : more.take (17 - (atNameCmd noEqualSign).length) = atNameCmd noEqualSign ++
        more.take (17 - (atNameCmd noEqualSign).length - (atNameCmd noEqualSign).length) := by
      rw [hstep _ (Nat.sub_le _ _), List.take_append, List.take_take,
        Nat.min_eq_left (Nat.sub_le _ _),
        List.take_of_length_le (show (atNameCmd noEqualSign).length ≤ _ by omega)]
    have hthird : more.take (17 - (atNameCmd noEqualSign).length -
          (atNameCmd noEqualSign).length) =
        (atNameCmd noEqualSign).take
          (17 - (atNameCmd noEqualSign).length - (atNameCmd noEqualSign).length) := by
      rw [hstep _ (by omega), List.take_append_of_le_length (by omega)]
    have hrepeats : repeatedCmd noEqualSign = atNameCmd noEqualSign ++ more.take 17 := by
      rw [htake, hname, hsecond, hthird]
      cases noEqualSign
      all_goals rfl
    rw [hrepeats, ← hwhole]
    exact List.take_prefix _ _
  · intro hstarts
    have hlength : (repeatedCmd noEqualSign).length = (atNameCmd noEqualSign).length + 17 := by
      cases noEqualSign
      all_goals rfl
    have hrepeats := List.prefix_iff_eq_take.mp hstarts
    rw [hlength, hwhole] at hrepeats
    have hshift : (repeatedCmd noEqualSign).drop (atNameCmd noEqualSign).length =
        (repeatedCmd noEqualSign).take 17 := by
      cases noEqualSign
      all_goals rfl
    rw [hrepeats, List.drop_left, ← hwhole, List.take_take, Nat.min_eq_left (by omega)] at hshift
    exact hshift

end Cut

/-- A line with the command and data behind it, cut into chunks. -/
structure NameLine (noEqualSign : Bool) (name rest : List UInt8) (chunks : List (List UInt8)) :
    Prop where
  nameNe : name ≠ []
  nameLe : name.length ≤ 30
  nameFree : carriageReturn ∉ name ∧ lineFeed ∉ name ∧ (0 : UInt8) ∉ name
  stream : chunks.flatten =
    atNameCmd noEqualSign ++ name ++ carriageReturn :: lineFeed :: rest
  sizes : ∀ chunk ∈ chunks, 0 < chunk.length ∧ chunk.length ≤ actDataMtu
  first : ∀ chunk ∈ chunks.head?, atNameCmd noEqualSign <+: chunk
  data : DataPasses noEqualSign rest chunks

/-- The first chunk goes on behind the prefix. If it does not, the name is still received if it
repeats the prefix three times and the second chunk starts with it and goes on. -/
def NameFound (noEqualSign : Bool) (name : List UInt8) (chunks : List (List UInt8)) : Prop :=
  chunks.head? ≠ some (atNameCmd noEqualSign) ∨
    (repeatedCmd noEqualSign <+: name ∧
      ∃ part, part ≠ [] ∧ chunks[1]? = some (atNameCmd noEqualSign ++ part))

section Main

variable {noEqualSign : Bool} {name rest : List UInt8} {chunks : List (List UInt8)}

theorem NameLine.not_endsName (hline : NameLine noEqualSign name rest chunks) :
    ∀ byte ∈ name, ¬endsName false byte := by
  intro byte hbyte hends
  rw [endsName, if_neg Bool.false_ne_true, Bool.or_eq_true, decide_eq_true_iff,
    decide_eq_true_iff] at hends
  rcases hends with rfl | rfl
  · exact hline.nameFree.1 hbyte
  · exact hline.nameFree.2.1 hbyte

theorem NameLine.nil_notMem (hline : NameLine noEqualSign name rest chunks) : [] ∉ chunks :=
  fun hmem => Nat.lt_irrefl 0 (hline.sizes [] hmem).1

/-- A chunk that is passed on before the command is too much. -/
theorem sent_data_ne {mode : SlaveMode} {sent second : List UInt8} (hnamed : mode.Named [] sent)
    (hname : ∀ byte ∈ name, ¬endsName false byte) (hzero : (0 : UInt8) ∉ name)
    (hlength : name.length ≤ 30) (hsizes : ∀ chunk ∈ chunks, chunk.length ≤ actDataMtu)
    (hsecond : second ≠ []) (hne : [] ∉ chunks) (hdata : DataPasses noEqualSign rest chunks)
    (hstream : second ++ chunks.flatten = name ++ carriageReturn :: lineFeed :: rest)
    (hstarts : ¬atNameCmd noEqualSign <+: second) :
    (run (slaveDataHandler noEqualSign) (slaveDataHandler noEqualSign mode second) chunks).sent ≠
      sent ++ rest := by
  rw [slaveDataHandler_data noEqualSign hnamed.idle hstarts]
  intro hsent
  have hidle : ({ mode with sent := mode.sent ++ second } : SlaveMode).atNameGetting = false :=
    hnamed.idle
  have hlong := (run_idle hidle hname hzero hlength hsizes hne hdata
    (hstream ▸ List.suffix_append second chunks.flatten)
    (by rw [hnamed.name]; exact Nat.zero_le _)).2
  have hlengths := congrArg List.length hstream
  have hpos := List.length_pos_iff.mpr hsecond
  rw [hsent, hnamed.sent, List.length_append, List.length_append] at hlong
  simp only [List.length_append, List.length_cons] at hlengths
  omega

/-- Behind the bare command the name is taken to be empty, and what may follow is too short. -/
theorem advName_bare_ne {more : List UInt8} (mode : SlaveMode)
    (hends : ∀ byte ∈ more, ¬endsName false byte) (hzero : (0 : UInt8) ∉ more)
    (hlength : (atNameCmd noEqualSign).length + more.length ≤ 30)
    (hsizes : ∀ chunk ∈ chunks, chunk.length ≤ actDataMtu) (hne : [] ∉ chunks)
    (hdata : DataPasses noEqualSign rest chunks)
    (hbehind : chunks.flatten = more ++ carriageReturn :: lineFeed :: rest) :
    cstr (run (slaveDataHandler noEqualSign)
        (slaveDataHandler noEqualSign mode.started []) chunks).advName 0 ≠
      (atNameCmd noEqualSign ++ more).take (bleNameMaxLen - 1) := by
  intro hadv
  have hcmd : 7 ≤ (atNameCmd noEqualSign).length := by
    cases noEqualSign
    all_goals decide
  have hnext := slaveDataHandler_nil noEqualSign (collects_started mode)
  have hshort := (run_idle hnext.idle hends hzero (by omega) hsizes hne hdata
    (hbehind ▸ List.suffix_rfl) (by rw [hnext.name]; exact Nat.zero_le _)).1
  rw [hadv, List.length_take, List.length_append, bleNameMaxLen] at hshort
  omega

/-- Once the name was taken to be empty, it is received only if it repeats the prefix and the
next chunk is such a command. -/
theorem named_nothing_iff {mode : SlaveMode} {sent : List UInt8} (hnamed : mode.Named [] sent)
    (hname : ∀ byte ∈ name, ¬endsName false byte) (hzero : (0 : UInt8) ∉ name)
    (hlength : name.length ≤ 30)
    (hsizes : ∀ chunk ∈ chunks, chunk.length ≤ actDataMtu) (hne : [] ∉ chunks)
    (hdata : DataPasses noEqualSign rest chunks)
    (hstream : chunks.flatten = name ++ carriageReturn :: lineFeed :: rest) :
    (cstr (run (slaveDataHandler noEqualSign) mode chunks).advName 0 =
          name.take (bleNameMaxLen - 1) ∧
        (run (slaveDataHandler noEqualSign) mode chunks).sent = sent ++ rest) ↔
      repeatedCmd noEqualSign <+: name ∧
        ∃ part, part ≠ [] ∧ chunks.head? = some (atNameCmd noEqualSign ++ part) := by
  cases chunks with
  | nil => simp at hstream
  | cons second later =>
      obtain ⟨hchunk, hlater⟩ := not_or.mp (mt List.mem_cons.mpr hne)
      have hsize := hsizes _ List.mem_cons_self
      have hsizes' : ∀ other ∈ later, other.length ≤ actDataMtu := fun other hother =>
        hsizes other (List.mem_cons_of_mem _ hother)
      rw [List.flatten_cons] at hstream
      rw [run_cons, List.head?_cons]
      by_cases hstarts : atNameCmd noEqualSign <+: second
      · obtain ⟨part, rfl⟩ := hstarts
        rw [List.append_assoc] at hstream
        obtain ⟨more, rfl, hbehind⟩ := command_in_name hstream
        have hends : ∀ byte ∈ more, ¬endsName false byte := fun byte hbyte =>
          hname byte (List.mem_append_right _ hbyte)
        have hzero' : (0 : UInt8) ∉ more := fun hmem => hzero (List.mem_append_right _ hmem)
        rw [List.length_append] at hlength
        rw [slaveDataHandler_command noEqualSign hnamed.idle
          (by rw [List.length_append, actDataMtu] at hsize; omega)]
        by_cases hpart : part = []
        · subst hpart
          refine iff_of_false ?_ ?_
          · rintro ⟨hadv, -⟩
            exact advName_bare_ne mode hends hzero' hlength hsizes' hlater hdata.tail hbehind hadv
          · rintro ⟨-, part, hne', hhead⟩
            exact hne' (List.append_cancel_left (Option.some.inj hhead)).symm
        · have hline := named_run_collects (collects_started mode) hends hzero'
            (by rw [List.length_nil]; omega)
            (fun hmem => (List.mem_cons.mp hmem).elim (Ne.symm hpart) hlater) hbehind
            (hdata.tail.cons (by rw [hbehind]; simp; omega))
          rw [run_cons, List.nil_append] at hline
          rw [hline.name, hline.sent, ← hnamed.sent, ← take_eq_iff_repeats noEqualSign]
          exact ⟨fun hboth => ⟨hboth.1, part, hpart, rfl⟩, fun hboth => ⟨hboth.1, rfl⟩⟩
      · refine iff_of_false ?_ ?_
        · rintro ⟨-, hsent⟩
          exact sent_data_ne hnamed hname hzero hlength hsizes' (Ne.symm hchunk) hlater hdata.tail
            hstream hstarts hsent
        · rintro ⟨-, part, -, hhead⟩
          exact hstarts (Option.some.inj hhead ▸ List.prefix_append _ part)

/-- A name is received however it is cut, unless the first chunk ends with the prefix. -/
theorem renamed_iff (noEqualSign : Bool) (mode : SlaveMode) (hidle : mode.atNameGetting = false)
    (name rest : List UInt8) (chunks : List (List UInt8))
    (hline : NameLine noEqualSign name rest chunks) :
    (cstr (run (slaveDataHandler noEqualSign) mode chunks).advName 0 =
          name.take (bleNameMaxLen - 1) ∧
        (run (slaveDataHandler noEqualSign) mode chunks).sent = mode.sent ++ rest) ↔
      NameFound noEqualSign name chunks := by
  have hends := hline.not_endsName
  have hne := hline.nil_notMem
  obtain ⟨-, hle, ⟨-, -, hzero⟩, hstream, hsizes, hfirst, hdata⟩ := hline
  cases chunks with
  | nil =>
      obtain ⟨cmd, hcmd, -⟩ := head_atNameCmd noEqualSign
      rw [hcmd] at hstream
      exact absurd hstream.symm (List.cons_ne_nil _ _)
  | cons first later =>
      obtain ⟨part, rfl⟩ := hfirst first rfl
      obtain ⟨hchunk, hlater⟩ := not_or.mp (mt List.mem_cons.mpr hne)
      have hsize := (hsizes _ List.mem_cons_self).2
      rw [List.flatten_cons, List.append_assoc, List.append_assoc,
        List.append_cancel_left_eq] at hstream
      rw [run_cons, slaveDataHandler_command noEqualSign hidle
        (by rw [List.length_append, actDataMtu] at hsize; omega)]
      by_cases hpart : part = []
      · subst hpart
        have hnamed := slaveDataHandler_nil noEqualSign (collects_started mode)
        refine (named_nothing_iff hnamed hends hzero hle
          (fun chunk hchunk => (hsizes chunk (List.mem_cons_of_mem _ hchunk)).2) hlater hdata.tail
          hstream).trans ?_
        rw [NameFound, List.head?_cons, List.append_nil, List.getElem?_cons_succ,
          ← List.head?_eq_getElem?]
        exact (or_iff_right (not_not.mpr rfl)).symm
      · have hnamed := named_run_collects (collects_started mode) hends hzero
          (by rw [List.length_nil]; omega)
          (fun hmem => (List.mem_cons.mp hmem).elim (Ne.symm hpart) hlater) hstream
          (hdata.tail.cons (by rw [hstream]; simp; omega))
        refine iff_of_true ⟨hnamed.name, hnamed.sent⟩ (.inl ?_)
        rw [List.head?_cons]
        intro hhead
        exact hpart (List.append_cancel_left ((Option.some.inj hhead).trans
          (List.append_nil _).symm))

/-- A name in three chunks, with the end of its line cut. -/
def lampChunks : List (List UInt8) :=
  [ascii ['A', 'T', '+', 'N', 'A', 'M', 'E', '=', 'L', 'a'], ascii ['m', 'p', '\r'],
    ascii ['\n', 'h', 'i']]

theorem name_cut_twice_found :
    cstr (run (slaveDataHandler false) .init lampChunks).advName 0 = ascii ['L', 'a', 'm', 'p'] ∧
      (run (slaveDataHandler false) .init lampChunks).sent = ascii ['h', 'i'] := by
  have hline : NameLine false (ascii ['L', 'a', 'm', 'p']) (ascii ['h', 'i']) lampChunks := by
    refine ⟨by decide, by decide, by decide, by decide, by decide, ?_, ?_⟩
    · rintro _ ⟨⟩
      decide
    · have hnil : DataPasses false (ascii ['h', 'i']) [] := fun chunk later hsuffix =>
        absurd (List.suffix_nil.mp hsuffix) (List.cons_ne_nil _ _)
      exact ((hnil.cons (by decide)).cons (by decide)).cons (by decide)
  exact (renamed_iff false .init rfl _ _ _ hline).mpr (.inl (by decide))

/-- The name is empty and the rest of the line is passed on. -/
theorem name_behind_prefix_lost :
    ¬∀ (noEqualSign : Bool) (mode : SlaveMode) (name rest : List UInt8)
        (chunks : List (List UInt8)), mode.atNameGetting = false →
      NameLine noEqualSign name rest chunks →
        cstr (run (slaveDataHandler noEqualSign) mode chunks).advName 0 =
            name.take (bleNameMaxLen - 1) ∧
          (run (slaveDataHandler noEqualSign) mode chunks).sent = mode.sent ++ rest := by
  intro hall
  have hline : NameLine false (ascii ['L', 'a', 'm', 'p']) []
      [atNameCmd false, ascii ['L', 'a', 'm', 'p', '\r', '\n']] := by
    refine ⟨by decide, by decide, by decide, by decide, by decide, ?_, ?_⟩
    · rintro _ ⟨⟩
      decide
    · have hnil : DataPasses false [] [] := fun chunk later hsuffix =>
        absurd (List.suffix_nil.mp hsuffix) (List.cons_ne_nil _ _)
      exact (hnil.cons (by decide)).cons (by decide)
  exact absurd (hall false .init _ _ _ rfl hline) (by decide)

end Main

end CubieBle.BleModule
