import CubieBle.Ancs.Stream

/-! # Responses and their fragments

A response is decoded to its attributes however it is cut. Nothing resets the
decoder between responses: it expects the header of the next one only if the last
one ended with the data of an attribute. Behind an attribute without data it still
looks for data, and takes the header for an attribute.
-/

namespace CubieBle.Ancs

open Machine

structure Attribute where
  id : UInt8
  data : List UInt8
  id_range : 1 ≤ id ∧ id ≤ 5
  length_lt : data.length < 2 ^ 16

namespace Attribute

def len (attr : Attribute) : UInt16 := UInt16.ofNat attr.data.length

def encode (attr : Attribute) : List UInt8 :=
  attr.id :: attr.len.toUInt8 :: (attr.len >>> 8).toUInt8 :: attr.data

def reported (attr : Attribute) : Reported :=
  ⟨attr.id, some attr.len, attr.data⟩

theorem len_toNat (attr : Attribute) : attr.len.toNat = attr.data.length :=
  UInt16.toNat_ofNat_of_lt' attr.length_lt

end Attribute

/-- A response to the get notification attributes command. -/
structure Response where
  uid : Vector UInt8 4
  attributes : List Attribute

namespace Response

def header (response : Response) : List UInt8 := 0 :: response.uid.toList

def body (response : Response) : List UInt8 := response.attributes.flatMap Attribute.encode

def encode (response : Response) : List UInt8 := response.header ++ response.body

/-- The last attribute has no data. -/
def EndsEmpty (response : Response) : Prop :=
  ∃ attr ∈ response.attributes.getLast?, attr.data = []

theorem header_length (response : Response) : response.header.length = ancsDsHdrLen := by
  simp [header, ancsDsHdrLen]

end Response

/-- A response cut into fragments, the first of which holds its header. -/
structure Cut where
  response : Response
  fragments : List (List UInt8)
  flatten_eq : fragments.flatten = response.encode
  header_le : ∀ first ∈ fragments.head?, ancsDsHdrLen ≤ first.length
  fragment_le : ∀ fragment ∈ fragments, fragment ≠ [] ∧ fragment.length ≤ ancsMaxNotifAttLength

/-- The decoder expects a response. -/
structure AttributeData.Idle (data : AttributeData) : Prop where
  cmd : data.pendingCmd = ancsCmdGetNotificationAtt
  state : data.dsDecoderState = .hdr ∨ data.dsDecoderState = .attrid
  attrLen : data.attrLen = 0
  pendingLen : data.pendingLen = false
  pendingAttrData : data.pendingAttrData = 0

/-- What has been received so far stands for a state of the byte machine. -/
structure Relates (current : AttributeData × List Display) (progress : Progress) : Prop where
  cmd : current.1.pendingCmd = ancsCmdGetNotificationAtt
  mode : Follows current.1 current.1.dsDecoderState progress.1
  shown : addDisplays [] current.2 = progress.2

/-! ## Fragments -/

theorem Parse.Follows.start {fragment : List UInt8} {current : AttributeData × List Display}
    {progress last : Progress} (hrelates : Relates current progress)
    (hfeed : feed readByte progress fragment = some last) :
    Parse.Follows fragment progress.2 last
      { data := current.1, state := current.1.dsDecoderState } progress where
  skip := rfl
  mode := hrelates.mode
  shown := rfl
  rest := hfeed

/-- The loop over a whole fragment, from any point the decoder can start at. -/
theorem receive_of_parseLoop {current : AttributeData × List Display} {fragment : List UInt8}
    {reports : List Reported} {last : Progress} {final : Parse} {first : UInt8}
    (hcmd : current.1.pendingCmd = ancsCmdGetNotificationAtt)
    (hfirst : byteAt fragment 0 = .ok first) {data : AttributeData}
    (hdata : resynchronise current.1 first = data)
    (hloop : parseLoop fragment (parseFuel fragment)
      { data := data, state := data.dsDecoderState } = .ok (true, final))
    (hmode : Follows final.data final.data.dsDecoderState last.1)
    (hreports : addDisplays [] current.2 = reports)
    (hshown : addDisplays reports final.shown = last.2)
    (hfinal : final.data.pendingCmd = ancsCmdGetNotificationAtt) :
    ∃ received, receive current fragment = .ok received ∧ Relates received last := by
  refine ⟨(final.data, current.2 ++ final.shown), ?_, hfinal, hmode, ?_⟩
  · simp only [receive, ancsHandleDataSourceData, hcmd, beq_self_eq_true, if_true, hfirst, hdata,
      ancsParseData, hloop, bind, Except.bind]
    rfl
  · rw [addDisplays_append, hreports]
    exact hshown

/-- A fragment in the middle of a response is never taken for a header: where one
could be expected an attribute id stands, which is not zero. -/
theorem headerExpected_eq_false {data : AttributeData} {progress next : Progress} {first : UInt8}
    (hmode : Follows data data.dsDecoderState progress.1)
    (hread : readByte progress first = some next) : headerExpected data first = false := by
  obtain ⟨mode, reports⟩ := progress
  cases mode with
  | id =>
      obtain ⟨⟨hpos, -⟩, -⟩ := readId_eq_some hread
      have hne : first ≠ 0 := by
        rintro rfl
        exact absurd hpos (by decide)
      simp [headerExpected, hne]
  | lenLow => simp [headerExpected, hmode.1]
  | lenHigh low => simp [headerExpected, hmode.1]
  | data left => simp [headerExpected, hmode.1]

theorem receive_follows (current : AttributeData × List Display) (progress : Progress)
    (fragment : List UInt8) (last : Progress)
    (hfragment : fragment ≠ [] ∧ fragment.length ≤ ancsMaxNotifAttLength)
    (hrelates : Relates current progress)
    (hfeed : feed readByte progress fragment = some last) :
    ∃ received, receive current fragment = .ok received ∧ Relates received last := by
  obtain ⟨first, rest, hcons⟩ := List.exists_cons_of_ne_nil hfragment.1
  have hnot : headerExpected current.1 first = false := by
    rw [hcons, feed_cons] at hfeed
    obtain ⟨next, hread, -⟩ := Option.bind_eq_some_iff.mp hfeed
    exact headerExpected_eq_false hrelates.mode hread
  have hfuel : rounds fragment { data := current.1, state := current.1.dsDecoderState } <
      parseFuel fragment := by
    have hidle := idleRounds_le { data := current.1, state := current.1.dsDecoderState }
    simp only [rounds, parseFuel]
    omega
  obtain ⟨final, hloop, hmode, hshown, hcmd⟩ :=
    parseLoop_follows hfragment.2 (parseFuel fragment) hfuel (.start hrelates hfeed)
  have hfirst : byteAt fragment 0 = .ok first := by
    rw [hcons]
    rfl
  have hdata : resynchronise current.1 first = current.1 := by
    rw [resynchronise, hnot]
    rfl
  exact receive_of_parseLoop hrelates.cmd hfirst hdata hloop hmode hrelates.shown hshown
    (hcmd.trans hrelates.cmd)

/-- The first fragment of a response, received by an idle decoder. -/
theorem receive_header {current : AttributeData × List Display} (hidle : current.1.Idle)
    (response : Response) {more : List UInt8}
    (hlength : (response.header ++ more).length ≤ ancsMaxNotifAttLength) {last : Progress}
    (hfeed : feed readByte (.id, addDisplays [] current.2) more = some last) :
    ∃ received, receive current (response.header ++ more) = .ok received ∧
      Relates received last := by
  have hexpected : headerExpected current.1 0 = true := by
    rcases hidle.state with hstate | hstate <;>
      simp [headerExpected, hidle.attrLen, hidle.pendingLen, hidle.pendingAttrData, hstate]
  have hdata : resynchronise current.1 0 = { current.1 with dsDecoderState := .hdr } := by
    rw [resynchronise, hexpected]
    rfl
  -- The first round skips the header, the others are those of the byte machine.
  let start : Parse :=
    { data := { current.1 with dsDecoderState := .hdr }, count := ancsDsHdrLen, state := .attrid }
  have hstart : start.Follows (response.header ++ more) (addDisplays [] current.2) last
      (.id, addDisplays [] current.2) := by
    refine ⟨rfl, ⟨rfl, hidle.pendingLen, hidle.attrLen, hidle.pendingAttrData⟩, rfl, ?_⟩
    rw [show start.count = response.header.length from response.header_length.symm,
      List.drop_left]
    exact hfeed
  have hfuel : rounds (response.header ++ more) start <
      3 * (response.header ++ more).length + 4 := by
    simp only [rounds, idleRounds, start, reduceCtorEq, if_false]
    omega
  obtain ⟨final, hloop, hmode, hshown, hcmd⟩ := parseLoop_follows hlength _ hfuel hstart
  have hfirst : byteAt (response.header ++ more) 0 = .ok 0 := rfl
  apply receive_of_parseLoop hidle.cmd hfirst hdata _ hmode rfl hshown (hcmd.trans hidle.cmd)
  rw [parseFuel, parseLoop, if_pos ⟨by simp [Response.header], rfl⟩]
  exact hloop

/-! ## Whole responses -/

/-- Where an attribute without data leaves the decoder, and where all others do. -/
def Attribute.endMode (attr : Attribute) : Mode := if attr.data = [] then .data 0 else .id

theorem feed_attribute (attr : Attribute) (mode : Mode) (hmode : mode = .id ∨ mode = .data 0)
    (reports : List Reported) :
    feed readByte (mode, reports) attr.encode = some (attr.endMode, attr.reported :: reports) := by
  have hid : readByte (mode, reports) attr.id =
      some (.lenLow, { id := attr.id } :: reports) := by
    rcases hmode with rfl | rfl <;> exact if_pos attr.id_range
  rw [Attribute.encode, feed_cons, hid]
  simp only [feed_cons, readByte, Option.bind_some, addDisplay]
  rw [uint16_or_of_bytes, attr.len_toNat]
  by_cases hempty : attr.data = []
  · simp [Attribute.endMode, Attribute.reported, hempty]
  · rw [feed_data _ _ _ hempty (le_refl _)]
    simp [Attribute.endMode, Attribute.reported, hempty, addDisplay]

def Response.endMode (response : Response) : Mode :=
  (response.attributes.getLast?.map Attribute.endMode).getD .id

theorem feed_attributes (attributes : List Attribute) (mode : Mode)
    (hmode : mode = .id ∨ mode = .data 0) (reports : List Reported) :
    feed readByte (mode, reports) (attributes.flatMap Attribute.encode) =
      some ((attributes.getLast?.map Attribute.endMode).getD mode,
        (attributes.map Attribute.reported).reverse ++ reports) := by
  induction attributes generalizing mode reports with
  | nil => rfl
  | cons attr rest ih =>
      have hend : attr.endMode = .id ∨ attr.endMode = .data 0 := by
        unfold Attribute.endMode
        split
        · exact .inr rfl
        · exact .inl rfl
      rw [List.flatMap_cons, feed_append, feed_attribute attr mode hmode, Option.bind_some,
        ih _ hend]
      cases rest with
      | nil => rfl
      | cons second rest =>
          rw [List.getLast?_cons_cons,
            List.getLast?_eq_some_getLast (List.cons_ne_nil second rest)]
          simp

theorem Cut.exists_split (cut : Cut) :
    ∃ more rest, cut.fragments = (cut.response.header ++ more) :: rest ∧
      more ++ rest.flatten = cut.response.body := by
  have hflatten := cut.flatten_eq
  have hheader := cut.header_le
  cases hfragments : cut.fragments with
  | nil => simp [hfragments, Response.encode, Response.header] at hflatten
  | cons first rest =>
      rw [hfragments, List.flatten_cons, Response.encode] at hflatten
      have hle : cut.response.header.length ≤ first.length := by
        rw [Response.header_length]
        exact hheader first (by simp [hfragments])
      obtain ⟨more, rfl⟩ : ∃ more, first = cut.response.header ++ more := by
        have hprefix : cut.response.header <+: first :=
          List.prefix_of_prefix_length_le (List.prefix_append _ cut.response.body)
            (hflatten ▸ List.prefix_append first rest.flatten) hle
        obtain ⟨more, hmore⟩ := hprefix
        exact ⟨more, hmore.symm⟩
      refine ⟨more, rest, rfl, ?_⟩
      rw [List.append_assoc] at hflatten
      exact List.append_cancel_left hflatten

/-- An idle decoder reports the attributes of a response, however it is cut. -/
theorem receive_response (current : AttributeData × List Display) (hidle : current.1.Idle)
    (cut : Cut) :
    ∃ received, cut.fragments.foldlM receive current = .ok received ∧
      Relates received (cut.response.endMode,
        (cut.response.attributes.map Attribute.reported).reverse ++ addDisplays [] current.2) := by
  obtain ⟨more, rest, hfragments, hbody⟩ := cut.exists_split
  have hsize := cut.fragment_le
  have hfeed := feed_attributes cut.response.attributes .id (.inl rfl) (addDisplays [] current.2)
  change feed readByte _ cut.response.body = _ at hfeed
  rw [← hbody] at hfeed
  obtain ⟨middle, hfirst, hrest⟩ := exists_feed_of_append hfeed
  rw [hfragments] at hsize ⊢
  obtain ⟨received, hreceived, hrelates⟩ :=
    receive_header hidle cut.response (hsize _ (by simp)).2 hfirst
  rw [List.foldlM_cons, hreceived]
  exact foldlM_refines Relates (fun fragment => fragment ≠ [] ∧
    fragment.length ≤ ancsMaxNotifAttLength) receive_follows
    (fun fragment hfragment => hsize fragment (by simp [hfragment])) hrelates hrest

theorem clear_idle (data : AttributeData) (hcmd : data.pendingCmd = ancsCmdGetNotificationAtt) :
    (ancsClearAttributeData data).Idle :=
  ⟨hcmd, .inl rfl, rfl, rfl, rfl⟩

/-- A cleared decoder reports exactly the attributes of a response for every way
of cutting it into fragments, and never leaves the fragment or its buffer. -/
theorem fragment_invariance (cut : Cut) (data : AttributeData)
    (hcmd : data.pendingCmd = ancsCmdGetNotificationAtt) :
    ∃ final shown, cut.fragments.foldlM receive (ancsClearAttributeData data, []) =
        .ok (final, shown) ∧
      report shown = cut.response.attributes.map Attribute.reported := by
  obtain ⟨⟨final, shown⟩, hreceived, hrelates⟩ :=
    receive_response (ancsClearAttributeData data, []) (clear_idle data hcmd) cut
  refine ⟨final, shown, hreceived, ?_⟩
  have hshown := hrelates.shown
  rw [report, hshown]
  simp [addDisplays]

/-- A title of three letters, cut between its two length bytes. -/
def splitLength : Cut where
  response := ⟨#v[7, 0, 0, 0], [⟨1, [0x41, 0x42, 0x43], by decide, by decide⟩]⟩
  fragments := [[0, 7, 0, 0, 0, 1, 3], [0, 0x41, 0x42, 0x43]]
  flatten_eq := by decide
  header_le := by decide
  fragment_le := by decide

theorem splitLength_reported :
    ∃ final shown, splitLength.fragments.foldlM receive (ancsClearAttributeData {}, []) =
        .ok (final, shown) ∧
      report shown = splitLength.response.attributes.map Attribute.reported :=
  fragment_invariance splitLength {} rfl

/-! ## Sequences of responses -/

/-- Decode one response after the other, with the reports for each. -/
def decodeResponses (data : AttributeData) :
    List (List (List UInt8)) → Except Fault (List (List Reported))
  | [] => .ok []
  | fragments :: rest => do
      let (next, shown) ← fragments.foldlM receive (data, [])
      let reports ← decodeResponses next rest
      return report shown :: reports

/-- The reports of a cleared decoder for one response. -/
def decodeAlone (data : AttributeData) (fragments : List (List UInt8)) :
    Except Fault (List Reported) := do
  let (_, shown) ← fragments.foldlM receive (ancsClearAttributeData data, [])
  return report shown

theorem decodeAlone_eq (cut : Cut) (data : AttributeData)
    (hcmd : data.pendingCmd = ancsCmdGetNotificationAtt) :
    decodeAlone data cut.fragments = .ok (cut.response.attributes.map Attribute.reported) := by
  obtain ⟨received, hreceived, hrelates⟩ :=
    receive_response (ancsClearAttributeData data, []) (clear_idle data hcmd) cut
  have hshown := hrelates.shown
  simp only [decodeAlone, hreceived, bind, Except.bind, pure, Except.pure, report, hshown]
  simp [addDisplays]

theorem mapM_decodeAlone (cuts : List Cut) (data : AttributeData)
    (hcmd : data.pendingCmd = ancsCmdGetNotificationAtt) :
    cuts.mapM (fun cut => decodeAlone data cut.fragments) =
      .ok (cuts.map fun cut => cut.response.attributes.map Attribute.reported) := by
  induction cuts with
  | nil => rfl
  | cons cut rest ih =>
      rw [List.mapM_cons, decodeAlone_eq cut data hcmd, ih]
      rfl

/-! ### What is shown stays shown -/

theorem parseSwitch_shown {fragment : List UInt8} {parse next : Parse} {continues : Bool}
    (hswitch : parseSwitch fragment parse = .ok (continues, next)) :
    parse.shown <+: next.shown := by
  unfold parseSwitch at hswitch
  split at hswitch
  · unfold parseHdr at hswitch
    simp only [bind, Except.bind, pure, Except.pure] at hswitch
    repeat' split at hswitch
    all_goals cases hswitch
    all_goals simp
  · unfold parseAttrid at hswitch
    simp only [bind, Except.bind, pure, Except.pure] at hswitch
    repeat' split at hswitch
    all_goals cases hswitch
    all_goals simp
  · unfold parseAttrlen at hswitch
    simp only [bind, Except.bind, pure, Except.pure] at hswitch
    repeat' split at hswitch
    all_goals cases hswitch
    all_goals simp [attrLenDone]
  · have hdone (parse : Parse) : (attrDataDone parse).shown = parse.shown := by
      unfold attrDataDone
      split <;> rfl
    unfold parseAttrdata at hswitch
    simp only [bind, Except.bind, pure, Except.pure] at hswitch
    repeat' split at hswitch
    all_goals cases hswitch
    all_goals simp [hdone]
  · cases hswitch
    exact List.prefix_rfl

theorem parseLoop_shown {fragment : List UInt8} (fuel : Nat) {parse final : Parse} {whole : Bool}
    (hloop : parseLoop fragment fuel parse = .ok (whole, final)) :
    parse.shown <+: final.shown := by
  induction fuel generalizing parse with
  | zero => simp [parseLoop] at hloop
  | succ fuel ih =>
      rw [parseLoop] at hloop
      split at hloop
      · cases hswitch : parseSwitch fragment parse with
        | error fault => simp [hswitch, bind, Except.bind] at hloop
        | ok result =>
            obtain ⟨continues, next⟩ := result
            have hfirst := parseSwitch_shown hswitch
            simp only [hswitch, bind, Except.bind] at hloop
            split at hloop
            · exact hfirst.trans (ih hloop)
            · cases hloop
              exact hfirst
      · cases hloop
        exact List.prefix_rfl

theorem receive_shown {current received : AttributeData × List Display} {fragment : List UInt8}
    (hreceive : receive current fragment = .ok received) : current.2 <+: received.2 := by
  unfold receive at hreceive
  simp only [bind, Except.bind, pure, Except.pure] at hreceive
  split at hreceive
  · cases hreceive
  · cases hreceive
    exact List.prefix_append _ _

theorem foldlM_receive_shown {fragments : List (List UInt8)}
    {current received : AttributeData × List Display}
    (hreceive : fragments.foldlM receive current = .ok received) : current.2 <+: received.2 := by
  induction fragments generalizing current with
  | nil =>
      cases hreceive
      exact List.prefix_rfl
  | cons fragment rest ih =>
      rw [List.foldlM_cons] at hreceive
      cases hfirst : receive current fragment with
      | error fault => simp [hfirst, bind, Except.bind] at hreceive
      | ok next =>
          rw [hfirst] at hreceive
          exact (receive_shown hfirst).trans (ih hreceive)

/-- Later displays do not change which attribute was reported first. -/
theorem addDisplays_getLast (reports : List Reported) (shown : List Display)
    (hreports : reports ≠ []) :
    (addDisplays reports shown).getLast?.map Reported.id =
      reports.getLast?.map Reported.id := by
  induction shown generalizing reports with
  | nil => rfl
  | cons display rest ih =>
      obtain ⟨latest, earlier, rfl⟩ := List.exists_cons_of_ne_nil hreports
      have hadd : addDisplay (latest :: earlier) display ≠ [] := by
        cases display <;> simp [addDisplay]
      change (addDisplays (addDisplay (latest :: earlier) display) rest).getLast?.map _ = _
      rw [ih _ hadd]
      cases display with
      | attrId id name => simp [addDisplay, List.getLast?_cons_cons]
      | attrLen len => cases earlier <;> simp [addDisplay, List.getLast?_cons_cons]
      | attrData piece => cases earlier <;> simp [addDisplay, List.getLast?_cons_cons]
      | _ => rfl

/-! ### Resynchronisation -/

/-- Behind an attribute without data the first byte of a header is taken for the
id of an attribute: one round finds the data complete, the next reads the id. -/
theorem parseLoop_misread {data : AttributeData} (hlen : data.attrLen = 0)
    (hdata : data.pendingAttrData = 0) (rest : List UInt8) (fuel : Nat) {whole : Bool}
    {final : Parse}
    (hloop : parseLoop (0 :: rest) (fuel + 2) { data := data, state := .attrdata } =
      .ok (whole, final)) :
    [.attrId 0 " App ID"] <+: final.shown := by
  have hname : notifAttName 0 = some " App ID" := by decide
  have hdrop : (0 :: rest).drop 0 = 0 :: rest := rfl
  rw [parseLoop_continue (fuel + 1) (by simp) rfl (parseSwitch_empty rfl hlen hdata),
    parseLoop_continue fuel (by simp) rfl (parseSwitch_id hdrop rfl hname)] at hloop
  exact parseLoop_shown fuel hloop

theorem receive_misread {data : AttributeData} {progress : Progress}
    (hmode : progress.1 = .data 0) (hcmd : data.pendingCmd = ancsCmdGetNotificationAtt)
    (hfollows : Follows data data.dsDecoderState progress.1) {rest : List UInt8}
    {received : AttributeData × List Display}
    (hreceive : receive (data, []) (0 :: rest) = .ok received) :
    [.attrId 0 " App ID"] <+: received.2 := by
  rw [hmode] at hfollows
  obtain ⟨hlen, hdata⟩ := Follows.empty hfollows
  have hstate : data.dsDecoderState = .attrdata := hfollows.1
  have hstart : resynchronise data 0 = data := by
    rw [resynchronise, headerExpected, hstate]
    simp
  have hfirst : byteAt (0 :: rest) 0 = .ok 0 := rfl
  simp only [receive, ancsHandleDataSourceData, hcmd, beq_self_eq_true, if_true, hfirst, hstart,
    ancsParseData, bind, Except.bind, hstate] at hreceive
  cases hloop : parseLoop (0 :: rest) (parseFuel (0 :: rest))
      { data := data, state := .attrdata } with
  | error fault => simp [hloop] at hreceive
  | ok result =>
      rw [hloop] at hreceive
      cases hreceive
      exact parseLoop_misread hlen hdata rest _ hloop

/-- What a decoder reports that has taken a header for an attribute. -/
theorem report_misread {shown : List Display} (hshown : [.attrId 0 " App ID"] <+: shown) :
    (report shown).head?.map Reported.id = some 0 := by
  obtain ⟨more, rfl⟩ := hshown
  rw [report, List.head?_reverse]
  exact addDisplays_getLast [{ id := 0 }] more (by simp)

theorem reported_id_ne_zero (attributes : List Attribute) :
    (attributes.map Attribute.reported).head?.map Reported.id ≠ some 0 := by
  cases attributes with
  | nil => simp
  | cons attr rest =>
      intro hzero
      have hid : attr.id = 0 := Option.some.inj hzero
      have hpos := attr.id_range.1
      rw [hid] at hpos
      exact absurd hpos (by decide)

theorem decodeResponses_misread {data : AttributeData} {progress : Progress}
    (hmode : progress.1 = .data 0) (hcmd : data.pendingCmd = ancsCmdGetNotificationAtt)
    (hfollows : Follows data data.dsDecoderState progress.1) (cut : Cut)
    (rest : List (List (List UInt8))) (reports : List (List Reported)) :
    decodeResponses data (cut.fragments :: rest) ≠
      .ok (cut.response.attributes.map Attribute.reported :: reports) := by
  intro hdecode
  obtain ⟨more, others, hfragments, -⟩ := cut.exists_split
  rw [hfragments, decodeResponses, List.foldlM_cons] at hdecode
  cases hfirst : receive (data, []) (cut.response.header ++ more) with
  | error fault => simp [hfirst, bind, Except.bind] at hdecode
  | ok middle =>
      rw [hfirst] at hdecode
      cases hothers : others.foldlM receive middle with
      | error fault => simp [hothers, bind, Except.bind] at hdecode
      | ok received =>
          have hshown := (receive_misread hmode hcmd hfollows hfirst).trans
            (foldlM_receive_shown hothers)
          simp only [hothers, bind, Except.bind] at hdecode
          split at hdecode
          · cases hdecode
          · have hhead := (List.cons.inj (Except.ok.inj hdecode)).1
            have hzero := report_misread hshown
            rw [hhead] at hzero
            exact reported_id_ne_zero _ hzero

theorem Response.endMode_eq (response : Response) :
    (response.EndsEmpty → response.endMode = .data 0) ∧
      (¬ response.EndsEmpty → response.endMode = .id) := by
  unfold EndsEmpty endMode
  cases response.attributes.getLast? with
  | none => simp
  | some attr => simp [Attribute.endMode]

/-- From an idle decoder on, every response is decoded to its attributes exactly
if none but the last ends with an attribute without data. -/
theorem decodeResponses_iff {data : AttributeData} (hidle : data.Idle) (cuts : List Cut) :
    decodeResponses data (cuts.map Cut.fragments) =
        .ok (cuts.map fun cut => cut.response.attributes.map Attribute.reported) ↔
      ∀ cut ∈ cuts.dropLast, ¬ cut.response.EndsEmpty := by
  induction cuts generalizing data with
  | nil => simp [decodeResponses]
  | cons cut rest ih =>
      obtain ⟨received, hreceived, hrelates⟩ := receive_response (data, []) hidle cut
      have hreport : report received.2 = cut.response.attributes.map Attribute.reported := by
        have hshown := hrelates.shown
        rw [report, hshown]
        simp [addDisplays]
      have hstep : decodeResponses data ((cut :: rest).map Cut.fragments) =
          (decodeResponses received.1 (rest.map Cut.fragments)).map
            (cut.response.attributes.map Attribute.reported :: ·) := by
        rw [List.map_cons, decodeResponses, hreceived, ← hreport]
        rfl
      rw [hstep]
      cases rest with
      | nil => simp [decodeResponses, Except.map]
      | cons second rest =>
          rw [List.dropLast_cons_cons, List.forall_mem_cons]
          by_cases hempty : cut.response.EndsEmpty
          · refine iff_of_false (fun hdecode => ?_) fun hall => hall.1 hempty
            have hmode := cut.response.endMode_eq.1 hempty
            have hmisread := decodeResponses_misread hmode hrelates.cmd hrelates.mode second
              (rest.map Cut.fragments)
              (rest.map fun cut => cut.response.attributes.map Attribute.reported)
            apply hmisread
            cases hnext : decodeResponses received.1 ((second :: rest).map Cut.fragments) with
            | error fault =>
                rw [hnext] at hdecode
                cases hdecode
            | ok reports =>
                rw [hnext] at hdecode
                have htail := (List.cons.inj (Except.ok.inj hdecode)).2
                rw [List.map_cons] at hnext
                rw [hnext, htail]
                rfl
          · have hnext : received.1.Idle := by
              have hmode := hrelates.mode
              rw [cut.response.endMode_eq.2 hempty] at hmode
              exact ⟨hrelates.cmd, .inr hmode.1, hmode.2.2.1, hmode.2.1, hmode.2.2.2⟩
            rw [← ih hnext]
            refine Iff.trans ?_ (and_iff_right hempty).symm
            cases decodeResponses received.1 ((second :: rest).map Cut.fragments) with
            | error fault => simp [Except.map]
            | ok reports => simp [Except.map]

/-- Responses received one after the other are each decoded as by a cleared
decoder exactly if none but the last ends with an attribute without data. -/
theorem resynchronisation_iff (cuts : List Cut) (data : AttributeData)
    (hcmd : data.pendingCmd = ancsCmdGetNotificationAtt) :
    decodeResponses (ancsClearAttributeData data) (cuts.map Cut.fragments) =
        cuts.mapM (fun cut => decodeAlone data cut.fragments) ↔
      ∀ cut ∈ cuts.dropLast, ¬ cut.response.EndsEmpty := by
  rw [mapM_decodeAlone cuts data hcmd]
  exact decodeResponses_iff (clear_idle data hcmd) cuts

theorem resynchronisation_iff_splitLength :
    decodeResponses (ancsClearAttributeData {}) ([splitLength, splitLength].map Cut.fragments) =
        [splitLength, splitLength].mapM (fun cut => decodeAlone {} cut.fragments) ↔
      ∀ cut ∈ [splitLength, splitLength].dropLast, ¬ cut.response.EndsEmpty :=
  resynchronisation_iff [splitLength, splitLength] {} rfl

/-- A response with an empty title. -/
def emptyTitle : Cut where
  response := ⟨#v[7, 0, 0, 0], [⟨1, [], by decide, by decide⟩]⟩
  fragments := [[0, 7, 0, 0, 0, 1, 0, 0]]
  flatten_eq := by decide
  header_le := by decide
  fragment_le := by decide

theorem emptyTitle_misread :
    decodeResponses (ancsClearAttributeData {}) ([emptyTitle, splitLength].map Cut.fragments) ≠
      [emptyTitle, splitLength].mapM (fun cut => decodeAlone {} cut.fragments) := by
  decide

end CubieBle.Ancs
