import CubieBle.AirSync.Confirmation
import CubieBle.AirSync.Requests

/-! # Frames of the device

A command is packed behind a header with the length, the command and a sequence number, and is
sent in indications of 20 bytes, the last one of which is filled up with zeros.
-/

namespace CubieBle.AirSync

open Machine Epb

/-! ## The code -/

def eciReqAuth : UInt16 := 10001
def eciReqSendData : UInt16 := 10002
def eciReqInit : UInt16 := 10003

def protoVersion : Int32 := 0x010004
def authProto : Int32 := 1

/-- `EAM_macNoEncrypt` -/
def authMethod : Int32 := 2

/-- `EDDT_wxDeviceHtmlChatView` -/
def wxDeviceHtmlChatView : Int32 := 10001

/-- The characters of `DEVICE_ID` and the zero behind them. -/
def deviceId : List UInt8 :=
  [0x67, 0x68, 0x5f, 0x66, 0x37, 0x31, 0x36, 0x37, 0x39, 0x35, 0x64, 0x37, 0x63, 0x36, 0x62, 0x5f,
    0x32, 0x64, 0x63, 0x33, 0x36, 0x36, 0x62, 0x31, 0x38, 0x34, 0x34, 0x62, 0x39, 0x31, 0x34, 0x65,
    0]

/-- The part of `wxbt_state` that sending changes. -/
structure SendState where
  seq : UInt16
  sendDataSeq : UInt16
deriving DecidableEq

/-- What `cmd_parameter_t` asks for. -/
inductive CmdParameter
  | auth
  | init
  | sendDat (msg : Bytes)

section Code

variable (malloc : Nat → Option Buffer) (heap : Buffer) (bondAddr : Bytes)

def authReq : AuthRequest where
  md5DeviceTypeAndDeviceId := none
  protoVersion := protoVersion
  authProto := authProto
  authMethod := authMethod
  aesSign := none
  macAddress := some bondAddr
  timeZone := none
  language := none
  deviceName := some ⟨deviceId, by decide⟩

def initReq : InitRequest where
  respFieldFilter := none
  challenge := some ⟨challeange, by decide⟩

def sendDatReq (msg : Bytes) : SendDataRequest where
  data := msg
  type := some wxDeviceHtmlChatView

/-- `cmd_fix_head_t` with its fields in network order. -/
def fixHead (nLength nCmdId nSeq : UInt16) : List UInt8 :=
  [0xfe, 1, (nLength >>> 8).toUInt8, nLength.toUInt8, (nCmdId >>> 8).toUInt8, nCmdId.toUInt8,
    (nSeq >>> 8).toUInt8, nSeq.toUInt8]

/-- The case of a command: memory for the message and the header, and the message in it. -/
def produceBody (packSize : Nat) (pack : Buffer → Int → Int × Writer) : Option Buffer :=
  (malloc (packSize + fixHeadLen)).bind fun data =>
    let (ret, writer) := pack (data.advance fixHeadLen) packSize
    if ret < 0 then none else some writer.packBuf

/-- The end of `data_produce_func_send`, with what the case of the command gives: the message and
its size, the command, and the numbers if there is a message. -/
def putHead (state : SendState) (nCmdId : UInt16) (packSize : Nat) (counted : SendState) :
    Option Buffer → Option (List UInt8) × Nat × SendState
  | none => (none, packSize + fixHeadLen, state)
  | some body =>
      (some (fixHead (UInt16.ofNat (packSize + fixHeadLen)) nCmdId counted.seq ++
        body.bytes 0 packSize), packSize + fixHeadLen, counted)

/-- `*data`, if there is one, and `*len`. -/
def dataProduceFuncSend (state : SendState) (param : CmdParameter) :
    Option (List UInt8) × Nat × SendState :=
  let state := { state with seq := state.seq + 1 }
  match param with
  | .auth =>
      let packSize := epbAuthRequestPackSize (authReq bondAddr)
      putHead state eciReqAuth packSize state
        (produceBody malloc packSize (epbPackAuthRequest heap (authReq bondAddr)))
  | .init =>
      let packSize := epbInitRequestPackSize initReq
      putHead state eciReqInit packSize state
        (produceBody malloc packSize (epbPackInitRequest heap initReq))
  | .sendDat msg =>
      let packSize := epbSendDataRequestPackSize (sendDatReq msg)
      putHead state eciReqSendData packSize
        { state with sendDataSeq := state.sendDataSeq + 1 }
        (produceBody malloc packSize (epbPackSendDataRequest heap (sendDatReq msg)))

end Code

/-- The indications of `wechat_send_data`. -/
def wechatSendData (buf : List UInt8) : List (List UInt8) :=
  if wechatMaxPkt < buf.length then
    buf.take wechatMaxPkt :: wechatSendData (buf.drop wechatMaxPkt)
  else if 0 < buf.length then
    [buf ++ List.replicate (wechatMaxPkt - buf.length) 0]
  else []
termination_by buf.length
decreasing_by
  rw [List.length_drop, wechatMaxPkt] at *
  omega

/-! ## One frame -/

/-- The command and the fields of a frame. -/
def CmdParameter.nCmdId : CmdParameter → UInt16
  | auth => eciReqAuth
  | init => eciReqInit
  | sendDat _ => eciReqSendData

def CmdParameter.fields (bondAddr : Bytes) : CmdParameter → List WireField
  | auth => (authReq bondAddr).fields
  | init => initReq.fields
  | sendDat msg => (sendDatReq msg).fields

/-- The numbers after a frame that was made. -/
def CmdParameter.counted : CmdParameter → SendState → SendState
  | sendDat _, state => ⟨state.seq + 1, state.sendDataSeq + 1⟩
  | _, state => { state with seq := state.seq + 1 }

def frame (bondAddr : Bytes) (param : CmdParameter) (seq : UInt16) : List UInt8 :=
  fixHead (UInt16.ofNat ((encodeFields (param.fields bondAddr)).length + fixHeadLen)) param.nCmdId
      seq ++
    encodeFields (param.fields bondAddr)

@[simp] theorem length_frame (bondAddr : Bytes) (param : CmdParameter) (seq : UInt16) :
    (frame bondAddr param seq).length =
      (encodeFields (param.fields bondAddr)).length + fixHeadLen := by
  rw [frame, List.length_append, Nat.add_comm]
  rfl

section Produce

variable (malloc : Nat → Option Buffer) (heap : Buffer) {bondAddr : Bytes}

theorem produceBody_of_packsInto {packSize : Nat} {pack : Buffer → Int → Int × Writer}
    {fields : List WireField} (hpack : PacksInto pack fields)
    (hsize : packSize = (encodeFields fields).length) :
    (produceBody malloc packSize pack).map (fun body => body.bytes 0 packSize) =
      (malloc (packSize + fixHeadLen)).map fun _ => encodeFields fields := by
  rw [produceBody]
  cases malloc (packSize + fixHeadLen) with
  | none => rfl
  | some data =>
      obtain ⟨hret, hstarts⟩ := hpack.fits (data.advance fixHeadLen) packSize (by omega)
      rw [Option.bind_some]
      dsimp only
      rw [if_neg (by omega), Option.map_some, Option.map_some, hsize]
      rw [hsize] at hstarts
      rw [hstarts.bytes_eq]

/-- What a call gives, and the numbers after it. -/
def produced (bondAddr : Bytes) (state : SendState) (param : CmdParameter) :
    Option (List UInt8) × Nat × SendState :=
  let len := (encodeFields (param.fields bondAddr)).length + fixHeadLen
  match malloc len with
  | none => (none, len, { state with seq := state.seq + 1 })
  | some _ => (some (frame bondAddr param (state.seq + 1)), len, param.counted state)

theorem putHead_of_packsInto (state : SendState) (param : CmdParameter) {packSize : Nat}
    {pack : Buffer → Int → Int × Writer} (hpack : PacksInto pack (param.fields bondAddr))
    (hsize : packSize = (encodeFields (param.fields bondAddr)).length) :
    putHead { state with seq := state.seq + 1 } param.nCmdId packSize (param.counted state)
        (produceBody malloc packSize pack) = produced malloc bondAddr state param := by
  have hbody := produceBody_of_packsInto malloc hpack hsize
  subst hsize
  rw [produced]
  cases hmalloc : malloc ((encodeFields (param.fields bondAddr)).length + fixHeadLen) with
  | none =>
      rw [hmalloc, Option.map_none, Option.map_eq_none_iff] at hbody
      rw [hbody]
      rfl
  | some data =>
      rw [hmalloc, Option.map_some, Option.map_eq_some_iff] at hbody
      obtain ⟨body, hbody, hbytes⟩ := hbody
      have hseq : (param.counted state).seq = state.seq + 1 := by cases param <;> rfl
      rw [hbody, putHead, hbytes, hseq]
      rfl

/-- A frame is made whenever there is memory for it, and the call is counted in any case. -/
theorem dataProduceFuncSend_eq (state : SendState) (param : CmdParameter) :
    dataProduceFuncSend malloc heap bondAddr state param =
      produced malloc bondAddr state param := by
  cases param with
  | auth =>
      exact putHead_of_packsInto malloc state .auth
        (epbPackAuthRequest_packsInto heap (authReq bondAddr))
        (epbAuthRequestPackSize_eq (authReq bondAddr))
  | init =>
      exact putHead_of_packsInto malloc state .init (epbPackInitRequest_packsInto heap initReq)
        (epbInitRequestPackSize_eq initReq)
  | sendDat msg =>
      exact putHead_of_packsInto malloc state (.sendDat msg)
        (epbPackSendDataRequest_packsInto heap (sendDatReq msg))
        (epbSendDataRequestPackSize_eq (sendDatReq msg))

end Produce

/-! ## Reading a frame -/

/-- `ntohs` of the sequence number. -/
def nSeq (buffer : Buffer) : Nat := (buffer 6).toNat * 256 + (buffer 7).toNat

theorem toNat_of_bytes (word : UInt16) :
    (word >>> 8).toUInt8.toNat * 256 + word.toUInt8.toNat = word.toNat := by
  have hlt := word.toNat_lt
  rw [UInt16.toNat_toUInt8, UInt16.toNat_toUInt8, UInt16.toNat_shiftRight,
    Nat.shiftRight_eq_div_pow]
  simp only [UInt16.toNat_ofNat, Nat.reduceMod, Nat.reducePow]
  omega

theorem header_fixHead (length cmdId seq : UInt16) (body : List UInt8) :
    nLength (packetBuffer (fixHead length cmdId seq ++ body)) = length.toNat ∧
      nCmdId (packetBuffer (fixHead length cmdId seq ++ body)) = cmdId.toNat ∧
      nSeq (packetBuffer (fixHead length cmdId seq ++ body)) = seq.toNat :=
  ⟨toNat_of_bytes length, toNat_of_bytes cmdId, toNat_of_bytes seq⟩

/-- A reader finds the request of a command. -/
def CmdParameter.ReadBy (uninit : UInt32) (bondAddr : Bytes) : CmdParameter → Reader → Prop
  | auth => (authReq bondAddr).ReadBy uninit
  | init => initReq.ReadBy uninit
  | sendDat msg => (sendDatReq msg).ReadBy uninit

theorem CmdParameter.readBy_of_encodes (uninit : UInt32) {bondAddr : Bytes} {param : CmdParameter}
    {e : Reader} (henc : Encodes e (param.fields bondAddr)) : param.ReadBy uninit bondAddr e := by
  cases param with
  | auth => exact AuthRequest.readBy_of_encodes uninit henc
  | init => exact InitRequest.readBy_of_encodes uninit henc
  | sendDat msg => exact SendDataRequest.readBy_of_encodes uninit henc

/-- The body of a frame. -/
def bodyOf (buf : List UInt8) : Reader :=
  ⟨(packetBuffer buf).advance fixHeadLen, buf.length - fixHeadLen⟩

/-- The body of a frame holds the fields of its command. -/
theorem encodes_frame (bondAddr : Bytes) (param : CmdParameter) (seq : UInt16) :
    Encodes (bodyOf (frame bondAddr param seq)) (param.fields bondAddr) where
  supported := by
    cases param with
    | auth => exact (authReq bondAddr).supported
    | init => exact initReq.supported
    | sendDat msg => exact (sendDatReq msg).supported
  starts := by
    intro i hi
    show (frame bondAddr param seq).getD (fixHeadLen + i) 0 = _
    rw [frame, List.getD_append_right _ _ _ _ (Nat.le_add_right fixHeadLen i)]
    congr 1
    exact Nat.add_sub_cancel_left fixHeadLen i
  length := by
    show ((frame bondAddr param seq).length : Int) - fixHeadLen = _
    rw [length_frame]
    omega

/-! ## Indications -/

/-- The zeros behind the last bytes of a frame. -/
def padding (length : Nat) : Nat := (wechatMaxPkt - length % wechatMaxPkt) % wechatMaxPkt

theorem padding_sub {length : Nat} (hle : wechatMaxPkt ≤ length) :
    padding (length - wechatMaxPkt) = padding length := by
  rw [padding, padding, ← Nat.mod_eq_sub_mod hle]

theorem flatten_wechatSendData (buf : List UInt8) :
    (wechatSendData buf).flatten = buf ++ List.replicate (padding buf.length) 0 ∧
      ∀ indication ∈ wechatSendData buf, indication.length = wechatMaxPkt := by
  fun_induction wechatSendData buf with
  | case1 buf hlt ih =>
      obtain ⟨hflatten, hlength⟩ := ih
      rw [List.length_drop, padding_sub (Nat.le_of_lt hlt)] at hflatten
      constructor
      · rw [List.flatten_cons, hflatten, ← List.append_assoc, List.take_append_drop]
      · intro indication hmem
        rcases List.mem_cons.mp hmem with rfl | hrest
        · rw [List.length_take, Nat.min_eq_left (Nat.le_of_lt hlt)]
        · exact hlength indication hrest
  | case2 buf hle hpos =>
      have hpad : padding buf.length = wechatMaxPkt - buf.length := by
        rw [padding, wechatMaxPkt] at *
        omega
      constructor
      · rw [List.flatten_singleton, hpad]
      · intro indication hmem
        rw [List.mem_singleton] at hmem
        rw [hmem, List.length_append, List.length_replicate]
        omega
  | case3 buf hle hzero =>
      have hnil : buf = [] := List.eq_nil_of_length_eq_zero (by omega)
      subst hnil
      exact ⟨rfl, fun indication hmem => absurd hmem (List.not_mem_nil)⟩

/-! ## A run of commands -/

/-- A call of `data_produce_func_send`, with the memory that it gets. -/
structure Call where
  param : CmdParameter
  malloc : Nat → Option Buffer
  heap : Buffer

section Run

variable (bondAddr : Bytes)

/-- The frames of calls in turn. -/
def framesOf : SendState → List Call → List (Option (List UInt8))
  | _, [] => []
  | state, call :: rest =>
      let (data, _, state) := dataProduceFuncSend call.malloc call.heap bondAddr state call.param
      data :: framesOf state rest

def Call.size (call : Call) : Nat :=
  (encodeFields (call.param.fields bondAddr)).length + fixHeadLen

/-- What the phone gets of a frame. -/
def sent (data : Option (List UInt8)) : List UInt8 :=
  data.toList.flatMap fun buf => (wechatSendData buf).flatten

/-- Frames cut from what was received by the lengths in their headers. -/
def cutFrames (received : List UInt8) : List (List UInt8) :=
  let length := nLength (packetBuffer received)
  if 0 < length ∧ length ≤ received.length then
    received.take length :: cutFrames (received.drop (length + padding length))
  else []
termination_by received.length
decreasing_by
  rw [List.length_drop]
  omega

variable {bondAddr}

theorem seq_produced (malloc : Nat → Option Buffer) (state : SendState) (param : CmdParameter) :
    (produced malloc bondAddr state param).2.2.seq = state.seq + 1 := by
  rw [produced]
  cases malloc ((encodeFields (param.fields bondAddr)).length + fixHeadLen) with
  | none => rfl
  | some data => cases param <;> rfl

/-- The number of a frame is that of its call. -/
theorem framesOf_eq (state : SendState) (calls : List Call) :
    framesOf bondAddr state calls = calls.mapIdx fun i call =>
      (call.malloc (call.size bondAddr)).map fun _ =>
        frame bondAddr call.param (state.seq + UInt16.ofNat (i + 1)) := by
  induction calls generalizing state with
  | nil => rfl
  | cons call rest ih =>
      have hseq : (produced call.malloc bondAddr state call.param).2.2.seq = state.seq + 1 :=
        seq_produced call.malloc state call.param
      rw [framesOf, dataProduceFuncSend_eq, List.mapIdx_cons]
      dsimp only
      rw [ih, hseq]
      congr 1
      · rw [produced, Call.size]
        cases call.malloc ((encodeFields (call.param.fields bondAddr)).length + fixHeadLen) with
        | none => rfl
        | some data => rfl
      · congr 1
        funext i other
        have hnext :
            state.seq + 1 + UInt16.ofNat (i + 1) = state.seq + UInt16.ofNat (i + 1 + 1) := by
          rw [UInt16.add_assoc, UInt16.add_comm 1, UInt16.ofNat_add (i + 1) 1]
          rfl
        rw [hnext]

theorem sent_some (buf : List UInt8) :
    sent (some buf) = buf ++ List.replicate (padding buf.length) 0 := by
  rw [sent, Option.toList_some, List.flatMap_singleton]
  exact (flatten_wechatSendData buf).1

theorem nLength_append {buf : List UInt8} (hheader : fixHeadLen ≤ buf.length)
    (more : List UInt8) : nLength (packetBuffer (buf ++ more)) = nLength (packetBuffer buf) := by
  have hbyte : ∀ i < 8, packetBuffer (buf ++ more) i = packetBuffer buf i := fun i hi =>
    List.getD_append _ _ _ _ (Nat.lt_of_lt_of_le hi hheader)
  rw [nLength, nLength, hbyte 2 (by decide), hbyte 3 (by decide)]

theorem cutFrames_sent {buf : List UInt8} (hlength : nLength (packetBuffer buf) = buf.length)
    (hheader : fixHeadLen ≤ buf.length) (rest : List UInt8) :
    cutFrames (sent (some buf) ++ rest) = buf :: cutFrames rest := by
  have hpos : 0 < buf.length := Nat.lt_of_lt_of_le (by decide) hheader
  have hsent : sent (some buf) ++ rest =
      buf ++ (List.replicate (padding buf.length) 0 ++ rest) := by
    rw [sent_some, List.append_assoc]
  have hdrop : (sent (some buf) ++ rest).drop (buf.length + padding buf.length) = rest := by
    have hsize : (sent (some buf)).length = buf.length + padding buf.length := by
      rw [sent_some, List.length_append, List.length_replicate]
    rw [← hsize, List.drop_left]
  rw [cutFrames]
  rw [hsent] at hdrop ⊢
  rw [nLength_append hheader, hlength, hdrop, List.take_left,
    if_pos ⟨hpos, by rw [List.length_append]; omega⟩]

theorem cutFrames_flatMap {frames : List (Option (List UInt8))}
    (hframes : ∀ data ∈ frames, ∀ buf ∈ data,
      nLength (packetBuffer buf) = buf.length ∧ fixHeadLen ≤ buf.length) :
    cutFrames (frames.flatMap sent) = frames.filterMap id := by
  induction frames with
  | nil =>
      rw [List.flatMap_nil, cutFrames, if_neg fun h => absurd h.1 (by decide)]
      rfl
  | cons data rest ih =>
      have hrest := ih fun other hother => hframes other (List.mem_cons_of_mem _ hother)
      cases data with
      | none => exact hrest
      | some buf =>
          obtain ⟨hlength, hheader⟩ := hframes (some buf) List.mem_cons_self buf rfl
          rw [List.flatMap_cons, cutFrames_sent hlength hheader, hrest]
          rfl

theorem nLength_frame {param : CmdParameter} {seq : UInt16}
    (hsmall : (frame bondAddr param seq).length < 2 ^ 16) :
    nLength (packetBuffer (frame bondAddr param seq)) = (frame bondAddr param seq).length := by
  rw [length_frame] at hsmall ⊢
  rw [frame, (header_fixHead _ _ _ _).1, UInt16.toNat_ofNat', Nat.mod_eq_of_lt hsmall]

end Run

/-- The frames of a run of commands: each one is made if there is memory for it, its header has
its length, its command and the number of the call, and its body reads back. They are sent in
indications of 20 bytes, from which they can be cut by their lengths. -/
theorem frames_of_calls (uninit : UInt32) (bondAddr : Bytes) (state : SendState)
    (calls : List Call) (hsmall : ∀ call ∈ calls, call.size bondAddr < 2 ^ 16) :
    let frames := framesOf bondAddr state calls
    (∀ i (call : Call), calls[i]? = some call →
      frames[i]? = some ((call.malloc (call.size bondAddr)).map fun _ =>
        frame bondAddr call.param (state.seq + UInt16.ofNat (i + 1)))) ∧
    (∀ i (call : Call), calls[i]? = some call → ∀ buf, frames[i]? = some (some buf) →
      nLength (packetBuffer buf) = buf.length ∧
      nCmdId (packetBuffer buf) = call.param.nCmdId.toNat ∧
      nSeq (packetBuffer buf) = (state.seq.toNat + (i + 1)) % 2 ^ 16 ∧
      call.param.ReadBy uninit bondAddr (bodyOf buf) ∧
      ∀ indication ∈ wechatSendData buf, indication.length = wechatMaxPkt) ∧
    cutFrames (frames.flatMap sent) = frames.filterMap id := by
  intro frames
  have hall : ∀ i (call : Call), calls[i]? = some call →
      frames[i]? = some ((call.malloc (call.size bondAddr)).map fun _ =>
        frame bondAddr call.param (state.seq + UInt16.ofNat (i + 1))) := by
    intro i call hcall
    show (framesOf bondAddr state calls)[i]? = _
    rw [framesOf_eq, List.getElem?_mapIdx, hcall]
    rfl
  have hmade : ∀ i (call : Call), calls[i]? = some call → ∀ buf, frames[i]? = some (some buf) →
      buf = frame bondAddr call.param (state.seq + UInt16.ofNat (i + 1)) ∧
        buf.length < 2 ^ 16 := by
    intro i call hcall buf hbuf
    rw [hall i call hcall, Option.some.injEq, Option.map_eq_some_iff] at hbuf
    obtain ⟨-, -, rfl⟩ := hbuf
    refine ⟨rfl, ?_⟩
    rw [length_frame]
    exact hsmall call (List.mem_of_getElem? hcall)
  refine ⟨hall, ?_, ?_⟩
  · intro i call hcall buf hbuf
    obtain ⟨rfl, hlt⟩ := hmade i call hcall buf hbuf
    refine ⟨nLength_frame hlt, (header_fixHead _ _ _ _).2.1, ?_,
      CmdParameter.readBy_of_encodes uninit (encodes_frame bondAddr _ _),
      (flatten_wechatSendData _).2⟩
    rw [frame, (header_fixHead _ _ _ _).2.2, UInt16.toNat_add, UInt16.toNat_ofNat', Nat.add_mod_mod]
  · apply cutFrames_flatMap
    intro data hdata buf hbuf
    obtain ⟨i, hi⟩ := List.getElem?_of_mem hdata
    obtain rfl : data = some buf := hbuf
    have hlt : i < calls.length := by
      have hbound : i < (framesOf bondAddr state calls).length :=
        (List.getElem?_eq_some_iff.mp hi).1
      rwa [framesOf_eq, List.length_mapIdx] at hbound
    obtain ⟨rfl, hshort⟩ := hmade i calls[i] (List.getElem?_eq_getElem hlt) buf hi
    refine ⟨nLength_frame hshort, ?_⟩
    rw [length_frame]
    exact Nat.le_add_left _ _

theorem frames_of_handshake :
    let address : Bytes := ⟨[1, 2, 3, 4, 5, 6], by decide⟩
    let call : CmdParameter → Call := fun param => ⟨param, fun _ => some fun _ => 0, fun _ => 0⟩
    let calls := [call .auth, call .init, call (.sendDat ⟨[0x11, 0x22, 0x33, 0x44], by decide⟩)]
    cutFrames ((framesOf address ⟨0, 0⟩ calls).flatMap sent) =
      (framesOf address ⟨0, 0⟩ calls).filterMap id := by
  intro address call calls
  have hword : ∀ value : Int32, (varint value.toUInt32.toNat).length ≤ 5 := fun value =>
    length_varint_le (by decide) (Nat.lt_trans value.toUInt32.toNat_lt (by decide))
  have hsmall : ∀ call ∈ calls, call.size address < 2 ^ 16 := by
    intro other hother
    simp only [calls, List.mem_cons, List.not_mem_nil, or_false] at hother
    rcases hother with rfl | rfl | rfl
    · have hversion := hword 65540
      have hproto := hword 1
      have hmethod := hword 2
      simp [call, Call.size, CmdParameter.fields, authReq, AuthRequest.fields, optionalField,
        numberField, varint_of_lt, deviceId,
        address, protoVersion, authProto, authMethod, fixHeadLen]
      omega
    · simp [call, Call.size, CmdParameter.fields, initReq, InitRequest.fields, optionalField,
        varint_of_lt, challeange, fixHeadLen]
    · have htype := hword 10001
      simp [call, Call.size, CmdParameter.fields, sendDatReq, SendDataRequest.fields,
        numberField, varint_of_lt, wxDeviceHtmlChatView,
        fixHeadLen]
      omega
  exact (frames_of_calls 0 address ⟨0, 0⟩ calls hsmall).2.2

end CubieBle.AirSync
