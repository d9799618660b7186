import CubieBle.Gatt.CgmsReads

/-! # The specific ops control point

A request is decoded, executed and answered through one global response, which the branches of
the write handler fill by hand and a delayed work item sends. An operation is `none` when it
accesses memory outside its array.
-/

namespace CubieBle.Gatt

def socpOpcodeSetCgmCommunicationInterval : UInt8 := 1
def socpOpcodeGetCgmCommunicationInterval : UInt8 := 2
def socpOpcodeCgmCommunicationIntervalResponse : UInt8 := 3
def socpOpcodeStartTheSession : UInt8 := 26
def socpOpcodeResponseCode : UInt8 := 28

def socpResponseSuccess : UInt8 := 1
def socpResponseOpcodeUnsupported : UInt8 := 2
def socpResponseInvalidOperand : UInt8 := 3

/-- `CGM_SOCP_MAX_OPERAND_LEN` -/
def cgmSocpMaxOperandLen : Nat := 10

structure CgmSocp where
  opcode : UInt8
  operand : Vector UInt8 10
  operandLen : UInt8
  e2eCrc : UInt16
deriving DecidableEq

/-- What a decoder sees of a write when it is given the length in eight bits. -/
def byteLen (data : List UInt8) : List UInt8 := data.take (data.length % 256)

/-- Operand bytes that were not received keep their old values; an operand of more than ten
bytes is copied past the end of the array. -/
def cgmsSocpDecode (data : List UInt8) (socpVal : CgmSocp) : Option CgmSocp :=
  if cgmSocpMaxOperandLen + 1 < data.length then none
  else
    some
      { socpVal with
        opcode := data[0]?.getD 0xff
        operandLen := if 1 < data.length then (data.length - 1).toUInt8 else 0
        operand := Vector.ofFn fun i => data[i.val + 1]?.getD socpVal.operand[i] }

/-- The bytes of a value before its checksum. -/
def CgmSocp.body (socpVal : CgmSocp) : List UInt8 :=
  socpVal.opcode :: socpVal.operand.toList.take socpVal.operandLen.toNat

def cgmsSocpEncode (feature : CgmsCgmFeature) (socpVal : CgmSocp) : List UInt8 :=
  socpVal.body ++ if feature.E2eCrc then u16Encode socpVal.e2eCrc else []

/-- The service with the static variables of the control point, and the values it has sent. -/
structure SpecOps where
  cgms : Cgms
  socpResponse : CgmSocp
  socpIndicating : Bool
  startSession : Bool
  workPending : Bool
  indications : List (List UInt8)

/-- The `switch` of the write handler. -/
def socpRequestExecute (specOps : SpecOps) (request : CgmSocp) (data : List UInt8) : SpecOps :=
  let response := specOps.socpResponse
  if request.opcode = socpOpcodeSetCgmCommunicationInterval then
    let operand := (response.operand.set 0 socpOpcodeSetCgmCommunicationInterval).set 1
      socpResponseSuccess
    if request.operandLen = 1 then
      { specOps with
        cgms := { specOps.cgms with communicationInterval := data[1]?.getD 0 }
        socpResponse :=
          { response with opcode := socpOpcodeResponseCode, operand, operandLen := 2 } }
    else
      { specOps with
        socpResponse :=
          { response with
            opcode := socpOpcodeResponseCode
            -- the code takes the place of the opcode
            operand := operand.set 0 socpResponseInvalidOperand
            operandLen := 1 } }
  else if request.opcode = socpOpcodeGetCgmCommunicationInterval then
    { specOps with
      socpResponse :=
        { response with
          opcode := socpOpcodeCgmCommunicationIntervalResponse
          operand := response.operand.set 0
            (if request.operandLen = 0 then specOps.cgms.communicationInterval
              else socpResponseInvalidOperand)
          operandLen := 1 } }
  else if request.opcode = socpOpcodeStartTheSession then
    let response := { response with opcode := socpOpcodeStartTheSession, operandLen := 1 }
    if request.operandLen = 0 then
      { specOps with
        cgms := cgmsSetSessionStartTime specOps.cgms
        startSession := true
        socpResponse := { response with operand := response.operand.set 0 socpResponseSuccess } }
    else
      { specOps with
        socpResponse :=
          { response with operand := response.operand.set 0 socpResponseInvalidOperand } }
  else
    { specOps with
      socpResponse :=
        { response with
          opcode := socpOpcodeResponseCode
          operand := response.operand.set 0 socpResponseOpcodeUnsupported
          operandLen := 1 } }

/-- The response, with its checksum if the feature is on. -/
def SpecOps.responseWithCrc (specOps : SpecOps) : CgmSocp :=
  if specOps.cgms.cgmFeature.E2eCrc then
    { specOps.socpResponse with e2eCrc := crc16Ccitt specOps.socpResponse.body }
  else specOps.socpResponse

/-- The write of the control point; `request` is the uninitialised local of the handler. -/
def cgmsCgmSpecOpsCtrlPointWrite (specOps : SpecOps) (data : List UInt8) (request : CgmSocp) :
    Option (Int × SpecOps) :=
  (cgmsSocpDecode (byteLen data) request).map fun request =>
    let specOps := socpRequestExecute specOps request data
    (data.length, { specOps with workPending := true, socpResponse := specOps.responseWithCrc })

/-- `bt_gatt_indicate` succeeds. -/
def socpSend (specOps : SpecOps) (socpVal : CgmSocp) : SpecOps :=
  if !specOps.socpIndicating then
    { specOps with
      indications := specOps.indications ++ [cgmsSocpEncode specOps.cgms.cgmFeature socpVal]
      socpIndicating := true }
  else specOps

def cgmsSocpHandle (specOps : SpecOps) : SpecOps :=
  socpSend { specOps with workPending := false } specOps.socpResponse

/-! ## Replies -/

/-- The operands of a value that was sent. -/
def socpOperands (feature : CgmsCgmFeature) (value : List UInt8) : List UInt8 :=
  (value.take (value.length - if feature.E2eCrc then 2 else 0)).drop 1

/-- A client can tell from the reply what became of its request. -/
structure Identifies (specOps next : SpecOps) (data sent : List UInt8) : Prop where
  fits : sent.length ≤ cgmSocpMaxOperandLen + 1
  responseCode : sent.head? = some socpOpcodeResponseCode →
    ∃ opcode code, data.head? = some opcode ∧
      socpOperands next.cgms.cgmFeature sent = [opcode, code]
  interval : sent.head? = some socpOpcodeCgmCommunicationIntervalResponse →
    data = [socpOpcodeGetCgmCommunicationInterval] ∧
      socpOperands next.cgms.cgmFeature sent = [specOps.cgms.communicationInterval]
  failed : (∀ opcode, socpOperands next.cgms.cgmFeature sent ≠ [opcode, socpResponseSuccess]) →
    next.cgms = specOps.cgms ∧ next.startSession = specOps.startSession
  start : data.head? = some socpOpcodeStartTheSession →
    sent.head? = some socpOpcodeResponseCode

/-- A write is followed by the work item, which sends the reply. -/
structure Replies (specOps : SpecOps) (data : List UInt8) (request : CgmSocp) (next : SpecOps)
    (sent : List UInt8) : Prop where
  result : (cgmsCgmSpecOpsCtrlPointWrite specOps data request).map
    (fun written => cgmsSocpHandle written.2) = some next
  indications : next.indications = specOps.indications ++ [sent]

/-- The request is replied to in a way that identifies it. -/
def RepliesIdentify (specOps : SpecOps) (data : List UInt8) (request : CgmSocp) : Prop :=
  ∃ next sent, Replies specOps data request next sent ∧ Identifies specOps next data sent

section Encode

variable {feature : CgmsCgmFeature}

theorem take_one_set (operand : Vector UInt8 10) (first : UInt8) :
    (operand.set 0 first).toList.take 1 = [first] := by
  apply List.ext_getElem
  · simp only [List.length_take, Vector.length_toList, List.length_singleton]
    decide
  · intro i hi hone
    have hzero : i = 0 := Nat.lt_one_iff.mp hone
    simp [hzero]

theorem take_two_set (operand : Vector UInt8 10) (first second : UInt8) :
    ((operand.set 0 first).set 1 second).toList.take 2 = [first, second] := by
  apply List.ext_getElem
  · simp only [List.length_take, Vector.length_toList, List.length_cons, List.length_nil]
    decide
  · intro i hi htwo
    have hcases : i = 0 ∨ i = 1 := Nat.le_one_iff_eq_zero_or_eq_one.mp (Nat.lt_succ_iff.mp htwo)
    rcases hcases with hzero | hone
    · simp [hzero]
    · simp [hone]

theorem socpOperands_encode (socpVal : CgmSocp) :
    socpOperands feature (cgmsSocpEncode feature socpVal) =
      socpVal.operand.toList.take socpVal.operandLen.toNat := by
  rw [socpOperands, cgmsSocpEncode]
  by_cases hcrc : feature.E2eCrc
  · rw [if_pos hcrc, if_pos hcrc, List.length_append]
    have hword : (u16Encode socpVal.e2eCrc).length = 2 := rfl
    rw [hword, Nat.add_sub_cancel, List.take_left]
    rfl
  · rw [if_neg hcrc, if_neg hcrc, List.append_nil, Nat.sub_zero, List.take_length]
    rfl

theorem head?_encode (socpVal : CgmSocp) :
    (cgmsSocpEncode feature socpVal).head? = some socpVal.opcode := rfl

theorem length_encode_le (socpVal : CgmSocp) (hlen : socpVal.operandLen.toNat ≤ 2) :
    (cgmsSocpEncode feature socpVal).length ≤ cgmSocpMaxOperandLen + 1 := by
  have hbody : socpVal.body.length ≤ 3 := by
    rw [CgmSocp.body, List.length_cons, List.length_take]
    omega
  have hcrc : (if feature.E2eCrc then u16Encode socpVal.e2eCrc else []).length ≤ 2 := by
    split
    next => exact Nat.le_refl 2
    next => exact Nat.zero_le 2
  rw [cgmsSocpEncode, List.length_append, cgmSocpMaxOperandLen]
  omega

end Encode

/-! ## The branches of the handler -/

/-- What a branch has put into the response. -/
structure Executed (specOps next : SpecOps) (opcode : UInt8) (operands : List UInt8) : Prop where
  opcode : next.socpResponse.opcode = opcode
  operands :
    next.socpResponse.operand.toList.take next.socpResponse.operandLen.toNat = operands
  operandLen : next.socpResponse.operandLen.toNat ≤ 2
  indications : next.indications = specOps.indications
  socpIndicating : next.socpIndicating = specOps.socpIndicating

section Branches

variable (specOps : SpecOps) {request : CgmSocp} (data : List UInt8)

theorem executed_set (hop : request.opcode = socpOpcodeSetCgmCommunicationInterval)
    (hlen : request.operandLen = 1) :
    Executed specOps (socpRequestExecute specOps request data) socpOpcodeResponseCode
      [socpOpcodeSetCgmCommunicationInterval, socpResponseSuccess] := by
  rw [socpRequestExecute, if_pos hop, if_pos hlen]
  exact ⟨rfl, take_two_set _ _ _, Nat.le_refl 2, rfl, rfl⟩

theorem executed_set_failed (hop : request.opcode = socpOpcodeSetCgmCommunicationInterval)
    (hlen : request.operandLen ≠ 1) :
    Executed specOps (socpRequestExecute specOps request data) socpOpcodeResponseCode
      [socpResponseInvalidOperand] := by
  rw [socpRequestExecute, if_pos hop, if_neg hlen]
  exact ⟨rfl, take_one_set _ _, Nat.le_succ 1, rfl, rfl⟩

theorem executed_get (hop : request.opcode = socpOpcodeGetCgmCommunicationInterval) :
    Executed specOps (socpRequestExecute specOps request data)
        socpOpcodeCgmCommunicationIntervalResponse
        [if request.operandLen = 0 then specOps.cgms.communicationInterval
          else socpResponseInvalidOperand] ∧
      (socpRequestExecute specOps request data).cgms = specOps.cgms ∧
      (socpRequestExecute specOps request data).startSession = specOps.startSession := by
  rw [socpRequestExecute, hop, if_neg (by decide), if_pos rfl]
  exact ⟨⟨rfl, take_one_set _ _, Nat.le_succ 1, rfl, rfl⟩, rfl, rfl⟩

theorem executed_start (hop : request.opcode = socpOpcodeStartTheSession) :
    ∃ code, Executed specOps (socpRequestExecute specOps request data)
      socpOpcodeStartTheSession [code] := by
  rw [socpRequestExecute, hop, if_neg (by decide), if_neg (by decide), if_pos rfl]
  by_cases hlen : request.operandLen = 0
  · rw [if_pos hlen]
    exact ⟨_, rfl, take_one_set _ _, Nat.le_succ 1, rfl, rfl⟩
  · rw [if_neg hlen]
    exact ⟨_, rfl, take_one_set _ _, Nat.le_succ 1, rfl, rfl⟩

theorem executed_default (hset : request.opcode ≠ socpOpcodeSetCgmCommunicationInterval)
    (hget : request.opcode ≠ socpOpcodeGetCgmCommunicationInterval)
    (hstart : request.opcode ≠ socpOpcodeStartTheSession) :
    Executed specOps (socpRequestExecute specOps request data) socpOpcodeResponseCode
      [socpResponseOpcodeUnsupported] := by
  rw [socpRequestExecute, if_neg hset, if_neg hget, if_neg hstart]
  exact ⟨rfl, take_one_set _ _, Nat.le_succ 1, rfl, rfl⟩

end Branches

/-! ## The reply -/

section Reply

variable {specOps : SpecOps} {data : List UInt8} {request decoded : CgmSocp}

theorem Replies.unique {first second : SpecOps} {sentFirst sentSecond : List UInt8}
    (hfirst : Replies specOps data request first sentFirst)
    (hsecond : Replies specOps data request second sentSecond) :
    first = second ∧ sentFirst = sentSecond := by
  have hnext : first = second := by
    have hresult := hfirst.result
    rw [hsecond.result] at hresult
    exact (Option.some.inj hresult).symm
  have hsent := hfirst.indications
  rw [hnext, hsecond.indications] at hsent
  exact ⟨hnext, (List.singleton_inj.mp (List.append_cancel_left hsent)).symm⟩

theorem responseWithCrc_fields (specOps : SpecOps) :
    specOps.responseWithCrc.opcode = specOps.socpResponse.opcode ∧
      specOps.responseWithCrc.operand = specOps.socpResponse.operand ∧
      specOps.responseWithCrc.operandLen = specOps.socpResponse.operandLen := by
  rw [SpecOps.responseWithCrc]
  split
  next => exact ⟨rfl, rfl, rfl⟩
  next => exact ⟨rfl, rfl, rfl⟩

/-- What was put into the response is what is sent. -/
theorem replies_of_executed (hfree : specOps.socpIndicating = false)
    (hdecode : cgmsSocpDecode (byteLen data) request = some decoded) {opcode : UInt8}
    {operands : List UInt8}
    (hexecuted : Executed specOps (socpRequestExecute specOps decoded data) opcode operands) :
    ∃ next sent, Replies specOps data request next sent ∧
      next.cgms = (socpRequestExecute specOps decoded data).cgms ∧
      next.startSession = (socpRequestExecute specOps decoded data).startSession ∧
      sent.length ≤ cgmSocpMaxOperandLen + 1 ∧ sent.head? = some opcode ∧
      socpOperands next.cgms.cgmFeature sent = operands := by
  obtain ⟨hopcode, hoperands, hlen, hindications, hindicating⟩ := hexecuted
  rw [hfree] at hindicating
  obtain ⟨hsameOpcode, hsameOperand, hsameLen⟩ :=
    responseWithCrc_fields (socpRequestExecute specOps decoded data)
  have hresult : (cgmsCgmSpecOpsCtrlPointWrite specOps data request).map
      (fun written => cgmsSocpHandle written.2) =
        some
          { socpRequestExecute specOps decoded data with
            workPending := false
            socpResponse := (socpRequestExecute specOps decoded data).responseWithCrc
            socpIndicating := true
            indications := specOps.indications ++
              [cgmsSocpEncode (socpRequestExecute specOps decoded data).cgms.cgmFeature
                (socpRequestExecute specOps decoded data).responseWithCrc] } := by
    rw [cgmsCgmSpecOpsCtrlPointWrite, hdecode, Option.map_some, Option.map_some, cgmsSocpHandle,
      socpSend]
    simp only [hindicating, Bool.not_false, if_true, hindications]
  refine ⟨_, _, ⟨hresult, rfl⟩, rfl, rfl, ?_, ?_, ?_⟩
  · exact length_encode_le _ (by rw [hsameLen]; exact hlen)
  · rw [head?_encode, hsameOpcode, hopcode]
  · rw [socpOperands_encode, hsameOperand, hsameLen, hoperands]

/-! ## Requests -/

theorem length_byteLen : (byteLen data).length = data.length % 256 := by
  rw [byteLen, List.length_take, Nat.min_eq_left (Nat.mod_le _ _)]

theorem decode_of_short (data : List UInt8) (request : CgmSocp)
    (hlen : data.length % 256 ≤ cgmSocpMaxOperandLen + 1) :
    ∃ decoded, cgmsSocpDecode (byteLen data) request = some decoded ∧
      decoded.opcode = (byteLen data)[0]?.getD 0xff ∧
      decoded.operandLen.toNat = data.length % 256 - 1 := by
  rw [← length_byteLen] at hlen ⊢
  rw [cgmsSocpDecode, if_neg (Nat.not_lt.mpr hlen)]
  refine ⟨_, rfl, rfl, ?_⟩
  dsimp only
  split
  next =>
    rw [Nat.toUInt8_eq, UInt8.toNat_ofNat', Nat.mod_eq_of_lt]
    rw [cgmSocpMaxOperandLen] at hlen
    omega
  next hone => rw [Nat.sub_eq_zero_of_le (Nat.le_of_not_lt hone), UInt8.toNat_zero]

theorem byteLen_zero (hpos : 0 < data.length % 256) : (byteLen data)[0]? = data.head? := by
  rw [byteLen, List.getElem?_take_of_lt hpos, List.head?_eq_getElem?]

/-- A defined opcode is the first byte of the request. -/
theorem head?_of_opcode {opcode : UInt8} (hop : (byteLen data)[0]?.getD 0xff = opcode)
    (hdefined : opcode ≠ 0xff) : data.head? = some opcode := by
  by_cases hpos : 0 < data.length % 256
  · rw [byteLen_zero hpos] at hop
    cases hhead : data.head? with
    | none =>
        rw [hhead] at hop
        exact absurd hop.symm hdefined
    | some first =>
        rw [hhead] at hop
        exact congrArg some hop
  · have hempty : byteLen data = [] := by
      rw [← List.length_eq_zero_iff, length_byteLen]
      exact Nat.eq_zero_of_not_pos hpos
    rw [hempty] at hop
    exact absurd hop.symm hdefined

/-- The reply that identifies a request is the one that its branch has prepared. -/
theorem RepliesIdentify.reply (hidentify : RepliesIdentify specOps data request)
    (hfree : specOps.socpIndicating = false)
    (hdecode : cgmsSocpDecode (byteLen data) request = some decoded) {opcode : UInt8}
    {operands : List UInt8}
    (hexecuted : Executed specOps (socpRequestExecute specOps decoded data) opcode operands) :
    ∃ next sent, Identifies specOps next data sent ∧ sent.head? = some opcode ∧
      socpOperands next.cgms.cgmFeature sent = operands := by
  obtain ⟨next, sent, hreplies, hidentifies⟩ := hidentify
  obtain ⟨next', sent', hreplies', -, -, -, hhead, hoperands⟩ :=
    replies_of_executed hfree hdecode hexecuted
  obtain ⟨rfl, rfl⟩ := hreplies.unique hreplies'
  exact ⟨next, sent, hidentifies, hhead, hoperands⟩

/-- A request that is too long for the decoder is not replied to. -/
theorem RepliesIdentify.length_le (hidentify : RepliesIdentify specOps data request) :
    data.length % 256 ≤ cgmSocpMaxOperandLen + 1 := by
  obtain ⟨next, sent, hreplies, -⟩ := hidentify
  by_contra hlen
  have hresult := hreplies.result
  rw [cgmsCgmSpecOpsCtrlPointWrite, cgmsSocpDecode, length_byteLen,
    if_pos (Nat.lt_of_not_le hlen)] at hresult
  cases hresult

/-- A response code without the opcode of the request identifies nothing. -/
theorem not_identify_of_single (hfree : specOps.socpIndicating = false)
    (hdecode : cgmsSocpDecode (byteLen data) request = some decoded) {code : UInt8}
    (hexecuted : Executed specOps (socpRequestExecute specOps decoded data)
      socpOpcodeResponseCode [code]) : ¬RepliesIdentify specOps data request := by
  intro hidentify
  obtain ⟨next, sent, hidentifies, hhead, hoperands⟩ := hidentify.reply hfree hdecode hexecuted
  obtain ⟨opcode, other, -, htwo⟩ := hidentifies.responseCode hhead
  rw [hoperands] at htwo
  cases htwo

theorem identifies_of_set (hfree : specOps.socpIndicating = false)
    (hhead : data.head? = some socpOpcodeSetCgmCommunicationInterval)
    (hlen : data.length % 256 = 2) : RepliesIdentify specOps data request := by
  obtain ⟨decoded, hdecode, hop, hoperandLen⟩ :=
    decode_of_short data request (by rw [hlen]; decide)
  rw [byteLen_zero (by rw [hlen]; decide), hhead] at hop
  have hone : decoded.operandLen = 1 := by
    rw [← UInt8.toNat_inj, hoperandLen, hlen]
    rfl
  obtain ⟨next, sent, hreplies, -, -, hfits, hcode, hoperands⟩ :=
    replies_of_executed hfree hdecode (executed_set specOps data hop hone)
  refine ⟨next, sent, hreplies, ?_⟩
  constructor
  case fits => exact hfits
  case responseCode => exact fun _ => ⟨_, _, hhead, hoperands⟩
  case interval =>
    intro hinterval
    rw [hcode] at hinterval
    exact absurd hinterval (by decide)
  case failed => exact fun hfailed => absurd hoperands (hfailed _)
  case start =>
    intro hstart
    rw [hhead] at hstart
    exact absurd hstart (by decide)

theorem identifies_of_get (hfree : specOps.socpIndicating = false)
    (hdata : data = [socpOpcodeGetCgmCommunicationInterval]) :
    RepliesIdentify specOps data request := by
  obtain ⟨decoded, hdecode, hop, hoperandLen⟩ :=
    decode_of_short data request (by rw [hdata]; decide)
  rw [hdata] at hop hoperandLen
  have hnone : decoded.operandLen = 0 := UInt8.toNat_inj.mp hoperandLen
  obtain ⟨hexecuted, hcgms, hsession⟩ := executed_get specOps data hop
  rw [if_pos hnone] at hexecuted
  obtain ⟨next, sent, hreplies, hcgms', hsession', hfits, hcode, hoperands⟩ :=
    replies_of_executed hfree hdecode hexecuted
  refine ⟨next, sent, hreplies, ?_⟩
  constructor
  case fits => exact hfits
  case responseCode =>
    intro hresponse
    rw [hcode] at hresponse
    exact absurd hresponse (by decide)
  case interval => exact fun _ => ⟨hdata, hoperands⟩
  case failed => exact fun _ => ⟨hcgms'.trans hcgms, hsession'.trans hsession⟩
  case start =>
    intro hstart
    rw [hdata] at hstart
    exact absurd hstart (by decide)

/-- The reply identifies its request exactly if that sets the interval with one operand byte, or
asks for the interval without an operand. -/
theorem socp_replies_identify_iff (specOps : SpecOps) (hfree : specOps.socpIndicating = false)
    (data : List UInt8) (request : CgmSocp) :
    RepliesIdentify specOps data request ↔
      data.head? = some socpOpcodeSetCgmCommunicationInterval ∧ data.length % 256 = 2 ∨
        data = [socpOpcodeGetCgmCommunicationInterval] := by
  constructor
  · intro hidentify
    obtain ⟨decoded, hdecode, hop, hoperandLen⟩ :=
      decode_of_short data request hidentify.length_le
    have hsingle : ∀ code, ¬Executed specOps (socpRequestExecute specOps decoded data)
        socpOpcodeResponseCode [code] :=
      fun code hexecuted => not_identify_of_single hfree hdecode hexecuted hidentify
    by_cases hset : decoded.opcode = socpOpcodeSetCgmCommunicationInterval
    · left
      have hone : decoded.operandLen = 1 := by
        by_contra hlen
        exact hsingle _ (executed_set_failed specOps data hset hlen)
      rw [hone] at hoperandLen
      refine ⟨head?_of_opcode (hop.symm.trans hset) (by decide), ?_⟩
      exact Nat.pred_eq_succ_iff.mp hoperandLen.symm
    by_cases hget : decoded.opcode = socpOpcodeGetCgmCommunicationInterval
    · right
      obtain ⟨next, sent, hidentifies, hcode, -⟩ :=
        hidentify.reply hfree hdecode (executed_get specOps data hget).1
      exact (hidentifies.interval hcode).1
    exfalso
    by_cases hstart : decoded.opcode = socpOpcodeStartTheSession
    · obtain ⟨code, hexecuted⟩ := executed_start specOps data hstart
      obtain ⟨next, sent, hidentifies, hcode, -⟩ := hidentify.reply hfree hdecode hexecuted
      have hresponse := hidentifies.start (head?_of_opcode (hop.symm.trans hstart) (by decide))
      rw [hcode] at hresponse
      exact absurd hresponse (by decide)
    · exact hsingle _ (executed_default specOps data hset hget hstart)
  · rintro (⟨hhead, hlen⟩ | hdata)
    · exact identifies_of_set hfree hhead hlen
    · exact identifies_of_get hfree hdata

end Reply

/-- The static memory of the control point at start. -/
def specOpsStart : SpecOps where
  cgms := cgmsStart
  socpResponse := ⟨0, Vector.replicate 10 0, 0, 0⟩
  socpIndicating := false
  startSession := false
  workPending := false
  indications := []

theorem socp_replies_identify_iff_five_minutes :
    RepliesIdentify specOpsStart [socpOpcodeSetCgmCommunicationInterval, 5]
        specOpsStart.socpResponse ↔
      some socpOpcodeSetCgmCommunicationInterval = some socpOpcodeSetCgmCommunicationInterval ∧
          2 % 256 = 2 ∨
        [socpOpcodeSetCgmCommunicationInterval, 5] = [socpOpcodeGetCgmCommunicationInterval] :=
  socp_replies_identify_iff specOpsStart rfl [socpOpcodeSetCgmCommunicationInterval, 5]
    specOpsStart.socpResponse

/-- An interval without its operand is answered with a code where the opcode belongs. -/
theorem set_without_operand_unidentified :
    ¬RepliesIdentify specOpsStart [socpOpcodeSetCgmCommunicationInterval]
      specOpsStart.socpResponse := by
  obtain ⟨decoded, hdecode, hop, hoperandLen⟩ :=
    decode_of_short [socpOpcodeSetCgmCommunicationInterval] specOpsStart.socpResponse (by decide)
  have hnone : decoded.operandLen ≠ 1 := by
    intro hone
    rw [hone] at hoperandLen
    exact absurd hoperandLen (by decide)
  exact not_identify_of_single rfl hdecode (executed_set_failed specOpsStart _ hop hnone)

end CubieBle.Gatt
