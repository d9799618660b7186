import CubieBle.Gatt.CgmsSocp
import CubieBle.Gatt.RacpLaws

/-! # The decoders of the control points

Three write handlers pass a request to a decoder that copies its operand without a bound. One
compares the length with the size of a structure that has a field more than a request, the
others do not look at it.
-/

namespace CubieBle.Gatt

/-- `struct cgms_racp` has the fields of `struct gls_racp`. -/
abbrev CgmsRacp := GlsRacp

/-- `cgms_racp_decode` is `gls_racp_decode` with a length of any size cut to eight bits. -/
def cgmsRacpDecode (data : List UInt8) (racp : CgmsRacp) : Option CgmsRacp :=
  glsRacpDecode (byteLen data) racp

def cgmsRacpEncode (racp : CgmsRacp) : List UInt8 := glsRacpEncode racp

/-- A request of so many fixed bytes and an operand array of this size was decoded to what was
received, and would be sent as it was received. -/
structure DecodedWithin (data : List UInt8) (fixed size : Nat) (operandLen : UInt8)
    (encoded : List UInt8) : Prop where
  bound : operandLen.toNat ≤ size
  operandLen : operandLen.toNat = data.length - fixed
  encoded : fixed ≤ data.length → encoded = data

/-- `gls_racp_write` decodes the request within bounds, if it passes it on. -/
def GlsRacpWithin (gls : Gls) (data : List UInt8) (offset : UInt16) : Prop :=
  Decoded gls data offset →
    ∃ racp, glsRacpDecode data gls.glsRacpRequest = some racp ∧
      DecodedWithin data 2 6 racp.operandLen (glsRacpEncode racp)

/-- `cgms_racp_write` passes every request on when indications are on. -/
def CgmsRacpWithin (racpCcc : Bool) (request : CgmsRacp) (data : List UInt8) : Prop :=
  racpCcc = true →
    ∃ racp, cgmsRacpDecode data request = some racp ∧
      DecodedWithin data 2 6 racp.operandLen (cgmsRacpEncode racp)

/-- `cgms_cgm_spec_ops_ctrl_point_write` passes every request on; it is encoded without the
checksum. -/
def CgmsSocpWithin (request : CgmSocp) (data : List UInt8) : Prop :=
  ∃ socpVal, cgmsSocpDecode (byteLen data) request = some socpVal ∧
    ∀ feature : CgmsCgmFeature, ¬feature.E2eCrc →
      DecodedWithin data 1 cgmSocpMaxOperandLen socpVal.operandLen
        (cgmsSocpEncode feature socpVal)

section Decode

variable {data : List UInt8}

theorem byteLen_of_short (hlen : data.length < 256) : byteLen data = data := by
  rw [byteLen, Nat.mod_eq_of_lt hlen, List.take_length]

/-- An operand that fits its array and is all that was received bounds the request. -/
theorem DecodedWithin.length_le {fixed size : Nat} {operandLen : UInt8} {encoded : List UInt8}
    (hwithin : DecodedWithin data fixed size operandLen encoded) :
    data.length ≤ size + fixed := by
  have hbound := hwithin.bound
  rw [hwithin.operandLen] at hbound
  omega

theorem operandLen_of_decode {racp decoded : GlsRacp}
    (hdecode : glsRacpDecode data racp = some decoded) :
    decoded.operandLen.toNat = data.length - 2 := by
  unfold glsRacpDecode at hdecode
  split at hdecode
  next => cases hdecode
  next hlen =>
    cases hdecode
    dsimp only
    split
    next => rw [Nat.toUInt8_eq, UInt8.toNat_ofNat', Nat.mod_eq_of_lt (by omega)]
    next hshort => rw [Nat.sub_eq_zero_of_le (Nat.le_of_not_lt hshort), UInt8.toNat_zero]

theorem cons_cons_drop_two (hlen : 2 ≤ data.length) :
    data[0]?.getD 0xff :: data[1]?.getD 0xff :: data.drop 2 = data := by
  rcases data with _ | ⟨first, _ | ⟨second, rest⟩⟩
  · exact absurd hlen (by decide)
  · exact absurd hlen (Nat.not_succ_le_self 1)
  · rfl

theorem glsRacpDecode_within (racp : GlsRacp) (hlen : data.length ≤ 8) :
    ∃ decoded, glsRacpDecode data racp = some decoded ∧
      DecodedWithin data 2 6 decoded.operandLen (glsRacpEncode decoded) := by
  obtain ⟨decoded, hdecode⟩ : ∃ decoded, glsRacpDecode data racp = some decoded := by
    rw [glsRacpDecode, if_neg (Nat.not_lt.mpr hlen)]
    exact ⟨_, rfl⟩
  have hoperandLen := operandLen_of_decode hdecode
  refine ⟨decoded, hdecode, by omega, hoperandLen, fun hfixed => ?_⟩
  obtain ⟨hopcode, hoperator, hoperand⟩ := Request.mk.inj (request_of_decode hdecode)
  rw [glsRacpEncode, hoperand, hopcode, hoperator]
  exact cons_cons_drop_two hfixed

theorem cgmsSocpDecode_within (request : CgmSocp) (hlen : data.length ≤ 11) :
    CgmsSocpWithin request data := by
  have hbytes : byteLen data = data := byteLen_of_short (by omega)
  have hmod : data.length % 256 = data.length := Nat.mod_eq_of_lt (by omega)
  obtain ⟨socpVal, hdecode, hopcode, hoperandLen⟩ :=
    decode_of_short data request (by rw [hmod]; exact hlen)
  rw [hmod] at hoperandLen
  have hoperand : socpVal.operand =
      Vector.ofFn fun i : Fin 10 => data[i.val + 1]?.getD request.operand[i] := by
    have hfits : ¬cgmSocpMaxOperandLen + 1 < data.length := Nat.not_lt.mpr hlen
    rw [hbytes, cgmsSocpDecode, if_neg hfits] at hdecode
    rw [← Option.some.inj hdecode]
  rw [hbytes] at hopcode
  refine ⟨socpVal, hdecode, fun feature hfeature => ⟨?_, hoperandLen, fun hfixed => ?_⟩⟩
  · rw [hoperandLen, cgmSocpMaxOperandLen]
    omega
  · rw [cgmsSocpEncode, if_neg hfeature, List.append_nil, CgmSocp.body, hopcode, hoperandLen,
      hoperand, take_ofFn_received data 1 request.operand hlen]
    rcases data with _ | ⟨first, rest⟩
    · exact absurd hfixed (by decide)
    · rfl

end Decode

/-- The requests are decoded within bounds exactly up to the size of the operand array. -/
theorem control_points_within_iff (gls : Gls) (racpCcc : Bool) (request : CgmsRacp)
    (socpRequest : CgmSocp) (data : List UInt8) (offset : UInt16) :
    (GlsRacpWithin gls data offset ↔ (Decoded gls data offset → data.length ≤ 8)) ∧
      (CgmsRacpWithin racpCcc request data ↔ (racpCcc = true → data.length ≤ 8)) ∧
      (CgmsSocpWithin socpRequest data ↔ data.length ≤ 11) := by
  refine ⟨⟨?_, ?_⟩, ⟨?_, ?_⟩, ⟨?_, ?_⟩⟩
  · intro hwithin hdecoded
    obtain ⟨racp, -, hwithin⟩ := hwithin hdecoded
    exact hwithin.length_le
  · intro hlen hdecoded
    exact glsRacpDecode_within gls.glsRacpRequest (hlen hdecoded)
  · intro hwithin hccc
    obtain ⟨racp, -, hwithin⟩ := hwithin hccc
    exact hwithin.length_le
  · intro hlen hccc
    rw [cgmsRacpDecode, byteLen_of_short (Nat.lt_of_le_of_lt (hlen hccc) (by decide))]
    exact glsRacpDecode_within request (hlen hccc)
  · rintro ⟨socpVal, -, hwithin⟩
    exact (hwithin ⟨0, 0, 0⟩ (by decide)).length_le
  · intro hlen
    exact cgmsSocpDecode_within socpRequest hlen

/-- Nine bytes pass the check of the glucose service, and its decoder copies seven of them into
the operand of six. -/
theorem nine_bytes_not_within :
    ¬GlsRacpWithin (glsInit true sampleGlsDatabase) (List.replicate 9 1) 0 := by
  intro hwithin
  obtain ⟨racp, hdecode, -⟩ := hwithin ⟨rfl, by decide⟩
  cases hdecode

end CubieBle.Gatt
