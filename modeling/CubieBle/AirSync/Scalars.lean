import CubieBle.AirSync.Requests
import CubieBle.Machine.ZigZag

/-! # Setters and getters

Any sequence of setters gives a message in which each getter finds the value that was set first
under its tag. The size that is computed for a signed number is not always the one that it takes.
-/

namespace CubieBle.AirSync.Epb

open Machine

/-- What a setter is called with. -/
inductive SetValue
  | uint32 (value : UInt32)
  | int32 (value : Int32)
  | sint32 (value : Int32)
  | bool (value : Bool)
  | enum (value : Int32)
  | bytes (value : Bytes)
  | fixed32 (value : UInt32)
  | sfixed32 (value : Int32)

namespace SetValue

def wire : SetValue → WireValue
  | uint32 value => .varint value.toNat
  | int32 value => .varint value.toUInt32.toNat
  | sint32 value => .varint (zigzag value.toInt)
  | bool value => .varint value.toNat
  | enum value => .varint value.toUInt32.toNat
  | bytes value => .delimited value.data
  | fixed32 value => .fixed32 value
  | sfixed32 value => .fixed32 value.toUInt32

variable (tag : UInt16)

def set : SetValue → Writer → Int × Writer
  | uint32 value => fun e => epbSetUint32 e tag value
  | int32 value => fun e => epbSetInt32 e tag value
  | sint32 value => fun e => epbSetSint32 e tag value
  | bool value => fun e => epbSetBool e tag value
  | enum value => fun e => epbSetEnum e tag value
  | bytes value => fun e => epbSetBytes e tag value.data
  | fixed32 value => fun e => epbSetFixed32 e tag value
  | sfixed32 value => fun e => epbSetSfixed32 e tag value

def packSize : SetValue → Nat
  | uint32 value => epbVarint32PackSize tag value false
  | int32 value => epbVarint32PackSize tag value.toUInt32 false
  | sint32 value => epbVarint32PackSize tag value.toUInt32 true
  | bool value => epbVarint32PackSize tag (if value then 1 else 0) false
  | enum value => epbVarint32PackSize tag value.toUInt32 false
  | bytes value => epbLengthDelimitedPackSize tag value.data.length
  | fixed32 _ => epbFixed32PackSize tag
  | sfixed32 _ => epbFixed32PackSize tag

/-- The getter of its type gives the value. -/
def ReadBy (uninit : UInt32) (e : Reader) : SetValue → Prop
  | uint32 value => epbGetUint32 e tag = value
  | int32 value => epbGetInt32 e tag = value.toInt
  | sint32 value => epbGetSint32 e tag = value.toInt
  | bool value => epbGetBool e tag = value
  | enum value => epbGetEnum e tag = value.toInt
  | bytes value => getBytes uninit e tag = value.data
  | fixed32 value => epbGetFixed32 e tag = value
  | sfixed32 value => epbGetSfixed32 e tag = value.toInt

/-- The size is computed with the sign bit in place of the mask of signs. -/
def SizeExact : SetValue → Prop
  | sint32 value => 0 ≤ value.toInt ∨
      -(2 ^ 31 - 2 ^ 27) ≤ value.toInt ∧ value.toInt ≤ -(2 ^ 27 + 1)
  | _ => True

end SetValue

/-- A value and a key that says how it is written. -/
structure SetCall where
  key : Nat
  value : SetValue
  small : key < 2 ^ 14
  wireType : key % 8 = value.wire.wireType

namespace SetCall

def field (call : SetCall) : WireField := ⟨call.key, call.value.wire, call.wireType⟩

def set (call : SetCall) : Writer → Int × Writer := call.value.set (tagOf call.key)

def packSize (call : SetCall) : Nat := call.value.packSize (tagOf call.key)

theorem appends (call : SetCall) : Appends call.set call.field.encode := by
  obtain ⟨key, value, hkey, htype⟩ := call
  have hfield : (field ⟨key, value, hkey, htype⟩).key < 2 ^ 14 := hkey
  cases value with
  | uint32 value => exact appends_uint32 hfield rfl
  | int32 value => exact appends_uint32 hfield rfl
  | sint32 value => exact appends_uint32 hfield (congrArg _ (toNat_zigzag value).symm)
  | bool value => cases value <;> exact appends_uint32 hfield rfl
  | enum value => exact appends_uint32 hfield rfl
  | bytes value => exact appends_bytes hfield (Nat.lt_trans value.fits (by decide)) rfl
  | fixed32 value => exact appends_fixed32 hfield rfl
  | sfixed32 value => exact appends_fixed32 hfield rfl

theorem supported (call : SetCall) : Supported call.field where
  key := call.small
  length bytes hbytes := by
    obtain ⟨key, value, hkey, htype⟩ := call
    cases value with
    | bytes value =>
        obtain rfl : value.data = bytes := Option.some.inj hbytes
        exact value.fits
    | _ => cases hbytes

end SetCall

/-! ## Reading back -/

section Read

variable {e : Reader} {fields : List WireField} {key : Nat} (henc : Encodes e fields)
  (hkey : key < 2 ^ 14)

include henc hkey

theorem epbGetUint32_of_lookup {n : Nat} (hn : lookupField fields key = some (.varint n)) :
    epbGetUint32 e (tagOf key) = UInt32.ofNat n := by
  have htype : key % 8 = 0 := wireType_of_lookupField hn
  rw [epbGetUint32_of_encodes henc hkey htype, varintAt, hn]
  rfl

theorem epbGetFixed32_of_lookup {word : UInt32}
    (hword : lookupField fields key = some (.fixed32 word)) :
    epbGetFixed32 e (tagOf key) = word := by
  have htype : key % 8 = 5 := wireType_of_lookupField hword
  rw [epbGetFixed32_of_encodes henc hkey htype, fixed32At, hword]
  rfl

theorem readBy_of_lookup (uninit : UInt32) {value : SetValue}
    (hlookup : lookupField fields key = some value.wire) :
    value.ReadBy (tagOf key) uninit e := by
  cases value with
  | uint32 value =>
      have hread := epbGetUint32_of_lookup henc hkey hlookup
      rwa [UInt32.ofNat_toNat] at hread
  | int32 value =>
      have hread := epbGetUint32_of_lookup henc hkey hlookup
      rw [UInt32.ofNat_toNat] at hread
      show (epbGetUint32 e (tagOf key)).toInt32.toInt = value.toInt
      rw [hread]
      rfl
  | sint32 value =>
      have hread := epbGetUint32_of_lookup henc hkey hlookup
      show epbGetSint32 e (tagOf key) = value.toInt
      rw [epbGetSint32, hread, ← toNat_zigzag, UInt32.ofNat_toNat, toInt_unzigzag, toNat_zigzag,
        unzigzag_zigzag]
  | bool value =>
      have hread := epbGetUint32_of_lookup henc hkey hlookup
      show epbGetBool e (tagOf key) = value
      rw [epbGetBool, hread]
      cases value with
      | false => rfl
      | true => rfl
  | enum value =>
      have hread := epbGetUint32_of_lookup henc hkey hlookup
      rw [UInt32.ofNat_toNat] at hread
      show (epbGetUint32 e (tagOf key)).toInt32.toInt = value.toInt
      rw [hread]
      rfl
  | bytes value =>
      have htype : key % 8 = 2 := wireType_of_lookupField hlookup
      show getBytes uninit e (tagOf key) = value.data
      rw [getBytes, epbGetBytes_of_encodes henc hkey htype, bytesAt, hlookup]
      rfl
  | fixed32 value => exact epbGetFixed32_of_lookup henc hkey hlookup
  | sfixed32 value =>
      have hread := epbGetFixed32_of_lookup henc hkey hlookup
      show (epbGetFixed32 e (tagOf key)).toInt32.toInt = value.toInt
      rw [hread]
      rfl

end Read

theorem lookupField_calls (calls : List SetCall) (key : Nat) :
    lookupField (calls.map SetCall.field) key =
      (calls.find? fun call => call.key = key).map fun call => call.value.wire := by
  rw [lookupField, List.find?_map, Option.map_map]
  rfl

theorem appendsAll_calls (calls : List SetCall) :
    AppendsAll (calls.map SetCall.set) (calls.map SetCall.field) := by
  induction calls with
  | nil => exact .nil
  | cons call calls ih => exact .cons call.appends ih

/-- For every tag, the getters see the first call with it, or none. -/
def FirstsReadBy (uninit : UInt32) (calls : List SetCall) (e : Reader) : Prop :=
  ∀ key < 2 ^ 14,
    match calls.find? fun call => call.key = key with
    | none => epbHasTag e (tagOf key) = false
    | some call => epbHasTag e (tagOf key) = true ∧ call.value.ReadBy (tagOf key) uninit e

theorem firstsReadBy_of_encodes (uninit : UInt32) (calls : List SetCall) {e : Reader}
    (henc : Encodes e (calls.map SetCall.field)) : FirstsReadBy uninit calls e := by
  intro key hkey
  have hlookup := lookupField_calls calls key
  have htag := epbHasTag_of_encodes henc hkey
  cases hfind : calls.find? fun call => call.key = key with
  | none =>
      rw [hlookup, hfind] at htag
      exact htag
  | some call =>
      rw [hfind] at hlookup
      rw [hlookup] at htag
      exact ⟨htag, readBy_of_lookup henc hkey uninit hlookup⟩

/-! ## Sizes -/

theorem length_varint_word_le {n : Nat} (hn : n < 2 ^ 32) : (varint n).length ≤ 5 :=
  length_varint_le (by decide) (Nat.lt_trans hn (by decide))

theorem length_varint_eq_five_iff {n : Nat} (hn : n < 2 ^ 32) :
    (varint n).length = 5 ↔ 2 ^ 28 ≤ n := by
  have hle := length_varint_word_le hn
  have hmore := succ_lt_length_varint n 3
  constructor
  · intro hlength
    have hlast := hmore.mp (by omega)
    omega
  · intro hlarge
    have hfour := hmore.mpr (by omega)
    omega

/-- Numbers that add up to 2³² have as many groups only in the middle. -/
theorem length_varint_complement {n : Nat} (hpos : 0 < n) (hn : n < 2 ^ 32) :
    (varint (2 ^ 32 - n)).length = (varint n).length ↔ 2 ^ 28 ≤ n ∧ n ≤ 2 ^ 32 - 2 ^ 28 := by
  have hcomplement : 2 ^ 32 - n < 2 ^ 32 := by omega
  have hself := length_varint_eq_five_iff hn
  have hother := length_varint_eq_five_iff hcomplement
  have hle := length_varint_word_le hn
  constructor
  · intro hsame
    omega
  · rintro ⟨hlow, hhigh⟩
    rw [hself.mpr hlow, hother.mpr (by omega)]

theorem toInt_of_toNat (value : Int32) :
    value.toInt = if value.toUInt32.toNat < 2 ^ 31 then (value.toUInt32.toNat : Int)
      else value.toUInt32.toNat - 2 ^ 32 := by
  have hword : value.toUInt32.toNat = value.toBitVec.toNat := rfl
  have hvalue : value.toInt = value.toBitVec.toInt := rfl
  rw [hvalue, BitVec.toInt_eq_toNat_cond, hword]
  by_cases hsmall : value.toBitVec.toNat < 2 ^ 31
  · rw [if_pos hsmall, if_pos (by omega)]
  · rw [if_neg hsmall, if_neg (by omega)]
    rfl

section Size

variable {key : Nat} (hkey : key < 2 ^ 14)

include hkey

theorem epbVarint32PackSize_tagOf (value : UInt32) (isSigned : Bool) :
    epbVarint32PackSize (tagOf key) value isSigned = (varint key).length +
      (varint (if isSigned then (value <<< 1) ^^^ (value >>> 31) else value).toNat).length := by
  rw [epbVarint32PackSize, (tagBytes_tagOf hkey).2]
  exact congrArg _ (packSizeLoop_zero _)

/-- With the sign bit alone a negative number gives the complement of the one that is packed. -/
theorem signedPackSize_eq (value : Int32) :
    epbVarint32PackSize (tagOf key) value.toUInt32 true = (varint key).length +
      (varint (if 0 ≤ value.toInt then zigzag value.toInt else 2 ^ 32 - zigzag value.toInt)).length
      := by
  have hvalue := toInt_of_toNat value
  have hlt := value.toUInt32.toNat_lt
  rw [epbVarint32PackSize_tagOf hkey, if_pos rfl, toNat_zigzag_unsigned, zigzag]
  congr 3
  split
  · rename_i hsmall
    rw [if_pos hsmall] at hvalue
    rw [if_pos (by omega), if_pos (by omega)]
    omega
  · rename_i hsmall
    rw [if_neg hsmall] at hvalue
    rw [if_neg (by omega), if_neg (by omega)]
    omega

end Size

theorem zigzag_pos {value : Int} (hneg : ¬0 ≤ value) : 0 < zigzag value := by
  rw [zigzag, if_neg hneg]
  omega

/-- The only numbers whose computed size may differ are those with a sign. -/
theorem SetCall.packSize_eq (call : SetCall) (hsigned : ∀ value, call.value ≠ .sint32 value) :
    call.packSize = call.field.encode.length := by
  have hkey : call.field.key < 2 ^ 14 := call.small
  obtain ⟨key, value, hsmall, htype⟩ := call
  cases value with
  | uint32 value => exact varint32PackSize_eq hkey rfl
  | int32 value => exact varint32PackSize_eq hkey rfl
  | sint32 value => exact absurd rfl (hsigned value)
  | bool value => cases value <;> exact varint32PackSize_eq hkey rfl
  | enum value => exact varint32PackSize_eq hkey rfl
  | bytes value => exact lengthDelimitedPackSize_eq hkey (Nat.lt_trans value.fits (by decide)) rfl
  | fixed32 value => exact fixed32PackSize_eq hkey rfl
  | sfixed32 value => exact fixed32PackSize_eq hkey rfl

section Signed

variable {call : SetCall} {value : Int32} (hvalue : call.value = .sint32 value)

include hvalue

theorem SetCall.packSize_sint32 : call.packSize = (varint call.key).length +
    (varint (if 0 ≤ value.toInt then zigzag value.toInt else 2 ^ 32 - zigzag value.toInt)).length
    := by
  rw [packSize, hvalue]
  exact signedPackSize_eq call.small value

theorem SetCall.length_sint32 : call.field.encode.length =
    (varint call.key).length + (varint (zigzag value.toInt)).length := by
  have hencode : call.field.encode.length =
      (varint call.key).length + call.value.wire.encode.length := List.length_append
  rw [hencode, hvalue]
  rfl

end Signed

theorem zigzag_lt (value : Int32) : zigzag value.toInt < 2 ^ 32 := by
  rw [← toNat_zigzag]
  exact UInt32.toNat_lt _

theorem SetCall.packSize_eq_iff (call : SetCall) :
    call.packSize = call.field.encode.length ↔ call.value.SizeExact := by
  cases hvalue : call.value with
  | sint32 value =>
      have hlt := zigzag_lt value
      rw [packSize_sint32 hvalue, length_sint32 hvalue, Nat.add_left_cancel_iff,
        SetValue.SizeExact]
      by_cases hsign : 0 ≤ value.toInt
      · simp [hsign]
      · rw [if_neg hsign, length_varint_complement (zigzag_pos hsign) hlt, zigzag, if_neg hsign]
        omega
  | _ =>
      have hsize := call.packSize_eq (by simp [hvalue])
      exact iff_of_true hsize trivial

/-- A number is packed in less than what it takes if it is close to the smallest one. -/
theorem SetCall.packSize_lt_iff (call : SetCall) :
    call.packSize < call.field.encode.length ↔
      ∃ value, call.value = .sint32 value ∧ value.toInt < -(2 ^ 31 - 2 ^ 27) := by
  cases hvalue : call.value with
  | sint32 value =>
      have hlt := zigzag_lt value
      rw [packSize_sint32 hvalue, length_sint32 hvalue, Nat.add_lt_add_iff_left]
      have hcase : (∃ other, SetValue.sint32 value = .sint32 other ∧
          other.toInt < -(2 ^ 31 - 2 ^ 27)) ↔ value.toInt < -(2 ^ 31 - 2 ^ 27) := by
        constructor
        · rintro ⟨other, hsame, hsmall⟩
          rwa [SetValue.sint32.inj hsame]
        · exact fun hsmall => ⟨value, rfl, hsmall⟩
      rw [hcase]
      by_cases hsign : 0 ≤ value.toInt
      · rw [if_pos hsign]
        omega
      · have hpos := zigzag_pos hsign
        have hcomplement : 2 ^ 32 - zigzag value.toInt < 2 ^ 32 := by omega
        have hself := length_varint_eq_five_iff hlt
        have hother := length_varint_eq_five_iff hcomplement
        have hle := length_varint_word_le hlt
        have hle' := length_varint_word_le hcomplement
        have hzigzag : zigzag value.toInt = (-2 * value.toInt - 1).toNat := if_neg hsign
        rw [if_neg hsign]
        omega
  | _ =>
      have hsize := call.packSize_eq (by simp [hvalue])
      constructor
      · intro hless
        omega
      · rintro ⟨other, hsame, -⟩
        cases hsame

/-! ## Sequences of setters -/

theorem sum_packSize {calls : List SetCall} (hexact : ∀ call ∈ calls, call.value.SizeExact) :
    (calls.map SetCall.packSize).sum = (encodeFields (calls.map SetCall.field)).length := by
  induction calls with
  | nil => rfl
  | cons call calls ih =>
      have hcall := call.packSize_eq_iff.mpr (hexact call List.mem_cons_self)
      rw [List.map_cons, List.sum_cons, hcall,
        ih fun other hother => hexact other (List.mem_cons_of_mem _ hother), List.map_cons,
        encodeFields_cons, List.length_append]

/-- If the computed sizes are right, they are what a sequence of setters takes, and each getter
finds the first value with its tag. -/
theorem setters_roundTrip (uninit : UInt32) (calls : List SetCall)
    (hexact : ∀ call ∈ calls, call.value.SizeExact) :
    RoundTrips (fun buf len => packAll (calls.map SetCall.set) (epbPackInit buf len))
      (calls.map SetCall.packSize).sum (FirstsReadBy uninit calls) := by
  have hsupported : ∀ field ∈ calls.map SetCall.field, Supported field := by
    intro field hfield
    obtain ⟨call, -, rfl⟩ := List.mem_map.mp hfield
    exact call.supported
  exact (appendsAll_calls calls).packsInto.roundTrips hsupported (sum_packSize hexact)
    fun e henc => firstsReadBy_of_encodes uninit calls henc

def signedCalls : List SetCall :=
  [⟨0x50, .sint32 5, by decide, rfl⟩, ⟨0x5d, .sfixed32 (-5), by decide, rfl⟩,
    ⟨0x50, .sint32 (-1073741824), by decide, rfl⟩]

theorem setters_roundTrip_of_signed :
    RoundTrips (fun buf len => packAll (signedCalls.map SetCall.set) (epbPackInit buf len))
      (signedCalls.map SetCall.packSize).sum (FirstsReadBy 0 signedCalls) := by
  apply setters_roundTrip
  intro call hcall
  simp only [signedCalls, List.mem_cons, List.not_mem_nil, or_false] at hcall
  rcases hcall with rfl | rfl | rfl
  · exact Or.inl (by decide)
  · exact trivial
  · exact Or.inr (by decide)

/-- The computed size of a value is the one it takes unless it is a negative number close to 0 or
to the smallest one, and too small only in the second case. -/
theorem packSize_exact_iff (call : SetCall) (buf : Buffer) :
    (∃ size : Nat, (∀ len : Nat, size ≤ len → (call.set (epbPackInit buf len)).1 = size) ∧
      (call.packSize = size ↔ call.value.SizeExact)) ∧
    ((call.set (epbPackInit buf call.packSize)).1 = -1 ↔
      ∃ value, call.value = .sint32 value ∧ value.toInt < -(2 ^ 31 - 2 ^ 27)) := by
  have hremain : ∀ len : Int, epbPackBufRemain (epbPackInit buf len) = len :=
    fun len => Int.sub_zero len
  refine ⟨⟨call.field.encode.length, fun len hlen => ?_, call.packSize_eq_iff⟩, ?_⟩
  · rw [call.appends.fits _ (by rw [hremain]; omega)]
  · rw [← call.packSize_lt_iff]
    constructor
    · intro hret
      by_contra hroom
      rw [call.appends.fits _ (by rw [hremain]; omega)] at hret
      omega
    · intro hless
      exact call.appends.full _ (by rw [hremain]; omega)

end CubieBle.AirSync.Epb
