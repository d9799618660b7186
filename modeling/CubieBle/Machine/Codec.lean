import Mathlib.Data.UInt
import CubieBle.Machine.Bytes

/-! # Byte formats

A format pairs an encoder with a decoder that reads a value from the front of a byte
string. Both laws are part of it: what is encoded is read back with nothing left of it,
and nothing else is read. Formats are put in sequence, made optional and relabelled, and
a field that decides about the rest of a format stands in front of it.
-/

namespace Machine

universe uValue

/-- A self-delimiting byte format of the valid values of a type. -/
structure Codec (Value : Type uValue) where
  valid : Value → Prop
  encode : Value → List UInt8
  decode : List UInt8 → Option (Value × List UInt8)
  decode_encode : ∀ value rest, valid value → decode (encode value ++ rest) = some (value, rest)
  encode_decode : ∀ bytes value rest, decode bytes = some (value, rest) →
    valid value ∧ bytes = encode value ++ rest

namespace Codec

variable {Value First Second : Type uValue}

/-- A byte string is read to its end as a value exactly if it is the value's encoding. -/
theorem decode_eq_some_nil_iff (codec : Codec Value) {bytes : List UInt8} {value : Value} :
    codec.decode bytes = some (value, []) ↔ codec.valid value ∧ bytes = codec.encode value := by
  constructor
  · intro hdecode
    obtain ⟨hvalid, hbytes⟩ := codec.encode_decode bytes value [] hdecode
    exact ⟨hvalid, by rw [hbytes, List.append_nil]⟩
  · rintro ⟨hvalid, rfl⟩
    have hdecode := codec.decode_encode value [] hvalid
    rwa [List.append_nil] at hdecode

/-- Valid values with the same encoding are the same. -/
theorem encode_injective (codec : Codec Value) {first second : Value} (hfirst : codec.valid first)
    (hsecond : codec.valid second) (heq : codec.encode first = codec.encode second) :
    first = second := by
  have hread := codec.decode_encode first [] hfirst
  rw [heq, codec.decode_encode second [] hsecond] at hread
  exact (Prod.mk.inj (Option.some.inj hread)).1.symm

/-- One byte. -/
def byte : Codec UInt8 where
  valid _ := True
  encode value := [value]
  decode
    | [] => none
    | value :: rest => some (value, rest)
  decode_encode _ _ _ := rfl
  encode_decode := by
    intro bytes value rest hdecode
    cases bytes with
    | nil => simp at hdecode
    | cons first others =>
        simp only [Option.some.injEq, Prod.mk.injEq] at hdecode
        obtain ⟨rfl, rfl⟩ := hdecode
        exact ⟨trivial, rfl⟩

/-- The values of a format under another name. -/
def relabel (codec : Codec First) (toSecond : First → Second) (toFirst : Second → First)
    (valid : Second → Prop)
    (hto : ∀ first, codec.valid first → valid (toSecond first) ∧ toFirst (toSecond first) = first)
    (hfrom : ∀ second, valid second →
      codec.valid (toFirst second) ∧ toSecond (toFirst second) = second) :
    Codec Second where
  valid := valid
  encode second := codec.encode (toFirst second)
  decode bytes := (codec.decode bytes).map fun read => (toSecond read.1, read.2)
  decode_encode := by
    intro second rest hvalid
    obtain ⟨hfirst, hback⟩ := hfrom second hvalid
    rw [codec.decode_encode _ rest hfirst, Option.map_some, hback]
  encode_decode := by
    intro bytes second rest hdecode
    obtain ⟨⟨first, left⟩, hread, heq⟩ := Option.map_eq_some_iff.mp hdecode
    obtain ⟨rfl, rfl⟩ := Prod.mk.inj heq
    obtain ⟨hvalid, hbytes⟩ := codec.encode_decode bytes first left hread
    obtain ⟨hsecond, hback⟩ := hto first hvalid
    exact ⟨hsecond, by rw [hback]; exact hbytes⟩

/-- A value, and after it what the value says. -/
def andThen (codec : Codec First) (next : First → Codec Second) : Codec (First × Second) where
  valid value := codec.valid value.1 ∧ (next value.1).valid value.2
  encode value := codec.encode value.1 ++ (next value.1).encode value.2
  decode bytes := (codec.decode bytes).bind fun read =>
    ((next read.1).decode read.2).map fun second => ((read.1, second.1), second.2)
  decode_encode := by
    rintro ⟨first, second⟩ rest ⟨hfirst, hsecond⟩
    rw [List.append_assoc, codec.decode_encode first _ hfirst, Option.bind_some,
      (next first).decode_encode second rest hsecond, Option.map_some]
  encode_decode := by
    rintro bytes ⟨first, second⟩ rest hdecode
    obtain ⟨⟨read, left⟩, hread, hrest⟩ := Option.bind_eq_some_iff.mp hdecode
    obtain ⟨⟨other, last⟩, hother, heq⟩ := Option.map_eq_some_iff.mp hrest
    obtain ⟨hvalue, rfl⟩ := Prod.mk.inj heq
    obtain ⟨rfl, rfl⟩ := Prod.mk.inj hvalue
    obtain ⟨hfirst, hbytes⟩ := codec.encode_decode bytes _ left hread
    obtain ⟨hsecond, hleft⟩ := (next _).encode_decode left _ last hother
    exact ⟨⟨hfirst, hsecond⟩, by rw [hbytes, hleft, List.append_assoc]⟩

/-- Two formats one after the other. -/
def seq (codec : Codec First) (next : Codec Second) : Codec (First × Second) :=
  codec.andThen fun _ => next

/-- A field that is there exactly if it is announced. -/
def optional (present : Bool) (codec : Codec Value) : Codec (Option Value) where
  valid
    | none => present = false
    | some value => present = true ∧ codec.valid value
  encode
    | none => []
    | some value => codec.encode value
  decode bytes :=
    if present then (codec.decode bytes).map fun read => (some read.1, read.2)
    else some (none, bytes)
  decode_encode := by
    intro value rest hvalid
    cases value with
    | none => simp [hvalid]
    | some value =>
        obtain ⟨hpresent, hvalue⟩ := hvalid
        simp [hpresent, codec.decode_encode value rest hvalue]
  encode_decode := by
    intro bytes value rest hdecode
    by_cases hpresent : present = true
    · rw [if_pos hpresent] at hdecode
      obtain ⟨⟨read, left⟩, hread, heq⟩ := Option.map_eq_some_iff.mp hdecode
      obtain ⟨rfl, rfl⟩ := Prod.mk.inj heq
      obtain ⟨hvalid, hbytes⟩ := codec.encode_decode bytes read left hread
      exact ⟨⟨hpresent, hvalid⟩, hbytes⟩
    · rw [if_neg hpresent] at hdecode
      obtain ⟨rfl, rfl⟩ := Prod.mk.inj (Option.some.inj hdecode)
      exact ⟨Bool.eq_false_of_not_eq_true hpresent, rfl⟩

/-- A field with its announcement. -/
def field (present : Bool) (value : Value) : Option Value :=
  if present then some value else none

theorem optional_valid_field {present : Bool} {codec : Codec Value} {value : Value}
    (hvalid : codec.valid value) : (optional present codec).valid (field present value) := by
  cases present with
  | false => exact rfl
  | true => exact ⟨rfl, hvalid⟩

theorem optional_encode_field (present : Bool) (codec : Codec Value) (value : Value) :
    (optional present codec).encode (field present value) =
      if present then codec.encode value else [] := by
  cases present with
  | false => rfl
  | true => rfl

theorem length_announced (present : Bool) (bytes : List UInt8) :
    (if present then bytes else []).length = present.toNat * bytes.length := by
  cases present with
  | false => simp
  | true => simp

/-- A 16-bit word, low byte first. -/
def word : Codec UInt16 :=
  (byte.seq byte).relabel (fun bytes => bytes.1.toUInt16 + (bytes.2.toUInt16 <<< 8))
    (fun value => (value.toUInt8, (value >>> 8).toUInt8)) (fun _ => True)
    (fun bytes _ => ⟨trivial, Prod.ext (bytes_of_uint16 bytes.1 bytes.2).1
      (bytes_of_uint16 bytes.1 bytes.2).2⟩)
    (fun value _ => ⟨⟨trivial, trivial⟩, uint16_of_bytes value⟩)

theorem word_encode (value : UInt16) :
    word.encode value = [value.toUInt8, (value >>> 8).toUInt8] := rfl

@[simp] theorem byte_length (value : UInt8) : (byte.encode value).length = 1 := rfl

@[simp] theorem word_length (value : UInt16) : (word.encode value).length = 2 := rfl

@[simp] theorem seq_length (codec : Codec First) (next : Codec Second)
    (value : First × Second) : ((codec.seq next).encode value).length =
      (codec.encode value.1).length + (next.encode value.2).length :=
  List.length_append

end Codec

end Machine
