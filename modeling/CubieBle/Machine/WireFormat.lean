import CubieBle.Machine.Varint

/-! # Tagged fields

A message is a list of fields. Each one is a key in base 128, the low three bits of which say
how the value is written, and the value. A reader that looks for a key takes the first field
with it, and keys that it does not know are skipped.
-/

namespace Machine

inductive WireValue
  | varint (n : Nat)
  | fixed64 (word : UInt64)
  | delimited (bytes : List UInt8)
  | fixed32 (word : UInt32)
deriving DecidableEq

namespace WireValue

def wireType : WireValue → Nat
  | varint _ => 0
  | fixed64 _ => 1
  | delimited _ => 2
  | fixed32 _ => 5

def encode : WireValue → List UInt8
  | varint n => Machine.varint n
  | fixed64 word => littleEndian 8 word.toNat
  | delimited bytes => Machine.varint bytes.length ++ bytes
  | fixed32 word => littleEndian 4 word.toNat

def varint? : WireValue → Option Nat
  | varint n => some n
  | _ => none

def bytes? : WireValue → Option (List UInt8)
  | delimited bytes => some bytes
  | _ => none

def fixed32? : WireValue → Option UInt32
  | fixed32 word => some word
  | _ => none

end WireValue

/-- A key and a value of the type that the key says. -/
structure WireField where
  key : Nat
  value : WireValue
  wireType : key % 8 = value.wireType
deriving DecidableEq

def WireField.encode (field : WireField) : List UInt8 := varint field.key ++ field.value.encode

def encodeFields (fields : List WireField) : List UInt8 := fields.flatMap WireField.encode

@[simp] theorem encodeFields_nil : encodeFields [] = [] := rfl

@[simp] theorem encodeFields_cons (field : WireField) (fields : List WireField) :
    encodeFields (field :: fields) = field.encode ++ encodeFields fields := rfl

theorem encodeFields_append (first second : List WireField) :
    encodeFields (first ++ second) = encodeFields first ++ encodeFields second :=
  List.flatMap_append

theorem WireField.length_encode_pos (field : WireField) : 0 < field.encode.length := by
  rw [encode, List.length_append]
  have hkey := length_varint_pos field.key
  omega

/-! ## Unique decoding -/

theorem littleEndian_inj {width first second : Nat} (hfirst : first < 256 ^ width)
    (hsecond : second < 256 ^ width) (heq : littleEndian width first = littleEndian width second) :
    first = second := by
  rw [← ofLittleEndian_littleEndian hfirst, heq, ofLittleEndian_littleEndian hsecond]

/-- A value ends where its type says. -/
theorem WireValue.encode_append_inj {first second : WireValue} {rest others : List UInt8}
    (htype : first.wireType = second.wireType)
    (heq : first.encode ++ rest = second.encode ++ others) : first = second ∧ rest = others := by
  cases first with
  | varint n =>
      cases second with
      | varint m =>
          obtain ⟨rfl, hrest⟩ := varint_append_inj heq
          exact ⟨rfl, hrest⟩
      | _ => simp [wireType] at htype
  | fixed64 word =>
      cases second with
      | fixed64 other =>
          obtain ⟨hbytes, hrest⟩ := List.append_inj heq (by simp [encode])
          have hword : word.toNat < 256 ^ 8 := Nat.lt_of_lt_of_eq word.toNat_lt (by simp)
          have hother : other.toNat < 256 ^ 8 := Nat.lt_of_lt_of_eq other.toNat_lt (by simp)
          have hnat := littleEndian_inj hword hother hbytes
          rw [UInt64.toNat_inj] at hnat
          exact ⟨congrArg _ hnat, hrest⟩
      | _ => simp [wireType] at htype
  | delimited bytes =>
      cases second with
      | delimited other =>
          rw [encode, encode, List.append_assoc, List.append_assoc] at heq
          obtain ⟨hlength, hbytes⟩ := varint_append_inj heq
          obtain ⟨hsame, hrest⟩ := List.append_inj hbytes hlength
          exact ⟨congrArg _ hsame, hrest⟩
      | _ => simp [wireType] at htype
  | fixed32 word =>
      cases second with
      | fixed32 other =>
          obtain ⟨hbytes, hrest⟩ := List.append_inj heq (by simp [encode])
          have hword : word.toNat < 256 ^ 4 := Nat.lt_of_lt_of_eq word.toNat_lt (by simp)
          have hother : other.toNat < 256 ^ 4 := Nat.lt_of_lt_of_eq other.toNat_lt (by simp)
          have hnat := littleEndian_inj hword hother hbytes
          rw [UInt32.toNat_inj] at hnat
          exact ⟨congrArg _ hnat, hrest⟩
      | _ => simp [wireType] at htype

theorem WireField.encode_append_inj {first second : WireField} {rest others : List UInt8}
    (heq : first.encode ++ rest = second.encode ++ others) : first = second ∧ rest = others := by
  rw [encode, encode, List.append_assoc, List.append_assoc] at heq
  obtain ⟨hkey, hvalues⟩ := varint_append_inj heq
  have htype : first.value.wireType = second.value.wireType := by
    rw [← first.wireType, ← second.wireType, hkey]
  obtain ⟨hvalue, hrest⟩ := WireValue.encode_append_inj htype hvalues
  obtain ⟨key, value, hfirst⟩ := first
  obtain ⟨key', value', hsecond⟩ := second
  obtain rfl : key = key' := hkey
  obtain rfl : value = value' := hvalue
  exact ⟨rfl, hrest⟩

/-- The bytes of a message determine its fields. -/
theorem encodeFields_injective : Function.Injective encodeFields := by
  intro first second heq
  induction first generalizing second with
  | nil =>
      cases second with
      | nil => rfl
      | cons field rest =>
          have hpos := field.length_encode_pos
          have hlength := congrArg List.length heq
          rw [encodeFields_nil, encodeFields_cons, List.length_append, List.length_nil] at hlength
          omega
  | cons field rest ih =>
      cases second with
      | nil =>
          have hpos := field.length_encode_pos
          have hlength := congrArg List.length heq
          rw [encodeFields_nil, encodeFields_cons, List.length_append, List.length_nil] at hlength
          omega
      | cons other others =>
          obtain ⟨rfl, hrest⟩ := WireField.encode_append_inj heq
          rw [ih hrest]

/-! ## Looking up a key -/

section Lookup

variable (fields : List WireField) (key : Nat)

def lookupField : Option WireValue :=
  (fields.find? fun field => field.key = key).map WireField.value

def varintAt : Option Nat := (lookupField fields key).bind WireValue.varint?

def bytesAt : Option (List UInt8) := (lookupField fields key).bind WireValue.bytes?

def fixed32At : Option UInt32 := (lookupField fields key).bind WireValue.fixed32?

end Lookup

section Laws

variable {fields : List WireField} {key : Nat}

@[simp] theorem lookupField_nil : lookupField [] key = none := rfl

theorem lookupField_cons_self (field : WireField) :
    lookupField (field :: fields) field.key = some field.value := by
  simp [lookupField]

theorem lookupField_cons_of_ne {field : WireField} (hne : field.key ≠ key) :
    lookupField (field :: fields) key = lookupField fields key := by
  simp [lookupField, hne]

theorem lookupField_append (first second : List WireField) :
    lookupField (first ++ second) key = (lookupField first key).or (lookupField second key) := by
  rw [lookupField, List.find?_append, Option.map_or]
  rfl

theorem wireType_of_lookupField {value : WireValue} (hvalue : lookupField fields key = some value) :
    key % 8 = value.wireType := by
  obtain ⟨field, hfind, rfl⟩ := Option.map_eq_some_iff.mp hvalue
  have hkey := List.find?_some hfind
  rw [decide_eq_true_eq] at hkey
  rw [← hkey]
  exact field.wireType

/-- A field whose key has the type of a number holds one. -/
theorem isSome_varintAt (hkey : key % 8 = 0) :
    (varintAt fields key).isSome = (lookupField fields key).isSome := by
  cases hvalue : lookupField fields key with
  | none => simp [varintAt, hvalue]
  | some value =>
      have htype := wireType_of_lookupField hvalue
      cases value with
      | varint n => simp [varintAt, hvalue, WireValue.varint?]
      | _ => simp [WireValue.wireType] at htype; omega

theorem isSome_bytesAt (hkey : key % 8 = 2) :
    (bytesAt fields key).isSome = (lookupField fields key).isSome := by
  cases hvalue : lookupField fields key with
  | none => simp [bytesAt, hvalue]
  | some value =>
      have htype := wireType_of_lookupField hvalue
      cases value with
      | delimited bytes => simp [bytesAt, hvalue, WireValue.bytes?]
      | _ => simp [WireValue.wireType] at htype; omega

end Laws

end Machine
