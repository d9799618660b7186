import CubieBle.AirSync.Epb
import CubieBle.AirSync.Reassembly

/-! # Reading a message

On a buffer that holds the encoding of a list of fields, the scan for a tag ends at the value of
the first field with the tag, so that each getter gives what the list says. What is behind the
buffer does not matter.
-/

namespace CubieBle.AirSync

open Machine

/-! ## Bytes behind a pointer -/

section Memory

variable {data : Buffer}

theorem StartsWith.get {bytes : List UInt8} (hstarts : StartsWith data bytes) {i : Nat}
    (hi : i < bytes.length) : data i = bytes[i] := by
  rw [hstarts i hi, List.getD_eq_getElem _ _ hi]

theorem startsWith_of_get {bytes : List UInt8}
    (hget : ∀ i (hi : i < bytes.length), data i = bytes[i]) : StartsWith data bytes := by
  intro i hi
  rw [hget i hi, List.getD_eq_getElem _ _ hi]

@[simp] theorem advance_zero (data : Buffer) : data.advance 0 = data := by
  funext i
  simp [Buffer.advance]

@[simp] theorem advance_advance (data : Buffer) (first second : Nat) :
    (data.advance first).advance second = data.advance (first + second) := by
  funext i
  simp [Buffer.advance, Nat.add_assoc]

theorem startsWith_append {first second : List UInt8} :
    StartsWith data (first ++ second) ↔
      StartsWith data first ∧ StartsWith (data.advance first.length) second := by
  constructor
  · intro hall
    refine ⟨startsWith_of_get fun i hi => ?_, startsWith_of_get fun i hi => ?_⟩
    · rw [hall.get (by rw [List.length_append]; omega), List.getElem_append_left hi]
    · show data (first.length + i) = second[i]
      rw [hall.get (by rw [List.length_append]; omega), List.getElem_append_right (by omega)]
      simp
  · rintro ⟨hfirst, hsecond⟩
    refine startsWith_of_get fun i hi => ?_
    by_cases hlt : i < first.length
    · rw [hfirst.get hlt, List.getElem_append_left hlt]
    · rw [List.length_append] at hi
      have hinside : i - first.length < second.length := by omega
      have hrest := hsecond.get hinside
      rw [List.getElem_append_right (Nat.not_lt.mp hlt), ← hrest]
      exact congrArg data (by omega)

end Memory

/-! ## Numbers -/

section Varints

variable {data : Buffer} {n : Nat}

theorem StartsWith.more_iff (hstarts : StartsWith data (varint n)) (offset : Nat)
    (hoffset : offset < (varint n).length) :
    data offset &&& 0x80 ≠ 0 ↔ offset + 1 < (varint n).length := by
  rw [and_128_ne_zero_iff, hstarts.get hoffset, getElem_varint]
  have hgroup : n / 128 ^ offset % 128 < 128 := Nat.mod_lt _ (by decide)
  by_cases hmore : offset + 1 < (varint n).length
  · rw [if_pos hmore]
    exact iff_of_true (Nat.le_add_left _ _) hmore
  · rw [if_neg hmore]
    exact iff_of_false (by omega) hmore

theorem StartsWith.group (hstarts : StartsWith data (varint n)) (offset : Nat)
    (hoffset : offset < (varint n).length) :
    (data offset &&& 0x7f).toUInt32.toNat = n / 2 ^ (7 * offset) % 128 := by
  have hpow : 2 ^ (7 * offset) = 128 ^ offset := Nat.pow_mul 2 7 offset
  rw [UInt8.toNat_toUInt32, toNat_and_127, hstarts.get hoffset, getElem_varint, hpow]
  split <;> omega

end Varints

namespace Epb

section Varints

variable {data : Buffer} {n : Nat}

/-- After some groups the loop has the number modulo the power that they reach. -/
theorem varint32Loop_of_starts {len : Int} {offset : Nat} {value : UInt32}
    (hstarts : StartsWith data (varint n)) (hlen : (varint n).length ≤ len) (hpos : 1 ≤ offset)
    (hle : offset ≤ (varint n).length) (hfive : offset ≤ 5)
    (hvalue : value.toNat = n % 2 ^ (7 * offset) % 2 ^ 32) :
    varint32Loop data len offset value =
      some (min 5 (varint n).length, UInt32.ofNat n) := by
  have hmore := hstarts.more_iff (offset - 1) (by omega)
  rw [Nat.sub_add_cancel hpos] at hmore
  have hdone : n % 2 ^ (7 * offset) % 2 ^ 32 = n % 2 ^ 32 → value = UInt32.ofNat n := by
    intro heq
    rw [← UInt32.toNat_inj, hvalue, heq, UInt32.toNat_ofNat']
  rw [varint32Loop]
  by_cases hlt : offset < (varint n).length
  · rw [if_pos (hmore.mpr hlt), if_neg (by omega)]
    by_cases hend : 5 ≤ offset
    · have hfull : offset = 5 := Nat.le_antisymm hfive hend
      subst hfull
      rw [if_pos hend, hdone (Nat.mod_mod_of_dvd n (Nat.pow_dvd_pow 2 (by decide))),
        Nat.min_eq_left (Nat.le_of_lt hlt)]
    · rw [if_neg hend]
      have hsmall : value.toNat = n % 2 ^ (7 * offset) := by
        rw [hvalue]
        apply Nat.mod_eq_of_lt
        exact Nat.lt_of_lt_of_le (Nat.mod_lt _ (Nat.two_pow_pos _))
          (Nat.pow_le_pow_right (by decide) (by omega))
      rw [Nat.mul_comm offset 7]
      apply varint32Loop_of_starts hstarts hlen (by omega) (by omega) (by omega)
      exact or_group (by omega) hsmall (hstarts.group offset hlt)
  · have hlast : offset = (varint n).length := by omega
    have hfit : n < 2 ^ (7 * offset) := by
      rw [Nat.pow_mul, hlast]
      exact lt_pow_length_varint n
    rw [if_neg (mt hmore.mp hlt), hdone (by rw [Nat.mod_eq_of_lt hfit]), ← hlast,
      Nat.min_eq_right hfive]
termination_by 5 - offset

theorem epbGetVarint32Bits_of_starts (len : Int) (hstarts : StartsWith data (varint n))
    (hlen : (varint n).length ≤ len) :
    epbGetVarint32Bits data len = some (min 5 (varint n).length, UInt32.ofNat n) := by
  have hpos := length_varint_pos n
  apply varint32Loop_of_starts hstarts hlen (Nat.le_refl 1) hpos (by decide)
  rw [hstarts.group 0 hpos, Nat.mul_zero, Nat.pow_zero, Nat.div_one, Nat.mul_one]
  omega

theorem varintEnd_of_starts {len : Int} {offset : Nat} (hstarts : StartsWith data (varint n))
    (hlen : (varint n).length ≤ len) (hoffset : offset < (varint n).length) :
    varintEnd data len offset = (varint n).length := by
  rw [varintEnd]
  by_cases hmore : offset + 1 < (varint n).length
  · rw [if_pos ⟨(hstarts.more_iff offset hoffset).mpr hmore, by omega⟩]
    exact varintEnd_of_starts hstarts hlen hmore
  · rw [if_neg fun h => hmore ((hstarts.more_iff offset hoffset).mp h.1)]
    omega
termination_by (varint n).length - offset

end Varints

/-! ## Tags -/

/-- The bytes of a key as a tag. -/
def tagOf (key : Nat) : UInt16 :=
  if key < 128 then UInt16.ofNat key else UInt16.ofNat ((key % 128 + 128) * 256 + key / 128)

theorem toNat_tagOf {key : Nat} (hkey : key < 2 ^ 14) :
    (tagOf key).toNat =
      if key < 128 then key else (key % 128 + 128) * 256 + key / 128 := by
  rw [tagOf]
  split
  · rw [UInt16.toNat_ofNat']
    omega
  · rw [UInt16.toNat_ofNat']
    omega

theorem tagOf_inj {first second : Nat} (hfirst : first < 2 ^ 14) (hsecond : second < 2 ^ 14) :
    tagOf first = tagOf second ↔ first = second := by
  constructor
  · intro heq
    have hnat := congrArg UInt16.toNat heq
    rw [toNat_tagOf hfirst, toNat_tagOf hsecond] at hnat
    split at hnat <;> split at hnat <;> omega
  · rintro rfl
    rfl

theorem tagOf_shiftRight {key : Nat} (hkey : key < 2 ^ 14) :
    ((tagOf key) >>> 8).toNat = if key < 128 then 0 else key % 128 + 128 := by
  rw [UInt16.toNat_shiftRight, toNat_tagOf hkey, Nat.shiftRight_eq_div_pow]
  simp only [UInt16.toNat_ofNat, Nat.reduceMod, Nat.reducePow]
  split <;> omega

/-- The wire type is in the low bits of the first byte. -/
theorem epbGetWireType_tagOf {key : Nat} (hkey : key < 2 ^ 14) :
    (epbGetWireType (tagOf key)).toUInt32 = UInt32.ofNat (key % 8) := by
  have hhigh := tagOf_shiftRight hkey
  have hmask : ∀ word : UInt16, (word &&& 7).toNat = word.toNat % 8 := by
    intro word
    rw [UInt16.toNat_and]
    exact Nat.and_two_pow_sub_one_eq_mod word.toNat 3
  rw [← UInt32.toNat_inj, UInt16.toNat_toUInt32, UInt32.toNat_ofNat', epbGetWireType]
  by_cases hlt : key < 128
  · rw [if_pos hlt] at hhigh
    have hzero : tagOf key >>> 8 = 0 := UInt16.toNat_inj.mp hhigh
    rw [if_neg (not_not.mpr hzero), hmask, toNat_tagOf hkey, if_pos hlt]
    omega
  · rw [if_neg hlt] at hhigh
    have hne : tagOf key >>> 8 ≠ 0 := by
      intro hzero
      rw [hzero] at hhigh
      simp at hhigh
    rw [if_pos hne, hmask, hhigh]
    omega

theorem tagLoop_of_starts {data : Buffer} {len : Int} {key offset : Nat} (hkey : key < 2 ^ 14)
    (hstarts : StartsWith (data.advance offset) (varint key))
    (hlen : (offset + (varint key).length : Nat) ≤ len) :
    tagLoop data len (offset + 1) (data offset).toUInt32 =
      (offset + (varint key).length, (tagOf key).toUInt32) := by
  have hfirst := hstarts.get (length_varint_pos key)
  have hmore := hstarts.more_iff 0 (length_varint_pos key)
  have hbyte := getElem_varint key 0 (length_varint_pos key)
  have htwo := succ_lt_length_varint key 0
  rw [← hfirst] at hbyte
  rw [Nat.pow_zero, Nat.div_one] at hbyte htwo
  simp only [Buffer.advance, Nat.add_zero, Nat.zero_add] at hmore hbyte htwo
  rw [tagLoop, Nat.add_sub_cancel]
  by_cases hlt : key < 128
  · have hone : (varint key).length = 1 := by rw [varint_of_lt hlt]; rfl
    rw [if_neg fun h => absurd (hmore.mp h.1) (by omega), hone]
    refine Prod.ext rfl ?_
    rw [← UInt32.toNat_inj, UInt8.toNat_toUInt32, UInt16.toNat_toUInt32, hbyte,
      toNat_tagOf hkey, if_pos hlt, if_neg (by omega)]
    omega
  · have hlast : (varint (key / 128)).length = 1 := by rw [varint_of_lt (by omega)]; rfl
    have hlength : (varint key).length = 2 := by
      rw [varint_of_le (by omega), List.length_cons, hlast]
    have hsecond := hstarts.group 1 (by omega)
    have hend := (hstarts.more_iff 1 (by omega)).not.mpr (by omega)
    simp only [Buffer.advance, Nat.mul_one, Nat.reducePow] at hsecond hend
    rw [if_pos ⟨hmore.mpr (by omega), by omega⟩, tagLoop, if_neg (fun h => hend h.1), hlength]
    refine Prod.ext rfl ?_
    have hlow : key / 128 % 128 < 2 ^ 8 := by omega
    have hword : ((data offset).toUInt32 <<< 8).toNat = (data offset).toNat <<< 8 := by
      rw [UInt32.toNat_shiftLeft, UInt8.toNat_toUInt32, Nat.shiftLeft_eq, Nat.shiftLeft_eq]
      have hbound := (data offset).toNat_lt
      simp only [UInt32.toNat_ofNat, Nat.reduceMod, Nat.reducePow]
      omega
    rw [← UInt32.toNat_inj, UInt32.toNat_or, hword, hsecond, Nat.or_comm,
      or_shiftLeft_eq_add hlow, hbyte, UInt16.toNat_toUInt32, toNat_tagOf hkey, if_neg hlt,
      if_pos (by omega)]
    omega

/-! ## The scan -/

/-- The tag has at most two bytes, and a length fits in an `int`. -/
structure Supported (field : WireField) : Prop where
  key : field.key < 2 ^ 14
  length : ∀ bytes ∈ field.value.bytes?, bytes.length < 2 ^ 31

theorem toInt_ofNat_of_lt {n : Nat} (hn : n < 2 ^ 31) : (UInt32.ofNat n).toInt32.toInt = n := by
  have hnat : (UInt32.ofNat n).toBitVec.toNat = n := by
    rw [UInt32.toNat_toBitVec, UInt32.toNat_ofNat']
    omega
  show (UInt32.ofNat n).toBitVec.toInt = n
  rw [BitVec.toInt_eq_toNat_of_lt (by omega), hnat]

theorem epbGetValueLength_of_starts {data : Buffer} (len : Int) {value : WireValue}
    (hstarts : StartsWith data value.encode) (hlen : value.encode.length ≤ len)
    (hlength : ∀ bytes ∈ value.bytes?, bytes.length < 2 ^ 31) :
    epbGetValueLength data len (UInt32.ofNat value.wireType) = value.encode.length := by
  cases value with
  | varint n =>
      show ((varintEnd data len 0 : Nat) : Int) = _
      rw [varintEnd_of_starts hstarts hlen (length_varint_pos n)]
      rfl
  | fixed64 word =>
      show (8 : Int) = ((littleEndian 8 word.toNat).length : Int)
      rw [length_littleEndian]
      rfl
  | delimited bytes =>
      have hbytes : bytes.length < 2 ^ 31 := hlength bytes rfl
      have hsize : (varint bytes.length).length ≤ 5 :=
        length_varint_le (by decide) (Nat.lt_trans hbytes (by decide))
      simp only [WireValue.encode, startsWith_append, List.length_append] at hstarts hlen ⊢
      have hread := epbGetVarint32Bits_of_starts len hstarts.1 (by omega)
      have htype : UInt32.ofNat (WireValue.delimited bytes).wireType = 2 := rfl
      rw [epbGetValueLength, htype, if_neg (by decide), if_neg (by decide), if_pos rfl, hread]
      show ((min 5 (varint bytes.length).length : Nat) : Int) +
        (UInt32.ofNat bytes.length).toInt32.toInt = _
      rw [Nat.min_eq_right hsize, toInt_ofNat_of_lt hbytes]
      omega
  | fixed32 word =>
      show (4 : Int) = ((littleEndian 4 word.toNat).length : Int)
      rw [length_littleEndian]
      rfl

/-- The offset of the value of the first field with a key. -/
inductive FindsAt (data : Buffer) (len : Int) (start : Nat) :
    Option WireValue → Option Nat → Prop
  | absent : FindsAt data len start none none
  | found (value : WireValue) (offset : Nat) (hstart : start ≤ offset)
      (hstarts : StartsWith (data.advance offset) value.encode)
      (hlen : (offset + value.encode.length : Nat) ≤ len)
      (hlength : ∀ bytes ∈ value.bytes?, bytes.length < 2 ^ 31) :
      FindsAt data len start (some value) (some offset)

theorem FindsAt.of_le {data : Buffer} {len : Int} {first second : Nat} {value : Option WireValue}
    {offset : Option Nat} (hle : first ≤ second) (hfinds : FindsAt data len second value offset) :
    FindsAt data len first value offset := by
  cases hfinds with
  | absent => exact .absent
  | found value offset hstart hstarts hlen hlength =>
      exact .found value offset (Nat.le_trans hle hstart) hstarts hlen hlength

theorem tagValueOffsetFrom_of_starts {data : Buffer} {len : Int} (fields : List WireField)
    (hsupported : ∀ field ∈ fields, Supported field) {key : Nat} (hkey : key < 2 ^ 14) (start : Nat)
    (hstarts : StartsWith (data.advance start) (encodeFields fields))
    (hlen : (start + (encodeFields fields).length : Nat) = len) :
    FindsAt data len start (lookupField fields key)
      (tagValueOffsetFrom data len (tagOf key) start) := by
  induction fields generalizing start with
  | nil =>
      rw [tagValueOffsetFrom, if_neg (by simp at hlen; omega)]
      exact .absent
  | cons field rest ih =>
      have hfield := hsupported field (List.mem_cons_self)
      have hpos := length_varint_pos field.key
      simp only [encodeFields_cons, WireField.encode, List.append_assoc, startsWith_append,
        List.length_append, advance_advance] at hstarts hlen
      obtain ⟨hfirst, hvalue, hrest⟩ := hstarts
      rw [tagValueOffsetFrom, if_pos (by omega), tagLoop_of_starts hfield.key hfirst (by omega)]
      dsimp only
      by_cases hsame : field.key = key
      · subst hsame
        rw [if_pos rfl, lookupField_cons_self]
        exact .found _ _ (Nat.le_add_right _ _) hvalue (by omega) hfield.length
      · have htag : (tagOf field.key).toUInt32 ≠ (tagOf key).toUInt32 := by
          intro heq
          have hnat := congrArg UInt32.toNat heq
          rw [UInt16.toNat_toUInt32, UInt16.toNat_toUInt32, UInt16.toNat_inj,
            tagOf_inj hfield.key hkey] at hnat
          exact hsame hnat
        have htype : (epbGetWireType (tagOf field.key).toUInt32.toUInt16).toUInt32 =
            UInt32.ofNat field.value.wireType := by
          rw [← field.wireType, ← epbGetWireType_tagOf hfield.key]
          simp
        have hlength := epbGetValueLength_of_starts
          (len - (start + (varint field.key).length : Nat)) hvalue (by omega) hfield.length
        rw [if_neg htag, htype, hlength, if_neg (by omega), lookupField_cons_of_ne hsame]
        refine FindsAt.of_le (by omega) (ih (fun f hf => hsupported f (List.mem_cons_of_mem _ hf))
          _ ?_ ?_)
        · rw [Int.toNat_natCast, Nat.add_assoc]
          rw [Nat.add_assoc] at hrest
          exact hrest
        · rw [Int.toNat_natCast]
          omega

/-- The buffer holds the encoding of the fields. -/
structure Encodes (e : Reader) (fields : List WireField) : Prop where
  supported : ∀ field ∈ fields, Supported field
  starts : StartsWith e.unpackBuf (encodeFields fields)
  length : e.bufLen = (encodeFields fields).length

section Getters

variable {e : Reader} {fields : List WireField} {key : Nat} (henc : Encodes e fields)
  (hkey : key < 2 ^ 14)

include henc hkey

theorem epbGetTagValueOffset_of_encodes :
    FindsAt e.unpackBuf e.bufLen 0 (lookupField fields key)
      (epbGetTagValueOffset e.unpackBuf e.bufLen (tagOf key)) := by
  apply tagValueOffsetFrom_of_starts fields henc.supported hkey
  · rw [advance_zero]
    exact henc.starts
  · rw [henc.length, Nat.zero_add]

theorem epbGetTagValueOffset_of_none (hnone : lookupField fields key = none) :
    epbGetTagValueOffset e.unpackBuf e.bufLen (tagOf key) = none := by
  have hfinds := epbGetTagValueOffset_of_encodes henc hkey
  generalize epbGetTagValueOffset e.unpackBuf e.bufLen (tagOf key) = offset at hfinds ⊢
  rw [hnone] at hfinds
  cases hfinds
  rfl

theorem epbGetTagValueOffset_of_some {value : WireValue}
    (hvalue : lookupField fields key = some value) :
    ∃ offset, epbGetTagValueOffset e.unpackBuf e.bufLen (tagOf key) = some offset ∧
      StartsWith (e.unpackBuf.advance offset) value.encode ∧
      (value.encode.length : Int) ≤ e.bufLen - offset ∧
      ∀ bytes ∈ value.bytes?, bytes.length < 2 ^ 31 := by
  have hfinds := epbGetTagValueOffset_of_encodes henc hkey
  generalize epbGetTagValueOffset e.unpackBuf e.bufLen (tagOf key) = offset at hfinds ⊢
  rw [hvalue] at hfinds
  cases hfinds with
  | found value offset hstart hstarts hlen hlength =>
      exact ⟨offset, rfl, hstarts, by omega, hlength⟩

theorem epbHasTag_of_encodes : epbHasTag e (tagOf key) = (lookupField fields key).isSome := by
  rw [epbHasTag]
  cases hvalue : lookupField fields key with
  | none =>
      rw [epbGetTagValueOffset_of_none henc hkey hvalue]
      rfl
  | some value =>
      obtain ⟨offset, hoffset, -⟩ := epbGetTagValueOffset_of_some henc hkey hvalue
      rw [hoffset]
      rfl

theorem epbGetUint32_of_encodes (htype : key % 8 = 0) :
    epbGetUint32 e (tagOf key) = UInt32.ofNat ((varintAt fields key).getD 0) := by
  rw [epbGetUint32]
  cases hvalue : lookupField fields key with
  | none =>
      rw [epbGetTagValueOffset_of_none henc hkey hvalue]
      simp [varintAt, hvalue]
  | some value =>
      obtain ⟨offset, hoffset, hstarts, hlen, -⟩ :=
        epbGetTagValueOffset_of_some henc hkey hvalue
      have hwire := wireType_of_lookupField hvalue
      cases value with
      | varint n =>
          rw [hoffset]
          dsimp only
          rw [epbGetVarint32Bits_of_starts _ hstarts hlen]
          simp [varintAt, hvalue, WireValue.varint?]
      | _ => simp [WireValue.wireType] at hwire; omega

/-- The pointer to the bytes of a field, and their number. -/
theorem epbGetBytes_of_bytesAt {bytes : List UInt8} (hbytes : bytesAt fields key = some bytes)
    (uninit : UInt32) :
    ∃ found, epbGetBytes e (tagOf key) uninit = some found ∧ StartsWith found.data bytes ∧
      found.len = bytes.length := by
  obtain ⟨value, hvalue, hdelimited⟩ := Option.bind_eq_some_iff.mp hbytes
  obtain ⟨offset, hoffset, hstarts, hlen, hlength⟩ := epbGetTagValueOffset_of_some henc hkey hvalue
  cases value with
  | delimited other =>
      obtain rfl : other = bytes := Option.some.inj hdelimited
      have hshort : other.length < 2 ^ 31 := hlength other rfl
      have hsize : (varint other.length).length ≤ 5 :=
        length_varint_le (by decide) (Nat.lt_trans hshort (by decide))
      rw [WireValue.encode, startsWith_append, advance_advance] at hstarts
      rw [WireValue.encode, List.length_append] at hlen
      refine ⟨⟨e.unpackBuf.advance (offset + (varint other.length).length), other.length⟩, ?_,
        hstarts.2, rfl⟩
      rw [epbGetBytes, hoffset, Option.map_some,
        epbGetVarint32Bits_of_starts _ hstarts.1 (by omega), Nat.min_eq_right hsize]
      simp only [toInt_ofNat_of_lt hshort]
  | _ => simp [WireValue.bytes?] at hdelimited

theorem epbGetBytes_of_encodes (htype : key % 8 = 2) (uninit : UInt32) :
    (epbGetBytes e (tagOf key) uninit).map CBytes.bytes = bytesAt fields key := by
  cases hbytes : bytesAt fields key with
  | none =>
      have hnone : lookupField fields key = none := by
        rw [← Option.isNone_iff_eq_none, ← Option.not_isSome, ← isSome_bytesAt htype, hbytes]
        rfl
      rw [epbGetBytes, epbGetTagValueOffset_of_none henc hkey hnone]
      rfl
  | some bytes =>
      obtain ⟨found, hfound, hstarts, hlen⟩ := epbGetBytes_of_bytesAt henc hkey hbytes uninit
      rw [hfound, Option.map_some, CBytes.bytes, hlen, Int.toNat_natCast, hstarts.bytes_eq]

theorem epbGetFixed32_of_encodes (htype : key % 8 = 5) :
    epbGetFixed32 e (tagOf key) = (fixed32At fields key).getD 0 := by
  rw [epbGetFixed32]
  cases hvalue : lookupField fields key with
  | none =>
      rw [epbGetTagValueOffset_of_none henc hkey hvalue]
      simp [fixed32At, hvalue]
  | some value =>
      obtain ⟨offset, hoffset, hstarts, hlen, -⟩ :=
        epbGetTagValueOffset_of_some henc hkey hvalue
      have hwire := wireType_of_lookupField hvalue
      cases value with
      | fixed32 word =>
          have hfour : (littleEndian 4 word.toNat).length = 4 := length_littleEndian 4 _
          have hword : word.toNat < 256 ^ 4 := Nat.lt_of_lt_of_eq word.toNat_lt (by simp)
          have hread := hstarts.bytes_eq
          rw [WireValue.encode, hfour] at hread hlen
          rw [hoffset]
          dsimp only
          rw [epbGetFixed32Bits, if_neg (by omega), hread,
            ofLittleEndian_littleEndian hword, UInt32.ofNat_toNat]
          simp [fixed32At, hvalue, WireValue.fixed32?]
      | _ => simp [WireValue.wireType] at hwire; omega

end Getters

end Epb

end CubieBle.AirSync
