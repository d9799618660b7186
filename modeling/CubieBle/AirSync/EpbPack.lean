import CubieBle.AirSync.EpbRead

/-! # Writing a message

Each packing function puts a fixed string of bytes behind what is there, or returns -1 if there
is no room for it, so that a sequence of them gives the concatenation, or -1 if it does not fit.
The bytes of a field are those of the wire format.
-/

namespace CubieBle.AirSync.Epb

open Machine

/-! ## Appending -/

/-- A packing function that puts so many bytes in the buffer if there is room for them. -/
structure Appends (set : Writer → Int × Writer) (bytes : List UInt8) : Prop where
  fits : ∀ e, (bytes.length : Int) ≤ epbPackBufRemain e →
    set e = ((bytes.length : Int), e.append bytes)
  full : ∀ e, epbPackBufRemain e < bytes.length → (set e).1 = -1

theorem Writer.append_nil (e : Writer) : e.append [] = e := by
  obtain ⟨packBuf, bufLen, bufOffset⟩ := e
  simp only [append, List.length_nil, Nat.add_zero, Writer.mk.injEq, and_true]
  funext i
  rw [Buffer.copy, if_neg (by simp)]

theorem Writer.append_append (e : Writer) (first second : List UInt8) :
    (e.append first).append second = e.append (first ++ second) := by
  simp only [append, List.length_append, Nat.add_assoc, Writer.mk.injEq, and_true]
  funext i
  simp only [Buffer.copy, List.length_append]
  by_cases hsecond : e.bufOffset + first.length ≤ i ∧
      i < e.bufOffset + first.length + second.length
  · rw [if_pos hsecond, if_pos (by omega), List.getD_append_right _ _ _ _ (by omega)]
    congr 1
    omega
  · rw [if_neg hsecond]
    by_cases hfirst : e.bufOffset ≤ i ∧ i < e.bufOffset + first.length
    · rw [if_pos hfirst, if_pos (by omega), List.getD_append _ _ _ _ (by omega)]
    · rw [if_neg hfirst, if_neg (by omega)]

theorem epbPackBufRemain_append (e : Writer) (bytes : List UInt8) :
    epbPackBufRemain (e.append bytes) = epbPackBufRemain e - bytes.length := by
  simp only [epbPackBufRemain, Writer.append]
  omega

theorem appends_delimited (data : List UInt8) :
    Appends (fun e => epbPackLengthDelimited e data) data where
  fits e hfits := by rw [epbPackLengthDelimited, if_pos hfits]
  full e hfull := by rw [epbPackLengthDelimited, if_neg (by omega)]

theorem Appends.andPack {first second : Writer → Int × Writer} {a b : List UInt8}
    (hfirst : Appends first a) (hsecond : Appends second b) :
    Appends (fun e => andPack (first e) second) (a ++ b) where
  fits e hfits := by
    rw [List.length_append] at hfits
    have hremain := epbPackBufRemain_append e a
    rw [Epb.andPack, hfirst.fits e (by omega)]
    dsimp only
    rw [if_neg (by omega), hsecond.fits _ (by omega)]
    dsimp only
    rw [if_neg (by omega), Writer.append_append, List.length_append]
    rfl
  full e hfull := by
    rw [List.length_append] at hfull
    have hremain := epbPackBufRemain_append e a
    by_cases hroom : (a.length : Int) ≤ epbPackBufRemain e
    · rw [Epb.andPack, hfirst.fits e hroom]
      dsimp only
      have hret := hsecond.full (e.append a) (by omega)
      rw [if_neg (by omega), if_pos (by omega), hret]
    · have hret := hfirst.full e (by omega)
      rw [Epb.andPack, if_pos (by omega), hret]

/-! ## Fields -/

theorem modify_length_append (front : List UInt8) (last : UInt8) (f : UInt8 → UInt8) :
    (front ++ [last]).modify front.length f = front ++ [f last] := by
  induction front with
  | nil => rfl
  | cons byte rest ih => rw [List.cons_append, List.length_cons, List.modify_succ_cons, ih]; rfl

theorem toNat_shiftRight_7 (value : UInt32) : (value >>> 7).toNat = value.toNat / 128 := by
  rw [UInt32.toNat_shiftRight, Nat.shiftRight_eq_div_pow]
  rfl

theorem shiftRight_7_ne_zero_iff (value : UInt32) : value >>> 7 ≠ 0 ↔ 128 ≤ value.toNat := by
  rw [ne_eq, ← UInt32.toNat_inj, toNat_shiftRight_7, UInt32.toNat_zero]
  omega

/-- As long as groups follow, there is room for another one. -/
theorem groups_left {n i : Nat} (hi : i < 5) (hn : n < 128 ^ (5 - i)) (hmore : 128 ≤ n) :
    i + 1 < 5 ∧ n / 128 < 128 ^ (5 - (i + 1)) := by
  constructor
  · by_contra hfull
    have hone : 5 - i = 1 := by omega
    rw [hone] at hn
    omega
  · apply Nat.div_lt_of_lt_mul
    rwa [← Nat.pow_succ', Nat.succ_eq_add_one, Nat.sub_add_eq, Nat.sub_add_cancel (by omega)]

theorem varint32Bytes_eq {value : UInt32} (buf : List UInt8) (hbuf : buf.length < 5)
    (hvalue : value.toNat < 128 ^ (5 - buf.length)) :
    varint32Bytes buf value = buf.modify (buf.length - 1) (· ||| 0x80) ++ varint value.toNat := by
  have hbyte : (value &&& 0x7f).toUInt8.toNat = value.toNat % 128 := by
    have hgroup : value.toNat &&& 127 = value.toNat % 128 :=
      Nat.and_two_pow_sub_one_eq_mod value.toNat 7
    rw [UInt32.toNat_toUInt8, UInt32.toNat_and]
    exact (congrArg (· % 2 ^ 8) hgroup).trans (Nat.mod_eq_of_lt (by omega))
  have hlength : (buf.modify (buf.length - 1) (· ||| 0x80) ++ [(value &&& 0x7f).toUInt8]).length =
      buf.length + 1 := by
    rw [List.length_append, List.length_modify, List.length_singleton]
  rw [varint32Bytes]
  by_cases hmore : 128 ≤ value.toNat
  · obtain ⟨hroom, hfit⟩ := groups_left hbuf hvalue hmore
    rw [if_pos ⟨(shiftRight_7_ne_zero_iff value).mpr hmore, by omega⟩,
      varint32Bytes_eq _ (by omega) (by rwa [hlength, toNat_shiftRight_7]), hlength,
      toNat_shiftRight_7, varint_of_le hmore]
    -- the group that was written is marked now
    have hmark : (value &&& 0x7f).toUInt8 ||| 0x80 = UInt8.ofNat (value.toNat % 128 + 128) := by
      rw [← UInt8.toNat_inj, toNat_or_128 (by omega), hbyte, toNat_ofNat_more]
    have hlast := modify_length_append (buf.modify (buf.length - 1) (· ||| 0x80))
      (value &&& 0x7f).toUInt8 (· ||| 0x80)
    rw [List.length_modify] at hlast
    rw [← hmark, Nat.add_sub_cancel, hlast, List.append_assoc]
    rfl
  · rw [if_neg fun h => hmore ((shiftRight_7_ne_zero_iff value).mp h.1), varint_of_lt (by omega)]
    congr 2
    rw [← UInt8.toNat_inj, hbyte, toNat_ofNat_last (by omega)]
    omega
termination_by 5 - buf.length
decreasing_by
  rw [hlength]
  omega

theorem varint32Bytes_nil (value : UInt32) : varint32Bytes [] value = varint value.toNat := by
  have hvalue := value.toNat_lt
  rw [varint32Bytes_eq [] (by decide) (Nat.lt_trans hvalue (by decide))]
  rfl

theorem and_ff00_eq_zero_iff (tag : UInt16) : tag &&& 0xff00 = 0 ↔ tag.toNat < 256 := by
  have hlt := tag.toNat_lt
  have hmask : tag.toNat &&& 0xff00 = tag.toNat / 2 ^ 8 * 2 ^ 8 := by
    rw [← Nat.shiftRight_eq_div_pow, ← Nat.shiftLeft_eq]
    apply Nat.eq_of_testBit_eq
    intro i
    rw [Nat.testBit_and, Nat.testBit_shiftLeft, Nat.testBit_shiftRight]
    by_cases hi : i < 16
    · have hbits : ∀ j < 16, Nat.testBit 0xff00 j = decide (8 ≤ j) := by decide
      rw [hbits i hi]
      by_cases hhigh : 8 ≤ i
      · simp [hhigh]
      · simp [hhigh]
    · have hbit : tag.toNat.testBit i = false :=
        Nat.testBit_lt_two_pow
          (Nat.lt_of_lt_of_le hlt (Nat.pow_le_pow_right (by decide) (by omega)))
      rw [Nat.add_sub_cancel' (by omega), hbit]
      simp
  rw [← UInt16.toNat_inj, UInt16.toNat_and]
  show tag.toNat &&& 0xff00 = 0 ↔ _
  omega

theorem tagBytes_tagOf {key : Nat} (hkey : key < 2 ^ 14) :
    tagBytes (tagOf key) = varint key ∧ sizeofTag (tagOf key) = (varint key).length := by
  have hhigh := tagOf_shiftRight hkey
  have hlow := toNat_tagOf hkey
  by_cases hlt : key < 128
  · rw [if_pos hlt] at hlow
    have hone : sizeofTag (tagOf key) = 1 := by
      rw [sizeofTag, if_pos ((and_ff00_eq_zero_iff _).mpr (by omega))]
    rw [tagBytes, hone, if_neg (by decide), varint_of_lt hlt]
    refine ⟨?_, rfl⟩
    rw [List.cons.injEq, ← UInt8.toNat_inj, UInt16.toNat_toUInt8, hlow, UInt8.toNat_ofNat']
    exact ⟨rfl, rfl⟩
  · rw [if_neg hlt] at hlow hhigh
    have htwo : sizeofTag (tagOf key) = 2 := by
      rw [sizeofTag, if_neg (mt (and_ff00_eq_zero_iff _).mp (by omega))]
    rw [tagBytes, htwo, if_pos rfl, varint_of_le (by omega),
      varint_of_lt (n := key / 128) (by omega)]
    refine ⟨?_, rfl⟩
    rw [List.cons.injEq, List.cons.injEq, ← UInt8.toNat_inj, ← UInt8.toNat_inj,
      UInt16.toNat_toUInt8, UInt16.toNat_toUInt8, hhigh, hlow, toNat_ofNat_more, UInt8.toNat_ofNat']
    refine ⟨?_, ?_, rfl⟩
    · omega
    · omega

theorem appends_tag {key : Nat} (hkey : key < 2 ^ 14) :
    Appends (fun e => epbPackTag e (tagOf key)) (varint key) := by
  obtain ⟨hbytes, hsize⟩ := tagBytes_tagOf hkey
  constructor
  · intro e hfits
    rw [epbPackTag, hsize, hbytes, if_pos hfits]
  · intro e hfull
    rw [epbPackTag, hsize, if_neg (by omega)]

theorem appends_varint32 (value : UInt32) :
    Appends (fun e => epbPackVarint32Bits e value) (varint value.toNat) := by
  rw [← varint32Bytes_nil]
  exact appends_delimited _

section Set

variable {field : WireField} (hkey : field.key < 2 ^ 14)

include hkey

theorem appends_uint32 {value : UInt32} (hvalue : field.value = .varint value.toNat) :
    Appends (fun e => epbSetUint32 e (tagOf field.key) value) field.encode := by
  rw [WireField.encode, hvalue]
  exact (appends_tag hkey).andPack (appends_varint32 value)

theorem appends_bytes {data : List UInt8} (hdata : data.length < 2 ^ 32)
    (hvalue : field.value = .delimited data) :
    Appends (fun e => epbSetBytes e (tagOf field.key) data) field.encode := by
  have hlength := appends_varint32 (UInt32.ofNat data.length)
  rw [UInt32.toNat_ofNat', Nat.mod_eq_of_lt hdata] at hlength
  rw [WireField.encode, hvalue, WireValue.encode, ← List.append_assoc]
  exact ((appends_tag hkey).andPack hlength).andPack (appends_delimited data)

theorem appends_fixed32 {value : UInt32} (hvalue : field.value = .fixed32 value) :
    Appends (fun e => epbSetFixed32 e (tagOf field.key) value) field.encode := by
  rw [WireField.encode, hvalue]
  exact (appends_tag hkey).andPack (appends_delimited _)

end Set

/-! ## Sizes -/

theorem packSizeLoop_eq {value : UInt32} {i : Nat} (hi : i < 5)
    (hvalue : value.toNat < 128 ^ (5 - i)) :
    packSizeLoop value i = i + (varint value.toNat).length := by
  rw [packSizeLoop]
  by_cases hmore : 128 ≤ value.toNat
  · obtain ⟨hroom, hfit⟩ := groups_left hi hvalue hmore
    rw [if_pos ⟨(shiftRight_7_ne_zero_iff value).mpr hmore, hroom⟩,
      packSizeLoop_eq hroom (by rwa [toNat_shiftRight_7]), toNat_shiftRight_7, varint_of_le hmore,
      List.length_cons]
    omega
  · rw [if_neg fun h => hmore ((shiftRight_7_ne_zero_iff value).mp h.1), varint_of_lt (by omega)]
    rfl
termination_by 5 - i

theorem packSizeLoop_zero (value : UInt32) :
    packSizeLoop value 0 = (varint value.toNat).length := by
  have hvalue := value.toNat_lt
  rw [packSizeLoop_eq (by decide) (Nat.lt_trans hvalue (by decide)), Nat.zero_add]

section Sizes

variable {field : WireField} (hkey : field.key < 2 ^ 14)

include hkey

theorem varint32PackSize_eq {value : UInt32} (hvalue : field.value = .varint value.toNat) :
    epbVarint32PackSize (tagOf field.key) value false = field.encode.length := by
  rw [epbVarint32PackSize, (tagBytes_tagOf hkey).2, WireField.encode, hvalue, List.length_append]
  exact congrArg _ (packSizeLoop_zero value)

theorem lengthDelimitedPackSize_eq {data : List UInt8} (hdata : data.length < 2 ^ 32)
    (hvalue : field.value = .delimited data) :
    epbLengthDelimitedPackSize (tagOf field.key) data.length = field.encode.length := by
  have hloop := packSizeLoop_zero (UInt32.ofNat data.length)
  rw [UInt32.toNat_ofNat', Nat.mod_eq_of_lt hdata] at hloop
  rw [epbLengthDelimitedPackSize, epbVarint32PackSize, (tagBytes_tagOf hkey).2, WireField.encode,
    hvalue, List.length_append, WireValue.encode, List.length_append, ← Nat.add_assoc]
  exact congrArg (fun size => (varint field.key).length + size + data.length) hloop

theorem fixed32PackSize_eq {value : UInt32} (hvalue : field.value = .fixed32 value) :
    epbFixed32PackSize (tagOf field.key) = field.encode.length := by
  rw [epbFixed32PackSize, (tagBytes_tagOf hkey).2, WireField.encode, hvalue, List.length_append,
    WireValue.encode, length_littleEndian]

end Sizes

/-! ## Messages -/

/-- Packing functions in turn, up to the first one that fails, and `epb_get_packed_size`. -/
def packAll : List (Writer → Int × Writer) → Writer → Int × Writer
  | [], e => (e.bufOffset, e)
  | set :: rest, e =>
      let (ret, e) := set e
      if ret < 0 then (ret, e) else packAll rest e

/-- The functions write the fields in turn. -/
def AppendsAll (sets : List (Writer → Int × Writer)) (fields : List WireField) : Prop :=
  List.Forall₂ (fun set (field : WireField) => Appends set field.encode) sets fields

theorem AppendsAll.nil : AppendsAll [] [] := List.Forall₂.nil

theorem AppendsAll.cons {set : Writer → Int × Writer} {sets : List (Writer → Int × Writer)}
    {field : WireField} {fields : List WireField} (hset : Appends set field.encode)
    (hsets : AppendsAll sets fields) : AppendsAll (set :: sets) (field :: fields) :=
  List.Forall₂.cons hset hsets

theorem AppendsAll.append {sets more : List (Writer → Int × Writer)}
    {fields others : List WireField} (hsets : AppendsAll sets fields)
    (hmore : AppendsAll more others) : AppendsAll (sets ++ more) (fields ++ others) :=
  List.rel_append hsets hmore

/-- A field that is there or not. -/
theorem AppendsAll.ofOption {Value : Type} {set : Value → Writer → Int × Writer}
    {field : Value → WireField} {value : Option Value}
    (hset : ∀ v ∈ value, Appends (set v) (field v).encode) :
    AppendsAll (value.toList.map set) (value.toList.map field) := by
  cases value with
  | none => exact .nil
  | some v => exact .cons (hset v rfl) .nil

theorem packAll_of_fits {sets : List (Writer → Int × Writer)} {fields : List WireField}
    (hsets : AppendsAll sets fields) (e : Writer)
    (hfits : ((encodeFields fields).length : Int) ≤ epbPackBufRemain e) :
    packAll sets e =
      (((e.bufOffset + (encodeFields fields).length : Nat) : Int),
        e.append (encodeFields fields)) := by
  induction hsets generalizing e with
  | nil =>
      rw [packAll, encodeFields_nil, Writer.append_nil]
      rfl
  | @cons set field sets fields hset hsets ih =>
      rw [encodeFields_cons, List.length_append] at hfits
      have hremain := epbPackBufRemain_append e field.encode
      rw [packAll, hset.fits e (by omega)]
      dsimp only
      rw [if_neg (by omega), ih _ (by omega), Writer.append_append, encodeFields_cons,
        List.length_append, ← Nat.add_assoc]
      rfl

theorem packAll_of_full {sets : List (Writer → Int × Writer)} {fields : List WireField}
    (hsets : AppendsAll sets fields) (e : Writer) (hroom : 0 ≤ epbPackBufRemain e)
    (hfull : epbPackBufRemain e < (encodeFields fields).length) : (packAll sets e).1 = -1 := by
  induction hsets generalizing e with
  | nil => rw [encodeFields_nil] at hfull; simp at hfull; omega
  | @cons set field sets fields hset hsets ih =>
      rw [encodeFields_cons, List.length_append] at hfull
      have hremain := epbPackBufRemain_append e field.encode
      by_cases hfits : (field.encode.length : Int) ≤ epbPackBufRemain e
      · rw [packAll, hset.fits e hfits]
        dsimp only
        rw [if_neg (by omega)]
        exact ih _ (by omega) (by omega)
      · have hret := hset.full e (by omega)
        rw [packAll]
        dsimp only
        rw [if_pos (by omega), hret]

theorem starts_append_packBuf (buf : Buffer) (len : Int) (bytes : List UInt8) :
    StartsWith ((epbPackInit buf len).append bytes).packBuf bytes :=
  startsWith_copy_zero buf bytes

/-- What a packing function of a message does with a buffer. -/
structure PacksInto (pack : Buffer → Int → Int × Writer) (fields : List WireField) : Prop where
  fits : ∀ buf len, ((encodeFields fields).length : Int) ≤ len →
    (pack buf len).1 = (encodeFields fields).length ∧
      StartsWith (pack buf len).2.packBuf (encodeFields fields)
  full : ∀ buf len, 0 ≤ len → len < (encodeFields fields).length → (pack buf len).1 = -1

theorem AppendsAll.packsInto {sets : List (Writer → Int × Writer)} {fields : List WireField}
    (hsets : AppendsAll sets fields) :
    PacksInto (fun buf len => packAll sets (epbPackInit buf len)) fields where
  fits buf len hfits := by
    have hremain : epbPackBufRemain (epbPackInit buf len) = len := Int.sub_zero len
    rw [packAll_of_fits hsets _ (by omega)]
    refine ⟨?_, starts_append_packBuf buf len _⟩
    show ((0 + (encodeFields fields).length : Nat) : Int) = _
    rw [Nat.zero_add]
  full buf len hroom hfull := by
    have hremain : epbPackBufRemain (epbPackInit buf len) = len := Int.sub_zero len
    exact packAll_of_full hsets _ (by omega) (by omega)

/-- A message is packed in memory of its size, and copied from there. -/
def packMessage (pack : Buffer → Int → Int × Writer) (packSize : Nat) (heap : Buffer) (tag : UInt16)
    (e : Writer) : Int × Writer :=
  let (ret, tmp) := pack heap packSize
  if ret < 0 then (ret, e) else epbSetBytes e tag (tmp.packBuf.bytes 0 packSize)

theorem PacksInto.appends {pack : Buffer → Int → Int × Writer} {fields : List WireField}
    (hpack : PacksInto pack fields) {packSize : Nat}
    (hsize : packSize = (encodeFields fields).length) (hsmall : packSize < 2 ^ 32) (heap : Buffer)
    {field : WireField} (hkey : field.key < 2 ^ 14)
    (hvalue : field.value = .delimited (encodeFields fields)) :
    Appends (packMessage pack packSize heap (tagOf field.key)) field.encode := by
  obtain ⟨hret, hstarts⟩ := hpack.fits heap packSize (by omega)
  have hset : packMessage pack packSize heap (tagOf field.key) =
      fun e => epbSetBytes e (tagOf field.key) (encodeFields fields) := by
    funext e
    rw [packMessage]
    dsimp only
    rw [if_neg (by omega), hsize]
    rw [hsize] at hstarts
    rw [hstarts.bytes_eq]
  rw [hset]
  exact appends_bytes hkey (by omega) hvalue

/-- What was packed can be read back. -/
theorem PacksInto.encodes {pack : Buffer → Int → Int × Writer} {fields : List WireField}
    (hpack : PacksInto pack fields) (hsupported : ∀ field ∈ fields, Supported field)
    (buf : Buffer) (len : Int) (hlen : ((encodeFields fields).length : Int) ≤ len) :
    Encodes ⟨(pack buf len).2.packBuf, (pack buf len).1⟩ fields := by
  obtain ⟨hret, hstarts⟩ := hpack.fits buf len hlen
  exact ⟨hsupported, hstarts, hret⟩

end CubieBle.AirSync.Epb
