import CubieBle.Loader.Fallback
import CubieBle.Loader.Firmware
import CubieBle.Machine.Bytes

/-! # The build script and the loader agree

An image file is a list of words. The build script and the loader sum the same words
of it, so a file with the script's checksums passes the loader's checks, and one that
differs in a single word does not.
-/

namespace CubieBle.Loader

open Machine

/-! ## Words of a file -/

theorem toNat_shiftLeft_byte (b : UInt8) {width : UInt32} (hwidth : width.toNat ≤ 24) :
    (b.toUInt32 <<< width).toNat = b.toNat <<< width.toNat := by
  have hmod : width.toNat % 32 = width.toNat := Nat.mod_eq_of_lt (by omega)
  have hpow : 2 ^ width.toNat ≤ 2 ^ 24 := Nat.pow_le_pow_right (by decide) hwidth
  rw [UInt32.toNat_shiftLeft, UInt8.toNat_toUInt32, hmod]
  apply Nat.mod_eq_of_lt
  rw [Nat.shiftLeft_eq]
  calc b.toNat * 2 ^ width.toNat
      < 2 ^ 8 * 2 ^ width.toNat := Nat.mul_lt_mul_of_pos_right b.toNat_lt (Nat.two_pow_pos _)
    _ ≤ 2 ^ 8 * 2 ^ 24 := Nat.mul_le_mul_left _ hpow
    _ = 2 ^ 32 := by decide

theorem toNat_wordOf (b0 b1 b2 b3 : UInt8) :
    (wordOf b0 b1 b2 b3).toNat =
      b0.toNat + 2 ^ 8 * b1.toNat + 2 ^ 16 * b2.toNat + 2 ^ 24 * b3.toNat := by
  have h0 := b0.toNat_lt
  have h1 := b1.toNat_lt
  have h2 := b2.toNat_lt
  unfold wordOf
  rw [UInt32.toNat_or, UInt32.toNat_or, UInt32.toNat_or, UInt8.toNat_toUInt32,
    toNat_shiftLeft_byte b1 (by decide), toNat_shiftLeft_byte b2 (by decide),
    toNat_shiftLeft_byte b3 (by decide)]
  change ((b0.toNat ||| b1.toNat <<< 8) ||| b2.toNat <<< 16) ||| b3.toNat <<< 24 = _
  have hfirst := or_shiftLeft_eq_add h0 b1.toNat
  rw [hfirst]
  have hsecond : b0.toNat + 2 ^ 8 * b1.toNat < 2 ^ 16 := by omega
  rw [or_shiftLeft_eq_add hsecond]
  have hthird : b0.toNat + 2 ^ 8 * b1.toNat + 2 ^ 16 * b2.toNat < 2 ^ 24 := by omega
  rw [or_shiftLeft_eq_add hthird]

theorem wordOf_inj {b0 b1 b2 b3 c0 c1 c2 c3 : UInt8}
    (heq : wordOf b0 b1 b2 b3 = wordOf c0 c1 c2 c3) :
    b0 = c0 ∧ b1 = c1 ∧ b2 = c2 ∧ b3 = c3 := by
  have hvalue := congrArg UInt32.toNat heq
  rw [toNat_wordOf, toNat_wordOf] at hvalue
  have h0 := b0.toNat_lt
  have h1 := b1.toNat_lt
  have h2 := b2.toNat_lt
  have k0 := c0.toNat_lt
  have k1 := c1.toNat_lt
  have k2 := c2.toNat_lt
  simp only [← UInt8.toNat_inj]
  omega

/-- The word with an index, in words, of a file. -/
def fileWord (file : List UInt8) (i : Nat) : UInt32 :=
  wordOf (file.getD (4 * i) 0) (file.getD (4 * i + 1) 0) (file.getD (4 * i + 2) 0)
    (file.getD (4 * i + 3) 0)

theorem fileWord_congr {file other : List UInt8} {i j : Nat}
    (hbytes : ∀ k < 4, file.getD (4 * i + k) 0 = other.getD (4 * j + k) 0) :
    fileWord file i = fileWord other j := by
  unfold fileWord
  rw [hbytes 1 (by omega), hbytes 2 (by omega), hbytes 3 (by omega)]
  rw [show file.getD (4 * i) 0 = other.getD (4 * j) 0 from hbytes 0 (by omega)]

/-- Files of one length, a whole number of words, are equal if their words are. -/
theorem ext_fileWord {file other : List UInt8} (hlength : file.length = other.length)
    (hwhole : file.length % 4 = 0)
    (hwords : ∀ i < file.length / 4, fileWord file i = fileWord other i) : file = other := by
  apply List.ext_getElem hlength
  intro n hn hother
  obtain ⟨h0, h1, h2, h3⟩ := wordOf_inj (hwords (n / 4) (by omega))
  have hbyte : file.getD n 0 = other.getD n 0 := by
    obtain hn | hn | hn | hn : n = 4 * (n / 4) ∨ n = 4 * (n / 4) + 1 ∨ n = 4 * (n / 4) + 2 ∨
        n = 4 * (n / 4) + 3 := by omega
    all_goals
      rw [hn]
      assumption
  rwa [List.getD_eq_getElem?_getD, List.getD_eq_getElem?_getD, List.getElem?_eq_getElem hn,
    List.getElem?_eq_getElem hother] at hbyte

theorem arrayWords_eq (data : List UInt8) (hwhole : data.length % 4 = 0) :
    arrayWords data =
      some ((List.range (data.length / 4)).map fun i => (fileWord data i).toNat) := by
  induction data using arrayWords.induct with
  | case1 => rfl
  | case2 b0 b1 b2 b3 rest ih =>
      simp only [List.length_cons] at hwhole
      have hdiv : (rest.length + 1 + 1 + 1 + 1) / 4 = rest.length / 4 + 1 := by omega
      rw [arrayWords, ih (by omega)]
      simp only [List.length_cons, hdiv, List.range_succ_eq_map, List.map_cons, List.map_map,
        Option.map_some]
      rfl
  | case3 data hnil hfour =>
      rcases data with _ | ⟨b0, _ | ⟨b1, _ | ⟨b2, _ | ⟨b3, rest⟩⟩⟩⟩
      · exact absurd rfl hnil
      · simp at hwhole
      · simp at hwhole
      · simp at hwhole
      · exact absurd rfl (hfour b0 b1 b2 b3 rest)

/-- The sum of a part of a file. -/
theorem calcChecksum_fileRead (file : List UInt8) (first count : Nat)
    (hinside : 4 * first + 4 * count ≤ file.length) :
    ∃ data, fileRead file (4 * first) ((4 * count : Nat) : Int) = some data ∧
      calcChecksum data =
        some ((List.range' first count).map fun i => (fileWord file i).toNat).sum := by
  refine ⟨(file.drop (4 * first)).take (4 * count), ?_, ?_⟩
  · unfold fileRead
    rw [if_neg (by omega), if_neg (by omega), Int.toNat_natCast]
  have hlength : ((file.drop (4 * first)).take (4 * count)).length = 4 * count := by
    rw [List.length_take, List.length_drop]
    omega
  have hcount : 4 * count / 4 = count := by omega
  rw [calcChecksum, arrayWords_eq _ (by omega), Option.map_some, hlength, hcount,
    List.range_eq_range', List.range'_eq_map_range, List.range'_eq_map_range, List.map_map,
    List.map_map]
  congr 2
  apply List.map_congr_left
  intro i hi
  rw [List.mem_range] at hi
  refine congrArg UInt32.toNat (fileWord_congr fun k hk => ?_)
  simp only [List.getD_eq_getElem?_getD]
  rw [List.getElem?_take_of_lt (by omega), List.getElem?_drop]
  congr 2
  omega

theorem getD_packWord (value : Nat) :
    wordOf ((packWord value).getD 0 0) ((packWord value).getD 1 0) ((packWord value).getD 2 0)
      ((packWord value).getD 3 0) = UInt32.ofNat value := by
  apply UInt32.toNat_inj.mp
  rw [toNat_wordOf]
  simp only [packWord, List.getD_cons_zero, List.getD_cons_succ, UInt8.toNat_ofNat',
    UInt32.toNat_ofNat']
  omega

/-- Writing a word changes the word there and no other one. -/
theorem fileWord_fileWrite {file : List UInt8} {at' : Nat} {value : Nat}
    (hinside : 4 * at' + 4 ≤ file.length) (i : Nat) :
    fileWord (fileWrite file (4 * at') (packWord value)) i =
      if i = at' then UInt32.ofNat value else fileWord file i := by
  have hpack : (packWord value).length = 4 := rfl
  have hbyte : ∀ n, (fileWrite file (4 * at') (packWord value)).getD n 0 =
      if 4 * at' ≤ n ∧ n < 4 * at' + 4 then (packWord value).getD (n - 4 * at') 0
      else file.getD n 0 := by
    intro n
    simp only [List.getD_eq_getElem?_getD]
    rw [getElem?_fileWrite (by omega), hpack]
    split
    next => rfl
    next => rfl
  split
  next heq =>
    subst heq
    rw [← getD_packWord value]
    unfold fileWord
    simp only [hbyte]
    rw [if_pos (by omega), if_pos (by omega), if_pos (by omega), if_pos (by omega)]
    simp only [Nat.sub_self, Nat.add_sub_cancel_left]
  next hne =>
    apply fileWord_congr
    intro k hk
    rw [hbyte, if_neg (by omega)]

/-! ## What the script writes -/

/-- The words before the header and after it, of a file of some length. -/
def dataWords (length : Nat) : List Nat :=
  List.range' 0 48 ++ List.range' 56 (length / 4 - 56)

/-- The words of the header before its checksum. -/
def headerWords : List Nat := List.range' 48 7

/-- The checksum that is over words of a file. -/
def checksumOver (file : List UInt8) (indices : List Nat) : UInt32 :=
  0x1234 + (indices.map (fileWord file)).sum

theorem checksumOver_congr {file other : List UInt8} {indices : List Nat}
    (hwords : ∀ i ∈ indices, fileWord file i = fileWord other i) :
    checksumOver file indices = checksumOver other indices := by
  unfold checksumOver
  rw [List.map_congr_left hwords]

/-- The unbounded sum that the script cuts to a word is the sum of machine words. -/
theorem ofNat_sum_toNat (file : List UInt8) (indices : List Nat) :
    UInt32.ofNat (indices.map fun i => (fileWord file i).toNat).sum =
      (indices.map (fileWord file)).sum := by
  induction indices with
  | nil => rfl
  | cons i rest ih =>
      rw [List.map_cons, List.map_cons, List.sum_cons, List.sum_cons, UInt32.ofNat_add, ih,
        UInt32.ofNat_toNat]

theorem ofNat_checksum (file : List UInt8) (indices : List Nat) :
    UInt32.ofNat (((indices.map fun i => (fileWord file i).toNat).sum + 0x1234) &&& 0xffffffff) =
      checksumOver file indices := by
  have hmask : ∀ sum : Nat, sum &&& 0xffffffff = sum % 2 ^ 32 :=
    fun sum => Nat.and_two_pow_sub_one_eq_mod sum 32
  rw [hmask, UInt32.ofNat_mod_size, UInt32.ofNat_add, ofNat_sum_toNat, UInt32.add_comm]
  rfl

/-- The file with the checksum over some of its words written to one of them. -/
def stampWord (file : List UInt8) (target : Nat) (indices : List Nat) : List UInt8 :=
  fileWrite file (4 * target)
    (packWord (((indices.map fun i => (fileWord file i).toNat).sum + 0x1234) &&& 0xffffffff))

section Stamp

variable {file : List UInt8} {target : Nat} (hinside : 4 * target + 4 ≤ file.length)
  (indices : List Nat)
include hinside

theorem length_stampWord : (stampWord file target indices).length = file.length :=
  length_fileWrite hinside

theorem getElem?_stampWord {i : Nat} (hi : i / 4 ≠ target) :
    (stampWord file target indices)[i]? = file[i]? := by
  unfold stampWord
  rw [getElem?_fileWrite hinside, if_neg]
  rintro ⟨hle, hlt⟩
  have hlt : i < 4 * target + 4 := hlt
  omega

theorem fileWord_stampWord (i : Nat) :
    fileWord (stampWord file target indices) i =
      if i = target then checksumOver file indices else fileWord file i := by
  unfold stampWord
  rw [fileWord_fileWrite hinside, ofNat_checksum]

end Stamp

/-- The script stamps the checksum of the data and then that of the header. -/
theorem addCsum_eq {file : List UInt8} (hwhole : file.length % 4 = 0)
    (hlength : 0xe0 ≤ file.length) :
    addCsum file = some (stampWord (stampWord file 54 (dataWords file.length)) 55 headerWords) := by
  obtain ⟨before, hreadBefore, hbefore⟩ := calcChecksum_fileRead file 0 48 (by omega)
  obtain ⟨after, hreadAfter, hafter⟩ :=
    calcChecksum_fileRead file 56 (file.length / 4 - 56) (by omega)
  have hsize : ((4 * (file.length / 4 - 56) : Nat) : Int) = file.length - (0xc0 + 0x20) := by
    omega
  rw [hsize] at hreadAfter
  have hhalf : (stampWord file 54 (dataWords file.length)).length = file.length :=
    length_stampWord (by omega) _
  obtain ⟨header, hreadHeader, hheader⟩ :=
    calcChecksum_fileRead (stampWord file 54 (dataWords file.length)) 48 7 (by omega)
  have hsum : ((dataWords file.length).map fun i => (fileWord file i).toNat).sum =
      ((List.range' 0 48).map fun i => (fileWord file i).toNat).sum +
        ((List.range' 56 (file.length / 4 - 56)).map fun i => (fileWord file i).toNat).sum := by
    unfold dataWords
    rw [List.map_append, List.sum_append]
  unfold addCsum
  simp only [Option.bind_eq_bind]
  rw [show fileRead file 0 0xc0 = some before from hreadBefore, Option.bind_some, hbefore,
    Option.bind_some, show fileRead file (0xc0 + 0x20) _ = some after from hreadAfter,
    Option.bind_some, hafter, Option.bind_some, ← hsum]
  change (fileRead (stampWord file 54 (dataWords file.length)) 0xc0 28).bind _ = _
  rw [show fileRead (stampWord file 54 (dataWords file.length)) 0xc0 28 = some header from
    hreadHeader, Option.bind_some, hheader, Option.bind_some]
  rfl

/-- Both checksums of a file are right. -/
structure Sealed (file : List UInt8) : Prop where
  data : fileWord file 54 = checksumOver file (dataWords file.length)
  header : fileWord file 55 = checksumOver file headerWords

theorem not_mem_dataWords {length i : Nat} (hi : 48 ≤ i) (hlt : i < 56) :
    i ∉ dataWords length := by
  unfold dataWords
  simp only [List.mem_append, List.mem_range'_1]
  omega

theorem mem_headerWords {i : Nat} : i ∈ headerWords ↔ 48 ≤ i ∧ i < 55 := by
  unfold headerWords
  simp only [List.mem_range'_1]

theorem stamped_sealed {file : List UInt8} (hlength : 0xe0 ≤ file.length) :
    Sealed (stampWord (stampWord file 54 (dataWords file.length)) 55 headerWords) := by
  have hhalf : (stampWord file 54 (dataWords file.length)).length = file.length :=
    length_stampWord (by omega) _
  have hinside : 4 * 55 + 4 ≤ (stampWord file 54 (dataWords file.length)).length := by omega
  constructor
  · rw [fileWord_stampWord (by omega), if_neg (by decide), fileWord_stampWord (by omega),
      if_pos rfl, length_stampWord hinside, hhalf]
    apply checksumOver_congr
    intro i hi
    have h54 : i ≠ 54 := fun heq => not_mem_dataWords (by omega) (by omega) hi
    have h55 : i ≠ 55 := fun heq => not_mem_dataWords (by omega) (by omega) hi
    rw [fileWord_stampWord (by omega), if_neg h55, fileWord_stampWord (by omega), if_neg h54]
  · rw [fileWord_stampWord (by omega), if_pos rfl]
    apply checksumOver_congr
    intro i hi
    rw [mem_headerWords] at hi
    rw [fileWord_stampWord hinside, if_neg (by omega)]

/-- Stamping a checksum that is right already changes nothing. -/
theorem stampWord_self {file : List UInt8} {target : Nat} {indices : List Nat}
    (hwhole : file.length % 4 = 0) (hinside : 4 * target + 4 ≤ file.length)
    (hright : fileWord file target = checksumOver file indices) :
    stampWord file target indices = file := by
  apply ext_fileWord (length_stampWord hinside indices)
  · rw [length_stampWord hinside, hwhole]
  · intro i hi
    rw [fileWord_stampWord hinside]
    split
    next heq => rw [heq, hright]
    next => rfl

theorem addCsum_of_sealed {file : List UInt8} (hwhole : file.length % 4 = 0)
    (hlength : 0xe0 ≤ file.length) (hsealed : Sealed file) : addCsum file = some file := by
  rw [addCsum_eq hwhole hlength, stampWord_self hwhole (by omega) hsealed.data,
    stampWord_self hwhole (by omega) hsealed.header]

/-! ## What the loader checks -/

/-- The bytes of a file stand in a memory from an address on. -/
def HoldsFile (memory : Memory) (addr : UInt32) (file : List UInt8) : Prop :=
  ∀ i < file.length, memory (addr + UInt32.ofNat i) = file.getD i 0

theorem HoldsFile.word {memory : Memory} {addr : UInt32} {file : List UInt8}
    (hholds : HoldsFile memory addr file) {i : Nat} (hinside : 4 * i + 4 ≤ file.length) :
    memory.word (addr + 4 * UInt32.ofNat i) = fileWord file i := by
  have hbyte : ∀ k < 4, memory (addr + 4 * UInt32.ofNat i + UInt32.ofNat k) =
      file.getD (4 * i + k) 0 := by
    intro k hk
    rw [← hholds (4 * i + k) (by omega), UInt32.ofNat_add, UInt32.ofNat_mul, UInt32.add_assoc]
    rfl
  have hzero := hbyte 0 (by omega)
  rw [show UInt32.ofNat 0 = 0 from rfl, UInt32.add_zero] at hzero
  unfold Memory.word fileWord
  rw [hzero, ← hbyte 1 (by omega), ← hbyte 2 (by omega), ← hbyte 3 (by omega)]
  rfl

section Loader

variable {memory : Memory} {addr : UInt32} {file : List UInt8}
  (hholds : HoldsFile memory addr file) (hlength : 0xe0 ≤ file.length)
include hholds hlength

theorem headerWord_of_holds {i : Nat} (hi : i < 8) :
    memory.word (addr + imageHdrOffset + 4 * UInt32.ofNat i) = fileWord file (48 + i) := by
  rw [← hholds.word (by omega), UInt32.ofNat_add, UInt32.mul_add, ← UInt32.add_assoc]
  rfl

/-- The header that the loader reads is the header of the file. -/
theorem imageHeaderAt_words :
    (imageHeaderAt memory (addr + imageHdrOffset)).words = headerWords.map (fileWord file) := by
  have hword := fun i hi => headerWord_of_holds hholds hlength (i := i) hi
  have hmagic := hword 0 (by decide)
  rw [show 4 * UInt32.ofNat 0 = 0 from rfl, UInt32.add_zero] at hmagic
  have hlow : wordOf (memory (addr + imageHdrOffset + 16 + 0))
      (memory (addr + imageHdrOffset + 16 + 1)) (memory (addr + imageHdrOffset + 16 + 2))
      (memory (addr + imageHdrOffset + 16 + 3)) = fileWord file 52 := by
    rw [UInt32.add_zero]
    exact hword 4 (by decide)
  have hhigh : wordOf (memory (addr + imageHdrOffset + 16 + 4))
      (memory (addr + imageHdrOffset + 16 + 5)) (memory (addr + imageHdrOffset + 16 + 6))
      (memory (addr + imageHdrOffset + 16 + 7)) = fileWord file 53 := by
    rw [← hword 5 (by decide), Memory.word]
    simp only [UInt32.add_assoc]
    rfl
  unfold ImageHeader.words imageHeaderAt
  simp only [Vector.getElem_ofFn]
  change [_, _, _, _, wordOf (memory (_ + 0)) (memory (_ + 1)) (memory (_ + 2)) (memory (_ + 3)),
    wordOf (memory (_ + 4)) (memory (_ + 5)) (memory (_ + 6)) (memory (_ + 7)), _] = _
  rw [hmagic, hlow, hhigh]
  exact congrArg₂ _ rfl (congrArg₂ _ (hword 1 (by decide)) (congrArg₂ _ (hword 2 (by decide))
    (congrArg₂ _ (hword 3 (by decide)) (congrArg _ (congrArg _ (congrArg (fun w => [w])
      (hword 6 (by decide))))))))

theorem checkImageHeader_file_iff :
    checkImageHeader (imageHeaderAt memory (addr + imageHdrOffset)) = 0 ↔
      fileWord file 48 = imageHeaderMagic ∧ checksumOver file headerWords = fileWord file 55 := by
  have hword := fun i hi => headerWord_of_holds hholds hlength (i := i) hi
  have hmagic : (imageHeaderAt memory (addr + imageHdrOffset)).magic = fileWord file 48 := by
    rw [← hword 0 (by decide), show 4 * UInt32.ofNat 0 = 0 from rfl, UInt32.add_zero]
    rfl
  have hchecksum : (imageHeaderAt memory (addr + imageHdrOffset)).hdrChecksum =
      fileWord file 55 := hword 7 (by decide)
  rw [checkImageHeader_eq_zero_iff, imageHeaderAt_words hholds hlength, hmagic, hchecksum]
  rfl

/-- The loader sums the data of the file if the header gives its length. -/
theorem checkImage_file_iff
    (hrom : (fileWord file 50 - fileWord file 49).toNat = file.length)
    {ram : Memory} {data : UInt32} (hram : HoldsFile ram data file) :
    checkImage (imageHeaderAt memory (addr + imageHdrOffset)) ram data = 0 ↔
      checksumOver file (dataWords file.length) = fileWord file 54 := by
  have hstart : (imageHeaderAt memory (addr + imageHdrOffset)).romStart = fileWord file 49 :=
    headerWord_of_holds hholds hlength (i := 1) (by decide)
  have hend : (imageHeaderAt memory (addr + imageHdrOffset)).romEnd = fileWord file 50 :=
    headerWord_of_holds hholds hlength (i := 2) (by decide)
  have hchecksum : (imageHeaderAt memory (addr + imageHdrOffset)).dataChecksum =
      fileWord file 54 := headerWord_of_holds hholds hlength (i := 6) (by decide)
  have hindices : dataIndices (imageHeaderAt memory (addr + imageHdrOffset)) =
      dataWords file.length := by
    unfold dataIndices dataWords
    rw [hstart, hend, UInt32.toNat_div, hrom]
    rfl
  have hmap : (dataWords file.length).map (fun i => ram.word (data + 4 * UInt32.ofNat i)) =
      (dataWords file.length).map (fileWord file) := by
    apply List.map_congr_left
    intro i hi
    apply hram.word
    unfold dataWords at hi
    simp only [List.mem_append, List.mem_range'_1] at hi
    omega
  rw [checkImage_eq_zero_iff, hindices, hmap, hchecksum]
  rfl

end Loader

/-- The two checks of the loader, on the header read from the flash and the image
copied to the RAM, both succeed. -/
def Passes (flash : Memory) (norPhyAddr : UInt32) (ram : Memory) (data : UInt32) : Prop :=
  checkImageHeader (imageHeaderAt flash (norPhyAddr + imageHdrOffset)) = 0 ∧
    checkImage (imageHeaderAt flash (norPhyAddr + imageHdrOffset)) ram data = 0

/-! ## Single words -/

theorem nodup_dataWords (length : Nat) : (dataWords length).Nodup := by
  unfold dataWords
  refine List.nodup_append.mpr ⟨List.nodup_range', List.nodup_range', ?_⟩
  intro i hi j hj
  rw [List.mem_range'_1] at hi hj
  omega

theorem nodup_headerWords : headerWords.Nodup := List.nodup_range'

theorem checksumOver_ne {file changed : List UInt8} {indices : List Nat} {k : Nat}
    (hnodup : indices.Nodup) (hk : k ∈ indices)
    (hsame : ∀ i, i ≠ k → fileWord changed i = fileWord file i)
    (hne : fileWord changed k ≠ fileWord file k) :
    checksumOver changed indices ≠ checksumOver file indices := by
  intro heq
  refine sum_map_ne_of_single hnodup hk (fun i _ hi => hsame i hi) hne ?_
  exact (UInt32.add_right_inj _).mp heq

/-- The file has a new value in one of its words. -/
structure ChangedWord (file changed : List UInt8) (k : Nat) : Prop where
  length : changed.length = file.length
  same : ∀ i, i / 4 ≠ k → changed[i]? = file[i]?
  changed : changed ≠ file

theorem ChangedWord.fileWord_of_ne {file changed : List UInt8} {k i : Nat}
    (hchanged : ChangedWord file changed k) (hi : i ≠ k) :
    fileWord changed i = fileWord file i := by
  apply fileWord_congr
  intro j hj
  rw [List.getD_eq_getElem?_getD, List.getD_eq_getElem?_getD, hchanged.same _ (by omega)]

theorem ChangedWord.fileWord_ne {file changed : List UInt8} {k : Nat}
    (hchanged : ChangedWord file changed k) (hwhole : file.length % 4 = 0) :
    fileWord changed k ≠ fileWord file k := by
  intro heq
  apply hchanged.changed
  apply ext_fileWord hchanged.length
  · rw [hchanged.length, hwhole]
  · intro i _
    by_cases hi : i = k
    · rw [hi, heq]
    · exact hchanged.fileWord_of_ne hi

theorem ChangedWord.lt {file changed : List UInt8} {k : Nat}
    (hchanged : ChangedWord file changed k) (hwhole : file.length % 4 = 0) :
    4 * k + 4 ≤ file.length := by
  by_contra hout
  apply hchanged.changed
  apply List.ext_getElem?
  intro i
  by_cases hi : i / 4 = k
  · have hlength := hchanged.length
    rw [List.getElem?_eq_none (by omega), List.getElem?_eq_none (by omega)]
  · exact hchanged.same i hi

/-- A file with the right checksums passes, wherever it is stored and loaded. -/
theorem passes_of_sealed {file : List UInt8} (hlength : 0xe0 ≤ file.length)
    (hmagic : fileWord file 48 = imageHeaderMagic)
    (hrom : (fileWord file 50 - fileWord file 49).toNat = file.length) (hsealed : Sealed file)
    {flash ram : Memory} {norPhyAddr data : UInt32} (hflash : HoldsFile flash norPhyAddr file)
    (hram : HoldsFile ram data file) : Passes flash norPhyAddr ram data := by
  constructor
  · exact (checkImageHeader_file_iff hflash hlength).mpr ⟨hmagic, hsealed.header.symm⟩
  · exact (checkImage_file_iff hflash hlength hrom hram).mpr hsealed.data.symm

/-- A file that differs in one word from a file with the right checksums does not pass. -/
theorem not_passes_of_changedWord {file changed : List UInt8} {k : Nat}
    (hwhole : file.length % 4 = 0) (hlength : 0xe0 ≤ file.length)
    (hrom : (fileWord file 50 - fileWord file 49).toNat = file.length) (hsealed : Sealed file)
    (hchanged : ChangedWord file changed k) {flash ram : Memory} {norPhyAddr data : UInt32}
    (hflash : HoldsFile flash norPhyAddr changed) (hram : HoldsFile ram data changed) :
    ¬ Passes flash norPhyAddr ram data := by
  have hlength' : 0xe0 ≤ changed.length := by rw [hchanged.length]; exact hlength
  have hsame := fun i hi => hchanged.fileWord_of_ne (i := i) hi
  have hne := hchanged.fileWord_ne hwhole
  have hinside := hchanged.lt hwhole
  rintro ⟨hheader, hdata⟩
  obtain ⟨-, hheader⟩ := (checkImageHeader_file_iff hflash hlength').mp hheader
  by_cases hk : k ∈ headerWords
  · -- a word that the header checksum is over
    refine checksumOver_ne nodup_headerWords hk hsame hne ?_
    have hk' := mem_headerWords.mp hk
    rw [hheader, ← hsealed.header, hsame 55 (by omega)]
  · by_cases h55 : k = 55
    · apply hne
      rw [h55, ← hheader, hsealed.header]
      apply checksumOver_congr
      intro i hi
      exact hsame i fun heq => hk (heq ▸ hi)
    · -- the header is as it was, so the data is summed and shows the difference
      have houter : ¬ (48 ≤ k ∧ k < 55) := fun h => hk (mem_headerWords.mpr h)
      have hrom' : (fileWord changed 50 - fileWord changed 49).toNat = changed.length := by
        rw [hsame 50 (by omega), hsame 49 (by omega), hrom, hchanged.length]
      have hdata := (checkImage_file_iff hflash hlength' hrom' hram).mp hdata
      refine checksumOver_ne (nodup_dataWords file.length) (k := k) ?_ hsame hne ?_
      · unfold dataWords
        simp only [List.mem_append, List.mem_range'_1]
        omega
      · rw [← hchanged.length, hdata, hchanged.length, ← hsealed.data, hsame 54 (by omega)]

/-- For every image file whose header gives its length and has the magic: the script
changes the two checksums and nothing else, the loader accepts the result wherever it is
stored and loaded, running the script again changes nothing, and the loader rejects the
result with another value in any one word. -/
theorem script_and_loader_agree (file : List UInt8) (hwhole : file.length % 4 = 0)
    (hlength : 0xe0 ≤ file.length) (hmagic : fileWord file (0xc0 / 4) = imageHeaderMagic)
    (hrom : (fileWord file (0xc8 / 4) - fileWord file (0xc4 / 4)).toNat = file.length) :
    ∃ out, addCsum file = some out ∧ out.length = file.length ∧
      (∀ i, ¬ (0xc0 + 0x18 ≤ i ∧ i < 0xc0 + 0x20) → out[i]? = file[i]?) ∧
      (∀ flash norPhyAddr ram data, HoldsFile flash norPhyAddr out → HoldsFile ram data out →
        Passes flash norPhyAddr ram data) ∧
      addCsum out = some out ∧
      ∀ k changed, ChangedWord out changed k → ∀ flash norPhyAddr ram data,
        HoldsFile flash norPhyAddr changed → HoldsFile ram data changed →
          ¬ Passes flash norPhyAddr ram data := by
  have hhalf : (stampWord file 54 (dataWords file.length)).length = file.length :=
    length_stampWord (by omega) _
  have hinside : 4 * 55 + 4 ≤ (stampWord file 54 (dataWords file.length)).length := by omega
  have hout := length_stampWord hinside headerWords
  rw [hhalf] at hout
  have hsealed := stamped_sealed hlength
  have hword : ∀ i < 54,
      fileWord (stampWord (stampWord file 54 (dataWords file.length)) 55 headerWords) i =
        fileWord file i := by
    intro i hi
    rw [fileWord_stampWord hinside, if_neg (by omega), fileWord_stampWord (by omega),
      if_neg (by omega)]
  have hbyte : ∀ i, ¬ (0xc0 + 0x18 ≤ i ∧ i < 0xc0 + 0x20) →
      (stampWord (stampWord file 54 (dataWords file.length)) 55 headerWords)[i]? = file[i]? := by
    intro i hi
    rw [getElem?_stampWord hinside _ (by omega), getElem?_stampWord (by omega) _ (by omega)]
  refine ⟨_, addCsum_eq hwhole hlength, hout, hbyte, ?_, ?_, ?_⟩
  · intro flash norPhyAddr ram data
    apply passes_of_sealed (by omega) ((hword 48 (by decide)).trans hmagic) ?_ hsealed
    rw [hword 50 (by decide), hword 49 (by decide), hout]
    exact hrom
  · exact addCsum_of_sealed (by omega) (by omega) hsealed
  · intro k changed hchanged flash norPhyAddr ram data
    apply not_passes_of_changedWord (by omega) (by omega) ?_ hsealed hchanged
    rw [hword 50 (by decide), hword 49 (by decide), hout]
    exact hrom

/-- A header of an image of `0xe0` bytes at `0x20000000`, between zeros. -/
def sampleImage : List UInt8 :=
  List.replicate 0xc0 0 ++
    [0x41, 0x54, 0x42, 0, 0, 0, 0, 0x20, 0xe0, 0, 0, 0x20, 1, 0, 0, 0x20] ++ List.replicate 16 0

theorem sampleImage_accepted :
    ∃ out, addCsum sampleImage = some out ∧ addCsum out = some out ∧
      Passes (fun addr => out.getD addr.toNat 0) 0 (fun addr => out.getD addr.toNat 0) 0 := by
  obtain ⟨out, hout, hlength, -, hpasses, hagain, -⟩ :=
    script_and_loader_agree sampleImage (by decide +kernel) (by decide +kernel)
      (by decide +kernel) (by decide +kernel)
  have hholds : HoldsFile (fun addr => out.getD addr.toNat 0) 0 out := by
    intro i hi
    have hsample : sampleImage.length = 0xe0 := by decide +kernel
    rw [UInt32.zero_add]
    dsimp only
    rw [UInt32.toNat_ofNat', Nat.mod_eq_of_lt (by omega)]
  exact ⟨out, hout, hagain, hpasses _ _ _ _ hholds hholds⟩

end CubieBle.Loader
