import Mathlib.Data.Nat.Digits.Lemmas
import CubieBle.Build.Firmware
import CubieBle.Machine.Blocks

/-! # The CRC segments of a file

`add_crc` writes a file again with a checksum after every 32 bytes. Its two counters move
together: what is left of the file begins at `i`, and `length` falls below zero in the last pass
if the file does not end with a block.
-/

namespace CubieBle.Build.AddCrc

open Machine

/-! ## The checksum -/

def crc16Table : List Nat := [
  0x0000, 0x1189, 0x2312, 0x329b, 0x4624, 0x57ad, 0x6536, 0x74bf,
  0x8c48, 0x9dc1, 0xaf5a, 0xbed3, 0xca6c, 0xdbe5, 0xe97e, 0xf8f7,
  0x1081, 0x0108, 0x3393, 0x221a, 0x56a5, 0x472c, 0x75b7, 0x643e,
  0x9cc9, 0x8d40, 0xbfdb, 0xae52, 0xdaed, 0xcb64, 0xf9ff, 0xe876,
  0x2102, 0x308b, 0x0210, 0x1399, 0x6726, 0x76af, 0x4434, 0x55bd,
  0xad4a, 0xbcc3, 0x8e58, 0x9fd1, 0xeb6e, 0xfae7, 0xc87c, 0xd9f5,
  0x3183, 0x200a, 0x1291, 0x0318, 0x77a7, 0x662e, 0x54b5, 0x453c,
  0xbdcb, 0xac42, 0x9ed9, 0x8f50, 0xfbef, 0xea66, 0xd8fd, 0xc974,
  0x4204, 0x538d, 0x6116, 0x709f, 0x0420, 0x15a9, 0x2732, 0x36bb,
  0xce4c, 0xdfc5, 0xed5e, 0xfcd7, 0x8868, 0x99e1, 0xab7a, 0xbaf3,
  0x5285, 0x430c, 0x7197, 0x601e, 0x14a1, 0x0528, 0x37b3, 0x263a,
  0xdecd, 0xcf44, 0xfddf, 0xec56, 0x98e9, 0x8960, 0xbbfb, 0xaa72,
  0x6306, 0x728f, 0x4014, 0x519d, 0x2522, 0x34ab, 0x0630, 0x17b9,
  0xef4e, 0xfec7, 0xcc5c, 0xddd5, 0xa96a, 0xb8e3, 0x8a78, 0x9bf1,
  0x7387, 0x620e, 0x5095, 0x411c, 0x35a3, 0x242a, 0x16b1, 0x0738,
  0xffcf, 0xee46, 0xdcdd, 0xcd54, 0xb9eb, 0xa862, 0x9af9, 0x8b70,
  0x8408, 0x9581, 0xa71a, 0xb693, 0xc22c, 0xd3a5, 0xe13e, 0xf0b7,
  0x0840, 0x19c9, 0x2b52, 0x3adb, 0x4e64, 0x5fed, 0x6d76, 0x7cff,
  0x9489, 0x8500, 0xb79b, 0xa612, 0xd2ad, 0xc324, 0xf1bf, 0xe036,
  0x18c1, 0x0948, 0x3bd3, 0x2a5a, 0x5ee5, 0x4f6c, 0x7df7, 0x6c7e,
  0xa50a, 0xb483, 0x8618, 0x9791, 0xe32e, 0xf2a7, 0xc03c, 0xd1b5,
  0x2942, 0x38cb, 0x0a50, 0x1bd9, 0x6f66, 0x7eef, 0x4c74, 0x5dfd,
  0xb58b, 0xa402, 0x9699, 0x8710, 0xf3af, 0xe226, 0xd0bd, 0xc134,
  0x39c3, 0x284a, 0x1ad1, 0x0b58, 0x7fe7, 0x6e6e, 0x5cf5, 0x4d7c,
  0xc60c, 0xd785, 0xe51e, 0xf497, 0x8028, 0x91a1, 0xa33a, 0xb2b3,
  0x4a44, 0x5bcd, 0x6956, 0x78df, 0x0c60, 0x1de9, 0x2f72, 0x3efb,
  0xd68d, 0xc704, 0xf59f, 0xe416, 0x90a9, 0x8120, 0xb3bb, 0xa232,
  0x5ac5, 0x4b4c, 0x79d7, 0x685e, 0x1ce1, 0x0d68, 0x3ff3, 0x2e7a,
  0xe70e, 0xf687, 0xc41c, 0xd595, 0xa12a, 0xb0a3, 0x8238, 0x93b1,
  0x6b46, 0x7acf, 0x4854, 0x59dd, 0x2d62, 0x3ceb, 0x0e70, 0x1ff9,
  0xf78f, 0xe606, 0xd49d, 0xc514, 0xb1ab, 0xa022, 0x92b9, 0x8330,
  0x7bc7, 0x6a4e, 0x58d5, 0x495c, 0x3de3, 0x2c6a, 0x1ef1, 0x0f78]

/-- The digits of `bin(n)[2:]`, the most significant first. -/
def bin (n : Nat) : List Nat := if n = 0 then [0] else (Nat.digits 2 n).reverse

def reflect (crc : Nat) : Nat :=
  let m := List.replicate 16 0
  let b := bin crc
  let m := b.reverse ++ m.drop b.length
  m.foldl (fun value digit => 2 * value + digit) 0

/-- `_crc16`; an index outside the table is an exception. -/
def crc16With (data : List UInt8) (crc : Nat) (table : List Nat) : Option Nat := do
  let crc := reflect crc
  let crc ← data.foldlM
    (fun crc byte => do
      let entry ← table[(crc &&& 0xff) ^^^ byte.toNat]?
      return ((crc >>> 8) &&& 0xff) ^^^ entry) crc
  let crc := reflect crc
  return ((crc >>> 8) &&& 0xff) ||| ((crc &&& 0xff) <<< 8)

def crc16 (data : List UInt8) (crc : Nat) : Option Nat := crc16With data crc crc16Table

/-- `struct.pack('<H', crc)`, which takes numbers of 16 bits only. -/
def packH (crc : Nat) : Option (List UInt8) :=
  if crc < 0x10000 then some [UInt8.ofNat crc, UInt8.ofNat (crc / 0x100)] else none

/-! ## The loop -/

/-- A slice of the file. -/
def slice (filedata : List UInt8) (start stop : Nat) : List UInt8 :=
  (filedata.drop start).take (stop - start)

/-- The loop of `add_crc`, with what it has written. -/
def addCrcLoop (filedata : List UInt8) (length : Int) (i : Nat) (written : List UInt8) :
    Option (List UInt8) :=
  if 0 < length then do
    let chunk :=
      if length < chunkSize then
        slice filedata i (i + length.toNat) ++ List.replicate (chunkSize - length).toNat 0
      else slice filedata i (i + chunkSize)
    let crc ← crc16 chunk 0xffff
    let packed ← packH crc
    addCrcLoop filedata (length - chunkSize) (i + chunkSize) (written ++ (chunk ++ packed))
  else some written
termination_by length.toNat
decreasing_by
  rw [chunkSize]
  omega

def addCrc (filedata : List UInt8) : Option (List UInt8) :=
  addCrcLoop filedata filedata.length 0 []

/-! ## The checksum is a number of 16 bits -/

theorem reflect_eq {crc : Nat} (hcrc : crc < 0x10000) : reflect crc = Build.reflect crc := by
  have hdigits : (bin crc).reverse ++ (List.replicate 16 0).drop (bin crc).length =
      (List.range 16).map fun i => (crc >>> i) % 2 := by
    by_cases hzero : crc = 0
    · rw [hzero]
      decide
    · have hlength : (Nat.digits 2 crc).length ≤ 16 :=
        (Nat.digits_length_le_iff (by decide) crc).mpr hcrc
      rw [bin, if_neg hzero, List.reverse_reverse, List.length_reverse, List.drop_replicate]
      apply List.ext_getElem
      · rw [List.length_append, List.length_replicate, List.length_map, List.length_range]
        omega
      · intro i _ hi
        have hdigit := Nat.getD_digits crc i (b := 2) (by decide)
        rw [List.getD_eq_getElem?_getD] at hdigit
        rw [List.getElem_map, List.getElem_range, Nat.shiftRight_eq_div_pow, ← hdigit]
        by_cases hinside : i < (Nat.digits 2 crc).length
        · rw [List.getElem_append_left hinside, List.getElem?_eq_getElem hinside]
          rfl
        · rw [List.getElem_append_right (by omega), List.getElem_replicate,
            List.getElem?_eq_none (by omega)]
          rfl
  rw [reflect, Build.reflect, hdigits, List.foldl_map]

theorem crc16Table_lt {index : Nat} (hindex : index < 2 ^ 16) :
    Build.crc16Table index < 2 ^ 16 := by
  rw [Build.crc16Table]
  apply Function.Iterate.rec (fun crc => crc < 2 ^ 16) hindex
  intro crc hcrc
  have hshift : crc >>> 1 < 2 ^ 16 := Nat.lt_of_le_of_lt (Nat.shiftRight_le crc 1) hcrc
  split_ifs
  · exact Nat.xor_lt_two_pow hshift (by decide)
  · exact hshift

/-- The table lists the remainders of the bytes. -/
theorem crc16Table_eq {index : Nat} (hindex : index < 256) :
    crc16Table[index]? = some (Build.crc16Table index) ∧ Build.crc16Table index < 2 ^ 16 := by
  have htable : crc16Table = (List.range 256).map Build.crc16Table := by decide +kernel
  constructor
  · rw [htable, List.getElem?_map, List.getElem?_range hindex]
    rfl
  · apply crc16Table_lt
    omega

theorem foldlM_crc16Table (data : List UInt8) {crc : Nat} (hcrc : crc < 2 ^ 16) :
    ∃ last < 2 ^ 16, data.foldl
      (fun crc byte => ((crc >>> 8) &&& 0xff) ^^^ Build.crc16Table ((crc &&& 0xff) ^^^ byte.toNat))
        crc = last ∧
      data.foldlM (m := Option)
        (fun crc byte => do
          let entry ← crc16Table[(crc &&& 0xff) ^^^ byte.toNat]?
          return ((crc >>> 8) &&& 0xff) ^^^ entry) crc = some last := by
  induction data generalizing crc with
  | nil => exact ⟨crc, hcrc, rfl, rfl⟩
  | cons byte data ih =>
      have hlow : crc &&& 0xff < 2 ^ 8 := Nat.and_lt_two_pow crc (by decide)
      have hhigh : (crc >>> 8) &&& 0xff < 2 ^ 16 := Nat.and_lt_two_pow _ (by decide)
      have hindex : (crc &&& 0xff) ^^^ byte.toNat < 256 := Nat.xor_lt_two_pow hlow byte.toNat_lt
      obtain ⟨hentry, hsmall⟩ := crc16Table_eq hindex
      obtain ⟨last, hlast, hfold, hfoldM⟩ := ih (Nat.xor_lt_two_pow hhigh hsmall)
      refine ⟨last, hlast, hfold, ?_⟩
      rw [List.foldlM_cons, hentry]
      exact hfoldM

theorem crc16_lt (data : List UInt8) (crc : Nat) : Build.crc16 data crc < 0x10000 := by
  rw [Build.crc16]
  apply Nat.or_lt_two_pow (n := 16)
  · exact Nat.and_lt_two_pow _ (by decide)
  · rw [Nat.shiftLeft_eq]
    have hlow : ∀ value, value &&& 0xff < 2 ^ 8 := fun value => Nat.and_lt_two_pow value (by decide)
    have hvalue := hlow (Build.reflect (data.foldl (fun crc byte => ((crc >>> 8) &&& 0xff) ^^^
      Build.crc16Table ((crc &&& 0xff) ^^^ byte.toNat)) (Build.reflect crc)))
    omega

/-- No exception is raised on the way. -/
theorem crc16_eq (data : List UInt8) : crc16 data 0xffff = some (Build.crc16 data 0xffff) := by
  have hinit : reflect 0xffff = Build.reflect 0xffff := reflect_eq (by decide)
  have hstart : Build.reflect 0xffff < 2 ^ 16 := by decide
  obtain ⟨last, hlast, hfold, hfoldM⟩ := foldlM_crc16Table data hstart
  rw [crc16, crc16With, Build.crc16, hinit, hfold, hfoldM, ← reflect_eq hlast]
  rfl

/-! ## The segments -/

/-- How many blocks a file has; the last may be filled up. -/
def blockCount (filedata : List UInt8) : Nat := (filedata.length + (chunkSize - 1)) / chunkSize

/-- The file filled up with zeros to a whole number of blocks. -/
def padded (filedata : List UInt8) : List UInt8 :=
  filedata ++ List.replicate (chunkSize * blockCount filedata - filedata.length) 0

theorem length_padded (filedata : List UInt8) :
    (padded filedata).length = chunkSize * blockCount filedata := by
  rw [padded, List.length_append, List.length_replicate, blockCount, chunkSize]
  omega

theorem length_block_padded {filedata : List UInt8} {j : Nat} (hj : j < blockCount filedata) :
    (block chunkSize (padded filedata) j).length = chunkSize := by
  rw [block, List.length_take, List.length_drop, length_padded]
  have hmul : chunkSize * (j + 1) ≤ chunkSize * blockCount filedata :=
    Nat.mul_le_mul_left chunkSize hj
  rw [Nat.mul_succ] at hmul
  omega

/-- The chunk of a pass is the next block of the file that is filled up. -/
theorem block_padded {filedata : List UInt8} {j : Nat} (hj : j < blockCount filedata) :
    (if (filedata.length - (chunkSize * j : Nat) : Int) < chunkSize then
        slice filedata (chunkSize * j)
            (chunkSize * j + (filedata.length - (chunkSize * j : Nat) : Int).toNat) ++
          List.replicate (chunkSize - (filedata.length - (chunkSize * j : Nat) : Int)).toNat 0
      else slice filedata (chunkSize * j) (chunkSize * j + chunkSize)) =
      block chunkSize (padded filedata) j := by
  have hlt : 32 * j < filedata.length := by
    rw [blockCount, chunkSize] at hj
    omega
  rw [block, padded, slice, slice, blockCount, chunkSize,
    List.drop_append_of_le_length (Nat.le_of_lt hlt)]
  split_ifs with hlast
  · -- the last block: what is left of the file, and zeros
    rw [List.take_of_length_le (by rw [List.length_drop]; omega)]
    rw [List.take_append, List.take_of_length_le (by rw [List.length_drop]; omega),
      List.take_replicate, List.length_drop]
    congr 2
    omega
  · rw [Nat.add_sub_cancel_left, List.take_append_of_le_length]
    rw [List.length_drop]
    omega

theorem packH_crc16 (data : List UInt8) :
    packH (Build.crc16 data 0xffff) = some (field 2 (Build.crc16 data 0xffff)) := by
  have hlt := crc16_lt data 0xffff
  generalize Build.crc16 data 0xffff = crc at hlt ⊢
  have hcut : ((crc : Int) % 2 ^ (8 * 2)).toNat = crc := by omega
  rw [packH, if_pos hlt, field, hcut]
  simp [List.range_succ]

theorem crcSegment_of_length {chunk : List UInt8} (hchunk : chunk.length = chunkSize) :
    crcSegment chunk = chunk ++ field 2 (Build.crc16 chunk 0xffff) := by
  rw [crcSegment, hchunk, Nat.sub_self, List.replicate_zero, List.append_nil]

/-- The segments of the first blocks. -/
def segments (filedata : List UInt8) (count : Nat) : List UInt8 :=
  (List.range count).flatMap fun k => crcSegment (block chunkSize (padded filedata) k)

theorem crcSegment_block {filedata : List UInt8} {j : Nat} (hj : j < blockCount filedata) :
    crcSegment (block chunkSize (padded filedata) j) =
      block chunkSize (padded filedata) j ++
        field 2 (Build.crc16 (block chunkSize (padded filedata) j) 0xffff) :=
  crcSegment_of_length (length_block_padded hj)

theorem segments_succ {filedata : List UInt8} {j : Nat} (hj : j < blockCount filedata) :
    segments filedata (j + 1) = segments filedata j ++
      (block chunkSize (padded filedata) j ++
        field 2 (Build.crc16 (block chunkSize (padded filedata) j) 0xffff)) := by
  rw [segments, List.range_succ, List.flatMap_append, List.flatMap_singleton, crcSegment_block hj]
  rfl

/-- Every pass writes the segment of the next block, and there are as many passes as blocks. -/
theorem addCrcLoop_eq (filedata : List UInt8) (passes : Nat) {j : Nat}
    (hj : j + passes = blockCount filedata) :
    addCrcLoop filedata (filedata.length - (chunkSize * j : Nat)) (chunkSize * j)
        (segments filedata j) = some (segments filedata (blockCount filedata)) := by
  induction passes generalizing j with
  | zero =>
      have hdone : ¬(0 : Int) < filedata.length - (chunkSize * j : Nat) := by
        rw [blockCount, chunkSize] at hj
        rw [chunkSize]
        omega
      rw [addCrcLoop, if_neg hdone, ← hj, Nat.add_zero]
  | succ passes ih =>
      have hlt : j < blockCount filedata := by omega
      have hleft : (0 : Int) < filedata.length - (chunkSize * j : Nat) := by
        rw [blockCount, chunkSize] at hlt
        rw [chunkSize]
        omega
      have hlength : (filedata.length - (chunkSize * j : Nat) : Int) - chunkSize =
          filedata.length - (chunkSize * (j + 1) : Nat) := by
        rw [Nat.mul_succ]
        omega
      have hnext := ih (j := j + 1) (by omega)
      rw [addCrcLoop, if_pos hleft, block_padded hlt]
      dsimp only
      rw [crc16_eq, Option.bind_eq_bind, Option.bind_some, packH_crc16, Option.bind_eq_bind,
        Option.bind_some, hlength, ← segments_succ hlt]
      exact hnext

theorem addCrc_eq_segments (filedata : List UInt8) :
    addCrc filedata = some (segments filedata (blockCount filedata)) := by
  have hloop := addCrcLoop_eq filedata (blockCount filedata) (Nat.zero_add _)
  rw [addCrc]
  simpa only [Nat.mul_zero, Nat.cast_zero, sub_zero, segments, List.range_zero,
    List.flatMap_nil] using hloop

/-- The loop does what `generate_crc_file` relies on. -/
theorem addCrc_eq (filedata : List UInt8) : addCrc filedata = some (Build.addCrc filedata) := by
  rw [addCrc_eq_segments, segments, Build.addCrc]
  congr 1
  apply List.flatMap_congr
  intro k hk
  have hlt : 32 * k < filedata.length := by
    have hcount := List.mem_range.mp hk
    rw [blockCount, chunkSize] at hcount
    omega
  rw [crcSegment_of_length (length_block_padded (List.mem_range.mp hk)), crcSegment]
  have hchunk : block chunkSize (padded filedata) k =
      (filedata.drop (k * chunkSize)).take chunkSize ++
        List.replicate (chunkSize - ((filedata.drop (k * chunkSize)).take chunkSize).length) 0 := by
    rw [block, padded, Nat.mul_comm, blockCount, chunkSize,
      List.drop_append_of_le_length (by omega), List.take_append, List.take_replicate,
      List.length_take, List.length_drop]
    congr 2
    omega
  rw [hchunk]

/-! ## The file that is written -/

/-- The two bytes after each block are taken out again. -/
def dropCrc (file : List UInt8) : List UInt8 :=
  keepBlocks chunkSize 2 (file.length / (chunkSize + 2)) file

theorem length_crcSegment_block (filedata : List UInt8) :
    ∀ j < blockCount filedata,
      (crcSegment (block chunkSize (padded filedata) j)).length = chunkSize + 2 := by
  intro j hj
  rw [crcSegment_block hj, List.length_append, length_block_padded hj]
  rfl

theorem length_segments (filedata : List UInt8) :
    (segments filedata (blockCount filedata)).length = (chunkSize + 2) * blockCount filedata :=
  length_flatMap_range (length_crcSegment_block filedata)

theorem block_segments {filedata : List UInt8} {j : Nat} (hj : j < blockCount filedata) :
    block (chunkSize + 2) (segments filedata (blockCount filedata)) j =
      block chunkSize (padded filedata) j ++
        field 2 (Build.crc16 (block chunkSize (padded filedata) j) 0xffff) := by
  rw [segments, block_flatMap_range (length_crcSegment_block filedata) hj, crcSegment_block hj]

theorem dropCrc_segments (filedata : List UInt8) :
    dropCrc (segments filedata (blockCount filedata)) = padded filedata := by
  have hcount : (segments filedata (blockCount filedata)).length / (chunkSize + 2) =
      blockCount filedata := by
    rw [length_segments]
    exact Nat.mul_div_cancel_left _ (by decide)
  have hsegments : segments filedata (blockCount filedata) =
      (List.range (blockCount filedata)).flatMap fun k =>
        block chunkSize (padded filedata) k ++
          field 2 (Build.crc16 (block chunkSize (padded filedata) k) 0xffff) := by
    apply List.flatMap_congr
    intro k hk
    exact crcSegment_block (List.mem_range.mp hk)
  have hkept : keepBlocks chunkSize 2 (blockCount filedata)
      ((List.range (blockCount filedata)).flatMap fun k =>
        block chunkSize (padded filedata) k ++
          field 2 (Build.crc16 (block chunkSize (padded filedata) k) 0xffff)) =
      (List.range (blockCount filedata)).flatMap (block chunkSize (padded filedata)) :=
    keepBlocks_flatMap_range (fun j hj => length_block_padded hj) (fun _ _ => rfl)
  rw [dropCrc, hcount, hsegments, hkept, flatMap_block (length_padded filedata)]

/-- The file has one segment for every 32 bytes or part of them: the block, filled up with zeros,
and its checksum. Without the checksums it is the file that was read, filled up. -/
theorem addCrc_lossless (filedata : List UInt8) :
    ∃ file, addCrc filedata = some file ∧
      file.length = 34 * ((filedata.length + 31) / 32) ∧
      (∀ j < (filedata.length + 31) / 32,
        (block 34 file j).take 32 = block 32 (padded filedata) j ∧
        ∃ crc, crc16 ((block 34 file j).take 32) 0xffff = some crc ∧ crc < 0x10000 ∧
          (block 34 file j).drop 32 = [UInt8.ofNat crc, UInt8.ofNat (crc / 0x100)]) ∧
      dropCrc file = padded filedata := by
  refine ⟨_, addCrc_eq_segments filedata, length_segments filedata, ?_, dropCrc_segments filedata⟩
  intro j hj
  have hchunk : (block chunkSize (padded filedata) j).length = 32 := length_block_padded hj
  have hblock : block 34 (segments filedata (blockCount filedata)) j =
      block 32 (padded filedata) j ++
        field 2 (Build.crc16 (block 32 (padded filedata) j) 0xffff) := block_segments hj
  have htake : (block 34 (segments filedata (blockCount filedata)) j).take 32 =
      block 32 (padded filedata) j := by
    rw [hblock]
    exact List.take_left' hchunk
  have hdrop : (block 34 (segments filedata (blockCount filedata)) j).drop 32 =
      field 2 (Build.crc16 (block 32 (padded filedata) j) 0xffff) := by
    rw [hblock]
    exact List.drop_left' hchunk
  refine ⟨htake, Build.crc16 (block 32 (padded filedata) j) 0xffff, ?_, crc16_lt _ _, ?_⟩
  · rw [htake, crc16_eq]
  · have hpacked := packH_crc16 (block 32 (padded filedata) j)
    rw [packH, if_pos (crc16_lt _ _)] at hpacked
    rw [hdrop]
    exact (Option.some.inj hpacked).symm

end CubieBle.Build.AddCrc
