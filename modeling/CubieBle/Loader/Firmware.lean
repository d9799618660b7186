import CubieBle.Loader.Boot

/-! # The checksums of the build script

The build script opens an image file for reading and writing and puts the checksum of
its data and then the checksum of its header into the header.
-/

namespace CubieBle.Loader

/-- Seek to a position and read. A size of `-1` reads up to the end, and a smaller one
raises an exception. -/
def fileRead (file : List UInt8) (pos : Nat) (size : Int) : Option (List UInt8) :=
  if size < -1 then none
  else if size = -1 then some (file.drop pos)
  else some ((file.drop pos).take size.toNat)

/-- Seek to a position and write. A gap before the position is filled with zeros. -/
def fileWrite (file : List UInt8) (pos : Nat) (data : List UInt8) : List UInt8 :=
  file.take pos ++ List.replicate (pos - file.length) 0 ++ data ++ file.drop (pos + data.length)

/-- The array of unsigned words, which raises an exception if the bytes are not a
whole number of words. -/
def arrayWords : List UInt8 → Option (List Nat)
  | [] => some []
  | b0 :: b1 :: b2 :: b3 :: rest => (arrayWords rest).map ((wordOf b0 b1 b2 b3).toNat :: ·)
  | _ => none

/-- The little-endian bytes of a word. -/
def packWord (value : Nat) : List UInt8 :=
  [UInt8.ofNat value, UInt8.ofNat (value / 2 ^ 8), UInt8.ofNat (value / 2 ^ 16),
    UInt8.ofNat (value / 2 ^ 24)]

/-- The sum is an unbounded integer. -/
def calcChecksum (data : List UInt8) : Option Nat :=
  (arrayWords data).map List.sum

/-- The file afterwards, or nothing if the script raised an exception. -/
def addCsum (file : List UInt8) : Option (List UInt8) := do
  let len : Int := file.length
  let data ← fileRead file 0 0xc0
  let checksum ← calcChecksum data
  let data ← fileRead file (0xc0 + 0x20) (len - (0xc0 + 0x20))
  let rest ← calcChecksum data
  let checksum := (checksum + rest + 0x1234) &&& 0xffffffff
  let file := fileWrite file (0xc0 + 0x18) (packWord checksum)
  -- the checksum just written is part of the header that is summed now
  let data ← fileRead file 0xc0 28
  let checksum ← calcChecksum data
  let checksum := (checksum + 0x1234) &&& 0xffffffff
  some (fileWrite file (0xc0 + 0x1c) (packWord checksum))

/-! ## Writing -/

/-- A write past the end makes the file longer. -/
theorem length_fileWrite_max (file : List UInt8) (pos : Nat) (data : List UInt8) :
    (fileWrite file pos data).length = max file.length (pos + data.length) := by
  unfold fileWrite
  simp only [List.length_append, List.length_take, List.length_replicate, List.length_drop]
  omega

theorem length_fileWrite {file data : List UInt8} {pos : Nat}
    (hinside : pos + data.length ≤ file.length) :
    (fileWrite file pos data).length = file.length := by
  rw [length_fileWrite_max]
  omega

theorem getElem?_fileWrite {file data : List UInt8} {pos : Nat}
    (hinside : pos + data.length ≤ file.length) (i : Nat) :
    (fileWrite file pos data)[i]? =
      if pos ≤ i ∧ i < pos + data.length then data[i - pos]? else file[i]? := by
  have hgap : pos - file.length = 0 := by omega
  have htake : (file.take pos).length = pos := by
    rw [List.length_take]
    omega
  unfold fileWrite
  rw [hgap, List.replicate_zero, List.append_nil]
  by_cases hbefore : i < pos
  · rw [if_neg (by omega), List.append_assoc, List.getElem?_append_left (by omega),
      List.getElem?_take_of_lt hbefore]
  · by_cases hdata : i < pos + data.length
    · rw [if_pos ⟨by omega, hdata⟩, List.append_assoc, List.getElem?_append_right (by omega),
        htake, List.getElem?_append_left (by omega)]
    · rw [if_neg (by omega), List.getElem?_append_right (by rw [List.length_append]; omega),
        List.length_append, htake, List.getElem?_drop]
      congr 1
      omega

end CubieBle.Loader
