import CubieBle.Hci.Llcc
import CubieBle.Machine.Crc

/-! # The checksum of a packet

The table of `crc8_compute` lists the remainders of single bytes. The checksum of a packet is
therefore its remainder bit by bit, and what holds of remainders holds of it.
-/

namespace CubieBle.Hci

open Machine

/-- The generator polynomial without its leading term. -/
def crc8Poly : BitVec 8 := 0x1D#8

/-- The bits of a packet, the most significant of each byte first. -/
def packetBits (packet : List UInt8) : List Bool :=
  packet.flatMap fun byte => msbBits byte.toBitVec

/-- The checksum bit by bit. -/
def crc8Bitwise (packet : List UInt8) : UInt8 :=
  UInt8.ofBitVec (crcBits crc8Poly 0 (packetBits packet))

/-- The packet lies in memory from the address `data` on. -/
def Holds (memory : Memory) : UInt32 → List UInt8 → Prop
  | _, [] => True
  | data, byte :: packet => memory data = byte ∧ Holds memory (data + 1) packet

theorem crc8Poly_odd : crc8Poly.getLsbD 0 = true := rfl

theorem length_packetBits (packet : List UInt8) :
    (packetBits packet).length = 8 * packet.length := by
  induction packet with
  | nil => rfl
  | cons byte packet ih =>
      rw [packetBits, List.flatMap_cons, List.length_append, length_msbBits]
      rw [packetBits] at ih
      rw [ih, List.length_cons]
      omega

theorem packetBits_injective {d e : List UInt8} (hlength : d.length = e.length)
    (hbits : packetBits d = packetBits e) : d = e := by
  induction d generalizing e with
  | nil => exact (List.length_eq_zero_iff.mp hlength.symm).symm
  | cons byte d ih =>
      cases e with
      | nil => simp at hlength
      | cons other e =>
          simp only [packetBits, List.flatMap_cons] at hbits
          obtain ⟨hfirst, hrest⟩ := List.append_inj hbits (by simp)
          have hbyte : byte = other := UInt8.toBitVec_inj.mp (msbBits_injective hfirst)
          rw [hbyte, ih (by simpa using hlength) hrest]

theorem packetBits_xor {d e : List UInt8} (hlength : d.length = e.length) :
    packetBits (List.zipWith (· ^^^ ·) d e) =
      List.zipWith Bool.xor (packetBits d) (packetBits e) := by
  induction d generalizing e with
  | nil => simp [packetBits]
  | cons byte d ih =>
      cases e with
      | nil => simp at hlength
      | cons other e =>
          have hbyte : msbBits (byte ^^^ other).toBitVec =
              List.zipWith Bool.xor (msbBits byte.toBitVec) (msbBits other.toBitVec) := by
            apply List.ext_getElem
            · simp
            · intro i _ _
              simp [msbBits]
          have hrest := ih (e := e) (by simpa using hlength)
          simp only [packetBits] at hrest
          simp only [packetBits, List.zipWith_cons_cons, List.flatMap_cons]
          rw [hbyte, hrest, List.zipWith_append (by simp)]

/-! ## The table -/

/-- Each entry is the remainder of its index. -/
theorem crc8Table_eq (index : UInt8) :
    (crc8Table.get index.toFin).toBitVec =
      crcBits crc8Poly index.toBitVec (List.replicate 8 false) := by
  have htable : crc8Table.toList.map UInt8.toBitVec =
      (List.range 256).map fun i =>
        crcBits crc8Poly (BitVec.ofNat 8 i) (List.replicate 8 false) := by
    decide +kernel
  have hentry := congrArg (fun entries => entries[index.toNat]?) htable
  have hlt : index.toNat < 256 := index.toNat_lt
  have hlength : index.toNat < crc8Table.toList.length := by
    rw [Vector.length_toList]
    exact hlt
  simp only [List.getElem?_map, List.getElem?_range hlt, List.getElem?_eq_getElem hlength,
    Option.map_some, Option.some.injEq, Vector.getElem_toList] at hentry
  have hword : BitVec.ofNat 8 index.toNat = index.toBitVec := by
    rw [← UInt8.toNat_toBitVec, BitVec.ofNat_toNat, BitVec.setWidth_eq]
  rw [hword] at hentry
  exact hentry

/-- One pass of the loop takes the eight bits of a byte. -/
theorem crc8Table_step (byte crc : UInt8) :
    (crc8Table.get (byte ^^^ crc).toFin).toBitVec =
      crcBits crc8Poly crc.toBitVec (msbBits byte.toBitVec) := by
  rw [crc8Table_eq, crcBits_msbBits crc8Poly_odd, UInt8.toBitVec_xor]

theorem crc8Loop_eq {memory : Memory} {packet : List UInt8} {data : UInt32}
    (hpacket : Holds memory data packet) (crc : UInt8) :
    (crc8Loop memory data packet.length crc).toBitVec =
      crcBits crc8Poly crc.toBitVec (packetBits packet) := by
  induction packet generalizing data crc with
  | nil => rfl
  | cons byte packet ih =>
      obtain ⟨hbyte, hrest⟩ := hpacket
      rw [List.length_cons, crc8Loop, hbyte, ih hrest, crc8Table_step, packetBits, packetBits,
        List.flatMap_cons, crcBits_append]

theorem crc8Compute_eq {memory : Memory} {packet : List UInt8} {data : UInt32}
    (hsize : packet.length < 2 ^ 32) (hpacket : Holds memory data packet) :
    crc8Compute memory data (UInt32.ofNat packet.length) = crc8Bitwise packet := by
  apply UInt8.toBitVec_inj.mp
  rw [crc8Compute, UInt32.toNat_ofNat_of_lt' hsize, crc8Loop_eq hpacket]
  rfl

/-! ## The laws of the remainder -/

theorem crc8Bitwise_xor {d e : List UInt8} (hlength : d.length = e.length) :
    crc8Bitwise (List.zipWith (· ^^^ ·) d e) = crc8Bitwise d ^^^ crc8Bitwise e := by
  have hbits : (packetBits d).length = (packetBits e).length := by
    rw [length_packetBits, length_packetBits, hlength]
  have hsum := crcBits_xor crc8Poly hbits 0 0
  apply UInt8.toBitVec_inj.mp
  rw [crc8Bitwise, packetBits_xor hlength]
  exact hsum

theorem crc8Bitwise_ne {d e : List UInt8} (hlength : d.length = e.length) {start : Nat}
    (hsame : ∀ i, i < start ∨ start + 8 ≤ i → (packetBits d)[i]? = (packetBits e)[i]?)
    (hne : d ≠ e) : crc8Bitwise d ≠ crc8Bitwise e := by
  intro heq
  have hbits : (packetBits d).length = (packetBits e).length := by
    rw [length_packetBits, length_packetBits, hlength]
  have hdiffer : packetBits d ≠ packetBits e := by
    intro hequal
    exact hne (packetBits_injective hlength hequal)
  exact crcBits_ne_of_burst crc8Poly_odd hbits hsame hdiffer (congrArg UInt8.toBitVec heq)

/-- `crc8_compute` is the CRC-8 of the polynomial `0x1D`. Two packets of one length and their sum
lie anywhere in memory: each has its remainder bit by bit, the checksum of the sum is the sum of
the checksums, and packets that differ only within eight consecutive bits have different
checksums. -/
theorem crc8Compute_is_crc {d e : List UInt8} (hlength : d.length = e.length)
    (hsize : d.length < 2 ^ 32) {memD memE memSum : Memory} {ptrD ptrE ptrSum : UInt32}
    (hd : Holds memD ptrD d) (he : Holds memE ptrE e)
    (hsum : Holds memSum ptrSum (List.zipWith (· ^^^ ·) d e)) :
    let len := UInt32.ofNat d.length
    crc8Compute memD ptrD len = crc8Bitwise d ∧
      crc8Compute memSum ptrSum len = crc8Compute memD ptrD len ^^^ crc8Compute memE ptrE len ∧
      ∀ start, (∀ i, i < start ∨ start + 8 ≤ i → (packetBits d)[i]? = (packetBits e)[i]?) →
        d ≠ e → crc8Compute memD ptrD len ≠ crc8Compute memE ptrE len := by
  intro len
  have hlen : d.length = (List.zipWith (· ^^^ ·) d e).length := by simp [hlength]
  have hremD : crc8Compute memD ptrD len = crc8Bitwise d := crc8Compute_eq hsize hd
  have hremE : crc8Compute memE ptrE len = crc8Bitwise e := by
    have hsizeE : e.length < 2 ^ 32 := by omega
    simpa only [len, hlength] using crc8Compute_eq hsizeE he
  have hremSum : crc8Compute memSum ptrSum len = crc8Bitwise (List.zipWith (· ^^^ ·) d e) := by
    have hsizeSum : (List.zipWith (· ^^^ ·) d e).length < 2 ^ 32 := by omega
    simpa only [len, ← hlen] using crc8Compute_eq hsizeSum hsum
  rw [hremD, hremE, hremSum]
  refine ⟨rfl, crc8Bitwise_xor hlength, ?_⟩
  intro start hsame hne
  exact crc8Bitwise_ne hlength hsame hne

/-- One bit of a packet of two bytes is lost. -/
theorem crc8Compute_is_crc_one_bit :
    crc8Compute (fun addr => if addr = 0 then 0x81 else 0x02) 0 2 ≠
      crc8Compute (fun addr => if addr = 0 then 0x80 else 0x02) 0 2 := by
  have hd : Holds (fun addr => if addr = 0 then 0x81 else 0x02) 0 [0x81, 0x02] := by
    simp [Holds]
  have he : Holds (fun addr => if addr = 0 then 0x80 else 0x02) 0 [0x80, 0x02] := by
    simp [Holds]
  have hsum : Holds (fun addr => if addr = 0 then 0x01 else 0x00) 0
      (List.zipWith (· ^^^ ·) [0x81, 0x02] [0x80, 0x02]) := by
    have hbytes : List.zipWith (· ^^^ ·) [0x81, 0x02] [0x80, 0x02] = [(0x01 : UInt8), 0x00] := by
      decide
    simp [hbytes, Holds]
  have hlength : [(0x81 : UInt8), 0x02].length = [(0x80 : UInt8), 0x02].length := rfl
  have hlaws := crc8Compute_is_crc hlength (by decide) hd he hsum
  apply hlaws.2.2 7
  · intro i hi
    by_cases hlow : i < 16
    · have hwindow : ∀ j < 16, j < 7 ∨ 7 + 8 ≤ j →
          (packetBits [0x81, 0x02])[j]? = (packetBits [0x80, 0x02])[j]? := by decide
      exact hwindow i hlow hi
    · have hout : ∀ packet : List UInt8, packet.length = 2 → (packetBits packet)[i]? = none := by
        intro packet hpacket
        rw [List.getElem?_eq_none_iff, length_packetBits, hpacket]
        omega
      rw [hout _ rfl, hout _ rfl]
  · simp

end CubieBle.Hci
