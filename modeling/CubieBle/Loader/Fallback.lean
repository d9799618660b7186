import CubieBle.Loader.Boot

/-! # Falling back to a good image

The loader chooses a partition before it checks its image. So it boots a good image,
if there is one, exactly if the image with the largest sequence number is good.
-/

namespace CubieBle.Loader

/-! ## Good images -/

/-- The RAM after the image at an address of the flash was copied to it. -/
def loaded (flash ram : Memory) (norPhyAddr : UInt32) : Memory :=
  let imgHdr := imageHeaderAt flash (norPhyAddr + imageHdrOffset)
  bromSpi0Read flash norPhyAddr (imgHdr.romEnd - imgHdr.romStart) imgHdr.romStart ram

/-- The indices of the words that the data checksum is over. -/
def dataIndices (imgHdr : ImageHeader) : List Nat :=
  List.range' 0 (imageHdrOffset.toNat / 4) ++
    List.range' ((imageHdrOffset.toNat + sizeofImageHeader) / 4)
      (((imgHdr.romEnd - imgHdr.romStart) / 4).toNat -
        (imageHdrOffset.toNat + sizeofImageHeader) / 4)

/-- The image has the right magic, header checksum and data checksum. -/
structure ImageVerifies (flash ram : Memory) (norPhyAddr : UInt32) : Prop where
  magic : (imageHeaderAt flash (norPhyAddr + imageHdrOffset)).magic = imageHeaderMagic
  header : 0x1234 + (imageHeaderAt flash (norPhyAddr + imageHdrOffset)).words.sum =
    (imageHeaderAt flash (norPhyAddr + imageHdrOffset)).hdrChecksum
  data : 0x1234 + ((dataIndices (imageHeaderAt flash (norPhyAddr + imageHdrOffset))).map fun i =>
      (loaded flash ram norPhyAddr).word
        ((imageHeaderAt flash (norPhyAddr + imageHdrOffset)).romStart + 4 * UInt32.ofNat i)).sum =
    (imageHeaderAt flash (norPhyAddr + imageHdrOffset)).dataChecksum

theorem foldl_add_eq_sum (words : List UInt32) (cksum : UInt32) :
    words.foldl (· + ·) cksum = cksum + words.sum := by
  induction words generalizing cksum with
  | nil => simp
  | cons word rest ih => rw [List.foldl_cons, ih, List.sum_cons, UInt32.add_assoc]

theorem sumWords_eq_sum (ram : Memory) (data : UInt32) (first last : Nat) (cksum : UInt32) :
    sumWords ram data first last cksum =
      cksum + ((List.range' first (last - first)).map fun i =>
        ram.word (data + 4 * UInt32.ofNat i)).sum := by
  unfold sumWords
  rw [← foldl_add_eq_sum, List.foldl_map]

theorem checkImageHeader_eq_zero_iff (imgHdr : ImageHeader) :
    checkImageHeader imgHdr = 0 ↔
      imgHdr.magic = imageHeaderMagic ∧ 0x1234 + imgHdr.words.sum = imgHdr.hdrChecksum := by
  unfold checkImageHeader
  rw [foldl_add_eq_sum]
  split
  next hmagic => simp [hmagic]
  next hmagic =>
    rw [not_not] at hmagic
    split
    next hsum => simp [hsum]
    next hsum =>
      rw [not_not] at hsum
      exact ⟨fun _ => ⟨hmagic, hsum⟩, fun _ => rfl⟩

theorem checkImage_eq_zero_iff (imgHdr : ImageHeader) (ram : Memory) (data : UInt32) :
    checkImage imgHdr ram data = 0 ↔
      0x1234 + ((dataIndices imgHdr).map fun i => ram.word (data + 4 * UInt32.ofNat i)).sum =
        imgHdr.dataChecksum := by
  unfold checkImage dataIndices
  simp only [sumWords_eq_sum]
  rw [List.map_append, List.sum_append, ← UInt32.add_assoc]
  split
  next hsum => simpa using hsum
  next hsum => simpa using hsum

theorem loadImage_eq_zero_iff (flash ram : Memory) (norPhyAddr : UInt32) :
    (loadImage flash ram norPhyAddr).1 = 0 ↔ ImageVerifies flash ram norPhyAddr := by
  have hheader := checkImageHeader_eq_zero_iff (imageHeaderAt flash (norPhyAddr + imageHdrOffset))
  unfold loadImage
  by_cases hret : checkImageHeader (imageHeaderAt flash (norPhyAddr + imageHdrOffset)) = 0
  · obtain ⟨hmagic, hsum⟩ := hheader.mp hret
    simp only [hret, ne_eq, not_true_eq_false, if_false]
    rw [checkImage_eq_zero_iff]
    exact ⟨fun hdata => ⟨hmagic, hsum, hdata⟩, fun hverifies => hverifies.data⟩
  · simp only [ne_eq, hret, not_false_eq_true, if_true, false_iff]
    intro hverifies
    exact hret (hheader.mpr ⟨hverifies.magic, hverifies.header⟩)

theorem loadImage_header (flash ram : Memory) (norPhyAddr : UInt32) :
    (loadImage flash ram norPhyAddr).2.1 = imageHeaderAt flash (norPhyAddr + imageHdrOffset) := by
  unfold loadImage
  dsimp only
  split
  next => rfl
  next => rfl

theorem bootApp_entered {flash ram : Memory} {norPhyAddr : UInt32}
    (hverifies : ImageVerifies flash ram norPhyAddr) :
    bootApp flash ram norPhyAddr =
      .entered norPhyAddr (imageHeaderAt flash (norPhyAddr + imageHdrOffset)).entry := by
  unfold bootApp
  dsimp only
  rw [if_neg (not_not.mpr ((loadImage_eq_zero_iff flash ram norPhyAddr).mpr hverifies)),
    loadImage_header]

theorem bootApp_returned {flash ram : Memory} {norPhyAddr : UInt32}
    (hverifies : ¬ ImageVerifies flash ram norPhyAddr) :
    bootApp flash ram norPhyAddr = .returned (-9) := by
  unfold bootApp
  dsimp only
  rw [if_pos (mt (loadImage_eq_zero_iff flash ram norPhyAddr).mp hverifies)]

/-! ## The choice of the partition -/

section Choice

variable (table : PartitionTable) (type : UInt8)

/-- A partition of the type that takes part in the choice. -/
def Candidate (i : Fin maxPartitionCount) : Prop :=
  (table.parts.get i).type = type.toUInt16 ∧ 0 ≤ (table.parts.get i).seq.toInt

/-- The first of the candidates with the largest sequence number. -/
structure Newest (i : Fin maxPartitionCount) : Prop where
  candidate : Candidate table type i
  largest : ∀ j, Candidate table type j →
    (table.parts.get j).seq.toInt ≤ (table.parts.get i).seq.toInt
  first : ∀ j, Candidate table type j → j < i →
    (table.parts.get j).seq.toInt < (table.parts.get i).seq.toInt

/-- What the loop knows after a part of the table: there was no candidate, or the best
one stands between smaller ones and ones that are not larger. -/
def Scanned (seen : List (Fin maxPartitionCount))
    (found : Int × Option (Fin maxPartitionCount)) : Prop :=
  match found.2 with
  | none => found.1 = -1 ∧ ∀ j ∈ seen, ¬ Candidate table type j
  | some i =>
      found.1 = (table.parts.get i).seq.toInt ∧ Candidate table type i ∧
        ∃ before after, seen = before ++ i :: after ∧
          (∀ j ∈ before, Candidate table type j →
            (table.parts.get j).seq.toInt < (table.parts.get i).seq.toInt) ∧
          ∀ j ∈ after, Candidate table type j →
            (table.parts.get j).seq.toInt ≤ (table.parts.get i).seq.toInt

variable {table type}

/-- No candidate seen so far is larger than the best one. -/
theorem Scanned.le {seen : List (Fin maxPartitionCount)} {seq : Int}
    {found : Option (Fin maxPartitionCount)} (hscanned : Scanned table type seen (seq, found)) :
    -1 ≤ seq ∧ ∀ j ∈ seen, Candidate table type j → (table.parts.get j).seq.toInt ≤ seq := by
  cases found with
  | none =>
      obtain ⟨rfl, hnone⟩ := hscanned
      exact ⟨Int.le_refl _, fun j hj hcandidate => absurd hcandidate (hnone j hj)⟩
  | some i =>
      obtain ⟨rfl, hcandidate, before, after, rfl, hbefore, hafter⟩ := hscanned
      refine ⟨Int.le_trans (by decide) hcandidate.2, ?_⟩
      intro j hj hother
      rcases List.mem_append.mp hj with hleft | hright
      · exact (hbefore j hleft hother).le
      · rcases List.mem_cons.mp hright with rfl | hright
        · exact Int.le_refl _
        · exact hafter j hright hother

/-- A partition that is not better leaves the choice as it is. -/
theorem Scanned.keep {seen : List (Fin maxPartitionCount)} {seq : Int}
    {found : Option (Fin maxPartitionCount)} (hscanned : Scanned table type seen (seq, found))
    {i : Fin maxPartitionCount}
    (hworse : Candidate table type i → (table.parts.get i).seq.toInt ≤ seq) :
    Scanned table type (seen ++ [i]) (seq, found) := by
  cases found with
  | none =>
      obtain ⟨hseq, hnone⟩ := hscanned
      refine ⟨hseq, ?_⟩
      intro j hj hcandidate
      rcases List.mem_append.mp hj with hold | hnew
      · exact hnone j hold hcandidate
      · obtain rfl := List.mem_singleton.mp hnew
        have hle := hworse hcandidate
        have hnonneg := hcandidate.2
        dsimp only at hseq
        omega
  | some best =>
      obtain ⟨hseq, hcandidate, before, after, rfl, hbefore, hafter⟩ := hscanned
      refine ⟨hseq, hcandidate, before, after ++ [i], by simp, hbefore, ?_⟩
      intro j hj hother
      rcases List.mem_append.mp hj with hold | hnew
      · exact hafter j hold hother
      · obtain rfl := List.mem_singleton.mp hnew
        exact (hworse hother).trans_eq hseq

theorem scanned_step {seen : List (Fin maxPartitionCount)}
    {found : Int × Option (Fin maxPartitionCount)} (hscanned : Scanned table type seen found)
    (i : Fin maxPartitionCount) :
    Scanned table type (seen ++ [i]) (findPartStep table type found i) := by
  obtain ⟨seq, found⟩ := found
  obtain ⟨hstart, hle⟩ := hscanned.le
  unfold findPartStep
  by_cases htype : (table.parts.get i).type = type.toUInt16
  · by_cases hseq : seq < (table.parts.get i).seq.toInt
    · simp only [htype, hseq, if_true]
      refine ⟨rfl, ⟨htype, by omega⟩, seen, [], rfl, ?_, nofun⟩
      intro j hj hother
      exact (hle j hj hother).trans_lt hseq
    · simp only [htype, hseq, if_true, if_false]
      exact hscanned.keep fun _ => Int.not_lt.mp hseq
  · simp only [htype, if_false]
    exact hscanned.keep fun hcandidate => absurd hcandidate.1 htype

theorem scanned_foldl {seen : List (Fin maxPartitionCount)}
    {found : Int × Option (Fin maxPartitionCount)} (hscanned : Scanned table type seen found)
    (rest : List (Fin maxPartitionCount)) :
    Scanned table type (seen ++ rest) (rest.foldl (findPartStep table type) found) := by
  induction rest generalizing seen found with
  | nil => simpa using hscanned
  | cons i rest ih =>
      have hnext := ih (scanned_step hscanned i)
      rwa [List.append_assoc, List.singleton_append] at hnext

/-- The partition found is the newest candidate; none is found if there is none. -/
theorem findPartByType_spec (table : PartitionTable) (type : UInt8) :
    (findPartByType table type = none ∧ ∀ i, ¬ Candidate table type i) ∨
      ∃ i, findPartByType table type = some i ∧ Newest table type i := by
  have hstart : Scanned table type [] (-1, none) := ⟨rfl, nofun⟩
  have hscanned := scanned_foldl hstart (List.finRange maxPartitionCount)
  rw [List.nil_append] at hscanned
  unfold findPartByType
  generalize (List.finRange maxPartitionCount).foldl (findPartStep table type) (-1, none) = found
    at hscanned ⊢
  obtain ⟨seq, _ | i⟩ := found
  · exact .inl ⟨rfl, fun i => hscanned.2 i (List.mem_finRange i)⟩
  · obtain ⟨-, hcandidate, before, after, hsplit, hbefore, hafter⟩ := hscanned
    refine .inr ⟨i, rfl, hcandidate, ?_, ?_⟩
    · intro j hj
      have hmem : j ∈ before ++ i :: after := hsplit ▸ List.mem_finRange j
      rcases List.mem_append.mp hmem with hleft | hright
      · exact (hbefore j hleft hj).le
      · rcases List.mem_cons.mp hright with rfl | hright
        · exact Int.le_refl _
        · exact hafter j hright hj
    · intro j hj hlt
      have hmem : j ∈ before ++ i :: after := hsplit ▸ List.mem_finRange j
      -- the table is scanned in order, so what comes later is not before `i`
      have hsorted : (before ++ i :: after).Pairwise (· < ·) :=
        hsplit ▸ List.pairwise_lt_finRange maxPartitionCount
      rcases List.mem_append.mp hmem with hleft | hright
      · exact hbefore j hleft hj
      · have hlater : ∀ k ∈ after, i < k :=
          (List.pairwise_cons.mp (List.pairwise_append.mp hsorted).2.1).1
        rcases List.mem_cons.mp hright with rfl | hright
        · exact absurd hlt (lt_irrefl _)
        · exact absurd hlt (hlater j hright).asymm

end Choice

/-! ## Booting -/

/-- If the image of a candidate is good, one of those with the largest sequence number
among the good ones is entered; and no image that is not good is ever entered. -/
structure BootsGoodImage (flash ram : Memory) (table : PartitionTable) (type : UInt8) :
    Prop where
  boots : (∃ i, Candidate table type i ∧ ImageVerifies flash ram (table.parts.get i).offset) →
    ∃ i, Candidate table type i ∧ ImageVerifies flash ram (table.parts.get i).offset ∧
      (∀ j, Candidate table type j → ImageVerifies flash ram (table.parts.get j).offset →
        (table.parts.get j).seq.toInt ≤ (table.parts.get i).seq.toInt) ∧
      bootAppByType flash ram table type = .entered (table.parts.get i).offset
        (imageHeaderAt flash ((table.parts.get i).offset + imageHdrOffset)).entry
  onlyGood : ∀ norPhyAddr entry,
    bootAppByType flash ram table type = .entered norPhyAddr entry →
      ∃ i, Candidate table type i ∧ (table.parts.get i).offset = norPhyAddr ∧
        ImageVerifies flash ram norPhyAddr

theorem bootAppByType_newest {flash ram : Memory} {table : PartitionTable} {type : UInt8}
    {i : Fin maxPartitionCount} (hfound : findPartByType table type = some i) :
    bootAppByType flash ram table type = bootApp flash ram (table.parts.get i).offset := by
  unfold bootAppByType
  rw [hfound]

theorem Newest.unique {table : PartitionTable} {type : UInt8} {i j : Fin maxPartitionCount}
    (hi : Newest table type i) (hj : Newest table type j) : i = j := by
  rcases lt_trichotomy i j with hlt | heq | hgt
  · have := hj.first i hi.candidate hlt
    have := hi.largest j hj.candidate
    omega
  · exact heq
  · have := hi.first j hj.candidate hgt
    have := hj.largest i hi.candidate
    omega

/-- No image that is not good is entered. -/
theorem onlyGood_entered {flash ram : Memory} {table : PartitionTable} {type : UInt8}
    {norPhyAddr entry : UInt32}
    (hentered : bootAppByType flash ram table type = .entered norPhyAddr entry) :
    ∃ i, Candidate table type i ∧ (table.parts.get i).offset = norPhyAddr ∧
      ImageVerifies flash ram norPhyAddr := by
  rcases findPartByType_spec table type with ⟨hnone, -⟩ | ⟨i, hfound, hnewest⟩
  · unfold bootAppByType at hentered
    rw [hnone] at hentered
    cases hentered
  · rw [bootAppByType_newest hfound] at hentered
    by_cases hverifies : ImageVerifies flash ram (table.parts.get i).offset
    · rw [bootApp_entered hverifies] at hentered
      obtain ⟨rfl, rfl⟩ := BootResult.entered.inj hentered
      exact ⟨i, hnewest.candidate, rfl, hverifies⟩
    · rw [bootApp_returned hverifies] at hentered
      cases hentered

/-- The loader boots a good image exactly if there is none or the newest one is good. -/
theorem boots_good_image_iff (flash ram : Memory) (table : PartitionTable) (type : UInt8) :
    BootsGoodImage flash ram table type ↔
      (∀ i, Candidate table type i → ¬ ImageVerifies flash ram (table.parts.get i).offset) ∨
        ∃ i, Newest table type i ∧ ImageVerifies flash ram (table.parts.get i).offset := by
  constructor
  · intro hboots
    by_cases hgood : ∃ i, Candidate table type i ∧
      ImageVerifies flash ram (table.parts.get i).offset
    · obtain ⟨_, -, -, -, hentered⟩ := hboots.boots hgood
      rcases findPartByType_spec table type with ⟨-, hnone⟩ | ⟨i, hfound, hnewest⟩
      · exact .inl fun i hcandidate => absurd hcandidate (hnone i)
      · -- the image entered is the newest one, so its checks passed
        rw [bootAppByType_newest hfound] at hentered
        refine .inr ⟨i, hnewest, ?_⟩
        by_contra hbad
        rw [bootApp_returned hbad] at hentered
        cases hentered
    · exact .inl fun i hcandidate hverifies => hgood ⟨i, hcandidate, hverifies⟩
  · intro hcondition
    refine ⟨?_, fun _ _ => onlyGood_entered⟩
    rintro ⟨good, hcandidate, hverifies⟩
    -- a good image exists, so the newest one is good and is the one found
    rcases hcondition with hnone | ⟨newest, hnewest, hgood⟩
    · exact absurd hverifies (hnone good hcandidate)
    · rcases findPartByType_spec table type with ⟨-, hempty⟩ | ⟨i, hfound, hi⟩
      · exact absurd hcandidate (hempty good)
      · obtain rfl := hi.unique hnewest
        refine ⟨i, hi.candidate, hgood, fun j hj _ => hi.largest j hj, ?_⟩
        rw [bootAppByType_newest hfound, bootApp_entered hgood]

/-- A flash that is erased but for an image of zeros at `0x10000`, with its header. -/
def sampleFlash : Memory := fun addr =>
  if addr < 0x10000 ∨ 0x100e0 ≤ addr then 0xff
  else
    match (addr - 0x100c0).toNat with
    | 0 => 0x41 | 1 => 0x54 | 2 => 0x42
    | 7 => 0x20
    | 8 => 0xe0 | 11 => 0x20
    | 12 => 0xe0 | 15 => 0x20
    | 24 => 0x34 | 25 => 0x12
    | 28 => 0x69 | 29 => 0x7a | 30 => 0x42 | 31 => 0x60
    | _ => 0

/-- An application whose update, with the larger sequence number, was never written. -/
def interruptedUpdate : PartitionTable where
  parts := Vector.ofFn fun i =>
    match i.val with
    | 0 => ⟨2, 0x10000, 1⟩
    | 1 => ⟨2, 0x30000, 2⟩
    | _ => ⟨0, 0, 0⟩

/-- The loader stops at the image of the update, although the old one is good. -/
theorem interruptedUpdate_not_booted :
    ¬ BootsGoodImage sampleFlash (fun _ => 0) interruptedUpdate systemType := by
  intro hboots
  let old : Fin maxPartitionCount := ⟨0, by decide⟩
  have hgood : ImageVerifies sampleFlash (fun _ => 0) (interruptedUpdate.parts.get old).offset := by
    rw [← loadImage_eq_zero_iff]
    decide
  have hcandidate : Candidate interruptedUpdate systemType old :=
    ⟨by decide, by decide⟩
  have hstops : bootAppByType sampleFlash (fun _ => 0) interruptedUpdate systemType =
      .returned (-9) := by
    decide
  obtain ⟨i, -, -, -, hentered⟩ := hboots.boots ⟨old, hcandidate, hgood⟩
  rw [hstops] at hentered
  cases hentered

end CubieBle.Loader
