import CubieBle.BleModule.ScanList
import CubieBle.Machine.BubbleSort

/-! # The strongest device

The readings of each listed device are averaged, the averages are sorted, and the first device
with the greatest one is chosen.
-/

namespace CubieBle.BleModule

open Machine

/-- In place, from the greatest to the least. -/
def bubbleSort (a : List Int) (n : Nat) : List Int := sortDown a n

/-- There is no result without readings. -/
def average (array : List Int8) (num : Nat) : Option Int :=
  if num = 0 then none else some (((array.take num).map Int8.toInt).sum.tdiv num)

/-- `rssi_av` of the listed devices, an `s8_t`. -/
def rssiAvs (param : BleParam) : Option (List Int8) :=
  (List.range param.devCnt).mapM fun i =>
    (average (param.dev i).rssi.toList (param.dev i).rssiCnt).map Int8.ofInt

def getMaxRissDevIndex (param : BleParam) : Option Int :=
  (rssiAvs param).map fun rssiAvs =>
    let rssis := rssiAvs.map Int8.toInt ++ List.replicate (devTotal - param.devCnt) 0
    let rssis := bubbleSort rssis param.devCnt
    match rssiAvs.findIdx? fun rssiAv => rssis.getD 0 0 = rssiAv.toInt with
    | some i => i
    | none => -1

/-! ## Averages -/

/-- The average of the readings that a device has stored. -/
def Device.average (device : Device) : Int :=
  (device.stored.map Int8.toInt).sum.tdiv device.stored.length

theorem sum_toInt_bounds (values : List Int8) :
    -128 * (values.length : Int) ≤ (values.map Int8.toInt).sum ∧
      (values.map Int8.toInt).sum ≤ 127 * (values.length : Int) := by
  induction values with
  | nil => simp
  | cons value rest ih =>
      have hlow := value.le_toInt
      have hhigh := value.toInt_lt
      rw [List.map_cons, List.sum_cons, List.length_cons]
      push_cast
      omega

theorem tdiv_bounds {sum : Int} {count : Nat} (hlow : -128 * (count : Int) ≤ sum)
    (hhigh : sum ≤ 127 * (count : Int)) :
    -128 ≤ sum.tdiv count ∧ sum.tdiv count ≤ 127 := by
  -- the division is the one of the amounts
  obtain ⟨amount, rfl | rfl⟩ := sum.eq_nat_or_neg
  · have hdiv : amount / count ≤ 127 := Nat.div_le_of_le_mul (by omega)
    rw [← Int.ofNat_tdiv]
    generalize amount / count = quotient at hdiv ⊢
    omega
  · have hdiv : amount / count ≤ 128 := Nat.div_le_of_le_mul (by omega)
    rw [Int.neg_tdiv, ← Int.ofNat_tdiv]
    generalize amount / count = quotient at hdiv ⊢
    omega

theorem Device.average_bounds (device : Device) :
    -128 ≤ device.average ∧ device.average ≤ 127 := by
  obtain ⟨hlow, hhigh⟩ := sum_toInt_bounds device.stored
  exact tdiv_bounds hlow hhigh

/-- The average of a device fits into an `s8_t`. -/
theorem Device.toInt_average (device : Device) :
    (Int8.ofInt device.average).toInt = device.average := by
  obtain ⟨hlow, hhigh⟩ := device.average_bounds
  exact Int8.toInt_ofInt_of_le hlow (by omega)

theorem mapM_eq_some {α β : Type} {f : α → Option β} {g : α → β} {list : List α}
    (hf : ∀ x ∈ list, f x = some (g x)) : list.mapM f = some (list.map g) := by
  induction list with
  | nil => rfl
  | cons head tail ih =>
      rw [List.mapM_cons, hf head List.mem_cons_self,
        ih fun x hx => hf x (List.mem_cons_of_mem _ hx)]
      rfl

/-! ## The choice -/

/-- A listed device such that no listed device has a greater average. -/
def Strongest (param : BleParam) (i : Nat) : Prop :=
  i < param.devCnt ∧ ∀ j < param.devCnt, (param.dev j).average ≤ (param.dev i).average

/-- The averages in the order of the list. -/
def averages (param : BleParam) : List Int :=
  (List.range param.devCnt).map fun i => (param.dev i).average

section Choice

variable {param : BleParam}

theorem average_of_stores {device : Device} {values : List Int8}
    (hstores : device.Stores values) :
    average device.rssi.toList device.rssiCnt = some device.average := by
  have hpos := List.length_pos_iff.mpr hstores.some
  have hcount := hstores.count
  have hlength : device.stored.length = device.rssiCnt := by
    rw [Device.stored, List.length_take, Vector.length_toList]
    omega
  rw [average, if_neg (by omega), Device.average, hlength, Device.stored]

/-- No division is by zero. -/
theorem rssiAvs_eq_some
    (hstores : ∀ i < param.devCnt, ∃ values, (param.dev i).Stores values) :
    rssiAvs param = some ((averages param).map Int8.ofInt) := by
  rw [rssiAvs, averages, List.map_map]
  refine mapM_eq_some fun i hi => ?_
  obtain ⟨values, hvalues⟩ := hstores i (List.mem_range.mp hi)
  rw [average_of_stores hvalues]
  rfl

theorem toInt_averages (param : BleParam) :
    ((averages param).map Int8.ofInt).map Int8.toInt = averages param := by
  rw [averages, List.map_map, List.map_map]
  exact List.map_congr_left fun i _ => (param.dev i).toInt_average

theorem findIdx?_toInt_averages (param : BleParam) (top : Int) :
    (((averages param).map Int8.ofInt).findIdx? fun rssiAv => top = rssiAv.toInt) =
      (averages param).findIdx? fun average => top = average := by
  rw [averages, List.findIdx?_map, List.findIdx?_map, List.findIdx?_map]
  congr 1
  funext i
  rw [Function.comp_apply, Function.comp_apply, Function.comp_apply, Device.toInt_average]

theorem length_averages (param : BleParam) : (averages param).length = param.devCnt := by
  rw [averages, List.length_map, List.length_range]

theorem getElem_averages {i : Nat} (hi : i < (averages param).length) :
    (averages param)[i] = (param.dev i).average := by
  simp [averages]

theorem mem_averages {i : Nat} (hi : i < param.devCnt) :
    (param.dev i).average ∈ averages param :=
  List.mem_map.mpr ⟨i, List.mem_range.mpr hi, rfl⟩

/-- The first element of the sorted averages is the greatest one. -/
theorem exists_top (hpos : 0 < param.devCnt) (rest : List Int) :
    ∃ top, (bubbleSort (averages param ++ rest) param.devCnt).getD 0 0 = top ∧
      top ∈ averages param ∧ ∀ other ∈ averages param, other ≤ top := by
  have hlength : param.devCnt ≤ (averages param ++ rest).length := by
    rw [List.length_append, length_averages]
    exact Nat.le_add_right _ _
  have htake : (averages param ++ rest).take param.devCnt = averages param := by
    rw [List.take_append_of_le_length (length_averages param).ge, ← length_averages param,
      List.take_length]
  cases hsort : bubbleSort (averages param ++ rest) param.devCnt with
  | nil =>
      have hsame := length_sortDown hlength
      rw [← bubbleSort, hsort, List.length_nil] at hsame
      omega
  | cons top others =>
      have hhead : (sortDown (averages param ++ rest) param.devCnt).head? = some top := by
        rw [← bubbleSort, hsort, List.head?_cons]
      obtain ⟨hmem, hle⟩ := head?_sortDown hlength hhead hpos
      rw [htake] at hmem hle
      exact ⟨top, rfl, hmem, hle⟩

theorem getMaxRissDevIndex_of_empty
    (hempty : param.devCnt = 0) : getMaxRissDevIndex param = some (-1) := by
  have hnone : rssiAvs param = some [] := by
    rw [rssiAvs, hempty]
    rfl
  rw [getMaxRissDevIndex, hnone]
  rfl

/-- The first device with the greatest average is chosen. -/
theorem getMaxRissDevIndex_of_pos
    (hstores : ∀ i < param.devCnt, ∃ values, (param.dev i).Stores values)
    (hpos : 0 < param.devCnt) :
    ∃ i : Nat, IsLeast {i | Strongest param i} i ∧ getMaxRissDevIndex param = some (i : Int) := by
  obtain ⟨top, hfirst, hmem, hle⟩ :=
    exists_top hpos (List.replicate (devTotal - param.devCnt) 0)
  rw [getMaxRissDevIndex, rssiAvs_eq_some hstores, Option.map_some]
  dsimp only
  rw [toInt_averages, hfirst, findIdx?_toInt_averages]
  cases hindex : (averages param).findIdx? fun average => top = average with
  | none =>
      have hnone := List.findIdx?_eq_none_iff.mp hindex top hmem
      exact absurd rfl (of_decide_eq_false hnone)
  | some i =>
      obtain ⟨hi, htop, hbefore⟩ := List.findIdx?_eq_some_iff_getElem.mp hindex
      rw [getElem_averages, decide_eq_true_eq] at htop
      rw [length_averages] at hi
      refine ⟨i, ⟨⟨hi, fun j hj => ?_⟩, fun j hj => ?_⟩, rfl⟩
      · rw [← htop]
        exact hle _ (mem_averages hj)
      · -- a device in front of it with the same average would have been found
        refine Nat.le_of_not_lt fun hlt => ?_
        have hless := hbefore j hlt
        rw [getElem_averages, decide_eq_true_eq] at hless
        refine hless (le_antisymm ?_ (hle _ (mem_averages hj.1)))
        rw [htop]
        exact hj.2 i hi

/-- After any reports, the first device with the greatest average is chosen if there is a device,
and the sort puts the first elements of an array in order and leaves the others alone. -/
theorem strongest_chosen (scanStarts : Bool) (param : BleParam) (hrole : param.role = .master)
    (reports : List Report) (a : List Int) (n : Nat) (hn : n ≤ a.length) :
    let after := (run deviceFound (inquiryStart scanStarts param) reports).param
    (getMaxRissDevIndex after).isSome ∧
      (getMaxRissDevIndex after = some (-1) ↔ after.devCnt = 0) ∧
      (after.devCnt ≠ 0 →
        ∃ i : Nat, IsLeast {i | Strongest after i} i ∧ getMaxRissDevIndex after = some (i : Int)) ∧
      ∃ sorted, bubbleSort a n = sorted ++ a.drop n ∧ sorted.Perm (a.take n) ∧
        sorted.Pairwise (· ≥ ·) := by
  intro after
  have hscanned := scanned_run scanStarts hrole reports
  have hstores : ∀ i < after.devCnt, ∃ values, (after.dev i).Stores values :=
    fun i hi => ⟨_, hscanned.stores i hi⟩
  by_cases hempty : after.devCnt = 0
  · have hindex := getMaxRissDevIndex_of_empty hempty
    refine ⟨by rw [hindex]; rfl, iff_of_true hindex hempty, fun hsome => ?_, exists_sortDown hn⟩
    exact absurd hempty hsome
  · obtain ⟨i, hleast, hindex⟩ :=
      getMaxRissDevIndex_of_pos hstores (Nat.pos_of_ne_zero hempty)
    refine ⟨by rw [hindex]; rfl, iff_of_false ?_ hempty, fun _ => ⟨i, hleast, hindex⟩,
      exists_sortDown hn⟩
    rw [hindex]
    intro hminus
    have hsame := Option.some.inj hminus
    omega

end Choice

/-- Two devices, of which the second one is nearer. -/
def nearerSecond : List Report := [sampleReport 1, { sampleReport 2 with rssi := -40 }]

theorem nearer_second_chosen :
    ∃ i : Nat,
      IsLeast {i | Strongest
        (run deviceFound (inquiryStart true sampleParam) nearerSecond).param i} i ∧
      getMaxRissDevIndex (run deviceFound (inquiryStart true sampleParam) nearerSecond).param =
        some (i : Int) :=
  (strongest_chosen true sampleParam rfl nearerSecond [3, 7, 5] 2 (by decide)).2.2.1
    (by decide)

example : getMaxRissDevIndex
    (run deviceFound (inquiryStart true sampleParam) nearerSecond).param = some 1 := by
  decide

end CubieBle.BleModule
