import CubieBle.BleModule.InquiryLaws
import CubieBle.Machine.Ring

/-! # The list of a scan

The list has room for one device less than its array, so it holds the devices that were reported
first, and their last readings, but is never found full.
-/

namespace CubieBle.BleModule

open Machine

/-! ## What was reported -/

/-- The reports that are taken into account. -/
def accepted (reports : List Report) : List Report :=
  reports.filter fun report => (reportName report).isSome

/-- The addresses in the order of their first reports. -/
def addresses (reports : List Report) : List Addr :=
  ((accepted reports).map Report.addr).eraseDups

/-- The readings of a device. -/
def readings (addr : Addr) (reports : List Report) : List Int8 :=
  ((accepted reports).filter fun report => report.addr = addr).map Report.rssi

/-- The addresses of the devices that are listed. -/
def BleParam.listed (param : BleParam) : List Addr :=
  (List.range param.devCnt).map fun i => (param.dev i).addr

/-- The readings that a device has stored. -/
def Device.stored (device : Device) : List Int8 := device.rssi.toList.take device.rssiCnt

/-- All writes of a report are inside their arrays. -/
def WritesInside (inquiry : Inquiry) (report : Report) : Prop :=
  match getDevIndex inquiry.param report.addr with
  | none =>
      inquiry.param.devCnt < devTotal - 1 →
        inquiry.param.devCnt < devTotal ∧
          (inquiry.param.dev inquiry.param.devCnt).rssiCnt < rssiNum
  | some index =>
      index < devTotal ∧ nextRssiIndex (inquiry.param.dev index) < rssiNum

/-- A device has stored its last readings, as many as there is room for. -/
structure Device.HoldsLast (device : Device) (reports : List Report) : Prop where
  count : device.rssiCnt = min (readings device.addr reports).length rssiNum
  stored : device.stored.Perm ((readings device.addr reports).drop
    ((readings device.addr reports).length - device.rssiCnt))

/-- The list holds the devices that were reported first, as many as the array has room for, with
their last readings, and is found full when the array is. -/
structure ScanLaw (start : Inquiry) (reports : List Report) : Prop where
  listed : (run deviceFound start reports).param.listed = (addresses reports).take devTotal
  rings : ∀ i < (run deviceFound start reports).param.devCnt,
    ((run deviceFound start reports).param.dev i).HoldsLast reports
  inside : Along deviceFound WritesInside start reports
  full : devTotal ≤ (addresses reports).length → 0 < (run deviceFound start reports).full

/-! ## One report more -/

section Append

variable {reports : List Report} {report : Report}

theorem accepted_append_of_none (hname : reportName report = none) :
    accepted (reports ++ [report]) = accepted reports := by
  simp [accepted, hname]

theorem accepted_append_of_some {name : List UInt8} (hname : reportName report = some name) :
    accepted (reports ++ [report]) = accepted reports ++ [report] := by
  simp [accepted, hname]

theorem eraseDups_append_singleton (addrs : List Addr) (addr : Addr) :
    (addrs ++ [addr]).eraseDups =
      if addr ∈ addrs then addrs.eraseDups else addrs.eraseDups ++ [addr] := by
  rw [List.eraseDups_append]
  split
  next hmem => simp [List.removeAll, hmem]
  next hmem => simp [List.removeAll, hmem, List.eraseDups_cons]

theorem mem_eraseDups (addrs : List Addr) (addr : Addr) :
    addr ∈ addrs.eraseDups ↔ addr ∈ addrs := by
  induction addrs using List.reverseRecOn with
  | nil => exact Iff.rfl
  | append_singleton addrs last ih =>
      rw [eraseDups_append_singleton, List.mem_append, ← ih, List.mem_singleton]
      split
      next hmem =>
        refine ⟨.inl, fun hor => hor.elim id ?_⟩
        rintro rfl
        exact ih.mpr hmem
      next => rw [List.mem_append, List.mem_singleton]

theorem mem_addresses (addr : Addr) :
    addr ∈ addresses reports ↔ readings addr reports ≠ [] := by
  rw [addresses, mem_eraseDups, readings, ne_eq, List.map_eq_nil_iff, List.filter_eq_nil_iff]
  simp

theorem addresses_append {name : List UInt8} (hname : reportName report = some name) :
    addresses (reports ++ [report]) =
      if report.addr ∈ addresses reports then addresses reports
      else addresses reports ++ [report.addr] := by
  rw [addresses, accepted_append_of_some hname, List.map_append, List.map_singleton,
    eraseDups_append_singleton, addresses]
  simp only [mem_eraseDups]

theorem readings_append {name : List UInt8} (hname : reportName report = some name)
    (addr : Addr) :
    readings addr (reports ++ [report]) =
      if report.addr = addr then readings addr reports ++ [report.rssi]
      else readings addr reports := by
  rw [readings, accepted_append_of_some hname, List.filter_append, List.map_append, readings]
  split
  next haddr => simp [haddr]
  next haddr => simp [haddr]

end Append

/-! ## The invariant -/

/-- A device has stored readings, of which there is at least one. -/
structure Device.Stores (device : Device) (values : List Int8) : Prop where
  some : values ≠ []
  holds : RingHolds device.rssi values
  count : device.rssiCnt = min values.length 5
  index : device.rssiCurIndex = (values.length - 1) % 5

theorem Device.Stores.update {device : Device} {values : List Int8} (hstores : device.Stores values)
    (rssi : Int8) (name : List UInt8) :
    (updateDevice device rssi name).Stores (values ++ [rssi]) := by
  have hpos := List.length_pos_iff.mpr hstores.some
  have hnext : nextRssiIndex device = values.length % 5 := by
    rw [nextRssiIndex, hstores.index, rssiNum]
    split_ifs
    all_goals omega
  refine ⟨by simp, ?_, ?_, ?_⟩
  · rw [updateDevice, hnext]
    exact hstores.holds.push (by decide) rssi
  · rw [updateDevice, List.length_append, List.length_singleton, rssiNum]
    dsimp only
    rw [hstores.count]
    split_ifs
    all_goals omega
  · rw [updateDevice, List.length_append, List.length_singleton]
    exact hnext

theorem stores_newDevice (addr : Addr) (rssi : Int8) (name : List UInt8) :
    (newDevice Device.zero addr rssi name).Stores [rssi] where
  some := List.cons_ne_nil _ _
  holds := (ringHolds_nil _).push (by decide) rssi
  count := rfl
  index := rfl

/-- What the list is after some reports. -/
structure Scanned (inquiry : Inquiry) (reports : List Report) : Prop where
  kept : ListKept inquiry
  listed : inquiry.param.listed = (addresses reports).take 4
  fresh : ∀ i, inquiry.param.devCnt ≤ i → inquiry.param.dev i = Device.zero
  stores : ∀ i < inquiry.param.devCnt,
    (inquiry.param.dev i).Stores (readings (inquiry.param.dev i).addr reports)
  full : inquiry.full = 0

section Step

variable {inquiry : Inquiry} {reports : List Report} {report : Report} {name : List UInt8}

theorem length_listed (param : BleParam) : param.listed.length = param.devCnt := by
  rw [BleParam.listed, List.length_map, List.length_range]

theorem deviceFound_full (hname : reportName report = some name) {param : BleParam}
    {getName : Bool}
    (hadd : addScanDevList inquiry.param report.addr report.rssi name = (param, getName))
    (hfull : inquiry.full = 0) (hcnt : param.devCnt ≤ 4) :
    (deviceFound inquiry report).full = 0 := by
  rw [deviceFound, hname]
  dsimp only
  rw [hadd]
  dsimp only
  rw [devTotal, if_neg (by omega), hfull]

/-- A report from another device leaves the readings of a device as they were. -/
theorem Scanned.stores_of_ne (hscanned : Scanned inquiry reports)
    (hname : reportName report = some name) {i : Nat} (hi : i < inquiry.param.devCnt)
    (hne : (inquiry.param.dev i).addr ≠ report.addr) :
    (inquiry.param.dev i).Stores
      (readings (inquiry.param.dev i).addr (reports ++ [report])) := by
  rw [readings_append hname, if_neg (Ne.symm hne)]
  exact hscanned.stores i hi

theorem Scanned.ignored (hscanned : Scanned inquiry reports)
    (hname : reportName report = none) :
    Scanned (deviceFound inquiry report) (reports ++ [report]) := by
  have haccepted : accepted (reports ++ [report]) = accepted reports :=
    accepted_append_of_none hname
  rw [deviceFound_of_none hname]
  refine ⟨hscanned.kept, ?_, hscanned.fresh, ?_, hscanned.full⟩
  · rw [addresses, haccepted]
    exact hscanned.listed
  · intro i hi
    rw [readings, haccepted]
    exact hscanned.stores i hi

theorem Scanned.known (hscanned : Scanned inquiry reports)
    (hname : reportName report = some name) {index : Nat}
    (hindex : getDevIndex inquiry.param report.addr = some index) :
    Scanned (deviceFound inquiry report) (reports ++ [report]) := by
  obtain ⟨hlt, haddr⟩ := of_getDevIndex_eq_some hindex
  have hbound := hscanned.kept.bound
  have hadd : addScanDevList inquiry.param report.addr report.rssi name =
      (inquiry.param.setDev index (updateDevice (inquiry.param.dev index) report.rssi name),
        takesName (inquiry.param.dev index) name) := by
    rw [addScanDevList, hindex]
  have hparam := (deviceFound_of_some hname hadd).1
  have hsame := sameUpTo_updateDevice inquiry.param (show index < 5 by omega)
    inquiry.param.devCnt report.rssi name
  refine ⟨listKept_deviceFound inquiry report hscanned.kept, ?_, ?_, ?_,
    deviceFound_full hname hadd hscanned.full hbound⟩
  · have hmem : report.addr ∈ addresses reports := by
      rw [mem_addresses, ← haddr]
      exact (hscanned.stores index hlt).some
    rw [hparam, addresses_append hname, if_pos hmem, ← hscanned.listed]
    exact List.map_congr_left fun i hi => hsame.addr i (List.mem_range.mp hi)
  · intro i hi
    rw [hparam] at hi ⊢
    rw [dev_setDev_of_ne inquiry.param (Nat.ne_of_lt (lt_of_lt_of_le hlt hi))]
    exact hscanned.fresh i hi
  · intro i hi
    rw [hparam] at hi ⊢
    by_cases heq : index = i
    · subst heq
      rw [dev_setDev_self inquiry.param (by omega), readings_append hname, updateDevice,
        if_pos haddr.symm]
      exact (hscanned.stores index hlt).update report.rssi name
    · rw [dev_setDev_of_ne inquiry.param heq]
      refine hscanned.stores_of_ne hname hi fun hother => heq ?_
      exact hscanned.kept.distinct index hlt i hi (haddr.trans hother.symm)

theorem Scanned.unlisted (hscanned : Scanned inquiry reports)
    (hindex : getDevIndex inquiry.param report.addr = none)
    (hroom : inquiry.param.devCnt < 4) :
    addresses reports = inquiry.param.listed ∧ report.addr ∉ addresses reports := by
  have hlength := congrArg List.length hscanned.listed
  rw [length_listed, List.length_take] at hlength
  have hall : addresses reports = inquiry.param.listed := by
    rw [hscanned.listed, List.take_of_length_le (by omega)]
  refine ⟨hall, ?_⟩
  rw [hall, BleParam.listed, List.mem_map]
  rintro ⟨i, hi, haddr⟩
  exact of_getDevIndex_eq_none hindex (List.mem_range.mp hi) haddr

theorem Scanned.added (hscanned : Scanned inquiry reports)
    (hname : reportName report = some name)
    (hindex : getDevIndex inquiry.param report.addr = none)
    (hroom : inquiry.param.devCnt < 4) :
    Scanned (deviceFound inquiry report) (reports ++ [report]) := by
  obtain ⟨hall, hnew⟩ := hscanned.unlisted hindex hroom
  have hadd : addScanDevList inquiry.param report.addr report.rssi name =
      (inquiry.param.append report.addr report.rssi name, decide (strlen name ≠ 0)) := by
    rw [addScanDevList, hindex]
    exact if_pos hroom
  have hparam := (deviceFound_of_some hname hadd).1
  have hdev : (inquiry.param.append report.addr report.rssi name).dev inquiry.param.devCnt =
      newDevice Device.zero report.addr report.rssi name := by
    rw [dev_append_self inquiry.param (by omega), hscanned.fresh _ (Nat.le_refl _)]
  have hold : ∀ i, i ≠ inquiry.param.devCnt →
      (inquiry.param.append report.addr report.rssi name).dev i = inquiry.param.dev i :=
    fun i hne => dev_setDev_of_ne inquiry.param hne.symm _
  refine ⟨listKept_deviceFound inquiry report hscanned.kept, ?_, ?_, ?_,
    deviceFound_full hname hadd hscanned.full (Nat.succ_le_of_lt hroom)⟩
  · rw [hparam, addresses_append hname, if_neg hnew, hall]
    have hlisted : (inquiry.param.append report.addr report.rssi name).listed =
        inquiry.param.listed ++ [report.addr] := by
      have hcnt : (inquiry.param.append report.addr report.rssi name).devCnt =
          inquiry.param.devCnt + 1 := rfl
      rw [BleParam.listed, hcnt, List.range_succ, List.map_append, List.map_singleton, hdev]
      refine congrArg (· ++ [report.addr]) (List.map_congr_left fun i hi => ?_)
      rw [hold i (Nat.ne_of_lt (List.mem_range.mp hi))]
    rw [hlisted, List.take_of_length_le]
    rw [List.length_append, length_listed, List.length_singleton]
    omega
  · intro i hi
    rw [hparam] at hi ⊢
    rw [hold i (Nat.ne_of_gt hi)]
    exact hscanned.fresh i (Nat.le_of_succ_le hi)
  · intro i hi
    rw [hparam] at hi ⊢
    rcases Nat.lt_succ_iff_lt_or_eq.mp hi with hlt | rfl
    · rw [hold i (Nat.ne_of_lt hlt)]
      exact hscanned.stores_of_ne hname hlt (of_getDevIndex_eq_none hindex hlt)
    · have hnone : readings report.addr reports = [] :=
        not_not.mp (mt (mem_addresses report.addr).mpr hnew)
      have haddr : (newDevice Device.zero report.addr report.rssi name).addr = report.addr := rfl
      rw [hdev, haddr, readings_append hname, if_pos rfl, hnone]
      exact stores_newDevice report.addr report.rssi name

theorem Scanned.dropped (hscanned : Scanned inquiry reports)
    (hname : reportName report = some name)
    (hindex : getDevIndex inquiry.param report.addr = none)
    (hroom : ¬inquiry.param.devCnt < 4) :
    Scanned (deviceFound inquiry report) (reports ++ [report]) := by
  have hbound := hscanned.kept.bound
  have hadd : addScanDevList inquiry.param report.addr report.rssi name =
      (inquiry.param, false) := by
    rw [addScanDevList, hindex]
    exact if_neg hroom
  have hparam := (deviceFound_of_some hname hadd).1
  refine ⟨listKept_deviceFound inquiry report hscanned.kept, ?_, ?_, ?_,
    deviceFound_full hname hadd hscanned.full hbound⟩
  · rw [hparam, addresses_append hname]
    split
    next => exact hscanned.listed
    next =>
      have hlength := congrArg List.length hscanned.listed
      rw [length_listed, List.length_take] at hlength
      rw [List.take_append_of_le_length (by omega)]
      exact hscanned.listed
  · rw [hparam]
    exact hscanned.fresh
  · intro i hi
    rw [hparam] at hi ⊢
    exact hscanned.stores_of_ne hname hi (of_getDevIndex_eq_none hindex hi)

theorem scanned_deviceFound (hscanned : Scanned inquiry reports) (report : Report) :
    Scanned (deviceFound inquiry report) (reports ++ [report]) := by
  cases hname : reportName report with
  | none => exact hscanned.ignored hname
  | some name =>
      cases hindex : getDevIndex inquiry.param report.addr with
      | some index => exact hscanned.known hname hindex
      | none =>
          by_cases hroom : inquiry.param.devCnt < 4
          · exact hscanned.added hname hindex hroom
          · exact hscanned.dropped hname hindex hroom

theorem scanned_inquiryStart (scanStarts : Bool) {param : BleParam}
    (hrole : param.role = .master) : Scanned (inquiryStart scanStarts param) [] := by
  have hinq : atCmdInq scanStarts param = _ := if_neg (not_not_intro hrole)
  have hcnt : (inquiryStart scanStarts param).param.devCnt = 0 := by
    rw [inquiryStart, hinq]
  refine ⟨listKept_inquiryStart scanStarts hrole, ?_, ?_, ?_, rfl⟩
  · rw [BleParam.listed, hcnt]
    rfl
  · intro i _
    rw [inquiryStart, hinq, BleParam.dev, Vector.getElem?_replicate]
    split
    next => rfl
    next => rfl
  · intro i hi
    rw [hcnt] at hi
    exact absurd hi (Nat.not_lt_zero i)

theorem scanned_run (scanStarts : Bool) {param : BleParam} (hrole : param.role = .master)
    (reports : List Report) :
    Scanned (run deviceFound (inquiryStart scanStarts param) reports) reports := by
  induction reports using List.reverseRecOn with
  | nil => exact scanned_inquiryStart scanStarts hrole
  | append_singleton reports report ih =>
      rw [run_append]
      exact scanned_deviceFound ih report

end Step

/-! ## The law -/

section Law

variable {inquiry : Inquiry} {reports : List Report}

theorem Scanned.inside (hscanned : Scanned inquiry reports) (report : Report) :
    WritesInside inquiry report := by
  have hbound := hscanned.kept.bound
  unfold WritesInside
  cases hindex : getDevIndex inquiry.param report.addr with
  | none =>
      intro hroom
      refine ⟨Nat.lt_of_le_of_lt hbound (by decide), ?_⟩
      rw [hscanned.fresh _ (Nat.le_refl _)]
      decide
  | some index =>
      obtain ⟨hlt, -⟩ := of_getDevIndex_eq_some hindex
      refine ⟨Nat.lt_of_lt_of_le hlt (hbound.trans (by decide)), ?_⟩
      have hindex := (hscanned.stores index hlt).index
      rw [nextRssiIndex, rssiNum]
      split
      next => decide
      next => omega

theorem inside_run (scanStarts : Bool) {param : BleParam} (hrole : param.role = .master)
    (reports : List Report) :
    Along deviceFound WritesInside (inquiryStart scanStarts param) reports := by
  induction reports using List.reverseRecOn with
  | nil => trivial
  | append_singleton reports report ih =>
      refine along_append.mpr ⟨ih, ?_, trivial⟩
      exact (scanned_run scanStarts hrole reports).inside report

/-- The list is as it should be exactly if fewer devices are reported than the array has room
for. -/
theorem scanLaw_iff (scanStarts : Bool) (param : BleParam) (hrole : param.role = .master)
    (reports : List Report) :
    ScanLaw (inquiryStart scanStarts param) reports ↔ (addresses reports).length < devTotal := by
  have hscanned := scanned_run scanStarts hrole reports
  constructor
  · intro hlaw
    have hlength := congrArg List.length hlaw.listed
    have hbound := hscanned.kept.bound
    rw [length_listed, List.length_take] at hlength
    rw [devTotal] at hlength ⊢
    omega
  · intro hfew
    rw [devTotal] at hfew
    refine ⟨?_, ?_, inside_run scanStarts hrole reports, ?_⟩
    · rw [hscanned.listed, List.take_of_length_le (by omega),
        List.take_of_length_le (by rw [devTotal]; omega)]
    · intro i hi
      have hstores := hscanned.stores i hi
      have hdrop : ∀ length : Nat, length - min length 5 = length - 5 := fun length => by omega
      refine ⟨hstores.count, ?_⟩
      rw [Device.stored, hstores.count, hdrop]
      exact hstores.holds.perm
    · intro hmany
      rw [devTotal] at hmany
      omega

end Law

theorem two_devices_listed :
    ScanLaw (inquiryStart true sampleParam) [sampleReport 1, sampleReport 2, sampleReport 1] :=
  (scanLaw_iff true sampleParam rfl _).mpr (by decide)

/-- The fifth device is not listed, and the list is not found full. -/
theorem five_devices_not_listed :
    ¬∀ (scanStarts : Bool) (param : BleParam) (reports : List Report), param.role = .master →
      ScanLaw (inquiryStart scanStarts param) reports := by
  intro hall
  have hfull := (hall true sampleParam [sampleReport 1, sampleReport 2, sampleReport 3,
    sampleReport 4, sampleReport 5] rfl).full (by decide)
  exact absurd hfull (by decide)

end CubieBle.BleModule
