import CubieBle.BleModule.Inquiry

/-! # Numbers of devices

The entries of the list keep their places, and no address is listed twice. But a line
shows the length of the list, which is the number of the device only if the device is
the last one.
-/

namespace CubieBle.BleModule

open Machine

/-! ## The list -/

theorem dev_setDev_self (param : BleParam) {i : Nat} (hlt : i < 5) (device : Device) :
    (param.setDev i device).dev i = device := by
  rw [BleParam.dev, BleParam.setDev, Vector.getElem?_setIfInBounds_self_of_lt hlt,
    Option.getD_some]

theorem dev_setDev_of_ne (param : BleParam) {i j : Nat} (hne : i ≠ j) (device : Device) :
    (param.setDev i device).dev j = param.dev j := by
  rw [BleParam.dev, BleParam.setDev, Vector.getElem?_setIfInBounds_ne hne, BleParam.dev]

theorem of_getDevIndex_eq_some {param : BleParam} {addr : Addr} {index : Nat}
    (hindex : getDevIndex param addr = some index) :
    index < param.devCnt ∧ (param.dev index).addr = addr := by
  rw [getDevIndex, List.find?_range_eq_some] at hindex
  obtain ⟨haddr, hmem, _⟩ := hindex
  exact ⟨List.mem_range.mp hmem, of_decide_eq_true haddr⟩

theorem of_getDevIndex_eq_none {param : BleParam} {addr : Addr}
    (hindex : getDevIndex param addr = none) {i : Nat} (hlt : i < param.devCnt) :
    (param.dev i).addr ≠ addr := by
  intro haddr
  exact List.find?_eq_none.mp hindex i (List.mem_range.mpr hlt) (decide_eq_true haddr)

/-! ## One report -/

/-- The role and the first addresses are as before. -/
structure SameUpTo (count : Nat) (param next : BleParam) : Prop where
  role : next.role = param.role
  addr : ∀ i < count, (next.dev i).addr = (param.dev i).addr

theorem SameUpTo.refl (count : Nat) (param : BleParam) : SameUpTo count param param :=
  ⟨rfl, fun _ _ => rfl⟩

theorem sameUpTo_updateDevice (param : BleParam) {index : Nat} (hlt : index < 5) (count : Nat)
    (rssi : Int8) (name : List UInt8) :
    SameUpTo count param
      (param.setDev index (updateDevice (param.dev index) rssi name)) := by
  refine ⟨rfl, ?_⟩
  intro i _
  by_cases hi : index = i
  · subst hi
    rw [dev_setDev_self param hlt]
    rfl
  · rw [dev_setDev_of_ne param hi]

theorem dev_append_self (param : BleParam) (hlt : param.devCnt < 5) (addr : Addr) (rssi : Int8)
    (name : List UInt8) :
    (param.append addr rssi name).dev param.devCnt =
      newDevice (param.dev param.devCnt) addr rssi name :=
  dev_setDev_self param hlt _

theorem sameUpTo_append (param : BleParam) (addr : Addr) (rssi : Int8) (name : List UInt8) :
    SameUpTo param.devCnt param (param.append addr rssi name) := by
  refine ⟨rfl, ?_⟩
  intro i hi
  exact congrArg Device.addr (dev_setDev_of_ne param hi.ne' _)

/-- What a report can do: nothing that shows, name a listed device, or list a device. -/
inductive Found (inquiry : Inquiry) (report : Report) (next : Inquiry) : Prop where
  | quiet (hsame : SameUpTo inquiry.param.devCnt inquiry.param next.param)
      (hcnt : next.param.devCnt = inquiry.param.devCnt)
      (hprinted : next.printed = inquiry.printed)
      (hlast : NamedLast inquiry report)
  | named (index : Nat) (line : InqLine) (hindex : index < inquiry.param.devCnt)
      (hlisted : (inquiry.param.dev index).addr = report.addr)
      (hsame : SameUpTo inquiry.param.devCnt inquiry.param next.param)
      (hcnt : next.param.devCnt = inquiry.param.devCnt)
      (hprinted : next.printed = inquiry.printed ++ [line])
      (hnumber : line.number = inquiry.param.devCnt) (haddr : line.addr = report.addr)
      (hlast : NamedLast inquiry report ↔ index + 1 = inquiry.param.devCnt)
  | listed (lines : List InqLine)
      (hfresh : ∀ i < inquiry.param.devCnt, (inquiry.param.dev i).addr ≠ report.addr)
      (hroom : inquiry.param.devCnt < 4)
      (hsame : SameUpTo inquiry.param.devCnt inquiry.param next.param)
      (hcnt : next.param.devCnt = inquiry.param.devCnt + 1)
      (hnew : (next.param.dev inquiry.param.devCnt).addr = report.addr)
      (hprinted : next.printed = inquiry.printed ++ lines)
      (hlines : ∀ line ∈ lines, line.number = inquiry.param.devCnt + 1 ∧
        line.addr = report.addr)
      (hlast : NamedLast inquiry report)

theorem deviceFound_of_none {inquiry : Inquiry} {report : Report}
    (hname : reportName report = none) : deviceFound inquiry report = inquiry := by
  rw [deviceFound, hname]

/-- The fields after a report that is taken into account. -/
theorem deviceFound_of_some {inquiry : Inquiry} {report : Report} {name : List UInt8}
    (hname : reportName report = some name) {param : BleParam} {getName : Bool}
    (hadd : addScanDevList inquiry.param report.addr report.rssi name = (param, getName)) :
    (deviceFound inquiry report).param = param ∧
      (deviceFound inquiry report).printed =
        if getName then
          inquiry.printed ++
            [{ number := param.devCnt, addr := report.addr, name := name, rssi := report.rssi }]
        else inquiry.printed := by
  rw [deviceFound, hname]
  dsimp only
  rw [hadd]
  exact ⟨rfl, rfl⟩

theorem namedLast_iff {inquiry : Inquiry} {report : Report} {name : List UInt8} {index : Nat}
    (hname : reportName report = some name)
    (hindex : getDevIndex inquiry.param report.addr = some index) :
    NamedLast inquiry report ↔
      (takesName (inquiry.param.dev index) name = true → index + 1 = inquiry.param.devCnt) := by
  unfold NamedLast
  rw [hname, hindex]
  simp only [Option.mem_some, forall_eq']

theorem found_known {inquiry : Inquiry} {report : Report} {name : List UInt8} {index : Nat}
    (hbound : inquiry.param.devCnt ≤ 4) (hname : reportName report = some name)
    (hindex : getDevIndex inquiry.param report.addr = some index) :
    Found inquiry report (deviceFound inquiry report) := by
  obtain ⟨hlt, haddr⟩ := of_getDevIndex_eq_some hindex
  have hadd : addScanDevList inquiry.param report.addr report.rssi name =
      (inquiry.param.setDev index (updateDevice (inquiry.param.dev index) report.rssi name),
        takesName (inquiry.param.dev index) name) := by
    rw [addScanDevList, hindex]
  obtain ⟨hparam, hprinted⟩ := deviceFound_of_some hname hadd
  have hsame := sameUpTo_updateDevice inquiry.param (show index < 5 by omega)
    inquiry.param.devCnt report.rssi name
  have hlast := namedLast_iff hname hindex
  rw [← hparam] at hsame
  cases htakes : takesName (inquiry.param.dev index) name with
  | false =>
      rw [htakes, if_neg Bool.false_ne_true] at hprinted
      refine .quiet hsame (by rw [hparam]; rfl) hprinted (hlast.mpr ?_)
      rw [htakes]
      nofun
  | true =>
      rw [htakes, if_pos rfl] at hprinted
      refine .named index _ hlt haddr hsame (by rw [hparam]; rfl) hprinted rfl rfl ?_
      rw [hlast, htakes]
      exact ⟨fun h => h rfl, fun h _ => h⟩

theorem found_new {inquiry : Inquiry} {report : Report} {name : List UInt8}
    (hname : reportName report = some name)
    (hindex : getDevIndex inquiry.param report.addr = none) :
    Found inquiry report (deviceFound inquiry report) := by
  have hlast : NamedLast inquiry report := by
    intro _ _ index hmem
    rw [hindex] at hmem
    cases hmem
  by_cases hroom : inquiry.param.devCnt < devTotal - 1
  · have hadd : addScanDevList inquiry.param report.addr report.rssi name =
        (inquiry.param.append report.addr report.rssi name, decide (strlen name ≠ 0)) := by
      rw [addScanDevList, hindex]
      exact if_pos hroom
    obtain ⟨hparam, hprinted⟩ := deviceFound_of_some hname hadd
    obtain ⟨lines, hlines, hmem⟩ : ∃ lines,
        (deviceFound inquiry report).printed = inquiry.printed ++ lines ∧
          ∀ line ∈ lines, line.number = inquiry.param.devCnt + 1 ∧
            line.addr = report.addr := by
      split at hprinted
      next =>
        refine ⟨_, hprinted, ?_⟩
        intro line hline
        rw [List.mem_singleton.mp hline]
        exact ⟨rfl, rfl⟩
      next => exact ⟨[], by rw [hprinted, List.append_nil], by simp⟩
    refine .listed lines (fun i hi => of_getDevIndex_eq_none hindex hi) hroom ?_
      (by rw [hparam]; rfl) ?_ hlines hmem hlast
    · rw [hparam]
      exact sameUpTo_append inquiry.param report.addr report.rssi name
    · rw [hparam, dev_append_self inquiry.param (Nat.lt_trans hroom (by decide))]
      rfl
  · have hadd : addScanDevList inquiry.param report.addr report.rssi name =
        (inquiry.param, false) := by
      rw [addScanDevList, hindex]
      exact if_neg hroom
    obtain ⟨hparam, hprinted⟩ := deviceFound_of_some hname hadd
    rw [if_neg Bool.false_ne_true] at hprinted
    refine .quiet ?_ (by rw [hparam]) hprinted hlast
    rw [hparam]
    exact SameUpTo.refl _ _

theorem found_deviceFound {inquiry : Inquiry} (hbound : inquiry.param.devCnt ≤ 4)
    (report : Report) : Found inquiry report (deviceFound inquiry report) := by
  cases hname : reportName report with
  | none =>
      rw [deviceFound_of_none hname]
      refine .quiet (SameUpTo.refl _ _) rfl rfl ?_
      intro name hmem
      rw [hname] at hmem
      cases hmem
  | some name =>
      cases hindex : getDevIndex inquiry.param report.addr with
      | none => exact found_new hname hindex
      | some index => exact found_known hbound hname hindex

/-! ## All reports -/

/-- What holds of the list whatever is reported. -/
structure ListKept (inquiry : Inquiry) : Prop where
  role : inquiry.param.role = .master
  bound : inquiry.param.devCnt ≤ 4
  distinct : Distinct inquiry
  range : ∀ line ∈ inquiry.printed, 1 ≤ line.number ∧ line.number ≤ inquiry.param.devCnt

theorem distinct_of_sameUpTo {inquiry next : Inquiry} (hdistinct : Distinct inquiry)
    (hsame : SameUpTo inquiry.param.devCnt inquiry.param next.param)
    (hcnt : next.param.devCnt = inquiry.param.devCnt) : Distinct next := by
  intro i hi j hj haddr
  rw [hcnt] at hi hj
  rw [hsame.addr i hi, hsame.addr j hj] at haddr
  exact hdistinct i hi j hj haddr

theorem distinct_of_listed {inquiry next : Inquiry} {addr : Addr} (hdistinct : Distinct inquiry)
    (hfresh : ∀ i < inquiry.param.devCnt, (inquiry.param.dev i).addr ≠ addr)
    (hsame : SameUpTo inquiry.param.devCnt inquiry.param next.param)
    (hcnt : next.param.devCnt = inquiry.param.devCnt + 1)
    (hnew : (next.param.dev inquiry.param.devCnt).addr = addr) : Distinct next := by
  intro i hi j hj haddr
  rw [hcnt, Nat.lt_succ_iff_lt_or_eq] at hi hj
  rcases hi with hi | rfl <;> rcases hj with hj | rfl
  · rw [hsame.addr i hi, hsame.addr j hj] at haddr
    exact hdistinct i hi j hj haddr
  · rw [hsame.addr i hi, hnew] at haddr
    exact absurd haddr (hfresh i hi)
  · rw [hsame.addr j hj, hnew] at haddr
    exact absurd haddr.symm (hfresh j hj)
  · rfl

theorem listKept_deviceFound (inquiry : Inquiry) (report : Report) (hkept : ListKept inquiry) :
    ListKept (deviceFound inquiry report) := by
  cases found_deviceFound hkept.bound report with
  | quiet hsame hcnt hprinted =>
      refine ⟨hsame.role.trans hkept.role, by rw [hcnt]; exact hkept.bound,
        distinct_of_sameUpTo hkept.distinct hsame hcnt, ?_⟩
      rw [hcnt, hprinted]
      exact hkept.range
  | named index line hindex hlisted hsame hcnt hprinted hnumber =>
      refine ⟨hsame.role.trans hkept.role, by rw [hcnt]; exact hkept.bound,
        distinct_of_sameUpTo hkept.distinct hsame hcnt, ?_⟩
      rw [hcnt, hprinted]
      intro shown hshown
      rcases List.mem_append.mp hshown with hold | hnew
      · exact hkept.range shown hold
      · rw [List.mem_singleton.mp hnew, hnumber]
        omega
  | listed lines hfresh hroom hsame hcnt hnew hprinted hlines =>
      refine ⟨hsame.role.trans hkept.role, by omega,
        distinct_of_listed hkept.distinct hfresh hsame hcnt hnew, ?_⟩
      rw [hcnt, hprinted]
      intro shown hshown
      rcases List.mem_append.mp hshown with hold | hline
      · have hrange := hkept.range shown hold
        omega
      · rw [(hlines shown hline).1]
        omega

/-- Lines that were shown before stay right or wrong. -/
theorem line_right_iff {inquiry next : Inquiry} (hkept : ListKept inquiry)
    (hsame : SameUpTo inquiry.param.devCnt inquiry.param next.param)
    (hcnt : inquiry.param.devCnt ≤ next.param.devCnt) {line : InqLine}
    (hline : line ∈ inquiry.printed) :
    (1 ≤ line.number ∧ line.number ≤ next.param.devCnt ∧
        (next.param.dev (line.number - 1)).addr = line.addr) ↔
      1 ≤ line.number ∧ line.number ≤ inquiry.param.devCnt ∧
        (inquiry.param.dev (line.number - 1)).addr = line.addr := by
  have hrange := hkept.range line hline
  rw [hsame.addr (line.number - 1) (by omega)]
  constructor
  · rintro ⟨_, _, haddr⟩
    exact ⟨hrange.1, hrange.2, haddr⟩
  · rintro ⟨_, _, haddr⟩
    exact ⟨hrange.1, hrange.2.trans hcnt, haddr⟩

theorem numbered_iff_of_printed {inquiry next : Inquiry} (hkept : ListKept inquiry)
    (hsame : SameUpTo inquiry.param.devCnt inquiry.param next.param)
    (hcnt : inquiry.param.devCnt ≤ next.param.devCnt) {lines : List InqLine}
    (hprinted : next.printed = inquiry.printed ++ lines) :
    Numbered next ↔ Numbered inquiry ∧ ∀ line ∈ lines, 1 ≤ line.number ∧
      line.number ≤ next.param.devCnt ∧
        (next.param.dev (line.number - 1)).addr = line.addr := by
  unfold Numbered
  rw [hprinted, List.forall_mem_append]
  apply and_congr_left
  intro _
  apply forall₂_congr
  intro line hline
  exact line_right_iff hkept hsame hcnt hline

theorem numbered_deviceFound (inquiry : Inquiry) (report : Report) (hkept : ListKept inquiry) :
    Numbered (deviceFound inquiry report) ↔ Numbered inquiry ∧ NamedLast inquiry report := by
  cases found_deviceFound hkept.bound report with
  | quiet hsame hcnt hprinted hlast =>
      rw [numbered_iff_of_printed hkept hsame hcnt.ge
        (hprinted.trans (List.append_nil _).symm)]
      exact and_congr_right fun _ => ⟨fun _ => hlast, fun _ => by simp⟩
  | named index line hindex hlisted hsame hcnt hprinted hnumber haddr hlast =>
      rw [numbered_iff_of_printed hkept hsame hcnt.ge hprinted, hlast]
      apply and_congr_right
      intro _
      rw [List.forall_mem_singleton, hnumber, haddr, hcnt,
        hsame.addr (inquiry.param.devCnt - 1) (by omega), ← hlisted]
      constructor
      · rintro ⟨_, _, heq⟩
        have hsame := hkept.distinct (inquiry.param.devCnt - 1) (by omega) index hindex heq
        omega
      · intro hnext
        rw [← hnext, Nat.add_sub_cancel]
        exact ⟨by omega, le_rfl, rfl⟩
  | listed lines hfresh hroom hsame hcnt hnew hprinted hlines hlast =>
      rw [numbered_iff_of_printed hkept hsame (by omega) hprinted]
      apply and_congr_right
      intro _
      refine ⟨fun _ => hlast, fun _ line hline => ?_⟩
      obtain ⟨hnumber, haddr⟩ := hlines line hline
      rw [hnumber, haddr, hcnt, Nat.add_sub_cancel]
      exact ⟨by omega, le_rfl, hnew⟩

/-! ## The command -/

theorem connIndex_of_numeral {para : List UInt8} {n : Nat} (hnumeral : Numeral para n)
    (hpos : 1 ≤ n) (hle : n ≤ 256) : connIndex para = n - 1 := by
  rw [connIndex, atoi_numeral hnumeral (by omega)]
  omega

/-- The command and the list agree exactly if the text is clear. -/
theorem connAgrees_iff {param : BleParam} (hrole : param.role = .master)
    (hbound : param.devCnt ≤ 4) (para : List UInt8) :
    ConnAgrees param para ↔ NumberClear param para := by
  unfold NumberClear
  by_cases hlisted : ∃ n, ListedNumber param para n
  · refine iff_of_true ⟨?_, ?_⟩ (.inr (.inr hlisted))
    · rintro n ⟨hpos, hle, hnumeral⟩
      have hindex := connIndex_of_numeral hnumeral hpos (by omega)
      rw [atCmdConnSet, if_neg (by rw [hindex]; simp [hrole]; omega), hindex]
      exact ⟨_, rfl⟩
    · intro hnone
      obtain ⟨n, hn⟩ := hlisted
      exact absurd hn (hnone n)
  · have hnone : ∀ n, ¬ ListedNumber param para n := fun n hn => hlisted ⟨n, hn⟩
    have herror : atCmdConnSet param para = .error ↔
        param.devCnt = 0 ∨ param.devCnt < connIndex para := by
      rw [atCmdConnSet]
      split
      next h => exact iff_of_true rfl (h.resolve_left (not_not_intro hrole))
      next h => exact iff_of_false nofun (fun hrest => h (.inr hrest))
    constructor
    · intro hagrees
      rcases herror.mp (hagrees.error hnone) with hzero | hlt
      · exact .inl hzero
      · exact .inr (.inl hlt)
    · intro hclear
      refine ⟨fun n hn => absurd hn (hnone n), fun _ => herror.mpr ?_⟩
      rcases hclear with hzero | hlt | hn
      · exact .inl hzero
      · exact .inr hlt
      · exact absurd hn hlisted

/-! ## The inquiry and the command -/

theorem listKept_inquiryStart (scanStarts : Bool) {param : BleParam}
    (hrole : param.role = .master) : ListKept (inquiryStart scanStarts param) := by
  have hinq : atCmdInq scanStarts param = _ := if_neg (not_not_intro hrole)
  refine ⟨?_, ?_, ?_, by simp [inquiryStart]⟩
  · rw [inquiryStart, hinq]
    exact hrole
  · rw [inquiryStart, hinq]
    exact Nat.zero_le 4
  · intro i hi
    rw [inquiryStart, hinq] at hi
    exact absurd hi (Nat.not_lt_zero i)

/-- The inquiry and the command agree exactly if every device that gets its name after it
was listed is the last one, and the command is not given a text that is taken for another
number. -/
theorem inquiry_agrees_iff (scanStarts : Bool) (param : BleParam) (hrole : param.role = .master)
    (reports : List Report) (para : List UInt8) :
    InquiryAgrees (inquiryStart scanStarts param) reports para ↔
      Along deviceFound NamedLast (inquiryStart scanStarts param) reports ∧
        NumberClear (run deviceFound (inquiryStart scanStarts param) reports).param para := by
  have hstart := listKept_inquiryStart scanStarts hrole
  have hkept := throughout_of_step ListKept listKept_deviceFound hstart reports
  have hnumbered : Numbered (inquiryStart scanStarts param) := by
    intro line hline
    cases hline
  have hconn := connAgrees_iff hkept.last.role hkept.last.bound para
  constructor
  · intro hagrees
    have hlast := (run_iff_along ListKept listKept_deviceFound numbered_deviceFound hstart).mp
      hagrees.numbered.last
    exact ⟨hlast.2, hconn.mp hagrees.conn⟩
  · rintro ⟨hlast, hclear⟩
    have hboth := throughout_of_invariant (fun inquiry => ListKept inquiry ∧ Numbered inquiry)
      (fun inquiry report hinv hcondition =>
        ⟨listKept_deviceFound inquiry report hinv.1,
          (numbered_deviceFound inquiry report hinv.1).mpr ⟨hinv.2, hcondition⟩⟩)
      ⟨hstart, hnumbered⟩ hlast
    exact ⟨hboth.imp fun _ h => h.2, hkept.imp fun _ h => h.distinct, hconn.mpr hclear⟩

def sampleParam : BleParam where
  role := .master
  state := .ready
  devList := Vector.replicate 5 Device.zero
  devCnt := 3

/-- A device that advertises the name `"ZRS"`. -/
def sampleReport (last : UInt8) : Report where
  addr := { type := 0, val := #v[last, 0x22, 0x33, 0x44, 0x55, 0x66] }
  rssi := -60
  evtype := 0
  ad := [0x04, 0x09, 0x5a, 0x52, 0x53]
  beyond := []

theorem twoDevices_agree :
    InquiryAgrees (inquiryStart true sampleParam)
      [sampleReport 1, sampleReport 2, sampleReport 1] (ascii ['2']) := by
  refine (inquiry_agrees_iff true sampleParam rfl _ _).mpr ⟨?_, .inr (.inr ⟨2, ?_⟩)⟩
  · decide
  · refine ⟨by decide, by decide, by decide, by decide +kernel, by decide⟩

/-- With one device in the list, the number 2 starts a connection to what follows it. -/
theorem oneDevice_number_two :
    ¬ InquiryAgrees (inquiryStart true sampleParam) [sampleReport 1] (ascii ['2']) := by
  intro hagrees
  have hnone : ∀ n, ¬ ListedNumber
      (run deviceFound (inquiryStart true sampleParam) [sampleReport 1]).param (ascii ['2']) n := by
    rintro n ⟨_, hle, _, _, rfl⟩
    revert hle
    decide
  have herror := hagrees.conn.error hnone
  revert herror
  decide

end CubieBle.BleModule
