import CubieBle.BleModule.Inquiry
import CubieBle.Machine.Ltv

/-! # The name in the advertising data

A name is searched for in the memory that starts at the value of its element. The search ends at
the first zero byte, and not at the end of the element.
-/

namespace CubieBle.BleModule

open Machine

/-! ## What is read -/

/-- The bytes that `strstr` reads: up to the end of what it finds, or up to the end of the
string. -/
def strstrReads (text : List UInt8) : List UInt8 → Nat
  | [] => 1
  | byte :: memory =>
      if byte = 0 then 1
      else if text <+: (byte :: memory).takeWhile (· ≠ 0) then text.length
      else strstrReads text memory + 1

/-- The elements that the loop of `ad_parse` gets to, each with the data that follows it. -/
def adVisits (beyond : List UInt8) : Nat → List UInt8 → List (Ltv × List UInt8)
  | fuel + 1, len :: type :: data =>
      if len = 0 ∨ data.length + 1 < len.toNat then []
      else
        let rest := data.drop (len.toNat - 1)
        let element := { type := type, value := data.take (len.toNat - 1) }
        if isNameType type && strstr (data ++ beyond) configDeviceNamePrefix then
          [(element, rest)]
        else (element, rest) :: adVisits beyond fuel rest
  | _, _ => []

/-- How far the bytes behind the type are read. -/
def valueReads (beyond : List UInt8) (nameLen : Nat) (visit : Ltv × List UInt8) : Nat :=
  let memory := visit.1.value ++ visit.2 ++ beyond
  if isNameType visit.1.type then
    if strstr memory configDeviceNamePrefix then
      max (strstrReads configDeviceNamePrefix memory) (min visit.1.value.length nameLen)
    else strstrReads configDeviceNamePrefix memory
  else 0

/-! ## What should be found -/

/-- The element has a name of the right kind. -/
def hasName (element : Ltv) : Bool :=
  isNameType element.type && decide (configDeviceNamePrefix <:+: element.value)

/-- Advertising data is parsed within its bounds, and the result is about its elements. -/
structure AdLaw (report : Report) (nameLen : Nat) : Prop where
  terminates : ∀ fuel, 2 * (adVisits report.beyond fuel report.ad).length ≤ report.ad.length
  complete : ∀ fuel, report.ad.length ≤ fuel →
    adParseLoop report.beyond nameLen fuel report.ad = adParse report nameLen
  reads : ∀ visit ∈ adVisits report.beyond report.ad.length report.ad,
    valueReads report.beyond nameLen visit ≤ visit.1.value.length + visit.2.length
  inspects : ∀ visit ∈ adVisits report.beyond report.ad.length report.ad,
    valueReads report.beyond nameLen visit ≤ visit.1.value.length
  depends : ∀ other : Report, upTo hasName (ltvs other.ad) = upTo hasName (ltvs report.ad) →
    adParse other nameLen = adParse report nameLen
  writes : ∀ name ∈ adParse report nameLen, name.length ≤ nameLen
  verdict : (adParse report nameLen).isSome ↔ ∃ element ∈ ltvs report.ad, hasName element = true

/-- The search ends inside the value, with the right result. -/
def Delimited (value : List UInt8) : Prop :=
  configDeviceNamePrefix <:+: value.takeWhile (· ≠ 0) ∨
    0 ∈ value ∧ ¬configDeviceNamePrefix <:+: value

/-- So it does in all names up to the first one of the right kind. -/
def NamesDelimited (ad : List UInt8) : Prop :=
  ∀ element ∈ upTo hasName (ltvs ad), isNameType element.type = true → Delimited element.value

/-! ## The search -/

section Search

variable {text value : List UInt8}

theorem takeWhile_append_of_zero (hzero : 0 ∈ value) (more : List UInt8) :
    (value ++ more).takeWhile (· ≠ 0) = value.takeWhile (· ≠ 0) := by
  induction value with
  | nil => exact absurd hzero List.not_mem_nil
  | cons byte value ih =>
      rw [List.cons_append, List.takeWhile_cons, List.takeWhile_cons]
      split
      next hne =>
        have hlater := (List.mem_cons.mp hzero).resolve_left (Ne.symm (of_decide_eq_true hne))
        rw [ih hlater]
      next => rfl

theorem takeWhile_append_of_no_zero (hnone : 0 ∉ value) (more : List UInt8) :
    (value ++ more).takeWhile (· ≠ 0) = value ++ more.takeWhile (· ≠ 0) := by
  apply List.takeWhile_append_of_pos
  intro byte hmem
  refine decide_eq_true ?_
  rintro rfl
  exact hnone hmem

theorem takeWhile_of_no_zero (hnone : 0 ∉ value) : value.takeWhile (· ≠ 0) = value := by
  have happend := takeWhile_append_of_no_zero hnone []
  rwa [List.append_nil, List.takeWhile_nil, List.append_nil] at happend

theorem takeWhile_prefix_append (value more : List UInt8) :
    value.takeWhile (· ≠ 0) <+: (value ++ more).takeWhile (· ≠ 0) := by
  by_cases hzero : 0 ∈ value
  · rw [takeWhile_append_of_zero hzero]
  · rw [takeWhile_append_of_no_zero hzero, takeWhile_of_no_zero hzero]
    exact List.prefix_append _ _

theorem strstrReads_pos (htext : text ≠ []) (memory : List UInt8) :
    0 < strstrReads text memory := by
  cases memory with
  | nil => exact Nat.one_pos
  | cons byte memory =>
      rw [strstrReads]
      split
      next => exact Nat.one_pos
      next =>
        split
        next => exact List.length_pos_iff.mpr htext
        next => exact Nat.succ_pos _

/-- The search ends inside the value if the text or the end of the string is there. -/
theorem strstrReads_le_iff (htext : text ≠ []) (value more : List UInt8) :
    strstrReads text (value ++ more) ≤ value.length ↔
      text <:+: value.takeWhile (· ≠ 0) ∨ 0 ∈ value := by
  induction value with
  | nil =>
      have hpos := strstrReads_pos htext more
      refine iff_of_false (by rw [List.nil_append, List.length_nil]; omega) ?_
      rintro (hempty | hmem)
      · exact htext (List.infix_nil.mp hempty)
      · exact absurd hmem List.not_mem_nil
  | cons byte value ih =>
      rw [List.cons_append, strstrReads, List.length_cons]
      by_cases hbyte : byte = 0
      · subst hbyte
        rw [if_pos rfl]
        exact iff_of_true (Nat.succ_pos _) (.inr List.mem_cons_self)
      · rw [if_neg hbyte]
        split
        next hfound =>
          -- the text is found right here
          rw [← List.cons_append] at hfound
          by_cases hzero : 0 ∈ byte :: value
          · refine iff_of_true ?_ (.inr hzero)
            rw [takeWhile_append_of_zero hzero] at hfound
            exact hfound.length_le.trans (List.takeWhile_prefix _).length_le
          · rw [takeWhile_append_of_no_zero hzero] at hfound
            rw [takeWhile_of_no_zero hzero]
            constructor
            · intro hle
              have hhead := List.prefix_of_prefix_length_le hfound
                (List.prefix_append (byte :: value) _) hle
              exact .inl hhead.isInfix
            · rintro (hinside | hmem)
              · exact hinside.length_le
              · exact absurd hmem hzero
        next hother =>
          have hhere : ¬text <+: byte :: value.takeWhile (· ≠ 0) := by
            intro hhead
            refine hother (hhead.trans ?_)
            have happend := takeWhile_prefix_append (byte :: value) more
            rwa [List.takeWhile_cons, if_pos (decide_eq_true hbyte)] at happend
          rw [Nat.add_le_add_iff_right, ih, List.takeWhile_cons, if_pos (decide_eq_true hbyte),
            List.infix_cons_iff, List.mem_cons]
          constructor
          · rintro (hinside | hmem)
            · exact .inl (.inr hinside)
            · exact .inr (.inr hmem)
          · rintro ((hhead | hinside) | (rfl | hmem))
            · exact absurd hhead hhere
            · exact .inl hinside
            · exact absurd rfl hbyte
            · exact .inr hmem

/-- In a delimited value, what lies behind it does not count. -/
theorem Delimited.strstr_iff (hdelimited : Delimited value) (more : List UInt8) :
    strstr (value ++ more) configDeviceNamePrefix = true ↔ configDeviceNamePrefix <:+: value := by
  rw [strstr, decide_eq_true_eq]
  have hvalue := (List.takeWhile_prefix (· ≠ 0) (l := value)).isInfix
  rcases hdelimited with hfound | ⟨hzero, hnone⟩
  · refine iff_of_true ?_ (hfound.trans hvalue)
    exact hfound.trans (takeWhile_prefix_append value more).isInfix
  · rw [takeWhile_append_of_zero hzero]
    refine iff_of_false (fun hfound => hnone (hfound.trans hvalue)) hnone

end Search

/-! ## The loop -/

/-- The loop takes the element for a name of the right kind. -/
def found (beyond : List UInt8) (visit : Ltv × List UInt8) : Bool :=
  isNameType visit.1.type && strstr (visit.1.value ++ visit.2 ++ beyond) configDeviceNamePrefix

section Loop

variable {beyond : List UInt8} {nameLen : Nat}

theorem adVisits_eq (fuel : Nat) (data : List UInt8) :
    adVisits beyond fuel data = upTo (found beyond) (walkLtv fuel data) := by
  induction fuel generalizing data with
  | zero => rfl
  | succ fuel ih =>
      match data with
      | [] => rfl
      | [_] => rfl
      | len :: type :: data =>
          rw [adVisits, walkLtv, splitLtv]
          split
          next => rfl
          next =>
            dsimp only
            rw [upTo, found, List.take_append_drop, ih]

theorem adParseLoop_eq (fuel : Nat) (data : List UInt8) :
    adParseLoop beyond nameLen fuel data =
      ((walkLtv fuel data).find? (found beyond)).map fun visit => visit.1.value.take nameLen := by
  induction fuel generalizing data with
  | zero => cases data <;> rfl
  | succ fuel ih =>
      match data with
      | [] => rfl
      | [_] => rfl
      | len :: type :: data =>
          rw [adParseLoop, walkLtv, splitLtv]
          split
          next => rfl
          next =>
            dsimp only
            rw [List.find?_cons, found, List.take_append_drop, ih]
            split
            next hfound =>
              rw [hfound, Option.map_some, List.take_take, Nat.min_comm]
            next hother =>
              rw [Bool.eq_false_of_not_eq_true hother]

theorem adParse_eq (report : Report) (nameLen : Nat) :
    adParse report nameLen =
      ((walkLtv report.ad.length report.ad).find? (found report.beyond)).map
        fun visit => visit.1.value.take nameLen := by
  rw [adParse, adParseLoop_eq]

/-- More fuel changes nothing. -/
theorem adParseLoop_of_le (report : Report) {fuel : Nat} (hle : report.ad.length ≤ fuel) :
    adParseLoop report.beyond nameLen fuel report.ad = adParse report nameLen := by
  rw [adParseLoop_eq, adParse_eq, walkLtv_eq hle (Nat.le_refl _)]

theorem length_upTo_le {Item : Type} (p : Item → Bool) (items : List Item) :
    (upTo p items).length ≤ items.length := by
  induction items with
  | nil => exact Nat.le_refl _
  | cons item items ih =>
      rw [upTo]
      split
      next => exact Nat.succ_le_succ (Nat.zero_le _)
      next => exact Nat.succ_le_succ ih

theorem length_adVisits (fuel : Nat) (data : List UInt8) :
    2 * (adVisits beyond fuel data).length ≤ data.length := by
  have hle := length_upTo_le (found beyond) (walkLtv fuel data)
  have hwalk := length_walkLtv fuel data
  rw [adVisits_eq]
  omega

/-- A name is within its length. -/
theorem length_adParse (report : Report) :
    ∀ name ∈ adParse report nameLen, name.length ≤ nameLen := by
  rw [adParse_eq]
  rintro name hname
  obtain ⟨visit, -, rfl⟩ := Option.map_eq_some_iff.mp hname
  exact List.length_take_le _ _

end Loop

/-! ## Delimited names -/

section Delimited

variable {beyond : List UInt8} {visits : List (Ltv × List UInt8)}

/-- In a delimited name, the loop finds what is there. -/
theorem found_of_delimited {visit : Ltv × List UInt8}
    (hdelimited : isNameType visit.1.type = true → Delimited visit.1.value) :
    found beyond visit = hasName visit.1 := by
  rw [found, hasName]
  cases hname : isNameType visit.1.type with
  | false => rfl
  | true =>
      have hiff := (hdelimited hname).strstr_iff (visit.2 ++ beyond)
      rw [← List.append_assoc] at hiff
      rw [Bool.true_and, Bool.true_and, Bool.eq_iff_iff, hiff, decide_eq_true_eq]

/-- With delimited names, the loop gets to the first name of the right kind. -/
theorem upTo_found (beyond : List UInt8) (hnames : ∀ element ∈ upTo hasName (visits.map Prod.fst),
      isNameType element.type = true → Delimited element.value) :
    (upTo (found beyond) visits).map Prod.fst = upTo hasName (visits.map Prod.fst) ∧
      (visits.find? (found beyond)).map Prod.fst = (visits.map Prod.fst).find? hasName := by
  induction visits with
  | nil => exact ⟨rfl, rfl⟩
  | cons visit visits ih =>
      rw [List.map_cons, upTo] at hnames
      have hvisit : found beyond visit = hasName visit.1 :=
        found_of_delimited (hnames visit.1 (by split <;> exact List.mem_cons_self))
      rw [List.map_cons, upTo, upTo, List.find?_cons, List.find?_cons, hvisit]
      cases hhas : hasName visit.1 with
      | true => exact ⟨rfl, rfl⟩
      | false =>
          rw [hhas, if_neg Bool.false_ne_true] at hnames
          obtain ⟨hupTo, hfind⟩ :=
            ih fun element hmem => hnames element (List.mem_cons_of_mem _ hmem)
          refine ⟨?_, hfind⟩
          rw [if_neg Bool.false_ne_true, if_neg Bool.false_ne_true, List.map_cons, hupTo]

theorem adParse_of_delimited {report : Report} (hnames : NamesDelimited report.ad)
    (nameLen : Nat) :
    adParse report nameLen =
      ((upTo hasName (ltvs report.ad)).find? hasName).map
        fun element => element.value.take nameLen := by
  have hfind := (upTo_found report.beyond hnames).2
  rw [adParse_eq, find?_upTo, ltvs, ← hfind, Option.map_map]
  rfl

end Delimited

/-! ## The law -/

section Law

variable {report : Report} {nameLen : Nat}

theorem valueReads_le_iff (beyond : List UInt8) (nameLen : Nat) (visit : Ltv × List UInt8) :
    valueReads beyond nameLen visit ≤ visit.1.value.length ↔
      (isNameType visit.1.type = true →
        configDeviceNamePrefix <:+: visit.1.value.takeWhile (· ≠ 0) ∨ 0 ∈ visit.1.value) := by
  have hsearch := strstrReads_le_iff (show configDeviceNamePrefix ≠ [] from List.cons_ne_nil _ _)
    visit.1.value (visit.2 ++ beyond)
  rw [← List.append_assoc] at hsearch
  unfold valueReads
  dsimp only
  split
  next hname =>
    rw [← hsearch]
    split
    next =>
      -- the copy is cut to the value
      rw [Nat.max_le]
      exact ⟨fun hboth _ => hboth.1, fun hreads => ⟨hreads hname, Nat.min_le_left _ _⟩⟩
    next => exact ⟨fun hreads _ => hreads, fun hreads => hreads hname⟩
  next hname => exact iff_of_true (Nat.zero_le _) fun hyes => absurd hyes hname

theorem adLaw_of_delimited (hnames : NamesDelimited report.ad) (nameLen : Nat) :
    AdLaw report nameLen := by
  have hparse := adParse_of_delimited hnames nameLen
  have hinspects : ∀ visit ∈ adVisits report.beyond report.ad.length report.ad,
      valueReads report.beyond nameLen visit ≤ visit.1.value.length := by
    intro visit hvisit
    rw [adVisits_eq] at hvisit
    refine (valueReads_le_iff _ _ visit).mpr fun hname => ?_
    have hmem : visit.1 ∈ upTo hasName (ltvs report.ad) := by
      rw [ltvs, ← (upTo_found report.beyond hnames).1]
      exact List.mem_map_of_mem hvisit
    exact (hnames visit.1 hmem hname).imp_right And.left
  refine ⟨fun fuel => length_adVisits fuel _, fun fuel hle => adParseLoop_of_le report hle, ?_,
    hinspects, ?_, length_adParse report, ?_⟩
  · intro visit hvisit
    exact (hinspects visit hvisit).trans (Nat.le_add_right _ _)
  · intro other hsame
    have hother : NamesDelimited other.ad := by
      rw [NamesDelimited, hsame]
      exact hnames
    rw [adParse_of_delimited hother, hparse, hsame]
  · rw [hparse, find?_upTo, Option.isSome_map, List.find?_isSome]

/-- The bytes of the first elements alone, with nothing behind them. -/
def cutAfter (report : Report) (elements : List Ltv) : Report :=
  { report with ad := elements.flatMap Ltv.bytes, beyond := [] }

/-- A name of the right kind behind a zero byte is not found in the data that ends with it. -/
theorem adParse_cutAfter {before : List Ltv} {element : Ltv}
    (hfits : ∀ other ∈ before ++ [element], other.Fits)
    (hbefore : ∀ other ∈ before, hasName other = false ∧
      (isNameType other.type = true → Delimited other.value))
    (hzero : 0 ∈ element.value)
    (hhidden : ¬configDeviceNamePrefix <:+: element.value.takeWhile (· ≠ 0)) :
    adParse (cutAfter report (before ++ [element])) nameLen = none := by
  rw [adParse_eq, Option.map_eq_none_iff, List.find?_eq_none]
  intro visit hvisit hfound
  have hmem : visit.1 ∈ ltvs ((before ++ [element]).flatMap Ltv.bytes) :=
    List.mem_map_of_mem hvisit
  rw [ltvs_flatMap hfits, List.mem_append, List.mem_singleton] at hmem
  rcases hmem with hmem | hlast
  · obtain ⟨hno, hdelimited⟩ := hbefore _ hmem
    rw [found_of_delimited hdelimited, hno] at hfound
    exact Bool.false_ne_true hfound
  · rw [← hlast] at hzero hhidden
    rw [found, Bool.and_eq_true, strstr, decide_eq_true_eq, List.append_assoc,
      takeWhile_append_of_zero hzero] at hfound
    exact hhidden hfound.2

/-- By induction on the elements before it: the loop gets to a name if those before it are
delimited. -/
theorem AdLaw.delimited (hlaw : AdLaw report nameLen) {before after : List Ltv} {element : Ltv}
    (hsplit : ltvs report.ad = before ++ element :: after)
    (hbefore : ∀ other ∈ before, hasName other = false)
    (hname : isNameType element.type = true) : Delimited element.value := by
  induction hlength : before.length using Nat.strong_induction_on
    generalizing before element after with
  | _ length ih =>
  have hearlier : ∀ other ∈ before, isNameType other.type = true → Delimited other.value := by
    intro other hmem hother
    obtain ⟨first, second, rfl⟩ := List.append_of_mem hmem
    have hsooner : ltvs report.ad = first ++ other :: (second ++ element :: after) := by
      rw [hsplit, List.append_assoc, List.cons_append]
    have hlt : first.length < length := by
      rw [← hlength, List.length_append, List.length_cons]
      omega
    exact ih first.length hlt hsooner
      (fun earlier hmem => hbefore earlier (List.mem_append_left _ hmem)) hother rfl
  by_contra hnot
  obtain ⟨seen, unseen, hwalk, rfl, hunseen⟩ := List.map_eq_append_iff.mp hsplit
  obtain ⟨visit, later, rfl, rfl, rfl⟩ := List.map_eq_cons_iff.mp hunseen
  have hvisited : visit ∈ adVisits report.beyond report.ad.length report.ad := by
    rw [adVisits_eq, mem_upTo]
    refine ⟨seen, later, hwalk, fun other hmem => ?_⟩
    have hmem := List.mem_map_of_mem (f := Prod.fst) hmem
    rw [found_of_delimited (hearlier _ hmem), hbefore _ hmem]
  have hends := (valueReads_le_iff _ _ visit).mp (hlaw.inspects visit hvisited) hname
  have hhidden : ¬configDeviceNamePrefix <:+: visit.1.value.takeWhile (· ≠ 0) :=
    fun hfound => hnot (.inl hfound)
  have hzero := hends.resolve_left hhidden
  have hhas : hasName visit.1 = true := by
    rw [hasName, hname, Bool.true_and, decide_eq_true_eq]
    by_contra hnone
    exact hnot (.inr ⟨hzero, hnone⟩)
  -- the name is not found without what follows it, although there is one of the right kind
  have hfits : ∀ other ∈ seen.map Prod.fst ++ [visit.1], other.Fits := by
    intro other hmem
    have hother : other ∈ ltvs report.ad := by
      rw [hsplit]
      rcases List.mem_append.mp hmem with hmem | hmem
      · exact List.mem_append_left _ hmem
      · exact List.mem_append_right _ (List.mem_cons.mpr (.inl (List.mem_singleton.mp hmem)))
    exact fits_of_mem_ltvs hother
  have hsame := hlaw.depends (cutAfter report (seen.map Prod.fst ++ [visit.1])) (by
    rw [cutAfter, ltvs_flatMap hfits, hsplit, upTo_append_cons hbefore hhas,
      upTo_append_cons hbefore hhas])
  rw [adParse_cutAfter hfits (fun other hmem => ⟨hbefore _ hmem, hearlier _ hmem⟩) hzero
    hhidden] at hsame
  have hverdict := hlaw.verdict.mpr ⟨visit.1, by rw [hsplit]; simp, hhas⟩
  rw [← hsame] at hverdict
  exact absurd hverdict nofun

/-- Advertising data is parsed within its bounds exactly if the search in every name up to the
first one of the right kind ends inside that name, with the right result. -/
theorem adLaw_iff (report : Report) (nameLen : Nat) :
    AdLaw report nameLen ↔ NamesDelimited report.ad := by
  constructor
  · intro hlaw element hmem hname
    obtain ⟨before, after, hsplit, hbefore⟩ := mem_upTo.mp hmem
    exact hlaw.delimited hsplit hbefore hname
  · exact fun hnames => adLaw_of_delimited hnames nameLen

end Law

/-- The text behind the name is the data of another element. -/
def textBehindName : Report :=
  { addr := Device.zero.addr, rssi := 0, evtype := 0,
    ad := [0x02, 0x09, 0x41, 0x04, 0xff, 0x5a, 0x52, 0x53], beyond := [] }

/-- A name is accepted for what follows it. -/
theorem text_behind_name_found : ¬∀ (report : Report) (nameLen : Nat), AdLaw report nameLen := by
  intro hall
  have hverdict := (hall textBehindName (bleNameMaxLen - 1)).verdict
  revert hverdict
  decide

end CubieBle.BleModule
