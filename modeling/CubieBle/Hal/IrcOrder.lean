import CubieBle.Hal.IrcRecognition
import Mathlib.Data.List.Find

/-! # No table is recognised twice

The recognisers are told apart by the first mark and by the length of a table, so at most one of
them accepts it. The order in which they are tried is of no matter, and a table that was learned
is recognised again and stays as it is.
-/

namespace CubieBle.Hal

/-! ## The recognisers -/

inductive IrcProtocol where
  | nec
  | p9012
  | rc5
  | rc6
  | p7461
  | p50560
  | p50462
deriving DecidableEq

namespace IrcProtocol

/-- The order of `check_irc_wave`. -/
def all : List IrcProtocol := [nec, p9012, rc5, rc6, p7461, p50560, p50462]

/-- What the recogniser makes of a table; `none` is a loop that has not ended. -/
def recognise (mask41 : UInt32) (tab : PulseTab) (tabLen : UInt16) :
    IrcProtocol → Option (Bool × PulseTab)
  | nec => some (isNecWave tab tabLen)
  | p9012 => some (is9012Protocol tab tabLen)
  | rc5 => (isRc5Protocol tab tabLen).map fun accepted => (accepted, tab)
  | rc6 => (isRc6Protocol tab tabLen).map fun accepted => (accepted, tab)
  | p7461 => some (is7461Protocol mask41 tab tabLen)
  | p50560 => some (is50560Protocol tab tabLen, tab)
  | p50462 => some (is50462Protocol tab tabLen)

def accepts (mask41 : UInt32) (tab : PulseTab) (tabLen : UInt16) (protocol : IrcProtocol) : Bool :=
  ((protocol.recognise mask41 tab tabLen).map Prod.fst).getD false

end IrcProtocol

/-- The recognisers one after the other, until one accepts the table. -/
def checkInOrder (mask41 : UInt32) (tabLen : UInt16) :
    List IrcProtocol → PulseTab → Option (IrLearn × PulseTab)
  | [], tab => some (.failed, tab)
  | protocol :: rest, tab =>
      (protocol.recognise mask41 tab tabLen).bind fun (accepted, tab) =>
        if accepted then some (.success, tab) else checkInOrder mask41 tabLen rest tab

section Order

variable {mask41 : UInt32} {tab : PulseTab} {tabLen : UInt16}

theorem checkInOrder_all (mask41 : UInt32) (tab : PulseTab) (tabLen : UInt16) :
    checkInOrder mask41 tabLen IrcProtocol.all tab = checkIrcWave mask41 tab tabLen := by
  simp only [IrcProtocol.all, checkInOrder, IrcProtocol.recognise, checkIrcWave, Option.bind_some,
    Option.bind_map, Option.bind_eq_bind]
  rfl

/-- A table that is not accepted stays as it is. -/
theorem PulseDistance.recognise_cases (protocol : PulseDistance) (mask : UInt32) (tab : PulseTab)
    (tabLen : UInt16) :
    protocol.recognise mask tab tabLen = (false, tab) ∨
      ∃ next, protocol.recognise mask tab tabLen = (true, next) := by
  rw [recognise]
  split
  · exact .inl rfl
  · split
    · exact .inl rfl
    · cases protocol.readCode tab protocol.positions with
      | none => exact .inl rfl
      | some word => exact .inr ⟨_, rfl⟩

/-- The verdict of a recogniser on a table that fits the buffer. -/
inductive Verdict (mask41 : UInt32) (tab : PulseTab) (tabLen : UInt16) (protocol : IrcProtocol) :
    Prop where
  | rejected (hrun : protocol.recognise mask41 tab tabLen = some (false, tab))
      (hnot : protocol.accepts mask41 tab tabLen = false)
  | accepted (next : PulseTab) (hrun : protocol.recognise mask41 tab tabLen = some (true, next))
      (haccepts : protocol.accepts mask41 tab tabLen = true)

theorem verdict_of_cases {protocol : IrcProtocol}
    (hcases : protocol.recognise mask41 tab tabLen = some (false, tab) ∨
      ∃ next, protocol.recognise mask41 tab tabLen = some (true, next)) :
    Verdict mask41 tab tabLen protocol := by
  rcases hcases with hrun | ⟨next, hrun⟩
  · exact .rejected hrun (by rw [IrcProtocol.accepts, hrun]; rfl)
  · exact .accepted next hrun (by rw [IrcProtocol.accepts, hrun]; rfl)

theorem verdict (mask41 : UInt32) (tab : PulseTab) (htab : tabLen.toNat ≤ 100)
    (protocol : IrcProtocol) : Verdict mask41 tab tabLen protocol := by
  have hdistance : ∀ (distance : PulseDistance) (mask : UInt32),
      protocol.recognise mask41 tab tabLen = some (distance.recognise mask tab tabLen) →
      Verdict mask41 tab tabLen protocol := by
    intro distance mask hrun
    rcases distance.recognise_cases mask tab tabLen with hnot | ⟨next, haccepted⟩
    · exact verdict_of_cases (.inl (hrun.trans (congrArg some hnot)))
    · exact verdict_of_cases (.inr ⟨next, hrun.trans (congrArg some haccepted)⟩)
  have hunchanged : ∀ accepted : Bool,
      protocol.recognise mask41 tab tabLen = some (accepted, tab) →
      Verdict mask41 tab tabLen protocol := by
    intro accepted hrun
    cases accepted with
    | false => exact verdict_of_cases (.inl hrun)
    | true => exact verdict_of_cases (.inr ⟨tab, hrun⟩)
  cases protocol with
  | nec => exact hdistance nec _ rfl
  | p9012 => exact hdistance p9012 _ rfl
  | rc5 =>
      obtain ⟨accepted, hrc5⟩ := Option.isSome_iff_exists.mp (isSome_isRc5Protocol tab htab)
      exact hunchanged accepted (by rw [IrcProtocol.recognise, hrc5, Option.map_some])
  | rc6 =>
      obtain ⟨accepted, hrc6⟩ := Option.isSome_iff_exists.mp (isSome_isRc6Protocol tab htab)
      exact hunchanged accepted (by rw [IrcProtocol.recognise, hrc6, Option.map_some])
  | p7461 => exact hdistance p7461 mask41 rfl
  | p50560 => exact hunchanged _ rfl
  | p50462 => exact hdistance p50462 _ rfl

/-- The first recogniser that accepts the table decides. -/
theorem checkInOrder_eq (mask41 : UInt32) (tab : PulseTab) (htab : tabLen.toNat ≤ 100)
    (order : List IrcProtocol) :
    checkInOrder mask41 tabLen order tab =
      match order.find? (IrcProtocol.accepts mask41 tab tabLen) with
      | none => some (.failed, tab)
      | some protocol =>
          (protocol.recognise mask41 tab tabLen).map fun (_, next) => (.success, next) := by
  induction order with
  | nil => rfl
  | cons protocol rest ih =>
      rw [checkInOrder]
      cases verdict mask41 tab htab protocol with
      | rejected hrun hnot =>
          rw [hrun, List.find?_cons_of_neg (by rw [hnot]; exact Bool.false_ne_true)]
          exact ih
      | accepted next hrun haccepts =>
          rw [List.find?_cons_of_pos haccepts]
          dsimp only
          rw [hrun]
          rfl

/-! ## The first mark and the length -/

/-- The nominal width of the first mark. -/
def IrcProtocol.firstMark : IrcProtocol → Nat
  | nec => 9000
  | p9012 => 4500
  | rc5 => rc5Com
  | rc6 => rc6Ldc0
  | p7461 => 9000
  | p50560 => 8000
  | p50462 => 260

/-- The only length of a table, if there is one. -/
def IrcProtocol.tabLen? : IrcProtocol → Option Nat
  | nec => some 67
  | p9012 => some 67
  | rc5 => none
  | rc6 => none
  | p7461 => some 87
  | p50560 => some 37
  | p50462 => some 33

/-- No width is the first mark of both, or no length is that of both. -/
def Apart (first second : IrcProtocol) : Prop :=
  valEspR first.firstMark ≤ valEspL second.firstMark ∨
    valEspR second.firstMark ≤ valEspL first.firstMark ∨
    (first.tabLen?.isSome ∧ second.tabLen?.isSome ∧ first.tabLen? ≠ second.tabLen?)

instance (first second : IrcProtocol) : Decidable (Apart first second) :=
  inferInstanceAs (Decidable (_ ∨ _ ∨ _))

theorem apart_of_ne {first second : IrcProtocol} (hne : first ≠ second) : Apart first second := by
  cases first <;> cases second <;> first | exact absurd rfl hne | decide

/-- What each recogniser looks at first. -/
structure Signed (tab : PulseTab) (tabLen : UInt16) (protocol : IrcProtocol) : Prop where
  mark : InWindow protocol.firstMark (tab 0)
  length : ∀ n ∈ protocol.tabLen?, tabLen.toNat = n

theorem PulseDistance.length_of_recognise {protocol : PulseDistance} {mask : UInt32}
    (haccepted : (protocol.recognise mask tab tabLen).1 = true) :
    tabLen.toNat = protocol.tabLen := by
  by_contra hlen
  rw [recognise_of_length_ne hlen] at haccepted
  exact Bool.false_ne_true haccepted

theorem PulseDistance.leader_of_recognise {protocol : PulseDistance} {mask : UInt32}
    (haccepted : (protocol.recognise mask tab tabLen).1 = true) : protocol.LeaderOk tab := by
  by_contra hleader
  rw [recognise_of_leader hleader] at haccepted
  exact Bool.false_ne_true haccepted

theorem level_at_zero (com : Nat) (usedLen : UInt8) :
    (getPulseLevel tab com ⟨0, usedLen⟩).1 ≠ some .space := by
  rw [getPulseLevel]
  cases pulseUnits (tab (PulseCursor.offset ⟨0, usedLen⟩).toNat) com with
  | none =>
      intro hspace
      cases hspace
  | some len =>
      intro hspace
      cases hspace

/-- A first entry that is not of one half is no carrier, or its second half follows. -/
theorem level_of_not_window (hwindow : ¬InWindow rc5Com (tab 0)) :
    (getPulseLevel tab rc5Com {}).1 ≠ some .carrier ∨
      (getPulseLevel tab rc5Com {}).2 = ⟨0, 1⟩ := by
  have hunits : pulseUnits (tab (PulseCursor.offset {}).toNat) rc5Com =
      if InWindow (rc5Com * 2) (tab 0) then some 2
      else if InWindow (rc5Com * 3) (tab 0) then some 3
      else none := if_neg hwindow
  rw [getPulseLevel, hunits]
  by_cases htwo : InWindow (rc5Com * 2) (tab 0)
  · rw [if_pos htwo]
    exact .inr rfl
  · by_cases hthree : InWindow (rc5Com * 3) (tab 0)
    · rw [if_neg htwo, if_pos hthree]
      exact .inr rfl
    · rw [if_neg htwo, if_neg hthree]
      refine .inl ?_
      intro hcarrier
      cases hcarrier

/-- A space follows the first carrier at once, so its entry has only one half. -/
theorem mark_of_isRc5Protocol (haccepted : isRc5Protocol tab tabLen = some true) :
    InWindow rc5Com (tab 0) := by
  by_contra hwindow
  rw [isRc5Protocol] at haccepted
  dsimp only at haccepted
  split_ifs at haccepted with hlen hcarrier hspace hagain
  · cases haccepted
  · cases haccepted
  · cases haccepted
  · cases haccepted
  · rcases level_of_not_window hwindow with hnot | hcursor
    · exact hcarrier hnot
    · rw [hcursor] at hspace
      exact hspace (level_at_zero rc5Com 1)

theorem mark_of_isRc6Protocol (haccepted : isRc6Protocol tab tabLen = some true) :
    InWindow rc6Ldc0 (tab 0) := by
  by_contra hwindow
  rw [isRc6Protocol, if_pos hwindow] at haccepted
  split at haccepted
  · cases haccepted
  · cases haccepted

theorem of_getD_map {verdict : Option Bool}
    (haccepts : ((verdict.map fun accepted => (accepted, tab)).map Prod.fst).getD false = true) :
    verdict = some true := by
  cases verdict with
  | none => cases haccepts
  | some accepted => exact congrArg some haccepts

theorem PulseDistance.signed_of_recognise {distance : PulseDistance} {mask : UInt32}
    {protocol : IrcProtocol} (haccepted : (distance.recognise mask tab tabLen).1 = true)
    (hmark : InWindow protocol.firstMark (tab 0))
    (htabLen : protocol.tabLen? = some distance.tabLen) : Signed tab tabLen protocol := by
  refine ⟨hmark, ?_⟩
  intro n hn
  rw [length_of_recognise haccepted]
  exact Option.some.inj (htabLen.symm.trans hn)

theorem signed_of_accepts {protocol : IrcProtocol}
    (haccepts : protocol.accepts mask41 tab tabLen = true) : Signed tab tabLen protocol := by
  cases protocol with
  | nec =>
      have hmark := PulseDistance.leader_of_recognise haccepts 0 (by decide)
      exact PulseDistance.signed_of_recognise haccepts hmark rfl
  | p9012 =>
      have hmark := PulseDistance.leader_of_recognise haccepts 0 (by decide)
      exact PulseDistance.signed_of_recognise haccepts hmark rfl
  | rc5 => exact ⟨mark_of_isRc5Protocol (of_getD_map haccepts), nofun⟩
  | rc6 => exact ⟨mark_of_isRc6Protocol (of_getD_map haccepts), nofun⟩
  | p7461 =>
      have hmark := PulseDistance.leader_of_recognise haccepts 0 (by decide)
      exact PulseDistance.signed_of_recognise haccepts hmark rfl
  | p50560 =>
      change is50560Protocol tab tabLen = true at haccepts
      rw [is50560Protocol] at haccepts
      split_ifs at haccepts with hlen hleader
      refine ⟨hleader 0 (by decide), ?_⟩
      rintro n ⟨⟩
      exact not_not.mp hlen
  | p50462 =>
      obtain ⟨word, ⟨-, hwithin⟩, -⟩ :=
        PulseDistance.existsUnique_of_recognise p50462_exact haccepts
      exact PulseDistance.signed_of_recognise haccepts (hwithin.2 0 (by decide)).1 rfl

/-- At most one recogniser accepts a table. -/
theorem accepts_unique {first second : IrcProtocol}
    (hfirst : first.accepts mask41 tab tabLen = true)
    (hsecond : second.accepts mask41 tab tabLen = true) : first = second := by
  by_contra hne
  obtain ⟨⟨hlow, hhigh⟩, hlength⟩ := signed_of_accepts hfirst
  obtain ⟨⟨hlow', hhigh'⟩, hlength'⟩ := signed_of_accepts hsecond
  rcases apart_of_ne hne with hbelow | habove | ⟨hsome, hsome', hdiffer⟩
  · omega
  · omega
  · obtain ⟨n, hn⟩ := Option.isSome_iff_exists.mp hsome
    obtain ⟨n', hn'⟩ := Option.isSome_iff_exists.mp hsome'
    have hsame : n = n' := (hlength n hn).symm.trans (hlength' n' hn')
    rw [hn, hn', hsame] at hdiffer
    exact hdiffer rfl

/-- The order in which the recognisers are tried is of no matter: the verdict and the table are
those of `check_irc_wave`. -/
theorem checkInOrder_perm (mask41 : UInt32) (tab : PulseTab) (htab : tabLen.toNat ≤ 100)
    {order : List IrcProtocol} (hperm : order.Perm IrcProtocol.all) :
    checkInOrder mask41 tabLen order tab = checkIrcWave mask41 tab tabLen := by
  have hunique : {protocol ∈ order |
      protocol.accepts mask41 tab tabLen = true}.Subsingleton := by
    rintro first ⟨-, hfirst⟩ second ⟨-, hsecond⟩
    exact accepts_unique hfirst hsecond
  rw [← checkInOrder_all, checkInOrder_eq mask41 tab htab, checkInOrder_eq mask41 tab htab,
    List.find?_eq_find?_of_perm hperm hunique]

theorem checkInOrder_perm_reverse :
    checkInOrder 0 67 IrcProtocol.all.reverse slowNecTab = checkIrcWave 0 slowNecTab 67 :=
  checkInOrder_perm 0 slowNecTab (by decide) (List.reverse_perm _)

/-! ## A table that was learned -/

/-- The nominal widths of a protocol are within their own windows. -/
def PulseDistance.Nominal (protocol : PulseDistance) : Prop :=
  ∀ width ∈ protocol.leader ++ [protocol.com, protocol.logic0, protocol.logic1],
    InWindow width (UInt16.ofNat width)

instance (protocol : PulseDistance) : Decidable protocol.Nominal :=
  inferInstanceAs (Decidable (∀ width ∈ _, _))

theorem PulseDistance.within_nominalWave {protocol : PulseDistance} (hnominal : protocol.Nominal)
    (word : Nat) (tab : PulseTab) : protocol.Within (protocol.nominalWave word tab) word := by
  constructor
  · intro i hi
    rw [nominalWave, dif_pos hi]
    exact hnominal _ (List.mem_append_left _ (List.get_mem ..))
  · intro k hk
    have hcode : ∀ j < 2 * protocol.codeNum,
        protocol.nominalWave word tab (protocol.leader.length + j) =
          protocol.nominalCode protocol.codeNum word j := by
      intro j hj
      rw [nominalWave, dif_neg (by omega), if_pos (by rw [tabLen]; omega), Nat.add_sub_cancel_left]
    rw [hcode _ (by omega), Nat.add_assoc, hcode _ (by omega), nominalCode, nominalCode,
      if_pos (by omega), if_neg (by omega)]
    have hhalf : (2 * k + 1) / 2 = k := by omega
    rw [hhalf]
    refine ⟨hnominal _ (by simp), ?_⟩
    rw [space]
    split
    · exact hnominal _ (by simp)
    · exact hnominal _ (by simp)

theorem PulseDistance.nominalWave_nominalWave (protocol : PulseDistance) (word : Nat)
    (tab : PulseTab) :
    protocol.nominalWave word (protocol.nominalWave word tab) = protocol.nominalWave word tab := by
  funext i
  rw [nominalWave]
  split
  next hleader => rw [nominalWave, dif_pos hleader]
  next hleader =>
    split
    next hcode => rw [nominalWave, dif_neg hleader, if_pos hcode]
    next => rfl

/-- A table that the recogniser has rewritten is accepted and stays as it is. -/
theorem PulseDistance.recognise_again {protocol : PulseDistance} {mask : UInt32}
    (hexact : protocol.Exact mask) (hnominal : protocol.Nominal) {next : PulseTab}
    (haccepted : protocol.recognise mask tab tabLen = (true, next)) :
    protocol.recognise mask next tabLen = (true, next) := by
  have hfst : (protocol.recognise mask tab tabLen).1 = true := by rw [haccepted]
  have hlen := length_of_recognise hfst
  obtain ⟨word, ⟨hword, hwithin⟩, -⟩ := existsUnique_of_recognise hexact hfst
  rw [recognise_of_within hexact hlen hword hwithin] at haccepted
  obtain ⟨-, rfl⟩ := Prod.mk.inj haccepted
  rw [recognise_of_within hexact hlen hword (within_nominalWave hnominal word tab),
    nominalWave_nominalWave]

theorem recognise_again {protocol : IrcProtocol} (hother : protocol ≠ .p7461) {next : PulseTab}
    (haccepted : protocol.recognise mask41 tab tabLen = some (true, next)) :
    protocol.recognise mask41 next tabLen = some (true, next) := by
  have hunchanged : ∀ verdict : Option Bool,
      (verdict.map fun accepted => (accepted, tab)) = some (true, next) → tab = next := by
    intro verdict hverdict
    cases verdict with
    | none => cases hverdict
    | some accepted => exact (Prod.mk.inj (Option.some.inj hverdict)).2
  cases protocol with
  | nec =>
      exact congrArg some (PulseDistance.recognise_again nec_exact (by decide)
        (Option.some.inj haccepted))
  | p9012 =>
      exact congrArg some (PulseDistance.recognise_again p9012_exact (by decide)
        (Option.some.inj haccepted))
  | rc5 =>
      obtain rfl := hunchanged _ haccepted
      exact haccepted
  | rc6 =>
      obtain rfl := hunchanged _ haccepted
      exact haccepted
  | p7461 => exact absurd rfl hother
  | p50560 =>
      obtain ⟨-, rfl⟩ := Prod.mk.inj (Option.some.inj haccepted)
      exact haccepted
  | p50462 =>
      exact congrArg some (PulseDistance.recognise_again p50462_exact (by decide)
        (Option.some.inj haccepted))

/-- A table that was learned is recognised again and stays as it is. The
tables of the 7461 protocol are left out, whose mask has no defined value. -/
theorem checkIrcWave_again (mask41 : UInt32) {tab next : PulseTab} (htab : tabLen.toNat ≤ 100)
    (hother : tabLen.toNat ≠ 87)
    (hlearned : checkIrcWave mask41 tab tabLen = some (.success, next)) :
    checkIrcWave mask41 next tabLen = some (.success, next) := by
  rw [← checkInOrder_all, checkInOrder_eq mask41 tab htab] at hlearned
  cases hfind : IrcProtocol.all.find? (IrcProtocol.accepts mask41 tab tabLen) with
  | none => simp [hfind] at hlearned
  | some protocol =>
      have haccepts : protocol.accepts mask41 tab tabLen = true := List.find?_some hfind
      have hmem := List.mem_of_find?_eq_some hfind
      have hnot : protocol ≠ .p7461 := by
        rintro rfl
        exact hother ((signed_of_accepts haccepts).length 87 rfl)
      cases verdict mask41 tab htab protocol with
      | rejected _ hnone => exact absurd haccepts (by rw [hnone]; exact Bool.false_ne_true)
      | accepted found hrun _ =>
          rw [hfind] at hlearned
          dsimp only at hlearned
          rw [hrun] at hlearned
          obtain rfl : found = next := (Prod.mk.inj (Option.some.inj hlearned)).2
          have hagain := recognise_again hnot hrun
          have haccepts' : protocol.accepts mask41 found tabLen = true := by
            rw [IrcProtocol.accepts, hagain]
            rfl
          rw [← checkInOrder_all, checkInOrder_eq mask41 found htab]
          cases hfind' : IrcProtocol.all.find? (IrcProtocol.accepts mask41 found tabLen) with
          | none => exact absurd haccepts' (List.find?_eq_none.mp hfind' protocol hmem)
          | some other =>
              obtain rfl : other = protocol :=
                accepts_unique (List.find?_some hfind') haccepts'
              dsimp only
              rw [hagain]
              rfl

theorem checkIrcWave_again_slow :
    checkIrcWave 0 (nec.nominalWave 0x00FF02FD slowNecTab) 67 =
      some (.success, nec.nominalWave 0x00FF02FD slowNecTab) := by
  have hwithin : nec.Within slowNecTab 0x00FF02FD := by decide
  have hnec : isNecWave slowNecTab 67 = (true, nec.nominalWave 0x00FF02FD slowNecTab) :=
    PulseDistance.recognise_of_within nec_exact (by decide) (by decide) hwithin
  have hlearned : checkIrcWave 0 slowNecTab 67 =
      some (.success, nec.nominalWave 0x00FF02FD slowNecTab) := by
    rw [checkIrcWave, hnec]
    rfl
  exact checkIrcWave_again 0 (by decide) (by decide) hlearned

end Order

end CubieBle.Hal
