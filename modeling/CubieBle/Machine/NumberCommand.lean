import CubieBle.Machine.Decimal

/-! # Commands with a number

A command takes the low byte of what the library makes of its parameter, and is carried out if
the parameter has digits only and that byte is not above a bound. This is what was meant
unless the value itself is above the bound.
-/

namespace Machine

universe uState

variable {State : Type uState}

/-- What a command does with a number, and without one. -/
structure NumberCommand (State : Type uState) where
  bound : Nat
  carryOut : Nat → List UInt8 → State → State
  refuse : State → State

/-- The command as it is written: the byte is compared. -/
def NumberCommand.exec (command : NumberCommand State) (para : List UInt8) (state : State) :
    State :=
  if !isDecimalString para || command.bound < (lowByte para).toNat then command.refuse state
  else command.carryOut (lowByte para).toNat para state

/-- A function carries the command out with the value of a numeral up to the bound, and refuses
every other parameter and only those. -/
structure NumberCommand.AcceptsExactly (command : NumberCommand State)
    (set : List UInt8 → State → State) (para : List UInt8) (state : State) : Prop where
  accepted : ∀ v ≤ command.bound, Numeral para v → set para state = command.carryOut v para state
  refused : set para state = command.refuse state ↔ ∀ v ≤ command.bound, ¬Numeral para v

/-- The parameter is not a numeral that is above the bound and has its low byte within it. -/
def NotWrapped (bound : Nat) (para : List UInt8) : Prop :=
  ∀ v, Numeral para v → bound < v → v < 2 ^ 31 → bound < v % 256

section Numerals

variable {para : List UInt8} {v w : Nat}

theorem isDecimalString_iff : isDecimalString para = true ↔ ∃ v, Numeral para v := by
  rw [isDecimalString, Bool.and_eq_true, decide_eq_true_iff, List.all_eq_true]
  constructor
  · rintro ⟨hne, hdigits⟩
    exact ⟨_, hne, hdigits, rfl⟩
  · rintro ⟨v, hne, hdigits, -⟩
    exact ⟨hne, hdigits⟩

theorem Numeral.unique (hfirst : Numeral para v) (hsecond : Numeral para w) : v = w :=
  hfirst.value.symm.trans hsecond.value

/-- The byte of a numeral that does not fit has all its bits set. -/
theorem toNat_lowByte (hnumeral : Numeral para v) :
    (lowByte para).toNat = if v < 2 ^ 31 then v % 256 else 255 := by
  have hbyte : ∀ n : Nat, (UInt8.ofInt (n : Int)).toNat = n % 256 := fun n => by
    rw [UInt8.ofInt, UInt8.toNat_ofNat']
    omega
  rw [lowByte]
  split
  next hfits => rw [atoi_numeral hnumeral hfits, hbyte]
  next hlarge =>
    have hmax : atoi para = ((2 ^ 31 - 1 : Nat) : Int) := by
      rw [atoi_eq_clampInt hnumeral, clampInt]
      omega
    rw [hmax, hbyte]
    rfl

end Numerals

theorem NumberCommand.exec_of_numeral (command : NumberCommand State) {para : List UInt8} {v : Nat}
    (hnumeral : Numeral para v) (state : State) :
    command.exec para state =
      if command.bound < (lowByte para).toNat then command.refuse state
      else command.carryOut (lowByte para).toNat para state := by
  rw [exec, isDecimalString_iff.mpr ⟨v, hnumeral⟩]
  simp

/-- A numeral is not wrapped if it is above the bound only with its low byte. -/
theorem notWrapped_iff_of_numeral {bound v : Nat} {para : List UInt8} (hnumeral : Numeral para v)
    (hbound : bound < 255) :
    NotWrapped bound para ↔ (bound < v → bound < (lowByte para).toNat) := by
  have hbyte := toNat_lowByte hnumeral
  constructor
  · intro hall hlt
    rw [hbyte]
    split
    next hfits => exact hall v hnumeral hlt hfits
    next => exact hbound
  · intro hall w hother hlt hfits
    rw [hother.unique hnumeral] at hlt hfits ⊢
    rw [hbyte, if_pos hfits] at hall
    exact hall hlt

/-- A function that is the command carries it out for the right numbers exactly if the parameter
is not wrapped. -/
theorem NumberCommand.acceptsExactly_iff (command : NumberCommand State)
    {set : List UInt8 → State → State} {para : List UInt8} {state : State}
    (hset : set para state = command.exec para state) (hbound : command.bound < 255)
    (hdiffer : ∀ v ≤ command.bound, command.carryOut v para state ≠ command.refuse state) :
    command.AcceptsExactly set para state ↔ NotWrapped command.bound para := by
  by_cases hdigits : ∃ v, Numeral para v
  · obtain ⟨v, hnumeral⟩ := hdigits
    have hbyte := toNat_lowByte hnumeral
    have hexec := hset.trans (command.exec_of_numeral hnumeral state)
    have hin : (∀ w ≤ command.bound, ¬Numeral para w) ↔ command.bound < v := by
      constructor
      · intro hnone
        by_contra hle
        exact hnone v (Nat.le_of_not_lt hle) hnumeral
      · intro hlt w hw hother
        rw [hother.unique hnumeral] at hw
        exact Nat.not_le_of_gt hlt hw
    rw [notWrapped_iff_of_numeral hnumeral hbound]
    constructor
    · intro haccepts hlt
      by_contra hle
      refine hdiffer _ (Nat.le_of_not_lt hle) ?_
      rw [← haccepts.refused.mpr (hin.mpr hlt), hexec, if_neg hle]
    · intro himp
      refine ⟨?_, ?_⟩
      · intro w hw hother
        obtain rfl := hother.unique hnumeral
        have hfits : w < 2 ^ 31 := by omega
        rw [if_pos hfits, Nat.mod_eq_of_lt (by omega)] at hbyte
        rw [hexec, hbyte, if_neg (Nat.not_lt_of_ge hw)]
      · rw [hin, hexec]
        by_cases hlt : command.bound < v
        · rw [if_pos (himp hlt)]
          exact iff_of_true rfl hlt
        · have hfits : v < 2 ^ 31 := by omega
          rw [if_pos hfits, Nat.mod_eq_of_lt (by omega)] at hbyte
          rw [hbyte, if_neg hlt]
          exact iff_of_false (hdiffer v (Nat.le_of_not_lt hlt)) hlt
  · have hno : ∀ w, ¬Numeral para w := not_exists.mp hdigits
    refine iff_of_true ⟨fun w _ hother => (hno w hother).elim, ?_⟩
      fun w hother => (hno w hother).elim
    have hfalse : isDecimalString para = false :=
      Bool.eq_false_iff.mpr fun htrue => hdigits (isDecimalString_iff.mp htrue)
    rw [hset, exec, hfalse]
    exact iff_of_true rfl fun w _ => hno w

end Machine
