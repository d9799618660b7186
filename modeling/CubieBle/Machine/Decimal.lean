import Mathlib.Data.List.TakeWhile
import Mathlib.Data.UInt

/-! # Decimal numerals and `atoi`

The conversion of the C library: blanks and a sign are skipped, and the digits end at
the first other character. A value that does not fit is cut to the largest or smallest
`int`.
-/

namespace Machine

def isDigit (byte : UInt8) : Bool := 0x30 ≤ byte && byte ≤ 0x39

def isSpace (byte : UInt8) : Bool := byte = 0x20 || (0x09 ≤ byte && byte ≤ 0x0d)

def decimalValue (digits : List UInt8) : Nat :=
  digits.foldl (fun value byte => 10 * value + (byte.toNat - 0x30)) 0

/-- The text is a decimal numeral for a number. -/
structure Numeral (text : List UInt8) (n : Nat) : Prop where
  nonempty : text ≠ []
  digits : ∀ byte ∈ text, isDigit byte = true
  value : decimalValue text = n

def clampInt (value : Int) : Int := max (-2 ^ 31) (min (2 ^ 31 - 1) value)

/-- The text is a string without its terminating zero. -/
def atoi (text : List UInt8) : Int :=
  let text := text.dropWhile isSpace
  if text.head? = some 0x2d then
    clampInt (-(decimalValue (text.tail.takeWhile isDigit) : Int))
  else if text.head? = some 0x2b then
    clampInt (decimalValue (text.tail.takeWhile isDigit))
  else clampInt (decimalValue (text.takeWhile isDigit))

/-- The conversion of a parameter to a byte. -/
def lowByte (para : List UInt8) : UInt8 := UInt8.ofInt (atoi para)

def isDecimalString (str : List UInt8) : Bool := str ≠ [] && str.all isDigit

theorem not_isSpace_of_isDigit {byte : UInt8} (hdigit : isDigit byte = true) :
    isSpace byte = false ∧ byte ≠ 0x2d ∧ byte ≠ 0x2b := by
  unfold isDigit at hdigit
  unfold isSpace
  simp only [Bool.and_eq_true, decide_eq_true_eq, UInt8.le_iff_toNat_le] at hdigit
  simp only [Bool.or_eq_false_iff, decide_eq_false_iff_not, Bool.and_eq_false_iff,
    UInt8.le_iff_toNat_le, ← UInt8.toNat_inj, ne_eq]
  have h30 : (0x30 : UInt8).toNat = 48 := rfl
  have h20 : (0x20 : UInt8).toNat = 32 := rfl
  have h0d : (0x0d : UInt8).toNat = 13 := rfl
  have h2d : (0x2d : UInt8).toNat = 45 := rfl
  have h2b : (0x2b : UInt8).toNat = 43 := rfl
  omega

/-- A text that starts with a digit is converted up to its first other character. -/
theorem atoi_cons {byte : UInt8} (hdigit : isDigit byte = true) (rest : List UInt8) :
    atoi (byte :: rest) = clampInt (decimalValue (byte :: rest.takeWhile isDigit)) := by
  obtain ⟨hspace, hminus, hplus⟩ := not_isSpace_of_isDigit hdigit
  have hdrop : (byte :: rest).dropWhile isSpace = byte :: rest := by
    rw [List.dropWhile_cons, if_neg (by rw [hspace]; nofun)]
  unfold atoi
  dsimp only
  rw [hdrop, List.head?_cons, if_neg (fun h => hminus (Option.some.inj h)),
    if_neg (fun h => hplus (Option.some.inj h)), List.takeWhile_cons, if_pos hdigit]

/-- A numeral is converted to its value, as far as that fits. -/
theorem atoi_eq_clampInt {text : List UInt8} {n : Nat} (hnumeral : Numeral text n) :
    atoi text = clampInt n := by
  obtain ⟨hnonempty, hdigits, hvalue⟩ := hnumeral
  cases text with
  | nil => exact absurd rfl hnonempty
  | cons byte rest =>
      have htake : rest.takeWhile isDigit = rest :=
        List.takeWhile_eq_self_iff.mpr fun digit hmem =>
          hdigits digit (List.mem_cons_of_mem _ hmem)
      rw [atoi_cons (hdigits byte List.mem_cons_self), htake, hvalue]

/-- A numeral that fits is converted to its value. -/
theorem atoi_numeral {text : List UInt8} {n : Nat} (hnumeral : Numeral text n) (hn : n < 2 ^ 31) :
    atoi text = n := by
  rw [atoi_eq_clampInt hnumeral, clampInt]
  omega

/-- More digits do not make a number less. -/
theorem le_decimalValue_append (digits more : List UInt8) :
    decimalValue digits ≤ decimalValue (digits ++ more) := by
  rw [decimalValue, decimalValue, List.foldl_append]
  generalize digits.foldl (fun value byte => 10 * value + (byte.toNat - 0x30)) 0 = value
  induction more generalizing value with
  | nil => exact Nat.le_refl _
  | cons byte rest ih =>
      rw [List.foldl_cons]
      refine Nat.le_trans ?_ (ih _)
      omega

end Machine
