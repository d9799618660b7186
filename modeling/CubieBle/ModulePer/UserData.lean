import CubieBle.ModulePer.Config

/-! # The manufacturer data

The command stores the digits of its parameter pair by pair, and the query prints the bytes from
the last one on. So only data whose pairs read the same from both ends come back as they were
set.
-/

namespace CubieBle.ModulePer

open Machine

/-- A digit that `"%x"` prints. -/
def hexDigit (value : UInt8) : UInt8 := if value < 10 then 0x30 + value else 0x61 + (value - 10)

/-- `"%02x"` -/
def printHex (byte : UInt8) : List UInt8 := [hexDigit (byte >>> 4), hexDigit (byte &&& 15)]

/-- The answer to `AT+MAFD-?` -/
def atCmdAdvDataGet (app : App) : List UInt8 :=
  app.config.advUserData.toList.reverse.flatMap printHex ++ [0x0d, 0x0a]

def lower (char : UInt8) : UInt8 := if 0x41 ≤ char && char ≤ 0x5a then char + 0x20 else char

/-- The pairs of a text, without a last character that is left over. -/
def pairs : List UInt8 → List (List UInt8)
  | high :: low :: rest => [high, low] :: pairs rest
  | _ => []

/-- Data of twelve digits read back as they were written, up to the case of the letters, and
what is not a text of digits is refused. -/
structure ReadsBack (uninit : Nat → UInt8) (para : List UInt8) (app : App) : Prop where
  same : para.length = 12 → isHexString para = true →
    atCmdAdvDataGet (atCmdAdvDataSet uninit para app) = para.map lower ++ [0x0d, 0x0a]
  refused : isHexString para = false →
    (atCmdAdvDataSet uninit para app).answers = app.answers ++ [.error] ∧
      (atCmdAdvDataSet uninit para app).config.advUserData = app.config.advUserData ∧
        (atCmdAdvDataSet uninit para app).nvram = app.nvram

/-! ## Digits -/

theorem hexDigit_char2hex {char : UInt8} (hhex : isHexDigit char = true) :
    ∃ n < 16, char2hex char = some (UInt8.ofNat n) ∧ hexDigit (UInt8.ofNat n) = lower char := by
  have hall : ∀ k < 256, isHexDigit (UInt8.ofNat k) = true → ∃ n < 16,
      char2hex (UInt8.ofNat k) = some (UInt8.ofNat n) ∧
        hexDigit (UInt8.ofNat n) = lower (UInt8.ofNat k) := by decide +kernel
  have hchar := hall char.toNat char.toNat_lt
  rw [UInt8.ofNat_toNat] at hchar
  exact hchar hhex

theorem printHex_pair : ∀ n < 16, ∀ m < 16,
    printHex (UInt8.ofNat n <<< 4 + UInt8.ofNat m) =
      [hexDigit (UInt8.ofNat n), hexDigit (UInt8.ofNat m)] := by decide

section Pairs

variable {para : List UInt8} {blocks : List (List UInt8)}

/-- What a pair of digits is stored as is printed as the pair. -/
theorem map_printHex_userDataLoop (uninit : Nat → UInt8) (i : Nat)
    (hhex : ∀ char ∈ para, isHexDigit char = true) :
    (userDataLoop uninit i para).map printHex = pairs (para.map lower) := by
  induction para using pairs.induct generalizing i with
  | case1 high low rest ih =>
      obtain ⟨n, hn, hhigh, hprintHigh⟩ := hexDigit_char2hex (hhex high (by simp))
      obtain ⟨m, hm, hlow, hprintLow⟩ := hexDigit_char2hex (hhex low (by simp))
      rw [userDataLoop, List.map_cons, hhigh, hlow, Option.getD_some, Option.getD_some,
        printHex_pair n hn m hm, hprintHigh, hprintLow,
        ih (i + 2) fun char hchar => hhex char (by simp [hchar])]
      rfl
  | case2 text hshort =>
      cases text with
      | nil => rfl
      | cons high rest =>
          cases rest with
          | nil => rfl
          | cons low rest => exact (hshort high low rest rfl).elim

theorem length_userDataLoop (uninit : Nat → UInt8) (i : Nat) (para : List UInt8) :
    (userDataLoop uninit i para).length = para.length / 2 := by
  induction para using pairs.induct generalizing i with
  | case1 high low rest ih =>
      rw [userDataLoop, List.length_cons, ih (i + 2), List.length_cons, List.length_cons]
      omega
  | case2 text hshort =>
      cases text with
      | nil => rfl
      | cons high rest =>
          cases rest with
          | nil => simp [userDataLoop]
          | cons low rest => exact (hshort high low rest rfl).elim

theorem flatten_pairs (heven : para.length % 2 = 0) : (pairs para).flatten = para := by
  induction para using pairs.induct with
  | case1 high low rest ih =>
      rw [List.length_cons, List.length_cons] at heven
      rw [pairs, List.flatten_cons, ih (by omega)]
      rfl
  | case2 text hshort =>
      cases text with
      | nil => rfl
      | cons high rest =>
          cases rest with
          | nil => exact absurd heven (by simp)
          | cons low rest => exact (hshort high low rest rfl).elim

theorem length_of_mem_pairs (para : List UInt8) : ∀ block ∈ pairs para, block.length = 2 := by
  induction para using pairs.induct with
  | case1 high low rest ih =>
      rw [pairs]
      intro block hblock
      rcases List.mem_cons.mp hblock with rfl | hrest
      · rfl
      · exact ih block hrest
  | case2 text hshort =>
      intro block hblock
      rw [pairs] at hblock
      · exact absurd hblock List.not_mem_nil
      · exact hshort

theorem pairs_flatten (hblocks : ∀ block ∈ blocks, block.length = 2) :
    pairs blocks.flatten = blocks := by
  induction blocks with
  | nil => rfl
  | cons block rest ih =>
      obtain ⟨high, low, rfl⟩ := List.length_eq_two.mp (hblocks block List.mem_cons_self)
      rw [List.flatten_cons, List.cons_append, List.cons_append, List.nil_append, pairs,
        ih fun other hother => hblocks other (List.mem_cons_of_mem _ hother)]

end Pairs

/-- The answer is the pairs of the parameter from the last one on. -/
theorem advDataGet_advDataSet (uninit : Nat → UInt8) {para : List UInt8} (app : App)
    (hlength : para.length = 12) (hhex : isHexString para = true) :
    atCmdAdvDataGet (atCmdAdvDataSet uninit para app) =
      (pairs (para.map lower)).reverse.flatten ++ [0x0d, 0x0a] := by
  rw [isHexString, Bool.and_eq_true, List.all_eq_true] at hhex
  have hbytes := length_userDataLoop uninit 0 para
  rw [hlength] at hbytes
  have hstored : (Vector.ofFn fun i : Fin 6 => (userDataLoop uninit 0 para).getD i.val 0).toList =
      userDataLoop uninit 0 para := by
    apply List.ext_getElem
    · rw [Vector.length_toList, hbytes]
    · intro i hi hi'
      rw [Vector.getElem_toList, Vector.getElem_ofFn, List.getD_eq_getElem?_getD,
        List.getElem?_eq_getElem hi', Option.getD_some]
  have hdata : (atCmdAdvDataSet uninit para app).config.advUserData.toList =
      userDataLoop uninit 0 para := by
    rw [← hstored, atCmdAdvDataSet,
      List.take_of_length_le (show para.length ≤ 2 * bleAdvUserDataLen from hlength.le)]
    dsimp only [App.answer]
    unfold bleExecAdvOp
    split_ifs
    all_goals rfl
  rw [atCmdAdvDataGet, hdata, List.flatMap_def, List.map_reverse,
    map_printHex_userDataLoop uninit 0 hhex.2]

/-- The data read back and bad data are refused exactly if the parameter has digits only and, if
it has twelve, its pairs read the same from both ends. -/
theorem readsBack_iff (uninit : Nat → UInt8) (para : List UInt8) (app : App) :
    ReadsBack uninit para app ↔
      isHexString para = true ∧
        (para.length = 12 → (pairs (para.map lower)).reverse = pairs (para.map lower)) := by
  have hanswers : (atCmdAdvDataSet uninit para app).answers =
      app.answers ++ [.ok "OK+MAFD" []] := rfl
  cases hhex : isHexString para with
  | false =>
      refine iff_of_false ?_ (fun hboth => Bool.false_ne_true hboth.1)
      intro hreads
      have hrefused := (hreads.refused hhex).1
      rw [hanswers, List.append_cancel_left_eq] at hrefused
      exact absurd hrefused (by decide)
  | true =>
      rw [and_iff_right rfl]
      have hget : para.length = 12 →
          (atCmdAdvDataGet (atCmdAdvDataSet uninit para app) = para.map lower ++ [0x0d, 0x0a] ↔
            (pairs (para.map lower)).reverse = pairs (para.map lower)) := by
        intro hlength
        rw [advDataGet_advDataSet uninit app hlength hhex, List.append_cancel_right_eq]
        have hblocks := length_of_mem_pairs (para.map lower)
        have hwhole : (pairs (para.map lower)).flatten = para.map lower :=
          flatten_pairs (by rw [List.length_map, hlength])
        constructor
        · intro hflat
          have hpairs := congrArg pairs hflat
          rwa [pairs_flatten fun block hblock => hblocks block (List.mem_reverse.mp hblock)]
            at hpairs
        · intro hpairs
          rw [hpairs, hwhole]
      constructor
      · intro hreads hlength
        exact (hget hlength).mp (hreads.same hlength hhex)
      · intro hpairs
        refine ⟨fun hlength _ => (hget hlength).mpr (hpairs hlength), fun hnot => ?_⟩
        rw [hhex] at hnot
        exact absurd hnot Bool.noConfusion

/-- `AT+MAFD-112233445566` is read back as `665544332211`. -/
theorem manufacturer_data_reversed :
    ¬∀ (uninit : Nat → UInt8) (para : List UInt8) (app : App), ReadsBack uninit para app := by
  intro hall
  have hsame := (hall (fun _ => 0)
    [0x31, 0x31, 0x32, 0x32, 0x33, 0x33, 0x34, 0x34, 0x35, 0x35, 0x36, 0x36]
    (.start Storage.Nvram.empty)).same rfl rfl
  exact absurd hsame (by decide)

end CubieBle.ModulePer
