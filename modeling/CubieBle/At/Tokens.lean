import CubieBle.At.Tokenizer

/-! # What the tokenizers find

The pieces of a line are those of the text behind its first plus sign, cut at the separator. The
tokenizer searches from NULL if this text ends without a separator before `argv` is full.
-/

namespace CubieBle.At

open Machine

/-! ## Texts that are settled -/

/-- The pointers lead to these texts, whatever is behind this part of the memory. -/
structure Settled (before : List UInt8) (argv : List Nat) (tokens : List (List UInt8)) : Prop where
  ends : ∀ str ∈ argv, (0 : UInt8) ∈ before.drop str
  texts : argv.map (cstr before) = tokens

section Texts

variable {before more piece : List UInt8} {argv : List Nat} {tokens : List (List UInt8)}

theorem settled_nil : Settled before [] [] := ⟨fun _ hmem => (List.not_mem_nil hmem).elim, rfl⟩

theorem Settled.texts_append (hsettled : Settled before argv tokens) :
    argv.map (cstr (before ++ more)) = tokens := by
  rw [← hsettled.texts]
  exact List.map_congr_left fun str hstr => cstr_append_of_mem (hsettled.ends str hstr)

theorem Settled.append (hsettled : Settled before argv tokens) :
    Settled (before ++ more) argv tokens where
  ends str hstr := by
    rw [List.drop_append]
    exact List.mem_append_left _ (hsettled.ends str hstr)
  texts := hsettled.texts_append

theorem Settled.length (hsettled : Settled before argv tokens) : argv.length = tokens.length := by
  rw [← hsettled.texts, List.length_map]

/-- A piece is settled once a NUL is written behind it. -/
theorem Settled.concat (hsettled : Settled before argv tokens) (hpiece : (0 : UInt8) ∉ piece) :
    Settled (before ++ (piece ++ 0 :: more)) (argv ++ [before.length]) (tokens ++ [piece]) where
  ends str hstr := by
    rcases List.mem_append.mp hstr with hold | hnew
    · exact hsettled.append.ends str hold
    · obtain rfl := List.mem_singleton.mp hnew
      rw [List.drop_left]
      exact List.mem_append_right _ List.mem_cons_self
  texts := by
    rw [List.map_append, hsettled.texts_append, List.map_singleton, cstr_append hpiece]

end Texts

/-! ## Between two searches -/

/-- Only pointers into the line were searched from, and `argv` was written in order. -/
structure Orderly (limit : Nat) (scan : Scan) : Prop where
  searches : ∀ search ∈ scan.searches, ∃ p ≤ limit, search = some p
  stores : scan.stores = List.range scan.argv.length

/-- The last pointer stands at the start of a text that is still to be cut. -/
structure Reading (limit : Nat) (before text rest : List UInt8) (tokens : List (List UInt8))
    (scan : Scan) : Prop where
  memory : scan.memory = before ++ (text ++ 0 :: rest)
  length : before.length + text.length = limit
  argv : ∃ settled, scan.argv = settled ++ [before.length] ∧ Settled before settled tokens
  orderly : Orderly limit scan

/-- The line is cut. -/
structure Finished (limit : Nat) (rest : List UInt8) (tokens : List (List UInt8)) (scan : Scan) :
    Prop where
  memory : ∃ before, before.length = limit ∧ scan.memory = before ++ 0 :: rest
  texts : scan.argv.map (cstr scan.memory) = tokens
  orderly : Orderly limit scan

section Rounds

variable {tokenizer : Tokenizer} {size limit : Nat} {separator : UInt8}
  {before text piece tail rest : List UInt8} {tokens : List (List UInt8)} {scan : Scan}

theorem Reading.length_argv (hfinisheding : Reading limit before text rest tokens scan) :
    scan.argv.length = tokens.length + 1 := by
  obtain ⟨settled, hargv, hsettled⟩ := hfinisheding.argv
  rw [hargv, List.length_append, hsettled.length]
  rfl

theorem Finished.length_argv (hfinished : Finished limit rest tokens scan) :
    scan.argv.length = tokens.length := by
  rw [← hfinished.texts, List.length_map]

theorem Orderly.search (horderly : Orderly limit scan) {p : Nat} (hp : p ≤ limit) :
    Orderly limit { scan with searches := scan.searches ++ [some p] } where
  searches search hsearch := by
    rcases List.mem_append.mp hsearch with hold | hnew
    · exact horderly.searches search hold
    · exact ⟨p, hp, List.mem_singleton.mp hnew⟩
  stores := horderly.stores

theorem Orderly.store (horderly : Orderly limit scan) (str : Nat) :
    Orderly limit (scan.store str) where
  searches := horderly.searches
  stores := by
    rw [Scan.store, horderly.stores]
    dsimp only
    rw [List.length_append, List.length_singleton, List.range_succ]

/-- A piece of the text is cut off, and the spaces behind it are skipped. -/
theorem cut_eq (hmemory : scan.memory = before ++ (piece ++ separator :: tail ++ 0 :: rest))
    (htail : (0 : UInt8) ∉ tail) :
    scan.cut (before.length + piece.length) =
      ((before ++ (piece ++ 0 :: tail.takeWhile isBlank)).length,
        { scan with memory := before ++ (piece ++ 0 :: tail.takeWhile isBlank) ++
            (tail.dropWhile isBlank ++ 0 :: rest) }) := by
  have hset : scan.memory.set (before.length + piece.length) 0 =
      (before ++ (piece ++ [0])) ++ (tail ++ 0 :: rest) := by
    rw [hmemory, List.set_append_right _ _ (Nat.le_add_right _ _), Nat.add_sub_cancel_left,
      List.append_assoc piece, List.set_append_right _ _ le_rfl, Nat.sub_self]
    simp
  have hstart : before.length + piece.length + 1 = (before ++ (piece ++ [0])).length := by
    simp [Nat.add_assoc]
  have hjoin : before ++ (piece ++ [0]) ++ (tail ++ 0 :: rest) =
      before ++ (piece ++ 0 :: tail.takeWhile isBlank) ++
        (tail.dropWhile isBlank ++ 0 :: rest) := by
    have hsplit : tail ++ 0 :: rest =
        tail.takeWhile isBlank ++ (tail.dropWhile isBlank ++ 0 :: rest) := by
      rw [← List.append_assoc, List.takeWhile_append_dropWhile]
    rw [hsplit]
    simp
  rw [Scan.cut, hset, hstart, skip_append isBlank htail, hjoin]
  refine congrArg₂ Prod.mk ?_ rfl
  simp only [List.length_append, List.length_cons, List.length_nil]
  omega

theorem blankExit_of_none {str : Nat} (hblank : tokenizer.onBlank = none) :
    tokenizer.blankExit str = .left (some str) := by
  rw [Tokenizer.blankExit, hblank]

theorem blankExit_of_some {str : Nat} {result : Int} (hblank : tokenizer.onBlank = some result) :
    tokenizer.blankExit str = .returned result := by
  rw [Tokenizer.blankExit, hblank]

/-- How a loop ends once the text is cut. -/
def exitOf (tokenizer : Tokenizer) (limit : Nat) : Ending → Exit
  | .exhausted => .left none
  | .blank => tokenizer.blankExit limit

/-- No further separator: the text is the last piece. -/
theorem round_exhausted (tokenizer : Tokenizer) (size : Nat)
    (hreading : Reading limit before text rest tokens scan)
    (htext : (0 : UInt8) ∉ text) (hmem : separator ∉ text) :
    ∃ next, tokenizer.round size separator (some before.length) scan =
        (.exit (exitOf tokenizer limit .exhausted), next) ∧
      Finished limit rest (tokens ++ [text]) next := by
  have hlength := hreading.length
  obtain ⟨settled, hargv, hsettled⟩ := hreading.argv
  refine ⟨{ scan with searches := scan.searches ++ [some before.length] }, ?_, ?_, ?_, ?_⟩
  · rw [Tokenizer.round, Scan.strchr, Option.bind_some, hreading.memory,
      strchr_of_not_mem htext hmem]
    rfl
  · exact ⟨before ++ text, by rw [List.length_append, hlength], by simp [hreading.memory]⟩
  · dsimp only
    rw [hargv, hreading.memory]
    exact (hsettled.concat htext).texts
  · exact hreading.orderly.search (by omega)

/-- The part of the memory that is settled once a piece is cut off. -/
def cutOff (before piece tail : List UInt8) : List UInt8 :=
  before ++ (piece ++ 0 :: tail.takeWhile isBlank)

def afterCut (scan : Scan) (before piece tail rest : List UInt8) : Scan :=
  { scan with
    memory := cutOff before piece tail ++ (tail.dropWhile isBlank ++ 0 :: rest)
    searches := scan.searches ++ [some before.length] }

theorem length_cutOff
    (hreading : Reading limit before (piece ++ separator :: tail) rest tokens scan) :
    (cutOff before piece tail).length + (tail.dropWhile isBlank).length = limit := by
  have hlength := hreading.length
  have hsplit := congrArg List.length (List.takeWhile_append_dropWhile (p := isBlank) (l := tail))
  simp only [cutOff, List.length_append, List.length_cons] at hlength hsplit ⊢
  omega

theorem orderly_afterCut
    (hreading : Reading limit before (piece ++ separator :: tail) rest tokens scan) :
    Orderly limit (afterCut scan before piece tail rest) := by
  have hle : before.length ≤ limit := hreading.length ▸ Nat.le_add_right _ _
  exact ⟨(hreading.orderly.search hle).searches, hreading.orderly.stores⟩

/-- The search finds the end of a piece. -/
theorem round_found (tokenizer : Tokenizer) (size : Nat)
    (hreading : Reading limit before (piece ++ separator :: tail) rest tokens scan)
    (htext : (0 : UInt8) ∉ piece ++ separator :: tail) (hpiece : separator ∉ piece) :
    tokenizer.round size separator (some before.length) scan =
      if charAt (afterCut scan before piece tail rest).memory (cutOff before piece tail).length = 0
      then
        (.exit (tokenizer.blankExit (cutOff before piece tail).length),
          afterCut scan before piece tail rest)
      else
        let next := (afterCut scan before piece tail rest).store (cutOff before piece tail).length
        if next.argv.length = size then (.exit (.returned tokenizer.onFull), next)
        else (.next (cutOff before piece tail).length, next) := by
  have htail : (0 : UInt8) ∉ tail := fun hmem =>
    htext (List.mem_append_right _ (List.mem_cons_of_mem _ hmem))
  have hcut : Scan.cut { scan with searches := scan.searches ++ [some before.length] }
      (before.length + piece.length) =
        ((cutOff before piece tail).length, afterCut scan before piece tail rest) :=
    cut_eq hreading.memory htail
  have hsearch : scan.strchr (some before.length) separator =
      (some (before.length + piece.length),
        { scan with searches := scan.searches ++ [some before.length] }) := by
    rw [Scan.strchr, Option.bind_some, hreading.memory, strchr_append htext hpiece]
  simp only [Tokenizer.round, hsearch, hcut]

/-- Behind the separator there are only spaces: the text is cut. -/
theorem round_blank (tokenizer : Tokenizer) (size : Nat)
    (hreading : Reading limit before (piece ++ separator :: tail) rest tokens scan)
    (htext : (0 : UInt8) ∉ piece ++ separator :: tail) (hpiece : separator ∉ piece)
    (htail : tail.dropWhile isBlank = []) :
    ∃ next, tokenizer.round size separator (some before.length) scan =
        (.exit (exitOf tokenizer limit .blank), next) ∧
      Finished limit rest (tokens ++ [piece]) next := by
  have hlength := length_cutOff hreading
  rw [htail, List.length_nil, Nat.add_zero] at hlength
  have hmemory : (afterCut scan before piece tail rest).memory =
      cutOff before piece tail ++ 0 :: rest := by
    rw [afterCut, htail]
    rfl
  have hmem : (0 : UInt8) ∉ piece := fun hmem => htext (List.mem_append_left _ hmem)
  obtain ⟨settled, hargv, hsettled⟩ := hreading.argv
  refine ⟨afterCut scan before piece tail rest, ?_, ⟨_, hlength, hmemory⟩, ?_, ?_⟩
  · rw [round_found tokenizer size hreading htext hpiece, hmemory, charAt_append, if_pos rfl,
      hlength, exitOf]
  · rw [hmemory]
    exact hargv ▸ (hsettled.concat hmem).texts_append
  · exact orderly_afterCut hreading

/-- Behind the separator the next piece starts. -/
theorem round_next (tokenizer : Tokenizer) (size : Nat)
    (hreading : Reading limit before (piece ++ separator :: tail) rest tokens scan)
    (htext : (0 : UInt8) ∉ piece ++ separator :: tail) (hpiece : separator ∉ piece)
    (htail : tail.dropWhile isBlank ≠ []) :
    ∃ next, Reading limit (cutOff before piece tail) (tail.dropWhile isBlank) rest
        (tokens ++ [piece]) next ∧
      tokenizer.round size separator (some before.length) scan =
        if next.argv.length = size then (.exit (.returned tokenizer.onFull), next)
        else (.next (cutOff before piece tail).length, next) := by
  have hlength := length_cutOff hreading
  have hmem : (0 : UInt8) ∉ piece := fun hmem => htext (List.mem_append_left _ hmem)
  obtain ⟨settled, hargv, hsettled⟩ := hreading.argv
  refine ⟨(afterCut scan before piece tail rest).store (cutOff before piece tail).length,
    ⟨rfl, hlength, ?_, ?_⟩, ?_⟩
  · exact ⟨scan.argv, rfl, hargv ▸ hsettled.concat hmem⟩
  · exact (orderly_afterCut hreading).store _
  · rw [round_found tokenizer size hreading htext hpiece, if_neg]
    obtain ⟨char, more, hchar⟩ := List.exists_cons_of_ne_nil htail
    have hmemory : (afterCut scan before piece tail rest).memory =
        cutOff before piece tail ++ char :: (more ++ 0 :: rest) := by
      rw [afterCut, hchar]
      rfl
    rw [hmemory, charAt_append]
    rintro rfl
    refine htext (List.mem_append_right _ (List.mem_cons_of_mem _ ?_))
    exact (List.dropWhile_suffix isBlank).subset (hchar ▸ List.mem_cons_self)

/-- The inner loop finds the pieces of the text, as long as `argv` has room for them. -/
theorem innerLoop_cut {pieces : List (List UInt8)} {ending : Ending} {fuel : Nat}
    (hcut : Cut tokenizer.separator isBlank text pieces ending) (htext : (0 : UInt8) ∉ text)
    (hreading : Reading limit before text rest tokens scan) (hroom : tokens.length + 1 < size)
    (hfuel : pieces.length ≤ fuel) :
    ∃ exit next, tokenizer.innerLoop size fuel (some before.length) scan = some (exit, next) ∧
      if tokens.length + pieces.length < size then
        exit = exitOf tokenizer limit ending ∧ Finished limit rest (tokens ++ pieces) next
      else exit = .returned tokenizer.onFull ∧ Orderly limit next ∧ next.argv.length = size := by
  induction hcut generalizing before tokens scan fuel with
  | exhausted hpiece =>
      obtain ⟨fuel, rfl⟩ := Nat.exists_eq_add_of_le' hfuel
      obtain ⟨next, hround, hnext⟩ := round_exhausted tokenizer size hreading htext hpiece
      refine ⟨exitOf tokenizer limit .exhausted, next, ?_, ?_⟩
      · rw [List.length_singleton, Tokenizer.innerLoop, hround]
      · rw [List.length_singleton, if_pos hroom]
        exact ⟨rfl, hnext⟩
  | blank hpiece htail =>
      obtain ⟨fuel, rfl⟩ := Nat.exists_eq_add_of_le' hfuel
      obtain ⟨next, hround, hnext⟩ :=
        round_blank tokenizer size hreading htext hpiece (List.dropWhile_eq_nil_iff.mpr htail)
      refine ⟨exitOf tokenizer limit .blank, next, ?_, ?_⟩
      · rw [List.length_singleton, Tokenizer.innerLoop, hround]
      · rw [List.length_singleton, if_pos hroom]
        exact ⟨rfl, hnext⟩
  | @next piece tail pieces ending hpiece htail hrest ih =>
      -- One round stores the next piece, and the rest is cut with one slot less.
      obtain ⟨fuel, rfl⟩ := Nat.exists_eq_add_of_le' hfuel
      obtain ⟨next, hnext, hround⟩ := round_next tokenizer size hreading htext hpiece htail
      have hlength := hnext.length_argv
      rw [List.length_append, List.length_singleton] at hlength
      have hpos := List.length_pos_of_ne_nil hrest.pieces_ne_nil
      rw [List.length_cons, ← Nat.add_assoc, Tokenizer.innerLoop, hround]
      by_cases hfull : next.argv.length = size
      · refine ⟨.returned tokenizer.onFull, next, by rw [if_pos hfull], ?_⟩
        rw [if_neg (by omega)]
        exact ⟨rfl, hnext.orderly, hfull⟩
      · have hdropped : (0 : UInt8) ∉ tail.dropWhile isBlank := fun hmem =>
          htext (List.mem_append_right _
            (List.mem_cons_of_mem _ ((List.dropWhile_suffix isBlank).subset hmem)))
        obtain ⟨exit, last, hloop, hlast⟩ := ih hdropped hnext
          (by rw [List.length_append, List.length_singleton]; omega)
          (Nat.le_add_left pieces.length fuel)
        refine ⟨exit, last, by rw [if_neg hfull]; exact hloop, ?_⟩
        rw [List.length_append, List.length_singleton, List.append_assoc, List.singleton_append,
          Nat.add_assoc, Nat.add_comm 1] at hlast
        exact hlast

end Rounds

/-! ## The line -/

/-- What is found in a line: the result, the texts, and whether NULL is searched from. -/
inductive Tokenized (tokenizer : Tokenizer) (size : Nat) (line : List UInt8) :
    Int → List (List UInt8) → Bool → Prop where
  | empty (hline : line.dropWhile isBlank = []) : Tokenized tokenizer size line 0 [] false
  | single {text : List UInt8} (hline : line.dropWhile isBlank = text) (hne : text ≠ [])
      (htext : plus ∉ text) : Tokenized tokenizer size line 1 [text] false
  | bare {first tail : List UInt8} (hline : line.dropWhile isBlank = first ++ plus :: tail)
      (hfirst : plus ∉ first) (htail : tail.dropWhile isBlank = []) :
      Tokenized tokenizer size line (tokenizer.onBlank.getD 1) [first] false
  | full {first tail : List UInt8} {pieces : List (List UInt8)} {ending : Ending}
      (hline : line.dropWhile isBlank = first ++ plus :: tail) (hfirst : plus ∉ first)
      (htail : tail.dropWhile isBlank ≠ [])
      (hcut : Cut tokenizer.separator isBlank (tail.dropWhile isBlank) pieces ending)
      (hfull : size ≤ pieces.length + 1) :
      Tokenized tokenizer size line tokenizer.onFull [] false
  | exhausted {first tail : List UInt8} {pieces : List (List UInt8)}
      (hline : line.dropWhile isBlank = first ++ plus :: tail) (hfirst : plus ∉ first)
      (htail : tail.dropWhile isBlank ≠ [])
      (hcut : Cut tokenizer.separator isBlank (tail.dropWhile isBlank) pieces .exhausted)
      (hroom : pieces.length + 1 < size) :
      Tokenized tokenizer size line (pieces.length + 1) (first :: pieces) true
  | blank {first tail : List UInt8} {pieces : List (List UInt8)}
      (hline : line.dropWhile isBlank = first ++ plus :: tail) (hfirst : plus ∉ first)
      (htail : tail.dropWhile isBlank ≠ [])
      (hcut : Cut tokenizer.separator isBlank (tail.dropWhile isBlank) pieces .blank)
      (hroom : pieces.length + 1 < size) :
      Tokenized tokenizer size line (tokenizer.onBlank.getD (pieces.length + 1))
        (first :: pieces) false

theorem exists_tokenized (tokenizer : Tokenizer) (size : Nat) (line : List UInt8) :
    ∃ result tokens fromNull, Tokenized tokenizer size line result tokens fromNull := by
  by_cases hempty : line.dropWhile isBlank = []
  · exact ⟨_, _, _, .empty hempty⟩
  by_cases hplus : plus ∈ line.dropWhile isBlank
  · obtain ⟨first, tail, hline, hfirst⟩ := List.eq_append_cons_of_mem hplus
    by_cases htail : tail.dropWhile isBlank = []
    · exact ⟨_, _, _, .bare hline hfirst htail⟩
    obtain ⟨pieces, ending, hcut⟩ :=
      exists_cut tokenizer.separator isBlank (tail.dropWhile isBlank)
    by_cases hroom : pieces.length + 1 < size
    · cases ending with
      | exhausted => exact ⟨_, _, _, .exhausted hline hfirst htail hcut hroom⟩
      | blank => exact ⟨_, _, _, .blank hline hfirst htail hcut hroom⟩
    · exact ⟨_, _, _, .full hline hfirst htail hcut (Nat.not_lt.mp hroom)⟩
  · exact ⟨_, _, _, .single rfl hempty hplus⟩

/-- A run of the tokenizer found this. -/
structure Found (size : Nat) (line : List UInt8) (result : Int) (tokens : List (List UInt8))
    (fromNull : Bool) (found : Int × Scan) : Prop where
  value : found.1 = result
  texts : 0 < result → found.2.argv.map (cstr found.2.memory) = tokens
  fromNull : none ∈ found.2.searches ↔ fromNull = true
  inLine : ∀ p, some p ∈ found.2.searches → p ≤ line.length
  stores : ∀ index ∈ found.2.stores, index < size

section Lines

variable {tokenizer : Tokenizer} {size : Nat} {line first tail rest : List UInt8}
  {tokens : List (List UInt8)} {scan : Scan}

theorem Orderly.not_null (horderly : Orderly line.length scan) :
    none ∈ scan.searches ↔ false = true := by
  refine iff_of_false (fun hnone => ?_) Bool.false_ne_true
  obtain ⟨p, -, hp⟩ := horderly.searches none hnone
  exact Option.some_ne_none p hp.symm

theorem Orderly.inLine (horderly : Orderly line.length scan) {p : Nat}
    (hp : some p ∈ scan.searches) : p ≤ line.length := by
  obtain ⟨q, hle, hq⟩ := horderly.searches (some p) hp
  exact Option.some.inj hq ▸ hle

/-- A return from a loop. -/
theorem Orderly.found_returned {result : Int} (horderly : Orderly line.length scan)
    (hroom : scan.argv.length ≤ size) (hresult : result ≤ 0) :
    Found size line result tokens false (result, scan) where
  value := rfl
  texts hpos := (Int.not_lt.mpr hresult hpos).elim
  fromNull := horderly.not_null
  inLine _ hp := horderly.inLine hp
  stores index hindex := by
    rw [horderly.stores, List.mem_range] at hindex
    omega

theorem stores_close (scan : Scan) (hstores : scan.stores = List.range scan.argv.length)
    (hroom : scan.argv.length < size) : ∀ index ∈ scan.close.stores, index < size := by
  intro index hindex
  rcases List.mem_append.mp hindex with hold | hnew
  · rw [hstores, List.mem_range] at hold
    exact hold.trans hroom
  · exact List.mem_singleton.mp hnew ▸ hroom

/-- The end of the function, when a line is cut. -/
theorem Finished.found_close (hfinished : Finished line.length rest tokens scan)
    (hroom : tokens.length < size) :
    Found size line tokens.length tokens false (scan.argv.length, scan.close) where
  value := by rw [hfinished.length_argv]
  texts _ := hfinished.texts
  fromNull := hfinished.orderly.not_null
  inLine _ hp := hfinished.orderly.inLine hp
  stores := stores_close scan hfinished.orderly.stores (by rw [hfinished.length_argv]; exact hroom)

/-- The same when NULL is searched from last. -/
theorem Finished.found_null (hfinished : Finished line.length rest tokens scan)
    (hroom : tokens.length < size) :
    Found size line tokens.length tokens true
      (scan.argv.length, Scan.close { scan with searches := scan.searches ++ [none] }) where
  value := by rw [hfinished.length_argv]
  texts _ := hfinished.texts
  fromNull := iff_of_true (List.mem_append_right _ (List.mem_singleton_self none)) rfl
  inLine p hp := by
    rcases List.mem_append.mp hp with hold | hnew
    · exact hfinished.orderly.inLine hold
    · exact (Option.some_ne_none p (List.mem_singleton.mp hnew)).elim
  stores := by
    have hlt : scan.argv.length < size := by rw [hfinished.length_argv]; exact hroom
    exact stores_close _ hfinished.orderly.stores hlt

/-- At the end of the line nothing more is found. -/
theorem Finished.strchr_end (hfinished : Finished line.length rest tokens scan) :
    scan.strchr (some line.length) plus =
      (none, { scan with searches := scan.searches ++ [some line.length] }) := by
  obtain ⟨before, hlength, hmemory⟩ := hfinished.memory
  have hnone : Machine.strchr (before ++ ([] ++ 0 :: rest)) before.length plus = none :=
    strchr_of_not_mem List.not_mem_nil List.not_mem_nil
  rw [Scan.strchr, Option.bind_some, hmemory, ← hlength]
  exact congrArg₂ Prod.mk hnone rfl

theorem Finished.search_end (hfinished : Finished line.length rest tokens scan) :
    Finished line.length rest tokens
      { scan with searches := scan.searches ++ [some line.length] } where
  memory := hfinished.memory
  texts := hfinished.texts
  orderly := hfinished.orderly.search le_rfl

/-- The function up to its loops, for a line that is not blank. -/
theorem line2argv_eq (tokenizer : Tokenizer) (size : Nat) (rest : List UInt8)
    (hzero : (0 : UInt8) ∉ line) (hline : line.dropWhile isBlank ≠ []) :
    ∃ before scan, Reading line.length before (line.dropWhile isBlank) rest [] scan ∧
      ∀ fuel, tokenizer.line2argv size fuel (line ++ 0 :: rest) =
        (tokenizer.outerLoop size fuel (some before.length) scan).map ofExit := by
  have hcstr : cstr (line ++ 0 :: rest) 0 = line :=
    (cstr_append hzero : cstr ([] ++ (line ++ 0 :: rest)) [].length = line)
  have hskip : skip isBlank (line ++ 0 :: rest) 0 = (line.takeWhile isBlank).length := by
    rw [skip, hcstr, Nat.zero_add]
  have hmemory : line ++ 0 :: rest =
      line.takeWhile isBlank ++ (line.dropWhile isBlank ++ 0 :: rest) := by
    rw [← List.append_assoc, List.takeWhile_append_dropWhile]
  have hchar : charAt (line ++ 0 :: rest) (line.takeWhile isBlank).length ≠ 0 := by
    obtain ⟨char, more, hchar⟩ := List.exists_cons_of_ne_nil hline
    rw [hmemory, hchar, List.cons_append, charAt_append]
    rintro rfl
    exact hzero ((List.dropWhile_suffix isBlank).subset (hchar ▸ List.mem_cons_self))
  have hne : line ≠ [] := by
    rintro rfl
    exact hline rfl
  refine ⟨line.takeWhile isBlank, Scan.store { memory := line ++ 0 :: rest }
    (line.takeWhile isBlank).length, ⟨hmemory, ?_, ⟨[], rfl, settled_nil⟩, ?_⟩, fun fuel => ?_⟩
  · rw [← List.length_append, List.takeWhile_append_dropWhile]
  · exact ⟨fun search hmem => (List.not_mem_nil hmem).elim, rfl⟩
  · rw [Tokenizer.line2argv, hcstr, if_neg hne, hskip, if_neg hchar]

/-- What a loop does with the exit of the outer loop's first round. -/
theorem outerLoop_exit {tokenizer : Tokenizer} {fuel : Nat} {str : Option Nat} {exit : Exit}
    {next : Scan} (hround : tokenizer.round size plus str scan = (.exit exit, next)) :
    (tokenizer.outerLoop size (fuel + 1) str scan).map ofExit = some (ofExit (exit, next)) := by
  rw [Tokenizer.outerLoop, hround]
  rfl

/-- The exit of a text that is cut ends the function in the same way in both loops. -/
theorem found_exit (tokenizer : Tokenizer) (ending : Ending)
    (hfinished : Finished line.length rest tokens scan) (hroom : tokens.length < size) :
    Found size line
      (match ending with
        | .exhausted => tokens.length
        | .blank => tokenizer.onBlank.getD tokens.length)
      tokens false (ofExit (exitOf tokenizer line.length ending, scan)) := by
  cases ending with
  | exhausted => exact hfinished.found_close hroom
  | blank =>
      cases hblank : tokenizer.onBlank with
      | none =>
          rw [exitOf, blankExit_of_none hblank]
          exact hfinished.found_close hroom
      | some result =>
          rw [exitOf, blankExit_of_some hblank]
          exact hfinished.orderly.found_returned
            (hfinished.length_argv.trans_le hroom.le)
            (tokenizer.onBlank_le result hblank)

/-- The first round of the outer loop, and the inner loop in it. -/
theorem outerLoop_inner {tokenizer : Tokenizer} {before : List UInt8}
    {pieces : List (List UInt8)} {ending : Ending} {fuel : Nat} (hsize : 2 < size)
    (hreading : Reading line.length before (first ++ plus :: tail) rest [] scan)
    (htext : (0 : UInt8) ∉ first ++ plus :: tail) (hfirst : plus ∉ first)
    (htail : tail.dropWhile isBlank ≠ [])
    (hcut : Cut tokenizer.separator isBlank (tail.dropWhile isBlank) pieces ending)
    (hfuel : pieces.length ≤ fuel) :
    ∃ exit next, tokenizer.outerLoop size (fuel + 1) (some before.length) scan =
        (match exit with
          | .returned result => some (.returned result, next)
          | .left str => tokenizer.outerLoop size fuel str next) ∧
      if pieces.length + 1 < size then
        exit = exitOf tokenizer line.length ending ∧
          Finished line.length rest (first :: pieces) next
      else
        exit = .returned tokenizer.onFull ∧ Orderly line.length next ∧ next.argv.length = size := by
  obtain ⟨inner, hinner, hround⟩ := round_next tokenizer size hreading htext hfirst htail
  have hlength := hinner.length_argv
  have hdropped : (0 : UInt8) ∉ tail.dropWhile isBlank := fun hmem =>
    htext (List.mem_append_right _
      (List.mem_cons_of_mem _ ((List.dropWhile_suffix isBlank).subset hmem)))
  obtain ⟨exit, next, hloop, hnext⟩ := innerLoop_cut hcut hdropped hinner hsize hfuel
  refine ⟨exit, next, ?_, ?_⟩
  · rw [Tokenizer.outerLoop, hround, if_neg (by rw [hlength]; exact hsize.ne)]
    dsimp only
    rw [hloop]
    cases exit with
    | left str => rfl
    | returned result => rfl
  · rw [Nat.add_comm] at hnext
    exact hnext

/-- The loop is left behind the last piece: nothing more is found at the end of the line. -/
theorem outerLoop_end {tokenizer : Tokenizer} {fuel : Nat}
    (hfinished : Finished line.length rest tokens scan) :
    tokenizer.outerLoop size (fuel + 1) (some line.length) scan =
      some (.left none, { scan with searches := scan.searches ++ [some line.length] }) := by
  rw [Tokenizer.outerLoop, Tokenizer.round, hfinished.strchr_end]

/-- The function behind the first round and the inner loop, for a line with a command. -/
theorem line2argv_inner (tokenizer : Tokenizer) {pieces : List (List UInt8)} {ending : Ending}
    {fuel : Nat} (hsize : 2 < size) (hzero : (0 : UInt8) ∉ line)
    (hline : line.dropWhile isBlank = first ++ plus :: tail) (hfirst : plus ∉ first)
    (htail : tail.dropWhile isBlank ≠ [])
    (hcut : Cut tokenizer.separator isBlank (tail.dropWhile isBlank) pieces ending)
    (hfuel : pieces.length ≤ fuel) (rest : List UInt8) :
    ∃ exit next, tokenizer.line2argv size (fuel + 1) (line ++ 0 :: rest) =
        Option.map ofExit (match exit with
          | .returned result => some (.returned result, next)
          | .left str => tokenizer.outerLoop size fuel str next) ∧
      if pieces.length + 1 < size then
        exit = exitOf tokenizer line.length ending ∧
          Finished line.length rest (first :: pieces) next
      else
        exit = .returned tokenizer.onFull ∧ Orderly line.length next ∧ next.argv.length = size := by
  have htext : (0 : UInt8) ∉ first ++ plus :: tail := fun hmem =>
    hzero ((List.dropWhile_suffix isBlank).subset (hline ▸ hmem))
  obtain ⟨before, scan, hreading, hrun⟩ := line2argv_eq tokenizer size rest hzero
    (hline ▸ List.append_ne_nil_of_right_ne_nil _ (List.cons_ne_nil _ _))
  rw [hline] at hreading
  obtain ⟨exit, next, hloop, hnext⟩ := outerLoop_inner hsize hreading htext hfirst htail hcut hfuel
  exact ⟨exit, next, by rw [hrun, hloop], hnext⟩

/-- If there is room for all pieces, the inner loop is left behind the last of them. -/
theorem line2argv_room (tokenizer : Tokenizer) {pieces : List (List UInt8)} {ending : Ending}
    (hsize : 2 < size) (hzero : (0 : UInt8) ∉ line)
    (hline : line.dropWhile isBlank = first ++ plus :: tail) (hfirst : plus ∉ first)
    (htail : tail.dropWhile isBlank ≠ [])
    (hcut : Cut tokenizer.separator isBlank (tail.dropWhile isBlank) pieces ending)
    (hroom : pieces.length + 1 < size) (fuel : Nat) (rest : List UInt8) :
    ∃ next more, pieces.length = more + 1 ∧ Finished line.length rest (first :: pieces) next ∧
      tokenizer.line2argv size (fuel + pieces.length + 1) (line ++ 0 :: rest) =
        Option.map ofExit (match exitOf tokenizer line.length ending with
          | .returned result => some (.returned result, next)
          | .left str => tokenizer.outerLoop size (fuel + pieces.length) str next) := by
  obtain ⟨exit, next, hrun, hnext⟩ := line2argv_inner tokenizer hsize hzero hline hfirst htail
    hcut (Nat.le_add_left pieces.length fuel) rest
  rw [if_pos hroom] at hnext
  obtain ⟨rfl, hfinished⟩ := hnext
  obtain ⟨more, hmore⟩ := Nat.exists_eq_succ_of_ne_zero
    (List.length_pos_of_ne_nil hcut.pieces_ne_nil).ne'
  exact ⟨next, more, hmore, hfinished, hrun⟩

end Lines

/-- Whatever is behind a line, the tokenizer finds this in it. -/
theorem Tokenized.run {tokenizer : Tokenizer} {size : Nat} {line : List UInt8} {result : Int}
    {tokens : List (List UInt8)} {fromNull : Bool} (hsize : 2 < size)
    (hzero : (0 : UInt8) ∉ line)
    (htokenized : Tokenized tokenizer size line result tokens fromNull) :
    ∃ enough, ∀ fuel ≥ enough, ∀ rest, ∃ found,
      tokenizer.line2argv size fuel (line ++ 0 :: rest) = some found ∧
        Found size line result tokens fromNull found := by
  have hsuffix : (0 : UInt8) ∉ line.dropWhile isBlank := fun hmem =>
    hzero ((List.dropWhile_suffix isBlank).subset hmem)
  cases htokenized with
  | empty hline =>
      refine ⟨0, fun fuel _ rest => ⟨(0, { memory := line ++ 0 :: rest }), ?_, ?_⟩⟩
      · have hcstr : cstr (line ++ 0 :: rest) 0 = line :=
          (cstr_append hzero : cstr ([] ++ (line ++ 0 :: rest)) [].length = line)
        have hspaces : line.takeWhile isBlank = line := by
          rw [List.takeWhile_eq_self_iff]
          exact List.dropWhile_eq_nil_iff.mp hline
        rw [Tokenizer.line2argv, skip, hcstr, hspaces, Nat.zero_add]
        dsimp only
        rw [charAt_append, if_pos rfl, ite_self]
      · have horderly : Orderly line.length { memory := line ++ 0 :: rest } :=
          ⟨fun search hmem => (List.not_mem_nil hmem).elim, rfl⟩
        exact horderly.found_returned (Nat.zero_le size) (Int.le_refl 0)
  | single hline hne htext =>
      subst hline
      refine ⟨1, fun fuel hfuel rest => ?_⟩
      obtain ⟨fuel, rfl⟩ := Nat.exists_eq_add_of_le' hfuel
      obtain ⟨before, scan, hreading, hrun⟩ := line2argv_eq tokenizer size rest hzero hne
      obtain ⟨next, hround, hnext⟩ := round_exhausted tokenizer size hreading hsuffix htext
      refine ⟨_, by rw [hrun, outerLoop_exit hround], ?_⟩
      exact found_exit tokenizer .exhausted hnext (Nat.lt_of_succ_lt hsize)
  | bare hline hfirst htail =>
      refine ⟨1, fun fuel hfuel rest => ?_⟩
      obtain ⟨fuel, rfl⟩ := Nat.exists_eq_add_of_le' hfuel
      obtain ⟨before, scan, hreading, hrun⟩ := line2argv_eq tokenizer size rest hzero
        (hline ▸ List.append_ne_nil_of_right_ne_nil _ (List.cons_ne_nil _ _))
      rw [hline] at hreading hsuffix
      obtain ⟨next, hround, hnext⟩ := round_blank tokenizer size hreading hsuffix hfirst htail
      refine ⟨_, by rw [hrun, outerLoop_exit hround], ?_⟩
      exact found_exit tokenizer .blank hnext (Nat.lt_of_succ_lt hsize)
  | @full first tail pieces ending hline hfirst htail hcut hfull =>
      refine ⟨pieces.length + 1, fun fuel hfuel rest => ?_⟩
      obtain ⟨fuel, rfl⟩ := Nat.exists_eq_add_of_le' hfuel
      obtain ⟨exit, next, hrun, hnext⟩ := line2argv_inner tokenizer hsize hzero hline hfirst htail
        hcut (Nat.le_add_left pieces.length fuel) rest
      rw [if_neg (Nat.not_lt.mpr hfull)] at hnext
      obtain ⟨rfl, horderly, hlength⟩ := hnext
      exact ⟨_, hrun, horderly.found_returned hlength.le tokenizer.onFull_le⟩
  | @exhausted first tail pieces hline hfirst htail hcut hroom =>
      refine ⟨pieces.length + 1, fun fuel hfuel rest => ?_⟩
      obtain ⟨fuel, rfl⟩ := Nat.exists_eq_add_of_le' hfuel
      obtain ⟨next, more, hmore, hfinished, hrun⟩ := line2argv_room tokenizer hsize hzero hline
        hfirst htail hcut hroom fuel rest
      -- The inner loop has left NULL, from which the outer one searches once more.
      refine ⟨_, ?_, hfinished.found_null hroom⟩
      rw [← Nat.add_assoc, hrun, hmore]
      rfl
  | @blank first tail pieces hline hfirst htail hcut hroom =>
      refine ⟨pieces.length + 1, fun fuel hfuel rest => ?_⟩
      obtain ⟨fuel, rfl⟩ := Nat.exists_eq_add_of_le' hfuel
      obtain ⟨next, more, hmore, hfinished, hrun⟩ := line2argv_room tokenizer hsize hzero hline
        hfirst htail hcut hroom fuel rest
      cases hblank : tokenizer.onBlank with
      | none =>
          refine ⟨_, ?_, hfinished.search_end.found_close hroom⟩
          rw [← Nat.add_assoc, hrun, exitOf, blankExit_of_none hblank, hmore]
          exact congrArg (Option.map ofExit) (outerLoop_end hfinished)
      | some value =>
          refine ⟨_, ?_, hfinished.orderly.found_returned
            (hfinished.length_argv.trans_le hroom.le) (tokenizer.onBlank_le value hblank)⟩
          rw [← Nat.add_assoc, hrun, exitOf, blankExit_of_some hblank]
          rfl

/-- The text behind the plus sign of a line that has one. -/
theorem behindPlus_eq {line first tail : List UInt8}
    (hline : line.dropWhile isBlank = first ++ plus :: tail) (hfirst : plus ∉ first) :
    behindPlus line = tail.dropWhile isBlank := by
  have hskip : ∀ char ∈ first, decide (char ≠ plus) = true := fun char hchar =>
    decide_eq_true fun heq => hfirst (heq ▸ hchar)
  rw [behindPlus, hline, List.dropWhile_append_of_pos hskip, List.dropWhile_cons_of_neg (by simp)]
  rfl

theorem behindPlus_of_not_mem {line : List UInt8} (hplus : plus ∉ line.dropWhile isBlank) :
    behindPlus line = [] := by
  have hskip : ∀ char ∈ line.dropWhile isBlank, decide (char ≠ plus) = true := fun char hchar =>
    decide_eq_true fun heq => hplus (heq ▸ hchar)
  rw [behindPlus, List.dropWhile_eq_nil_iff.mpr hskip]
  rfl

/-- NULL is searched from exactly if the text behind the plus sign ends without a separator
while `argv` has room. -/
theorem Tokenized.fromNull_iff {tokenizer : Tokenizer} {size : Nat} {line : List UInt8}
    {result : Int} {tokens : List (List UInt8)} {fromNull : Bool}
    (htokenized : Tokenized tokenizer size line result tokens fromNull) :
    fromNull = false ↔ NeverFromNull tokenizer.separator size line := by
  cases htokenized with
  | empty hline =>
      refine iff_of_true rfl (.inl (behindPlus_of_not_mem ?_))
      rw [hline]
      exact List.not_mem_nil
  | single hline hne htext => exact iff_of_true rfl (.inl (behindPlus_of_not_mem (hline ▸ htext)))
  | bare hline hfirst htail =>
      exact iff_of_true rfl (.inl ((behindPlus_eq hline hfirst).trans htail))
  | full hline hfirst htail hcut hfull =>
      refine iff_of_true rfl (.inr (.inr ?_))
      rw [behindPlus_eq hline hfirst]
      have hlength := hcut.length tokenizer.separator_notSpace
      omega
  | exhausted hline hfirst htail hcut hroom =>
      refine iff_of_false (fun htrue => Bool.false_ne_true htrue.symm) ?_
      rw [NeverFromNull, behindPlus_eq hline hfirst,
        ← hcut.ending_eq_blank_iff tokenizer.separator_notSpace]
      have hlength := hcut.length tokenizer.separator_notSpace
      rintro (hnil | hblank | hfull)
      · exact htail hnil
      · exact Ending.noConfusion hblank
      · omega
  | blank hline hfirst htail hcut hroom =>
      refine iff_of_true rfl (.inr (.inl ?_))
      rw [behindPlus_eq hline hfirst]
      exact (hcut.ending_eq_blank_iff tokenizer.separator_notSpace).mp rfl

/-- A tokenizer is safe on a line exactly if it never searches from NULL. -/
theorem safeOn_iff (tokenizer : Tokenizer) {size : Nat} (hsize : 2 < size) {line : List UInt8}
    (hzero : (0 : UInt8) ∉ line) :
    SafeOn tokenizer size line ↔ NeverFromNull tokenizer.separator size line := by
  obtain ⟨result, tokens, fromNull, htokenized⟩ := exists_tokenized tokenizer size line
  obtain ⟨enough, hrun⟩ := htokenized.run hsize hzero
  rw [← htokenized.fromNull_iff]
  constructor
  · rintro ⟨enough', result', hsafe⟩
    obtain ⟨found, hfound, hstays, -⟩ := hsafe (max enough enough') (le_max_right _ _) []
    obtain ⟨other, hother, hspec⟩ := hrun (max enough enough') (le_max_left _ _) []
    obtain rfl := Option.some.inj (hfound.symm.trans hother)
    refine Bool.eq_false_iff.mpr fun htrue => ?_
    obtain ⟨p, -, hp⟩ := hstays.searches none (hspec.fromNull.mpr htrue)
    exact Option.some_ne_none p hp.symm
  · rintro rfl
    refine ⟨enough, (result, if 0 < result then tokens else []), fun fuel hfuel rest => ?_⟩
    obtain ⟨found, hfound, hspec⟩ := hrun fuel hfuel rest
    refine ⟨found, hfound, ⟨?_, hspec.stores⟩, ?_⟩
    · intro search hsearch
      cases search with
      | none => exact (Bool.false_ne_true (hspec.fromNull.mp hsearch)).elim
      | some p => exact ⟨p, hspec.inLine p hsearch, rfl⟩
    · rw [outcome, hspec.value]
      by_cases hpos : 0 < result
      · rw [if_pos hpos, if_pos hpos, hspec.texts hpos]
      · rw [if_neg hpos, if_neg hpos]

/-- Each tokenizer is safe exactly on the lines on which it never searches from NULL. -/
theorem tokenizers_safe_iff (line : List UInt8) (hzero : (0 : UInt8) ∉ line) :
    (SafeOn dashTokenizer argvSize line ↔ NeverFromNull 0x2d argvSize line) ∧
      (SafeOn equalTokenizer argvSize line ↔ NeverFromNull 0x3d argvSize line) :=
  ⟨safeOn_iff dashTokenizer (by decide) hzero, safeOn_iff equalTokenizer (by decide) hzero⟩

/-- `"AT+N-a-"` and `"AT+N=a="` end with the separator. -/
theorem tokenizers_safe_separator_last :
    SafeOn dashTokenizer argvSize [0x41, 0x54, 0x2b, 0x4e, 0x2d, 0x61, 0x2d] ∧
      SafeOn equalTokenizer argvSize [0x41, 0x54, 0x2b, 0x4e, 0x3d, 0x61, 0x3d] := by
  constructor
  · refine (tokenizers_safe_iff _ (by decide)).1.mpr (.inr (.inl ?_))
    exact ⟨[0x4e, 0x2d, 0x61], [], by decide, nofun⟩
  · refine (tokenizers_safe_iff _ (by decide)).2.mpr (.inr (.inl ?_))
    exact ⟨[0x4e, 0x3d, 0x61], [], by decide, nofun⟩

/-- `"AT+OTA"` has nothing behind the command. -/
theorem tokenizer_searches_null :
    ¬(SafeOn dashTokenizer argvSize [0x41, 0x54, 0x2b, 0x4f, 0x54, 0x41] ∧
      SafeOn equalTokenizer argvSize [0x41, 0x54, 0x2b, 0x4f, 0x54, 0x41]) := by
  rintro ⟨hsafe, -⟩
  rw [safeOn_iff dashTokenizer (by decide) (by decide)] at hsafe
  have hbehind : behindPlus [0x41, 0x54, 0x2b, 0x4f, 0x54, 0x41] = [0x4f, 0x54, 0x41] := by decide
  rw [NeverFromNull, hbehind] at hsafe
  rcases hsafe with hnil | ⟨head, tail, hsplit, -⟩ | hfull
  · exact List.cons_ne_nil _ _ hnil
  · have hmem : (0x2d : UInt8) ∈ [0x4f, 0x54, 0x41] :=
      hsplit ▸ List.mem_append_right _ List.mem_cons_self
    exact absurd hmem (by decide)
  · exact absurd hfull (by decide)

end CubieBle.At
