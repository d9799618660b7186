import CubieBle.Audio.Capture
import CubieBle.Machine.Pool

/-! # No capture buffer is lost or freed twice

The interrupt leaves `completed_net_buf` as it is when it has passed the buffer on. So
the buffers are conserved exactly as long as the marks of the device arrive in turn and
no stop comes between the full mark of a buffer and the next half-full mark.
-/

namespace CubieBle.Audio

open Machine

/-! ## Buffers in places -/

/-- The places outside the pool that hold a buffer. -/
def held (audioin : AudioIn) (buf : NetBuf) : Nat :=
  (if audioin.workingNetBuf = some buf then 1 else 0) +
    (if audioin.unsent = some buf then 1 else 0) + audioin.msgQueue.count buf

theorem places_eq (audioin : AudioIn) (buf : NetBuf) :
    places audioin buf = (if audioin.ref buf = 0 then 1 else 0) + held audioin buf := by
  unfold places held
  rw [count_toList, count_toList]
  omega

/-- Every buffer is free and held nowhere, or has one reference and one holder. -/
structure Counted (audioin : AudioIn) : Prop where
  ref : ∀ buf, audioin.ref buf = held audioin buf
  refLe : ∀ buf, audioin.ref buf ≤ 1
  liveUnref : audioin.deadUnref = false

theorem Counted.onePlace {audioin : AudioIn} (hcounted : Counted audioin) (buf : NetBuf) :
    places audioin buf = 1 := by
  have hle := hcounted.refLe buf
  rw [places_eq, ← hcounted.ref buf]
  split
  next href => omega
  next href => omega

section Transfer

variable {audioin next : AudioIn} (hcounted : Counted audioin) {buf : NetBuf}
include hcounted

/-- A free buffer that gets a reference and a holder. -/
theorem Counted.take (hfree : audioin.ref buf = 0)
    (href : next.ref = Function.update audioin.ref buf 1)
    (hheld : ∀ other, held next other = held audioin other + if buf = other then 1 else 0)
    (hdead : next.deadUnref = audioin.deadUnref) : Counted next := by
  refine ⟨fun other => ?_, fun other => ?_, hdead.trans hcounted.liveUnref⟩
  · rw [href, hheld, ← hcounted.ref]
    by_cases hother : other = buf
    · subst hother
      simp [hfree]
    · simp [Function.update_of_ne hother, Ne.symm hother]
  · rw [href]
    by_cases hother : other = buf
    · subst hother
      simp
    · simpa [Function.update_of_ne hother] using hcounted.refLe other

/-- A buffer that loses its holder and its reference. -/
theorem Counted.release (buf : NetBuf) (href : next.ref = Function.update audioin.ref buf 0)
    (hheld : ∀ other, held audioin other = held next other + if buf = other then 1 else 0)
    (hdead : next.deadUnref = audioin.deadUnref) : Counted next := by
  refine ⟨fun other => ?_, fun other => ?_, hdead.trans hcounted.liveUnref⟩
  · have hother := hheld other
    rw [← hcounted.ref] at hother
    have hle := hcounted.refLe other
    rw [href]
    by_cases heq : other = buf
    · subst heq
      rw [if_pos rfl] at hother
      rw [Function.update_self]
      omega
    · rw [if_neg (Ne.symm heq)] at hother
      rw [Function.update_of_ne heq]
      omega
  · rw [href]
    by_cases hother : other = buf
    · subst hother
      simp
    · simpa [Function.update_of_ne hother] using hcounted.refLe other

/-- A buffer that passes from one holder to another one. -/
theorem Counted.move (href : next.ref = audioin.ref)
    (hheld : ∀ other, held next other = held audioin other)
    (hdead : next.deadUnref = audioin.deadUnref) : Counted next := by
  refine ⟨fun other => ?_, fun other => ?_, hdead.trans hcounted.liveUnref⟩
  · rw [href, hheld, hcounted.ref]
  · rw [href]
    exact hcounted.refLe other

theorem Counted.ref_eq_one (buf : NetBuf) (hheld : held audioin buf ≠ 0) : audioin.ref buf = 1 := by
  have hle := hcounted.refLe buf
  have href := hcounted.ref buf
  omega

end Transfer

theorem netBufUnref_live {audioin : AudioIn} {buf : NetBuf} (href : audioin.ref buf = 1) :
    netBufUnref buf audioin = { audioin with ref := Function.update audioin.ref buf 0 } := by
  unfold netBufUnref
  rw [if_neg (by omega), href]

theorem netBufUnref_dead {audioin : AudioIn} {buf : NetBuf} (href : audioin.ref buf = 0) :
    netBufUnref buf audioin = { audioin with deadUnref := true } := by
  unfold netBufUnref
  rw [if_pos href]

/-- Only the pool changes when a buffer is freed. -/
theorem netBufUnrefOpt_frame (slot : Option NetBuf) (audioin : AudioIn) :
    ∃ ref deadUnref,
      netBufUnrefOpt slot audioin = { audioin with ref := ref, deadUnref := deadUnref } := by
  cases slot with
  | none => exact ⟨_, _, rfl⟩
  | some buf =>
      rw [netBufUnrefOpt, netBufUnref]
      split
      next => exact ⟨_, _, rfl⟩
      next => exact ⟨_, _, rfl⟩

/-! ## The invariant -/

/-- What holds before every step of a run that conserves the buffers. -/
structure Inv (audioin : AudioIn) : Prop extends Counted audioin where
  apart : ∀ buf, audioin.workingNetBuf = some buf → audioin.completedNetBuf ≠ some buf
  unsent : ∀ buf, audioin.unsent = some buf → audioin.completedNetBuf = some buf
  idle : audioin.running = false →
    audioin.workingNetBuf = none ∧ audioin.completedNetBuf = none
  busy : audioin.running = true → audioin.recording = true

theorem inv_init : Inv .init where
  ref _ := rfl
  refLe _ := Nat.zero_le 1
  liveUnref := rfl
  apart := nofun
  unsent := nofun
  idle _ := ⟨rfl, rfl⟩
  busy := nofun

theorem Inv.running {audioin : AudioIn} (hinv : Inv audioin)
    (hrecording : audioin.recording = false) : audioin.running = false := by
  by_contra hrunning
  have hbusy := hinv.busy (by simpa using hrunning)
  rw [hrecording] at hbusy
  cases hbusy

theorem Inv.unsent_eq_none {audioin : AudioIn} (hinv : Inv audioin)
    (hcompleted : audioin.completedNetBuf = none) : audioin.unsent = none := by
  cases hcase : audioin.unsent with
  | none => rfl
  | some buf => exact absurd ((hinv.unsent buf hcase).symm.trans hcompleted) nofun

theorem Inv.conserved {audioin : AudioIn} (hinv : Inv audioin) : Conserved audioin := by
  refine ⟨hinv.onePlace, hinv.liveUnref, ?_⟩
  intro hrecording hqueue buf
  obtain ⟨hworking, hcompleted⟩ := hinv.idle (hinv.running hrecording)
  rw [hinv.ref, held, hworking, hinv.unsent_eq_none hcompleted, hqueue]
  rfl

/-- The buffer that `completed_net_buf` still points to after it was sent is in the pool
or in one message. -/
theorem Inv.stale {audioin : AudioIn} (hinv : Inv audioin) {buf : NetBuf}
    (hcompleted : audioin.completedNetBuf = some buf)
    (hstale : audioin.completedNetBuf ≠ audioin.unsent) :
    audioin.workingNetBuf ≠ some buf ∧ audioin.unsent = none ∧
      audioin.ref buf = audioin.msgQueue.count buf := by
  have hunsent : audioin.unsent = none := by
    cases hcase : audioin.unsent with
    | none => rfl
    | some other => exact absurd ((hinv.unsent other hcase).trans hcase.symm) hstale
  have hworking : audioin.workingNetBuf ≠ some buf :=
    fun hworking => hinv.apart buf hworking hcompleted
  refine ⟨hworking, hunsent, ?_⟩
  rw [hinv.ref, held, hunsent, if_neg hworking]
  simp

theorem netBufUnref_stale (audioin : AudioIn) {buf : NetBuf}
    (href : audioin.ref buf = audioin.msgQueue.count buf) (hle : audioin.ref buf ≤ 1) :
    (netBufUnref buf audioin).deadUnref = true ∨
      (netBufUnref buf audioin).ref buf = 0 ∧ buf ∈ (netBufUnref buf audioin).msgQueue := by
  by_cases hfree : audioin.ref buf = 0
  · rw [netBufUnref_dead hfree]
    exact .inl rfl
  · have hone : audioin.ref buf = 1 := by omega
    rw [netBufUnref_live hone]
    have hpos : 0 < audioin.msgQueue.count buf := by omega
    exact .inr ⟨Function.update_self _ _ _, List.count_pos_iff.mp hpos⟩

theorem Conserved.not_mem {audioin : AudioIn} (hconserved : Conserved audioin) {buf : NetBuf}
    (hfree : audioin.ref buf = 0) : buf ∉ audioin.msgQueue := by
  intro hqueue
  have hpos := List.count_pos_iff.mpr hqueue
  have hplace := hconserved.onePlace buf
  rw [places_eq, if_pos hfree, held] at hplace
  omega

/-! ## The half-full mark -/

theorem halfFull_inv (allocator : Allocator) {audioin : AudioIn} (hinv : Inv audioin)
    (hrunning : audioin.running = true) (hunsent : audioin.unsent = none) :
    Inv (halfFull allocator audioin) := by
  unfold halfFull
  split
  next =>
    refine ⟨hinv.toCounted.move rfl (fun other => ?_) rfl, nofun, nofun, ?_, hinv.busy⟩
    · unfold held
      rw [hunsent]
    · exact fun hidle => absurd (hrunning.symm.trans hidle) nofun
  next buf hbuf =>
    have hfree := allocator.free hbuf
    have hworking : audioin.workingNetBuf ≠ some buf := by
      intro hworking
      rw [hinv.ref, held, if_pos hworking] at hfree
      omega
    refine ⟨hinv.toCounted.take hfree rfl (fun other => ?_) rfl, ?_, fun _ => id, ?_, hinv.busy⟩
    · -- the buffer that was filled is the one completed now
      unfold held
      rw [hunsent]
      simp only [Option.some.injEq, reduceCtorEq, if_false]
      omega
    · rintro other ⟨rfl⟩
      exact hworking
    · exact fun hidle => absurd (hrunning.symm.trans hidle) nofun

/-- A buffer that was not sent before the next half-full mark is lost. -/
theorem halfFull_lost (allocator : Allocator) {audioin : AudioIn} (hinv : Inv audioin)
    {buf : NetBuf} (hunsent : audioin.unsent = some buf) :
    places (halfFull allocator audioin) buf = 0 := by
  have hworking : audioin.workingNetBuf ≠ some buf :=
    fun hworking => hinv.apart buf hworking (hinv.unsent buf hunsent)
  have hheld : held audioin buf = 1 + audioin.msgQueue.count buf := by
    rw [held, if_neg hworking, if_pos hunsent]
  have href := hinv.ref_eq_one buf (by omega)
  have hqueue : audioin.msgQueue.count buf = 0 := by
    rw [hinv.ref] at href
    omega
  unfold halfFull
  split
  next => simp [places_eq, held, href, hworking, hqueue]
  next other hother =>
    have hne : buf ≠ other := by
      rintro rfl
      rw [allocator.free hother] at href
      cases href
    simp [places_eq, held, Function.update_of_ne hne, href, Ne.symm hne, hworking, hqueue]

/-! ## The full mark -/

theorem full_eq {sent : Bool} {audioin : AudioIn} {buf : NetBuf}
    (hcompleted : audioin.completedNetBuf = some buf) :
    full sent audioin =
      if sent then { audioin with msgQueue := audioin.msgQueue ++ [buf], unsent := none }
      else netBufUnref buf { audioin with unsent := none } := by
  unfold full
  split
  next hnone => exact absurd (hcompleted.symm.trans hnone) nofun
  next other hother =>
    obtain rfl : buf = other := Option.some.inj (hcompleted.symm.trans hother)
    rfl

theorem full_inv (sent : Bool) {audioin : AudioIn} (hinv : Inv audioin)
    (hfresh : audioin.completedNetBuf = audioin.unsent) : Inv (full sent audioin) := by
  cases hcompleted : audioin.completedNetBuf with
  | none =>
      rw [full, hcompleted]
      exact hinv
  | some buf =>
      have hunsent : audioin.unsent = some buf := hfresh.symm.trans hcompleted
      rw [full_eq hcompleted]
      split
      next =>
        refine ⟨hinv.toCounted.move rfl (fun other => ?_) rfl, hinv.apart, nofun, hinv.idle,
          hinv.busy⟩
        simp only [held, hunsent, List.count_append, List.count_singleton, beq_iff_eq,
          Option.some.injEq, reduceCtorEq, if_false]
        omega
      next =>
        have href := hinv.ref_eq_one buf (by simp [held, hunsent])
        rw [netBufUnref_live (by exact href)]
        refine ⟨hinv.toCounted.release buf rfl (fun other => ?_) rfl, hinv.apart, nofun,
          hinv.idle, hinv.busy⟩
        simp only [held, hunsent, Option.some.injEq, reduceCtorEq, if_false]
        omega

/-- A buffer that is passed on again gets into a second place, or is freed again. -/
theorem full_stale (sent : Bool) {audioin : AudioIn} (hinv : Inv audioin)
    (hstale : audioin.completedNetBuf ≠ audioin.unsent) : ¬ Conserved (full sent audioin) := by
  intro hconserved
  cases hcompleted : audioin.completedNetBuf with
  | none => exact hstale (hcompleted.trans (hinv.unsent_eq_none hcompleted).symm)
  | some buf =>
      obtain ⟨hworking, hunsent, href⟩ := hinv.stale hcompleted hstale
      rw [full_eq hcompleted] at hconserved
      cases sent with
      | true =>
          have hplace := hconserved.onePlace buf
          by_cases hfree : audioin.ref buf = 0
          · simp [places_eq, held, hworking, hfree] at hplace
          · simp [places_eq, held, hworking, hfree] at hplace
            omega
      | false =>
          rcases netBufUnref_stale { audioin with unsent := none } href (hinv.refLe buf) with
            hdead | ⟨hfree, hqueue⟩
          · exact absurd (hconserved.liveUnref.symm.trans hdead) nofun
          · exact hconserved.not_mem hfree hqueue

/-! ## Starting and stopping -/

theorem startRecord_inv (allocator : Allocator) {audioin : AudioIn} (hinv : Inv audioin)
    (hrecording : audioin.recording = false) :
    Inv { (audioinStartRecord allocator audioin).2 with recording := true } := by
  obtain ⟨hworking, hcompleted⟩ := hinv.idle (hinv.running hrecording)
  have hunsent := hinv.unsent_eq_none hcompleted
  unfold audioinStartRecord
  split
  next =>
    exact ⟨hinv.toCounted.move rfl (fun _ => rfl) rfl, hinv.apart, hinv.unsent, hinv.idle,
      fun _ => rfl⟩
  next buf hbuf =>
    refine ⟨hinv.toCounted.take (allocator.free hbuf) rfl (fun other => ?_) rfl, ?_, nofun, nofun,
      fun _ => rfl⟩
    · simp only [held, hworking, hunsent, Option.some.injEq, reduceCtorEq, if_false]
      omega
    · exact fun _ _ => nofun

theorem freeWorking_counted {audioin : AudioIn} (hcounted : Counted audioin) :
    Counted (freeWorking audioin) := by
  unfold freeWorking
  cases hworking : audioin.workingNetBuf with
  | none =>
      rw [netBufUnrefOpt]
      refine hcounted.move rfl (fun other => ?_) rfl
      simp [held, hworking]
  | some buf =>
      have href := hcounted.ref_eq_one buf (by simp [held, hworking])
      rw [netBufUnrefOpt, netBufUnref_live href]
      refine hcounted.release buf rfl (fun other => ?_) rfl
      simp only [held, hworking, Option.some.injEq, reduceCtorEq, if_false]
      omega

theorem freeCompleted_counted {audioin : AudioIn} (hcounted : Counted audioin)
    (hfresh : audioin.completedNetBuf = audioin.unsent) : Counted (freeCompleted audioin) := by
  unfold freeCompleted
  rw [hfresh]
  cases hunsent : audioin.unsent with
  | none =>
      rw [netBufUnrefOpt]
      refine hcounted.move rfl (fun other => ?_) rfl
      simp [held, hunsent]
  | some buf =>
      have href := hcounted.ref_eq_one buf (by simp [held, hunsent])
      rw [netBufUnrefOpt, netBufUnref_live href]
      refine hcounted.release buf rfl (fun other => ?_) rfl
      simp only [held, hunsent, Option.some.injEq, reduceCtorEq, if_false]
      omega

/-- Freeing the buffer being filled leaves the other ones alone. -/
theorem freeWorking_frame {audioin : AudioIn} (hcounted : Counted audioin) {buf : NetBuf}
    (hworking : audioin.workingNetBuf ≠ some buf) :
    (freeWorking audioin).ref buf = audioin.ref buf ∧
      (freeWorking audioin).completedNetBuf = audioin.completedNetBuf ∧
        (freeWorking audioin).unsent = audioin.unsent ∧
          (freeWorking audioin).msgQueue = audioin.msgQueue := by
  unfold freeWorking
  cases hcase : audioin.workingNetBuf with
  | none => exact ⟨rfl, rfl, rfl, rfl⟩
  | some other =>
      have href := hcounted.ref_eq_one other (by simp [held, hcase])
      rw [netBufUnrefOpt, netBufUnref_live href]
      refine ⟨Function.update_of_ne ?_ _ _, rfl, rfl, rfl⟩
      rintro rfl
      exact hworking hcase

/-- A stop frees the buffer of a message, or one that is free already. -/
theorem stopRecord_stale {audioin : AudioIn} (hinv : Inv audioin)
    (hstale : audioin.completedNetBuf ≠ audioin.unsent) :
    ¬ Conserved { (audioinStopRecord audioin).2 with recording := false } := by
  intro hconserved
  cases hcompleted : audioin.completedNetBuf with
  | none => exact hstale (hcompleted.trans (hinv.unsent_eq_none hcompleted).symm)
  | some buf =>
      obtain ⟨hworking, -, href⟩ := hinv.stale hcompleted hstale
      have hstopped : Counted { audioin with running := false } :=
        hinv.toCounted.move rfl (fun _ => rfl) rfl
      obtain ⟨href', hcompleted', -, hqueue'⟩ := freeWorking_frame hstopped hworking
      generalize hnext : freeWorking { audioin with running := false } = next at *
      have hresult : (audioinStopRecord audioin).2 =
          { netBufUnref buf next with completedNetBuf := none, unsent := none } := by
        rw [audioinStopRecord, hnext, freeCompleted, hcompleted', hcompleted]
        rfl
      rw [hresult] at hconserved
      have hle := hinv.refLe buf
      have hcount : next.ref buf = next.msgQueue.count buf := by rw [href', hqueue', href]
      rcases netBufUnref_stale next hcount (href'.trans_le hle) with hdead | ⟨hfree, hqueue⟩
      · exact absurd (hconserved.liveUnref.symm.trans hdead) nofun
      · exact hconserved.not_mem hfree hqueue

theorem stopRecord_inv {audioin : AudioIn} (hinv : Inv audioin)
    (hfresh : audioin.completedNetBuf = audioin.unsent) :
    Inv { (audioinStopRecord audioin).2 with recording := false } := by
  have hstopped : Counted { audioin with running := false } :=
    hinv.toCounted.move rfl (fun _ => rfl) rfl
  have hworking := freeWorking_counted hstopped
  obtain ⟨ref, deadUnref, hfreed⟩ :=
    netBufUnrefOpt_frame audioin.workingNetBuf { audioin with running := false }
  rw [freeWorking, hfreed] at hworking
  have hcompleted := freeCompleted_counted hworking hfresh
  rw [audioinStopRecord, freeWorking, hfreed]
  obtain ⟨ref', deadUnref', hfreed'⟩ := netBufUnrefOpt_frame audioin.completedNetBuf
    { audioin with running := false, ref := ref, deadUnref := deadUnref, workingNetBuf := none }
  rw [freeCompleted, hfreed'] at hcompleted ⊢
  exact ⟨hcompleted.move rfl (fun _ => rfl) rfl, nofun, nofun, fun _ => ⟨rfl, rfl⟩, nofun⟩

/-! ## Runs -/

theorem audioEventHandle_inv {audioin : AudioIn} (hinv : Inv audioin) :
    Inv (systemAudioEventHandle audioin) := by
  unfold systemAudioEventHandle
  split
  next => exact hinv
  next buf rest hqueue =>
    have href := hinv.ref_eq_one buf (by simp [held, hqueue])
    rw [netBufUnref_live (by exact href)]
    refine ⟨hinv.toCounted.release buf rfl (fun other => ?_) rfl, hinv.apart, hinv.unsent,
      hinv.idle, hinv.busy⟩
    simp only [held, hqueue, List.count_cons, beq_iff_eq]
    omega

/-- A step that finds the buffers conserved leaves them so exactly if it is fresh. -/
theorem step_conserved_iff {audioin : AudioIn} (hinv : Inv audioin) {event : Event}
    (halternating : Alternating audioin event) :
    (Fresh audioin event → Inv (step audioin event)) ∧
      (Conserved (step audioin event) → Fresh audioin event) := by
  cases event with
  | startRecord allocator =>
      exact ⟨fun _ => startRecord_inv allocator hinv halternating, fun _ => trivial⟩
  | stopRecord =>
      refine ⟨stopRecord_inv hinv, ?_⟩
      intro hconserved
      by_contra hstale
      exact stopRecord_stale hinv hstale hconserved
  | audioEventHandle => exact ⟨fun _ => audioEventHandle_inv hinv, fun _ => trivial⟩
  | pcmBufCbk allocator hf fu sent =>
      rw [step, audioPcmBufCbk]
      by_cases hrunning : audioin.running = true
      · rw [if_neg (not_not.mpr hrunning)]
        cases hf with
        | true =>
            refine ⟨fun hfresh => ?_, ?_⟩
            · exact halfFull_inv allocator hinv hrunning ((hfresh hrunning).1 rfl)
            intro hconserved _
            refine ⟨fun _ => ?_, fun hnot => absurd rfl hnot⟩
            cases hunsent : audioin.unsent with
            | none => rfl
            | some buf =>
                exact absurd ((hconserved.onePlace buf).symm.trans
                  (halfFull_lost allocator hinv hunsent)) nofun
        | false =>
            cases fu with
            | true =>
                refine ⟨fun hfresh => full_inv sent hinv ((hfresh hrunning).2 nofun rfl), ?_⟩
                intro hconserved _
                refine ⟨nofun, fun _ _ => ?_⟩
                by_contra hstale
                exact full_stale sent hinv hstale hconserved
            | false => exact ⟨fun _ => hinv, fun _ _ => ⟨nofun, fun _ => nofun⟩⟩
      · rw [if_pos hrunning]
        exact ⟨fun _ => hinv, fun _ hrunning' => absurd hrunning' hrunning⟩

/-- In every run in which starts and stops alternate, the buffers are conserved in every
state exactly if every step is fresh. -/
theorem capture_conserved_iff (events : List Event)
    (halternating : Along step Alternating .init events) :
    Throughout step Conserved .init events ↔ Along step Fresh .init events := by
  rw [throughout_iff_along]
  have hcongr :
      Along step (fun audioin event =>
          Alternating audioin event ∧ Conserved (step audioin event)) .init events ↔
        Along step (fun audioin event =>
          Alternating audioin event ∧ Fresh audioin event) .init events := by
    refine along_congr_of_invariant Inv ?_ ?_ inv_init
    · intro audioin event hinv
      constructor
      · rintro ⟨halt, hconserved⟩
        exact ⟨halt, (step_conserved_iff hinv halt).2 hconserved⟩
      · rintro ⟨halt, hfresh⟩
        exact ⟨halt, ((step_conserved_iff hinv halt).1 hfresh).conserved⟩
    · rintro audioin event hinv ⟨halt, hfresh⟩
      exact (step_conserved_iff hinv halt).1 hfresh
  rw [along_and, along_and] at hcongr
  constructor
  · rintro ⟨-, hconserved⟩
    exact (hcongr.mp ⟨halternating, hconserved⟩).2
  · intro hfresh
    exact ⟨inv_init.conserved, (hcongr.mpr ⟨halternating, hfresh⟩).2⟩

/-- The pool that hands out its first free buffer. -/
def firstFree : Allocator where
  pick ref := (List.finRange pcmBufNum).find? fun buf => ref buf = 0
  free hpick := by simpa using List.find?_some hpick
  complete hpick buf href := by
    have hnone := List.find?_eq_none.mp hpick buf (List.mem_finRange buf)
    exact hnone (decide_eq_true href)

/-- A half-full interrupt, and a full one whose message is sent. -/
def halfFullIrq : Event := .pcmBufCbk firstFree true false true
def fullIrq : Event := .pcmBufCbk firstFree false true true

/-- Two buffers are captured and passed on in turn, and the capture is stopped after the
half-full mark. -/
theorem twoBuffers_conserved :
    Throughout step Conserved .init
      [.startRecord firstFree, halfFullIrq, fullIrq, .audioEventHandle, halfFullIrq,
        .stopRecord] := by
  apply (capture_conserved_iff _ (by decide)).mpr
  decide

/-- Half-full, full and stop in turn: the stop frees the buffer of the message in the queue. -/
theorem stopAfterFull_freed :
    Along step Alternating .init
        [.startRecord firstFree, halfFullIrq, fullIrq, .stopRecord] ∧
      ¬ Throughout step Conserved .init
        [.startRecord firstFree, halfFullIrq, fullIrq, .stopRecord] := by
  refine ⟨by decide, ?_⟩
  intro hall
  have hplace := hall.last.onePlace ⟨0, by decide⟩
  revert hplace
  decide

end CubieBle.Audio
