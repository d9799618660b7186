import Mathlib.Data.List.Basic

/-! # Streams received in chunks

A machine that reads one input at a time, or refuses it, and an implementation
that is handed whole chunks. If the implementation follows the machine over every
chunk, it follows it over every way of cutting a stream into chunks.
-/

namespace Machine

universe uState uInput uConcrete uFault

variable {State : Type uState} {Input : Type uInput} {Concrete : Type uConcrete}
  {Fault : Type uFault}

/-- Read the inputs one after the other. -/
def feed (step : State → Input → Option State) (state : State) (inputs : List Input) :
    Option State :=
  inputs.foldlM step state

section Feed

variable {step : State → Input → Option State}

@[simp] theorem feed_nil (state : State) : feed step state [] = some state := rfl

@[simp] theorem feed_cons (state : State) (input : Input) (rest : List Input) :
    feed step state (input :: rest) = (step state input).bind fun next => feed step next rest := by
  simp only [feed, List.foldlM_cons]
  rfl

theorem feed_append (state : State) (first second : List Input) :
    feed step state (first ++ second) =
      (feed step state first).bind fun next => feed step next second := by
  induction first generalizing state with
  | nil => rfl
  | cons input rest ih =>
      rw [List.cons_append, feed_cons, feed_cons, Option.bind_assoc]
      congr 1
      funext next
      exact ih next

/-- A stream that is read to its end has been read to its end chunk by chunk. -/
theorem exists_feed_of_append {state last : State} {first second : List Input}
    (hfeed : feed step state (first ++ second) = some last) :
    ∃ middle, feed step state first = some middle ∧ feed step middle second = some last := by
  rw [feed_append] at hfeed
  exact Option.bind_eq_some_iff.mp hfeed

end Feed

/-- Chunk-wise refinement: what one chunk keeps, every sequence of chunks keeps. -/
theorem foldlM_refines {step : State → Input → Option State}
    {receive : Concrete → List Input → Except Fault Concrete} (relates : Concrete → State → Prop)
    (accepts : List Input → Prop)
    (hchunk : ∀ concrete state chunk next, accepts chunk → relates concrete state →
      feed step state chunk = some next →
      ∃ received, receive concrete chunk = .ok received ∧ relates received next)
    {chunks : List (List Input)} (haccepts : ∀ chunk ∈ chunks, accepts chunk)
    {concrete : Concrete} {state last : State} (hrelates : relates concrete state)
    (hfeed : feed step state chunks.flatten = some last) :
    ∃ received, chunks.foldlM receive concrete = .ok received ∧ relates received last := by
  induction chunks generalizing concrete state with
  | nil =>
      obtain rfl := Option.some.inj hfeed
      exact ⟨concrete, rfl, hrelates⟩
  | cons chunk rest ih =>
      obtain ⟨middle, hfirst, hsecond⟩ := exists_feed_of_append hfeed
      obtain ⟨received, hreceived, hmiddle⟩ :=
        hchunk concrete state chunk middle (haccepts chunk (by simp)) hrelates hfirst
      rw [List.foldlM_cons, hreceived]
      exact ih (fun other hother => haccepts other (by simp [hother])) hmiddle hsecond

end Machine
