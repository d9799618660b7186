import Mathlib.Data.Fintype.Pi
import Mathlib.Logic.Function.Basic
import CubieBle.Machine.Run

/-! # Capturing audio

The capture driver fills buffers of a pool. Its interrupt swaps the buffer that is being
filled at the half-full mark and passes the one completed to the main thread at the
full mark, and the main thread frees each buffer that it was passed.
-/

namespace CubieBle.Audio

open Machine

def pcmBufNum : Nat := 5

/-- The buffers of `pcm_buffer_pool`. -/
abbrev NetBuf := Fin pcmBufNum

/-- How the pool picks a buffer in a call of `net_buf_alloc`: a free one, if there is one. -/
structure Allocator where
  pick : (NetBuf → Nat) → Option NetBuf
  free : ∀ {ref buf}, pick ref = some buf → ref buf = 0
  complete : ∀ {ref}, pick ref = none → ∀ buf, ref buf ≠ 0

/-- The driver with its pool and the buffers of the `MSG_AUDIO_INPUT` messages in the
queue, oldest first. -/
structure AudioIn where
  running : Bool
  workingNetBuf : Option NetBuf
  completedNetBuf : Option NetBuf
  ref : NetBuf → Nat
  msgQueue : List NetBuf
  /-- Some `net_buf_unref` was applied to a buffer without a reference. -/
  deadUnref : Bool
  /-- The buffer that was completed and not yet sent; never read by the code. -/
  unsent : Option NetBuf
  /-- A start was the last of the starts and stops; never read by the code. -/
  recording : Bool
deriving DecidableEq

def AudioIn.init : AudioIn where
  running := false
  workingNetBuf := none
  completedNetBuf := none
  ref _ := 0
  msgQueue := []
  deadUnref := false
  unsent := none
  recording := false

/-- The count does not go below zero: what an unref of a free buffer does is not known. -/
def netBufUnref (buf : NetBuf) (audioin : AudioIn) : AudioIn :=
  if audioin.ref buf = 0 then { audioin with deadUnref := true }
  else { audioin with ref := Function.update audioin.ref buf (audioin.ref buf - 1) }

def netBufUnrefOpt (buf : Option NetBuf) (audioin : AudioIn) : AudioIn :=
  match buf with
  | none => audioin
  | some buf => netBufUnref buf audioin

/-- The half-full branch of the callback. -/
def halfFull (allocator : Allocator) (audioin : AudioIn) : AudioIn :=
  match allocator.pick audioin.ref with
  | none => { audioin with completedNetBuf := none, unsent := none }
  | some buf =>
      { audioin with
        ref := Function.update audioin.ref buf 1
        completedNetBuf := audioin.workingNetBuf
        workingNetBuf := some buf
        unsent := audioin.workingNetBuf }

/-- The full branch of the callback, with the result of `send_msg`. -/
def full (sent : Bool) (audioin : AudioIn) : AudioIn :=
  match audioin.completedNetBuf with
  | none => audioin
  | some buf =>
      -- `completed_net_buf` keeps its value
      if sent then { audioin with msgQueue := audioin.msgQueue ++ [buf], unsent := none }
      else netBufUnref buf { audioin with unsent := none }

/-- The full mark is not looked at if the half-full mark is pending too. -/
def audioPcmBufCbk (allocator : Allocator) (hf fu sent : Bool) (audioin : AudioIn) : AudioIn :=
  if ¬ audioin.running then audioin
  else if hf then halfFull allocator audioin
  else if fu then full sent audioin
  else audioin

/-- The result and the driver afterwards. -/
def audioinStartRecord (allocator : Allocator) (audioin : AudioIn) : Int × AudioIn :=
  match allocator.pick audioin.ref with
  | none => (-1, audioin)
  | some buf =>
      (0, { audioin with
        ref := Function.update audioin.ref buf 1
        workingNetBuf := some buf
        completedNetBuf := none
        unsent := none
        running := true })

def freeWorking (audioin : AudioIn) : AudioIn :=
  { netBufUnrefOpt audioin.workingNetBuf audioin with workingNetBuf := none }

def freeCompleted (audioin : AudioIn) : AudioIn :=
  { netBufUnrefOpt audioin.completedNetBuf audioin with completedNetBuf := none, unsent := none }

def audioinStopRecord (audioin : AudioIn) : Int × AudioIn :=
  (0, freeCompleted (freeWorking { audioin with running := false }))

/-- Every path of `system_audio_event_handle` frees the buffer of the message once. -/
def systemAudioEventHandle (audioin : AudioIn) : AudioIn :=
  match audioin.msgQueue with
  | [] => audioin
  | buf :: rest => netBufUnref buf { audioin with msgQueue := rest }

/-- The pool may pick in another way at each event. -/
inductive Event where
  | startRecord (allocator : Allocator)
  | stopRecord
  | pcmBufCbk (allocator : Allocator) (hf fu sent : Bool)
  | audioEventHandle

def step (audioin : AudioIn) : Event → AudioIn
  | .startRecord allocator => { (audioinStartRecord allocator audioin).2 with recording := true }
  | .stopRecord => { (audioinStopRecord audioin).2 with recording := false }
  | .pcmBufCbk allocator hf fu sent => audioPcmBufCbk allocator hf fu sent audioin
  | .audioEventHandle => systemAudioEventHandle audioin

/-- Starts and stops alternate, and the first of them is a start. -/
def Alternating (audioin : AudioIn) : Event → Prop
  | .startRecord _ => audioin.recording = false
  | .stopRecord => audioin.recording = true
  | _ => True

instance decidableAlternating (audioin : AudioIn) : ∀ event, Decidable (Alternating audioin event)
  | .startRecord _ => inferInstanceAs (Decidable (_ = _))
  | .stopRecord => inferInstanceAs (Decidable (_ = _))
  | .pcmBufCbk _ _ _ _ => inferInstanceAs (Decidable True)
  | .audioEventHandle => inferInstanceAs (Decidable True)

/-! ## Where the buffers are -/

/-- The places that hold a buffer: the pool, the buffer being filled, the buffer
completed and not yet sent, and the messages. -/
def places (audioin : AudioIn) (buf : NetBuf) : Nat :=
  (if audioin.ref buf = 0 then 1 else 0) + audioin.workingNetBuf.toList.count buf +
    audioin.unsent.toList.count buf + audioin.msgQueue.count buf

structure Conserved (audioin : AudioIn) : Prop where
  onePlace : ∀ buf, places audioin buf = 1
  liveUnref : audioin.deadUnref = false
  allFree : audioin.recording = false → audioin.msgQueue = [] → ∀ buf, audioin.ref buf = 0

/-- No buffer completed is overwritten before it was sent, and `completed_net_buf` is not
used again after its buffer was sent. -/
def Fresh (audioin : AudioIn) : Event → Prop
  | .pcmBufCbk _ hf fu _ =>
      audioin.running →
        (hf → audioin.unsent = none) ∧
          (¬ hf → fu → audioin.completedNetBuf = audioin.unsent)
  | .stopRecord => audioin.completedNetBuf = audioin.unsent
  | _ => True

instance decidableFresh (audioin : AudioIn) : ∀ event, Decidable (Fresh audioin event)
  | .startRecord _ => inferInstanceAs (Decidable True)
  | .stopRecord => inferInstanceAs (Decidable (_ = _))
  | .pcmBufCbk _ _ _ _ => inferInstanceAs (Decidable (_ → _ ∧ _))
  | .audioEventHandle => inferInstanceAs (Decidable True)

end CubieBle.Audio
