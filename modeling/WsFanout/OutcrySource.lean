import Mathlib.Algebra.GroupWithZero.Nat
import WsFanout.Protocol

/-!
# The outcry source

The loop body of `consume_outcry` in `outcry_source.rs`.  The queue is a crate of its own: a pass
of the loop starts from what `Consumer::try_read` returned and left in the buffer.  The decoder is
the application's, and may answer each call differently, so a pass takes it as it is at that call.
What the loop only logs is left out.
-/

namespace WsFanout

/-- A frame from the queue, decoded. -/
structure Decoded where
  channel : String
  payload : RawValue
  deriving DecidableEq, Repr

/-- Where the source thread spends its time when the queue is empty. -/
inductive Idle where
  | spin
  /-- Sleep this many nanoseconds between polls. -/
  | sleep (d : Nat)
  deriving DecidableEq, Repr

/-- What `Consumer::try_read` returns. -/
inductive TryRead where
  /-- A frame of `n` bytes; `buf` is the buffer as the call left it. -/
  | frame (n : Nat) (buf : List UInt8)
  | empty
  | overrun (behind : Nat)
  | bufferTooSmall (needed : Nat)
  | failed (detail : String)
  deriving DecidableEq, Repr

/-- What one pass of the loop did. -/
inductive Pass where
  /-- `bytes` went to the decoder, and what it returned, if anything, was published. -/
  | decoded (bytes : List UInt8) (result : Option Decoded)
  | spin
  | sleep (d : Nat)
  /-- The consumer was resynced and every client told. -/
  | resyncAll
  | resize
  /-- The loop was left. -/
  | stop
  | panic
  deriving DecidableEq, Repr

/-- The loop test is evaluated again after the pass. -/
def Pass.goesOn : Pass → Bool
  | stop => false
  | panic => false
  | _ => true

/-- The locals of the loop. -/
structure Source where
  buf : List UInt8
  idlePolls : Nat
  undecodable : UInt64
  deriving DecidableEq, Repr

namespace Source

def new : Source where
  buf := List.replicate (64 * 1024) 0
  idlePolls := 0
  undecodable := 0

/-- `Vec::resize` with zeros. -/
def resize (buf : List UInt8) (needed : Nat) : List UInt8 :=
  buf.take needed ++ List.replicate (needed - buf.length) 0

@[simp] theorem length_resize (buf : List UInt8) {needed : Nat}
    (short : buf.length < needed) : (resize buf needed).length = needed := by
  rw [resize, List.length_append, List.length_take, List.length_replicate]
  omega

/-- One pass of the loop. -/
def pass (s : Source) (idle : Idle) (decode : List UInt8 → Option Decoded) :
    TryRead → Source × Pass
  | .frame n buf =>
    if n ≤ buf.length then
      match decode (buf.take n) with
      | some d => ({ s with buf := buf, idlePolls := 0 }, .decoded (buf.take n) (some d))
      | none =>
        ({ buf := buf, idlePolls := 0, undecodable := s.undecodable + 1 },
          .decoded (buf.take n) none)
    else ({ s with buf := buf, idlePolls := 0 }, .panic)
  | .empty =>
    -- `saturating_add` on a `u32`
    let idlePolls := min (s.idlePolls + 1) (2 ^ 32 - 1)
    match idle with
    | .spin => ({ s with idlePolls := idlePolls }, .spin)
    | .sleep d =>
      ({ s with idlePolls := idlePolls }, if 1000 < idlePolls then .sleep d else .spin)
  | .overrun _ => (s, .resyncAll)
  | .bufferTooSmall needed => ({ s with buf := resize s.buf needed }, .resize)
  | .failed _ => (s, .stop)

/-- The buffer after a pass: as the call left it, enlarged, or the same. -/
theorem buf_pass (s : Source) (idle : Idle) (decode : List UInt8 → Option Decoded)
    (outcome : TryRead) :
    (s.pass idle decode outcome).1.buf =
      match outcome with
      | .frame _ buf => buf
      | .bufferTooSmall needed => resize s.buf needed
      | _ => s.buf := by
  cases outcome with
  | frame n buf =>
      by_cases within : n ≤ buf.length
      · simp only [pass, within, ↓reduceIte]
        cases decode (buf.take n) <;> rfl
      · simp only [pass, within, ↓reduceIte]
  | empty => cases idle <;> rfl
  | overrun _ | bufferTooSmall _ | failed _ => rfl

/-- Only a queue error, or a length beyond the buffer, keeps the loop from its next test. -/
theorem goesOn_pass (s : Source) (idle : Idle) (decode : List UInt8 → Option Decoded)
    (outcome : TryRead) :
    (s.pass idle decode outcome).2.goesOn = false ↔
      (∃ detail, outcome = .failed detail) ∨
        ∃ n buf, outcome = .frame n buf ∧ buf.length < n := by
  cases outcome with
  | frame n buf =>
      rcases Nat.lt_or_ge buf.length n with beyond | within
      · have notLe : ¬ n ≤ buf.length := by omega
        simp [pass, notLe, beyond, Pass.goesOn]
      · have notLt : ¬ buf.length < n := by omega
        cases answer : decode (buf.take n) <;> simp [pass, within, answer, notLt, Pass.goesOn]
  | empty =>
      cases idle with
      | spin => simp [pass, Pass.goesOn]
      | sleep d =>
          simp only [pass]
          split <;> simp [Pass.goesOn]
  | overrun _ | bufferTooSmall _ | failed _ => simp [pass, Pass.goesOn]

end Source

end WsFanout
