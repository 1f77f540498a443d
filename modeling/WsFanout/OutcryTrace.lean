import WsFanout.Resync

/-!
# The outcry source over whole runs

The queue is a sequence of frames in write order, and its consumer a position in that sequence.
`Reads` is what `Consumer::try_read` may return at a position for a buffer of a given length: the
next frame if it fits, nothing, a demand for a larger buffer, an overrun after which `resync` has
moved to a later position, or another error.  `Drain.Step` is one pass of the loop on such an
outcome.

`Drain.step_cases` says what one pass does to the position, the decoder and the server, and
`Drain.buf_step` what it does to the buffer.  `Drain.exact_run` is the same for a whole run: what
the decoder is given is the queue without the lost frames, what is published is what the decoder
returned, every overrun is told to the clients once, in its place, and the buffer grows so that a
frame of any size is read.
-/

namespace WsFanout

open Lib

/-- What the consumer may return at position `pos` for the buffer `buf`, and where it stands
afterwards. -/
inductive Reads (frames : Nat → List UInt8) (pos : Nat) (buf : List UInt8) :
    TryRead → Nat → Prop
  /-- The frame is at the start of the buffer; what is behind it is left open. -/
  | frame {buf' : List UInt8} (length : buf'.length = buf.length)
      (fits : (frames pos).length ≤ buf.length)
      (bytes : buf'.take (frames pos).length = frames pos) :
      Reads frames pos buf (.frame (frames pos).length buf') (pos + 1)
  | empty : Reads frames pos buf .empty pos
  | bufferTooSmall {needed : Nat} (short : buf.length < needed) :
      Reads frames pos buf (.bufferTooSmall needed) pos
  | overrun {next : Nat} (behind : Nat) (later : pos < next) :
      Reads frames pos buf (.overrun behind) next
  | failed (detail : String) : Reads frames pos buf (.failed detail) pos

/-- One pass of the loop: where the consumer stood, what it returned, where it stood then, and what
the loop did. -/
structure Reading where
  pos : Nat
  outcome : TryRead
  next : Nat
  pass : Pass
  deriving DecidableEq, Repr

namespace Reading

def isOverrun (e : Reading) : Bool :=
  match e.outcome with
  | .overrun _ => true
  | _ => false

/-- The positions of the frames an overrun skipped. -/
def lost (e : Reading) : List Nat :=
  if e.isOverrun then List.range' e.pos (e.next - e.pos) else []

/-- The bytes given to the decoder. -/
def decoded? (e : Reading) : Option (List UInt8) :=
  match e.pass with
  | .decoded bytes _ => some bytes
  | _ => none

/-- What was published. -/
def published? (e : Reading) : Option Decoded :=
  match e.pass with
  | .decoded _ result => result
  | _ => none

/-- The call on the server's registry. -/
def call? (e : Reading) : Option (Op ServerMessage) :=
  e.pass.op?

end Reading

/-- What a decoder, started in state `d`, answers to the frames it is given. -/
def answers {δ : Type} (decode : δ → List UInt8 → δ × Option Decoded) :
    δ → List (List UInt8) → List (Option Decoded)
  | _, [] => []
  | d, bytes :: rest => (decode d bytes).2 :: answers decode (decode d bytes).1 rest

/-- A source thread in its loop, with its consumer and its decoder. -/
structure Drain (δ : Type) where
  source : Source := .new
  pos : Nat
  decoder : δ
  running : Bool := true

namespace Drain

variable {δ : Type} {frames : Nat → List UInt8}
  {decode : δ → List UInt8 → δ × Option Decoded} {idle : Idle}

/-- One pass of the loop on an outcome the consumer may return. -/
inductive Step (frames : Nat → List UInt8) (decode : δ → List UInt8 → δ × Option Decoded)
    (idle : Idle) : Drain δ → Reading → Drain δ → Prop
  | pass {s : Drain δ} {outcome : TryRead} {next : Nat} {source : Source} {p : Pass}
      (running : s.running = true) (reads : Reads frames s.pos s.source.buf outcome next)
      (passed : s.source.pass idle (fun bytes => (decode s.decoder bytes).2) outcome =
        (source, p)) :
      Step frames decode idle s ⟨s.pos, outcome, next, p⟩
        { source
          pos := next
          decoder :=
            match p with
            | .decoded bytes _ => (decode s.decoder bytes).1
            | _ => s.decoder
          running := p.goesOn }

/-- What one pass does: it gives the next frame to the decoder and publishes the answer, or skips
lost frames and tells every client, or moves nothing. -/
inductive Passed (frames : Nat → List UInt8) (decode : δ → List UInt8 → δ × Option Decoded)
    (s : Drain δ) (e : Reading) (s' : Drain δ) : Prop
  | decoded (pass : e.pass = .decoded (frames s.pos) (decode s.decoder (frames s.pos)).2)
      (kept : e.isOverrun = false) (moved : s'.pos = s.pos + 1)
      (decoder : s'.decoder = (decode s.decoder (frames s.pos)).1)
  | resynced (pass : e.pass = .resyncAll) (overrun : e.isOverrun = true) (moved : s.pos < s'.pos)
      (decoder : s'.decoder = s.decoder)
  | idle (given : e.decoded? = none) (silent : e.published? = none) (quiet : e.call? = none)
      (sound : e.pass ≠ .panic) (kept : e.isOverrun = false) (moved : s'.pos = s.pos)
      (decoder : s'.decoder = s.decoder)

theorem step_cases {s s' : Drain δ} {e : Reading} (step : Step frames decode idle s e s') :
    e.pos = s.pos ∧ e.next = s'.pos ∧ Passed frames decode s e s' := by
  cases step with
  | pass running reads passed =>
      refine ⟨rfl, rfl, ?_⟩
      cases reads with
      | frame length fits bytes =>
          rw [← length] at fits
          simp only [Source.pass, fits, ↓reduceIte, bytes] at passed
          cases answer : (decode s.decoder (frames s.pos)).2 with
          | none =>
              rw [answer] at passed
              cases passed
              exact .decoded (by rw [answer]) rfl rfl rfl
          | some d =>
              rw [answer] at passed
              cases passed
              exact .decoded (by rw [answer]) rfl rfl rfl
      | overrun behind later =>
          cases passed
          exact .resynced rfl rfl later rfl
      | empty =>
          simp only [Source.pass] at passed
          cases idle with
          | spin =>
              cases passed
              exact .idle rfl rfl rfl Pass.noConfusion rfl rfl rfl
          | sleep d =>
              simp only at passed
              split at passed
              · cases passed
                exact .idle rfl rfl rfl Pass.noConfusion rfl rfl rfl
              · cases passed
                exact .idle rfl rfl rfl Pass.noConfusion rfl rfl rfl
      | bufferTooSmall short =>
          cases passed
          exact .idle rfl rfl rfl Pass.noConfusion rfl rfl rfl
      | failed detail =>
          cases passed
          exact .idle rfl rfl rfl Pass.noConfusion rfl rfl rfl

/-- The consumer only moves on. -/
theorem pos_le_run {s s' : Drain δ} {es : List Reading}
    (run : Run (Step frames decode idle) s es s') : s.pos ≤ s'.pos := by
  induction run with
  | nil => exact Nat.le_refl _
  | cons step _ ih =>
      refine Nat.le_trans ?_ ih
      obtain ⟨-, -, passed⟩ := step_cases step
      cases passed with
      | decoded _ _ moved _ | resynced _ _ moved _ | idle _ _ _ _ _ moved _ => omega

/-- The lost frames are among those the consumer has passed. -/
theorem lost_run {s s' : Drain δ} {es : List Reading}
    (run : Run (Step frames decode idle) s es s') {k : Nat} (gone : k ∈ es.flatMap Reading.lost) :
    s.pos ≤ k ∧ k < s'.pos := by
  induction run with
  | nil => cases gone
  | @cons s t u e es step rest ih =>
      have onward := pos_le_run rest
      obtain ⟨pos, next, outcome⟩ := step_cases step
      rw [List.flatMap_cons, List.mem_append] at gone
      have moved : s.pos ≤ t.pos := pos_le_run (.single step)
      rcases gone with here | later
      · rw [Reading.lost] at here
        split at here
        · obtain ⟨lower, upper⟩ := List.mem_range'_1.mp here
          omega
        · cases here
      · have bounds := ih later
        omega

/-- The decoder is given the queue without the lost frames. -/
theorem decoded_run {s s' : Drain δ} {es : List Reading}
    (run : Run (Step frames decode idle) s es s') :
    es.filterMap Reading.decoded? =
      ((List.range' s.pos (s'.pos - s.pos)).filter (· ∉ es.flatMap Reading.lost)).map frames := by
  induction run with
  | nil => simp
  | @cons s t u e es step rest ih =>
      have onward := pos_le_run rest
      have moved : s.pos ≤ t.pos := pos_le_run (.single step)
      have split : List.range' s.pos (u.pos - s.pos) =
          List.range' s.pos (t.pos - s.pos) ++ List.range' t.pos (u.pos - t.pos) := by
        have joined := @List.range'_append_1 s.pos (t.pos - s.pos) (u.pos - t.pos)
        rw [show s.pos + (t.pos - s.pos) = t.pos by omega,
          show t.pos - s.pos + (u.pos - t.pos) = u.pos - s.pos by omega] at joined
        exact joined.symm
      -- frames behind this pass are lost by a later pass or not at all
      have behind : (List.range' t.pos (u.pos - t.pos)).filter
          (· ∉ (e :: es).flatMap Reading.lost) =
          (List.range' t.pos (u.pos - t.pos)).filter (· ∉ es.flatMap Reading.lost) := by
        refine List.filter_congr fun k ahead => ?_
        have reached := (List.mem_range'_1.mp ahead).1
        have elsewhere : k ∉ e.lost := by
          intro here
          have passed := lost_run (.single step) (by simpa using here)
          omega
        simp [elsewhere]
      have mine : (e.decoded?).toList =
          ((List.range' s.pos (t.pos - s.pos)).filter
            (· ∉ (e :: es).flatMap Reading.lost)).map frames := by
        obtain ⟨pos, next, passed⟩ := step_cases step
        cases passed with
        | decoded pass kept moved _ =>
            have read : s.pos ∉ (e :: es).flatMap Reading.lost := by
              rw [List.flatMap_cons, List.mem_append]
              intro gone
              rcases gone with here | later
              · simp [Reading.lost, kept] at here
              · have passed := (lost_run rest later).1
                omega
            rw [moved, Nat.add_sub_cancel_left, List.range'_one,
              List.filter_cons_of_pos (by simpa using read)]
            simp [Reading.decoded?, pass]
        | resynced pass overrun _ _ =>
            have all : (List.range' s.pos (t.pos - s.pos)).filter
                (· ∉ (e :: es).flatMap Reading.lost) = [] := by
              refine List.filter_eq_nil_iff.mpr fun k skipped => ?_
              rw [← pos, ← next] at skipped
              simp [Reading.lost, overrun, skipped]
            rw [all]
            simp [Reading.decoded?, pass]
        | idle given _ _ _ _ moved _ =>
            rw [given, moved, Nat.sub_self]
            rfl
      rw [split, List.filter_append, List.map_append, behind, ← ih, ← mine, List.filterMap_cons]
      cases e.decoded? <;> rfl

/-- What is published is what the decoder returned. -/
theorem published_run {s s' : Drain δ} {es : List Reading}
    (run : Run (Step frames decode idle) s es s') :
    es.filterMap Reading.published? =
      (answers decode s.decoder (es.filterMap Reading.decoded?)).reduceOption := by
  induction run with
  | nil => rfl
  | @cons s t u e es step rest ih =>
      rw [List.filterMap_cons, List.filterMap_cons]
      obtain ⟨-, -, passed⟩ := step_cases step
      cases passed with
      | decoded pass _ _ decoder =>
          have given : e.decoded? = some (frames s.pos) := by simp [Reading.decoded?, pass]
          have result : e.published? = (decode s.decoder (frames s.pos)).2 := by
            simp [Reading.published?, pass]
          rw [given, result, ih, decoder]
          simp only [answers]
          cases (decode s.decoder (frames s.pos)).2 <;> rfl
      | resynced pass _ _ decoder =>
          have nothing : e.decoded? = none ∧ e.published? = none := by
            simp [Reading.decoded?, Reading.published?, pass]
          rw [nothing.1, nothing.2, ih, decoder]
      | idle given silent _ _ _ _ decoder => rw [given, silent, ih, decoder]

/-- The call a pass makes. -/
theorem call_step {s s' : Drain δ} {e : Reading} (step : Step frames decode idle s e s') :
    e.pass ≠ .panic ∧ e.call? =
      if e.isOverrun then some .resyncAll
      else e.published?.map fun d => .publish d.channel (.data d.channel d.payload) := by
  obtain ⟨-, -, passed⟩ := step_cases step
  cases passed with
  | decoded pass kept _ _ =>
      rw [kept, Reading.call?, Reading.published?, pass]
      refine ⟨Pass.noConfusion, ?_⟩
      cases (decode s.decoder (frames s.pos)).2 <;> rfl
  | resynced pass overrun _ _ =>
      rw [overrun, Reading.call?, pass]
      exact ⟨Pass.noConfusion, rfl⟩
  | idle _ silent quiet sound kept _ _ =>
      rw [kept, quiet, silent]
      exact ⟨sound, rfl⟩

/-- The buffer after a pass: it never gets shorter, and a refused read leaves it as long as that
read asked for. -/
theorem buf_step {s s' : Drain δ} {e : Reading} (step : Step frames decode idle s e s') :
    s.source.buf.length ≤ s'.source.buf.length ∧
      ∀ needed, e.outcome = .bufferTooSmall needed →
        s.source.buf.length < needed ∧ s'.source.buf.length = needed := by
  cases step with
  | @pass outcome next source p running reads passed =>
      have buf := s.source.buf_pass idle (fun bytes => (decode s.decoder bytes).2) outcome
      rw [passed] at buf
      change source.buf = _ at buf
      rw [buf]
      cases reads with
      | frame length _ _ => exact ⟨length.ge, fun _ refused => by cases refused⟩
      | bufferTooSmall short =>
          have longer := Source.length_resize s.source.buf short
          refine ⟨short.le.trans longer.ge, fun n refused => ?_⟩
          cases refused
          exact ⟨short, longer⟩
      | empty | overrun _ _ | failed _ =>
          exact ⟨Nat.le_refl _, fun _ refused => by cases refused⟩

theorem buf_run {s s' : Drain δ} {es : List Reading}
    (run : Run (Step frames decode idle) s es s') :
    s.source.buf.length ≤ s'.source.buf.length := by
  induction run with
  | nil => exact Nat.le_refl _
  | cons step _ ih => exact Nat.le_trans (buf_step step).1 ih

/-- A read that is refused asks for more than the buffer had before. -/
theorem needed_run {s s' : Drain δ} {es : List Reading}
    (run : Run (Step frames decode idle) s es s') {e : Reading} (mem : e ∈ es) {needed : Nat}
    (refused : e.outcome = .bufferTooSmall needed) : s.source.buf.length < needed := by
  obtain ⟨before, after, rfl⟩ := List.append_of_mem mem
  obtain ⟨t, earlier, later⟩ := run.of_append
  obtain ⟨u, step, -⟩ := later.of_cons
  exact Nat.lt_of_le_of_lt (buf_run earlier) ((buf_step step).2 needed refused).1

/-- Only a queue error leaves the loop. -/
theorem running_step {s s' : Drain δ} {e : Reading} (step : Step frames decode idle s e s') :
    s'.running = false ↔ ∃ detail, e.outcome = .failed detail := by
  cases step with
  | @pass outcome next source p running reads passed =>
      have goesOn := Source.goesOn_pass s.source idle (fun bytes => (decode s.decoder bytes).2)
        outcome
      rw [passed] at goesOn
      refine goesOn.trans ⟨fun left => ?_, .inl⟩
      rcases left with failed | ⟨n, buf, rfl, beyond⟩
      · exact failed
      · cases reads with
        | frame length fits _ => omega

/-- The pass that reads a frame into `buf`. -/
theorem Step.frame {s : Drain δ} (buf : List UInt8) (running : s.running = true)
    (length : buf.length = s.source.buf.length)
    (fits : (frames s.pos).length ≤ s.source.buf.length)
    (bytes : buf.take (frames s.pos).length = frames s.pos) :
    Step frames decode idle s
      ⟨s.pos, .frame (frames s.pos).length buf, s.pos + 1,
        .decoded (frames s.pos) (decode s.decoder (frames s.pos)).2⟩
      { source :=
          { buf
            idlePolls := 0
            undecodable :=
              if (decode s.decoder (frames s.pos)).2.isSome then s.source.undecodable
              else s.source.undecodable + 1 }
        pos := s.pos + 1
        decoder := (decode s.decoder (frames s.pos)).1
        running := true } := by
  refine .pass running (.frame length fits bytes) ?_
  rw [← length] at fits
  simp only [Source.pass, fits, ↓reduceIte, bytes]
  cases (decode s.decoder (frames s.pos)).2 <;> rfl

/-- The next frame of the queue, of whatever size, is at most two passes away from the decoder: one
to enlarge the buffer, if it has to be, and one to read the frame. -/
theorem decodes_next (frames : Nat → List UInt8) (decode : δ → List UInt8 → δ × Option Decoded)
    (idle : Idle) {s : Drain δ} (running : s.running = true) :
    ∃ passes s', Run (Step frames decode idle) s passes s' ∧ passes.length ≤ 2 ∧
      passes.filterMap Reading.decoded? = [frames s.pos] ∧ passes.flatMap Reading.lost = [] ∧
      s'.pos = s.pos + 1 ∧ s'.running = true := by
  have length : ∀ {bytes buf : List UInt8}, bytes.length ≤ buf.length →
      (bytes ++ buf.drop bytes.length).length = buf.length := by
    intro bytes buf fits
    rw [List.length_append, List.length_drop]
    omega
  rcases Nat.lt_or_ge s.source.buf.length (frames s.pos).length with short | fits
  · obtain ⟨t, refused⟩ : ∃ t, Step frames decode idle s
        ⟨s.pos, .bufferTooSmall (frames s.pos).length, s.pos, .resize⟩ t :=
      ⟨_, .pass running (.bufferTooSmall short) rfl⟩
    have enlarged := ((buf_step refused).2 _ rfl).2
    have goesOn : t.running = true := by
      rw [← Bool.not_eq_false, running_step refused]
      simp
    have stays : s.pos = t.pos := (step_cases refused).2.1
    have fits : (frames t.pos).length ≤ t.source.buf.length := by rw [← stays, enlarged]
    refine ⟨_, _, .cons refused (.single (.frame _ goesOn (length fits) fits List.take_left)),
      Nat.le_refl _, ?_, rfl, by rw [stays], rfl⟩
    rw [stays]
    rfl
  · exact ⟨_, _, .single (.frame _ running (length fits) fits List.take_left), Nat.le_succ 1, rfl,
      rfl, rfl, rfl⟩

/-- **The source loses and repeats nothing of its own.**  In every run of the loop, for every queue,
every decoder and every sequence of outcomes the consumer may return: the decoder is given each
frame that was not lost to an overrun once, in queue order and with its own bytes; what is published
is what it returned, in that order; every overrun makes one call of `resync_all` and nothing else
makes one; and that call comes after the publishes of the frames before the overrun and before the
publishes of the frames behind it.  The buffer never gets shorter, and a read that was refused finds
all it asked for from then on, so that the next frame is never more than two passes away; nothing
but a queue error ends the loop. -/
theorem exact_run (frames : Nat → List UInt8) (decode : δ → List UInt8 → δ × Option Decoded)
    (idle : Idle) (first : Nat) (d : δ) (es : List Reading) (s : Drain δ)
    (run : Run (Step frames decode idle) { pos := first, decoder := d } es s) :
    es.filterMap Reading.decoded? =
      ((List.range' first (s.pos - first)).filter (· ∉ es.flatMap Reading.lost)).map frames ∧
    es.filterMap Reading.published? =
      (answers decode d (es.filterMap Reading.decoded?)).reduceOption ∧
    (∀ e ∈ es, e.pass ≠ .panic ∧ e.call? =
      if e.isOverrun then some .resyncAll
      else e.published?.map fun d => .publish d.channel (.data d.channel d.payload)) ∧
    (∀ before e after, es = before ++ e :: after → e.isOverrun = true →
      es.filterMap Reading.call? =
        before.filterMap Reading.call? ++ .resyncAll :: after.filterMap Reading.call? ∧
      before.filterMap Reading.decoded? =
        ((List.range' first (e.pos - first)).filter
          (· ∉ before.flatMap Reading.lost)).map frames ∧
      e.pos < e.next ∧
      after.filterMap Reading.decoded? =
        ((List.range' e.next (s.pos - e.next)).filter
          (· ∉ after.flatMap Reading.lost)).map frames) ∧
    (∀ before e after, es = before ++ e :: after →
      ∃ t u, Run (Step frames decode idle) { pos := first, decoder := d } before t ∧
        Step frames decode idle t e u ∧ Run (Step frames decode idle) u after s ∧
        64 * 1024 ≤ t.source.buf.length ∧ t.source.buf.length ≤ u.source.buf.length ∧
        u.source.buf.length ≤ s.source.buf.length ∧
        ∀ needed, e.outcome = .bufferTooSmall needed →
          u.source.buf.length = needed ∧
          ∀ e' ∈ after, ∀ n, e'.outcome = .bufferTooSmall n → needed < n) ∧
    (s.running = true → ∃ passes s', Run (Step frames decode idle) s passes s' ∧
      passes.length ≤ 2 ∧ passes.filterMap Reading.decoded? = [frames s.pos] ∧
      passes.flatMap Reading.lost = [] ∧ s'.pos = s.pos + 1 ∧ s'.running = true) ∧
    (s.running = false → ∃ before e detail, es = before ++ [e] ∧ e.outcome = .failed detail) := by
  refine ⟨decoded_run run, published_run run, fun e mem => ?_, ?_, ?_,
    decodes_next frames decode idle, fun ended => ?_⟩
  · obtain ⟨before, after, rfl⟩ := List.append_of_mem mem
    obtain ⟨t, -, later⟩ := run.of_append
    obtain ⟨u, step, -⟩ := later.of_cons
    exact call_step step
  · intro before e after split overrun
    subst split
    obtain ⟨t, earlier, rest⟩ := run.of_append
    obtain ⟨u, step, later⟩ := rest.of_cons
    obtain ⟨pos, next, passed⟩ := step_cases step
    have call := (call_step step).2
    rw [overrun, if_pos rfl] at call
    have beforehand := decoded_run earlier
    have afterwards := decoded_run later
    rw [← pos] at beforehand
    rw [← next] at afterwards
    refine ⟨?_, beforehand, ?_, afterwards⟩
    · rw [List.filterMap_append, List.filterMap_cons, call]
    · cases passed with
      | resynced _ _ moved _ => omega
      | decoded _ kept _ _ | idle _ _ _ _ kept _ _ =>
          rw [overrun] at kept
          cases kept
  · intro before e after split
    subst split
    obtain ⟨t, earlier, rest⟩ := run.of_append
    obtain ⟨u, step, later⟩ := rest.of_cons
    have begun : 64 * 1024 ≤ t.source.buf.length := by
      refine Nat.le_trans ?_ (buf_run earlier)
      exact List.length_replicate.ge
    refine ⟨t, u, earlier, step, later, begun, (buf_step step).1, buf_run later, ?_⟩
    intro needed refused
    have enlarged := ((buf_step step).2 needed refused).2
    refine ⟨enlarged, fun e' mem n again => ?_⟩
    rw [← enlarged]
    exact needed_run later mem again
  · rcases es.eq_nil_or_concat' with rfl | ⟨before, e, rfl⟩
    · obtain rfl := run.eq_of_nil
      cases ended
    · obtain ⟨t, -, rest⟩ := run.of_append
      obtain ⟨u, step, last⟩ := rest.of_cons
      obtain rfl := last.eq_of_nil
      obtain ⟨detail, failed⟩ := (running_step step).mp ended
      exact ⟨before, e, detail, rfl, failed⟩

/-- A queue whose third frame has `n` bytes and all the others one. -/
def sizes (n : Nat) : Nat → List UInt8
  | 2 => List.replicate n 2
  | k => [UInt8.ofNat k]

/-- A decoder that counts the frames it is given and rejects those that start with a zero. -/
def counting (n : Nat) (bytes : List UInt8) : Nat × Option Decoded :=
  (n + 1, if bytes.head? = some 0 then none else some ⟨"x", ⟨"1"⟩⟩)

/-- The decoder rejects the first frame, the second is lost to an overrun, the third needs a larger
buffer, and the fourth is read into what the third has left there. -/
theorem run_sizes {n : Nat} (large : Source.new.buf.length < n) :
    ∃ es s, Run (Step (sizes n) counting .spin) { pos := 0, decoder := 0 } es s ∧
      es.map Reading.outcome =
        [.frame 1 Source.new.buf, .overrun 1, .bufferTooSmall n, .frame n (List.replicate n 2),
          .frame 1 (3 :: List.replicate (n - 1) 2)] ∧
      es.flatMap Reading.lost = [1] ∧ s.pos = 4 := by
  have start : Source.new.buf.length = 65536 := List.length_replicate
  obtain ⟨m, rfl⟩ : ∃ m, n = m + 1 := ⟨n - 1, by omega⟩
  have size : (sizes (m + 1) 2).length = m + 1 := List.length_replicate
  have longer := Source.length_resize Source.new.buf large
  have one : ∀ k, k ≠ 2 → (sizes (m + 1) k).length = 1 := by
    intro k other
    rw [sizes]
    · rfl
    · exact other
  have first : Step (sizes (m + 1)) counting .spin { pos := 0, decoder := 0 } _ _ :=
    .frame Source.new.buf rfl rfl (by rw [start, one 0 (by decide)]; decide) rfl
  have third : Step (sizes (m + 1)) counting .spin
      { source := ⟨Source.resize Source.new.buf (m + 1), 0, 1⟩, pos := 2, decoder := 1 } _ _ :=
    .frame (List.replicate (m + 1) 2) rfl (by rw [longer, List.length_replicate])
      (by rw [size, longer]) (by rw [size, List.take_replicate, Nat.min_self]; rfl)
  have fourth : Step (sizes (m + 1)) counting .spin
      { source := ⟨List.replicate (m + 1) 2, 0, 1⟩, pos := 3, decoder := 2 } _ _ :=
    .frame (3 :: List.replicate m 2) rfl
      (by rw [List.length_cons, List.length_replicate, List.length_replicate])
      (by rw [one 3 (by decide), List.length_replicate]; omega) rfl
  refine ⟨_, _, .cons first <| .cons (.pass rfl (.overrun 1 (Nat.lt_succ_self 1)) rfl) <|
    .cons (.pass rfl (.bufferTooSmall large) rfl) <| .cons third <| .single fourth, ?_, rfl, rfl⟩
  simp only [List.map_cons, List.map_nil, size]
  rfl

/-- A source reads a frame of 70000 bytes, for which its buffer is too small at first, between
smaller ones. -/
theorem exact_run_sizes :
    ∃ es s, Run (Step (sizes 70000) counting .spin) { pos := 0, decoder := 0 } es s ∧
      es.map Reading.outcome =
        [.frame 1 Source.new.buf, .overrun 1, .bufferTooSmall 70000,
          .frame 70000 (List.replicate 70000 2), .frame 1 (3 :: List.replicate 69999 2)] ∧
      es.flatMap Reading.lost = [1] ∧
      es.filterMap Reading.decoded? = [[0], List.replicate 70000 2, [3]] ∧
      es.filterMap Reading.published? = [⟨"x", ⟨"1"⟩⟩, ⟨"x", ⟨"1"⟩⟩] ∧
      70000 ≤ s.source.buf.length := by
  have large : Source.new.buf.length < 70000 := by
    rw [show Source.new.buf.length = 65536 from List.length_replicate]
    decide
  obtain ⟨es, s, run, outcomes, lost, pos⟩ := run_sizes large
  obtain ⟨decoded, published, -, -, buffers, -⟩ := exact_run _ _ _ _ _ _ _ run
  rw [lost, pos] at decoded
  have given : es.filterMap Reading.decoded? = [[0], List.replicate 70000 2, [3]] := decoded
  rw [given] at published
  have listed : .bufferTooSmall 70000 ∈ es.map Reading.outcome := by
    rw [outcomes]
    exact .tail _ (.tail _ (.head _))
  obtain ⟨e, mem, refused⟩ := List.mem_map.mp listed
  obtain ⟨before, after, split⟩ := List.append_of_mem mem
  obtain ⟨t, u, -, -, -, -, -, kept, asked⟩ := buffers before e after split
  obtain ⟨enlarged, -⟩ := asked 70000 refused
  exact ⟨es, s, run, outcomes, lost, given, published, enlarged ▸ kept⟩

end Drain

end WsFanout
