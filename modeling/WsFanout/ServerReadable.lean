import WsFanout.ServerStream
import WsFanout.Wire

/-!
# What a client reads off its socket

The frames of the server are texts, and a client knows them only through `docs/protocol.md`.  Every
frame that a task has written, has in hand or has queued was made by the server itself, from the
payload of a publish or from a snapshot: `Turn.frames_cases` is the step of this and
`World.readable_run` the result for whole runs.  A payload is a `RawValue`, so it holds the text of
one JSON value, and then a client recovers the messages from the texts on its socket.
-/

namespace WsFanout

open Lib

variable {σ : Type} {shared : Shared σ}

/-! ## The frames a task holds -/

/-- The frames about to be enqueued about a message. -/
def Handling.frames : Handling → List ServerMessage
  | ack added rejected => [.subscribed added rejected]
  | snapshot ch payload _ => [.snapshot ch payload]
  | reply frame => [frame]
  | _ => []

/-- The frames a session has in hand. -/
def Session.frames : Session → List ServerMessage
  | handling h => h.frames
  | stage => stage.inflight

def Phase.frames : Phase → List ServerMessage
  | session _ _ stage => stage.frames
  | _ => []

def Receiver.frames : Receiver → List ServerMessage
  | detached buffer => buffer
  | _ => []

/-- The frames a task has written, has in hand, or has left on a queue that lost its entry. -/
def Task.frames (t : Task) : List ServerMessage :=
  t.texts ++ t.phase.frames ++ t.rx.frames

/-- A frame the server makes of its own: no data, and a snapshot only as the source gives it. -/
def ServerMessage.Made (shared : Shared σ) (source : σ) : ServerMessage → Prop
  | data _ _ => False
  | snapshot ch payload => shared.snapshot source ch = some payload
  | _ => True

theorem Task.mem_frames {t : Task} {frame : ServerMessage} :
    frame ∈ t.frames ↔ frame ∈ t.texts ∨ frame ∈ t.phase.frames ∨ frame ∈ t.rx.frames := by
  rw [frames, List.mem_append, List.mem_append, or_assoc]

/-- The frames of `handle` are made by the server, or were in hand. -/
theorem Handling.frames_step (id : ConnectionId) (claims : Claims) (source : σ)
    (r : Registry ServerMessage) (h : Handling) {frame : ServerMessage}
    (mem : frame ∈ (h.step shared id claims source r).2.frames) : frame.Made shared source := by
  cases h with
  | start text =>
      simp only [step] at mem
      cases parsed : shared.fromStr text with
      | error e =>
          rw [parsed] at mem
          rw [List.mem_singleton.mp mem]
          trivial
      | ok message =>
          rw [parsed] at mem
          cases message <;>
            · rw [List.mem_singleton.mp mem]
              trivial
  | snapshots rest =>
      cases rest with
      | nil => cases mem
      | cons ch rest =>
          simp only [step] at mem
          cases given : shared.snapshot source ch with
          | none =>
              rw [given] at mem
              cases mem
          | some payload =>
              rw [given] at mem
              rw [List.mem_singleton.mp mem]
              exact given
  | ack _ _ | snapshot _ _ _ | reply _ | done => cases mem

/-- The branch of an inbound message has an error in hand, if anything. -/
theorem Session.frames_inbound {message : Inbound} {next : Session} {source : σ}
    {frame : ServerMessage} (branch : Session.inbound message = some next)
    (mem : frame ∈ next.frames) : frame.Made shared source := by
  cases message with
  | binary =>
      cases branch
      rw [List.mem_singleton.mp mem]
      trivial
  | text _ | ping _ | pong | frame =>
      cases branch
      cases mem
  | close | failed _ | ended => cases branch

/-- What a write attempts is in hand. -/
theorem Session.mem_of_attempted {message : Outbound} (reached : Bool) {frame : ServerMessage}
    (mem : frame ∈ (attempted message reached).filterMap Outbound.text?) :
    frame ∈ (Session.writing message).frames := by
  obtain ⟨m, written, isText⟩ := List.mem_filterMap.mp mem
  cases reached with
  | false => cases written
  | true =>
      obtain rfl := List.mem_singleton.mp written
      exact Option.mem_toList.mpr isText

namespace Turn

variable {r : Registry ServerMessage} {source : σ} {t t' : Task} {e : Effect}
  {frame : ServerMessage}

/-- What a turn writes was in hand, or is the refusal or the acknowledgement. -/
theorem texts_cases (turn : Turn shared r source t e t') (mem : frame ∈ t'.texts) :
    frame ∈ t.texts ∨ frame ∈ t.phase.frames ∨ frame.Made shared source := by
  cases turn with
  | @write id claims message phase =>
      rw [Task.texts_write, List.mem_append] at mem
      rw [phase]
      exact mem.imp_right fun new => .inl (Session.mem_of_attempted true new)
  | @notWritten id claims message reached phase =>
      rw [Task.texts_write, List.mem_append] at mem
      rw [phase]
      exact mem.imp_right fun new => .inl (Session.mem_of_attempted reached new)
  | acknowledge phase =>
      rw [Task.texts_write, List.mem_append] at mem
      refine mem.imp_right fun new => .inr ?_
      rw [List.mem_singleton.mp new]
      trivial
  | refuse reached phase | notAcknowledged reached phase =>
      rw [Task.texts_write, List.mem_append] at mem
      refine mem.imp_right fun new => .inr ?_
      cases reached with
      | false => cases new
      | true =>
          rw [List.mem_singleton.mp new]
          trivial
  | _ => exact .inl mem

/-- What a turn takes in hand was queued, or is made by the server. -/
theorem hand_cases (turn : Turn shared r source t e t') (mem : frame ∈ t'.phase.frames) :
    (∃ id, frame ∈ r.queueOf id) ∨ frame ∈ t.rx.frames ∨ frame.Made shared source := by
  cases turn with
  | recv _ _ taken =>
      rw [List.mem_singleton.mp mem]
      exact .inl ⟨_, Registry.mem_queueOf_of_taken taken⟩
  | drain _ held =>
      rw [List.mem_singleton.mp mem, held]
      exact .inr (.inl List.mem_cons_self)
  | inbound _ _ branch => exact .inr (.inr (Session.frames_inbound branch mem))
  | handle _ _ => exact .inr (.inr (Handling.frames_step _ _ _ _ _ mem))
  | upgraded _ | notUpgraded _ | authorised _ _ _ | refused _ _ _ | validatorPanic _ _ _ _
  | refuse _ _ | closed _ | acknowledge _ | notAcknowledged _ _ | channelPanic _ _ | join _ _
  | timerPanic _ _ | start _ _ | drained _ _ | inboundEnd _ _ _ | tick _ | timeout _ | write _
  | notWritten _ _ | handlePanic _ _ | handled _ | fastEnough _ _ | tooSlow _ _ | sinkClosed _
  | dropReceiver _ | unregister _ | release _ => cases mem

/-- A turn leaves nothing new on a queue that lost its entry. -/
theorem rx_cases (turn : Turn shared r source t e t') (mem : frame ∈ t'.rx.frames) :
    frame ∈ t.rx.frames := by
  cases turn with
  | drain _ held =>
      rw [held]
      exact List.mem_cons_of_mem _ mem
  | join _ _ | dropReceiver _ => cases mem
  | _ => exact mem

/-- Where the frames of a task come from: it had them before, they were queued, or the server made
them. -/
theorem frames_cases (turn : Turn shared r source t e t') (mem : frame ∈ t'.frames) :
    frame ∈ t.frames ∨ (∃ id, frame ∈ r.queueOf id) ∨ frame.Made shared source := by
  rw [Task.mem_frames] at mem ⊢
  rcases mem with written | hand | left
  · rcases turn.texts_cases written with old | hand | made
    · exact .inl (.inl old)
    · exact .inl (.inr (.inl hand))
    · exact .inr (.inr made)
  · rcases turn.hand_cases hand with queued | left | made
    · exact .inr (.inl queued)
    · exact .inl (.inr (.inr left))
    · exact .inr (.inr made)
  · exact .inl (.inr (.inr (turn.rx_cases left)))

end Turn

/-- Losing its entry leaves a task the frames that were queued. -/
theorem Effect.frames_bystander {r : Registry ServerMessage} {e : Effect} {t : Task}
    {frame : ServerMessage} (mem : frame ∈ (e.bystander r t).frames) :
    frame ∈ t.frames ∨ ∃ id, frame ∈ r.queueOf id := by
  have detached : ∀ id, frame ∈ (t.detach id (r.queueOf id)).frames →
      frame ∈ t.frames ∨ ∃ id, frame ∈ r.queueOf id := by
    intro id mem
    unfold Task.detach at mem
    split at mem
    · rw [Task.mem_frames] at mem ⊢
      rcases mem with written | hand | left
      · exact .inl (.inl written)
      · exact .inl (.inr (.inl hand))
      · exact .inr ⟨id, left⟩
    · exact .inl mem
  cases e with
  | join _ _ | unregister _ => exact detached _ mem
  | quiet | call _ | release | timeout => exact .inl mem

namespace World

variable {w w' : World σ} {a : Action}

/-- The frames anywhere in the server: on the queues, and with the tasks. -/
def Holds (w : World σ) (frame : ServerMessage) : Prop :=
  (∃ id, frame ∈ w.registry.queueOf id) ∨ ∃ (i : Nat) (t : Task), w.tasks[i]? = some t ∧
    frame ∈ t.frames

/-- Where a frame comes from: it was there, it is published, or the server made it. -/
theorem Step.holds_cases (step : Step shared w a w') {frame : ServerMessage}
    (holds : w'.Holds frame) :
    w.Holds frame ∨ (∃ channel payload, a = .publish channel payload ∧
      frame = .data channel payload) ∨ frame.Made shared w.source := by
  rcases holds with ⟨id, queued⟩ | ⟨i, t', found', mem⟩
  · rw [step.registry_eq] at queued
    cases called : a.op? with
    | none =>
        rw [called] at queued
        exact .inl (.inl ⟨id, queued⟩)
    | some op =>
        rw [called] at queued
        rcases Registry.mem_queueOf_step w.registry op queued with old | carries
        · exact .inl (.inl ⟨id, old⟩)
        cases step with
        | @act i t t' e found turn =>
            obtain ⟨_, _, h, phase, calls⟩ := turn.delivers called carries
            refine .inl (.inr ⟨i, t, found, ?_⟩)
            rw [Task.mem_frames, phase]
            refine .inr (.inl ?_)
            cases h with
            | start text =>
                simp only [Handling.op?] at calls
                split at calls <;> cases calls <;> cases carries
            | ack _ _ | snapshot _ _ _ | reply _ =>
                cases calls
                cases carries
                exact List.mem_singleton.mpr rfl
            | snapshots _ | done => cases calls
        | publish channel payload =>
            cases called
            cases carries
            exact .inr (.inl ⟨channel, payload, rfl, rfl⟩)
        | resync _ _ _ | resyncAll =>
            cases called
            cases carries
            exact .inr (.inr trivial)
        | accept _ | refuse _ | update _ => cases called
  · rcases step.task_cases found' with ⟨t, e, -, found, turn⟩ | ⟨t, found, -, same⟩ | ⟨-, -, rfl⟩
    · rcases turn.frames_cases mem with old | queued | made
      · exact .inl (.inr ⟨i, t, found, old⟩)
      · exact .inl (.inl queued)
      · exact .inr (.inr made)
    · rcases same with rfl | ⟨_, e, -, rfl⟩
      · exact .inl (.inr ⟨i, _, found, mem⟩)
      · rcases Effect.frames_bystander mem with old | queued
        · exact .inl (.inr ⟨i, t, found, old⟩)
        · exact .inl (.inl queued)
    · cases mem

end World

/-! ## Reading the frames -/

/-- What the snapshot source gives are the texts of JSON values. -/
def Shared.Genuine (shared : Shared σ) (source : σ) : Prop :=
  ∀ ch payload, shared.snapshot source ch = some payload → Json.Value payload.get.toList

/-- A frame of the server's own is well-formed when the snapshots are. -/
theorem ServerMessage.Made.wellFormed {source : σ} {frame : ServerMessage}
    (made : frame.Made shared source) (genuine : shared.Genuine source) :
    frame.toWire.WellFormed := by
  cases frame with
  | data _ _ => exact made.elim
  | snapshot ch payload => exact genuine ch payload made
  | authenticated _ | subscribed _ _ | unsubscribed _ | resync _ | pong _ | error _ _ => trivial

/-- Two sequences of messages with the same texts are the same. -/
theorem ServerMessage.eq_of_frames_eq {ms others : List ServerMessage}
    (wellFormed : ∀ m ∈ ms, m.toWire.WellFormed) (wellFormed' : ∀ m ∈ others, m.toWire.WellFormed)
    (same : others.map toFrame = ms.map toFrame) : others = ms := by
  induction ms generalizing others with
  | nil => exact List.map_eq_nil_iff.mp same
  | cons m ms ih =>
      obtain ⟨other, rest, rfl, first, later⟩ := List.map_eq_cons_iff.mp same
      obtain ⟨here, there⟩ := List.forall_mem_cons.mp wellFormed
      obtain ⟨here', there'⟩ := List.forall_mem_cons.mp wellFormed'
      rw [eq_of_toFrame_eq here here' first, ih there there' later]

namespace World

/-- A step at which every `RawValue` holds what it holds by its type, the text of a JSON value. -/
def StepGenuine (shared : Shared σ) (w : World σ) (a : Action) (w' : World σ) : Prop :=
  Step shared w a w' ∧ shared.Genuine w.source ∧
    ∀ channel payload, a = .publish channel payload → Json.Value payload.get.toList

/-- In such a run every text frame on a socket was made from a well-formed message. -/
theorem texts_wellFormed {source : σ} {as : List Action}
    (run : Run (StepGenuine shared) (start shared source) as w) {i : Nat} {t : Task}
    (found : w.tasks[i]? = some t) : ∀ frame ∈ t.texts, frame.toWire.WellFormed := by
  have wellFormed : ∀ frame, w.Holds frame → frame.toWire.WellFormed := by
    refine run.invariant (I := fun w => ∀ frame, w.Holds frame → frame.toWire.WellFormed) ?_ ?_
    · intro w a w' inv step frame holds
      obtain ⟨step, genuine, published⟩ := step
      rcases step.holds_cases holds with old | ⟨channel, payload, same, rfl⟩ | made
      · exact inv frame old
      · exact published channel payload same
      · exact made.wellFormed genuine
    · rintro frame (⟨id, queued⟩ | ⟨i, t, there, -⟩)
      · simp [start, Registry.queueOf, Registry.new] at queued
      · simp [start] at there
  intro frame mem
  exact wellFormed frame (.inr ⟨i, t, found, Task.mem_frames.mpr (.inl mem)⟩)

/-- **A client can read its socket.**  In every run of the server in which what is published and
what the snapshot source gives are JSON values, which is what a `RawValue` holds: each text frame
on a socket decodes to the message it was made from, and no other sequence of messages has the
same texts.  So a client that reads its socket by the protocol knows what it was sent. -/
theorem readable_run (shared : Shared σ) (source : σ) (as : List Action) (w : World σ)
    (run : Run (StepGenuine shared) (start shared source) as w) (i : Nat) (t : Task)
    (found : w.tasks[i]? = some t) :
    (t.texts.map ServerMessage.toFrame).map Wire.decode =
      t.texts.map (fun frame => some frame.toWire) ∧
    ∀ others : List ServerMessage, (∀ frame ∈ others, frame.toWire.WellFormed) →
      others.map ServerMessage.toFrame = t.texts.map ServerMessage.toFrame → others = t.texts := by
  have written := texts_wellFormed run found
  refine ⟨?_, fun others wellFormed' same =>
    ServerMessage.eq_of_frames_eq written wellFormed' same⟩
  rw [List.map_map]
  refine List.map_congr_left fun frame mem => ?_
  exact Wire.Message.decode_toFrame (written frame mem)

/-- While nobody writes to the snapshot source, it stays as it is. -/
theorem genuine_run {R : World σ → Action → World σ → Prop} {as : List Action}
    (steps : ∀ {w a w'}, R w a w' → Step shared w a w') (run : Run R w as w')
    (untouched : .update ∉ as) (genuine : shared.Genuine w.source)
    (published : ∀ channel payload, .publish channel payload ∈ as →
      Json.Value payload.get.toList) :
    Run (fun w a w' => R w a w' ∧ StepGenuine shared w a w') w as w' := by
  induction run with
  | nil => exact .nil _
  | @cons w u w' a as step rest ih =>
      rw [List.mem_cons, not_or] at untouched
      obtain ⟨other, later⟩ := untouched
      have same : u.source = w.source := by
        cases steps step with
        | @act i t t' e found turn => cases e <;> rfl
        | accept _ | refuse _ | publish _ _ | resync _ _ _ | resyncAll => rfl
        | update _ => exact absurd rfl other
      refine .cons ⟨step, steps step, genuine, ?_⟩ (ih later (same ▸ genuine)
        fun channel payload listed => published channel payload (List.mem_cons_of_mem _ listed))
      rintro channel payload rfl
      exact published channel payload List.mem_cons_self

/-- The client of `guarded` that is written its acknowledgements can read them. -/
theorem readable_run_subscribed :
    Run (StepGenuine guarded) (start guarded LastValue.new)
        (connecting 0 (Claims.new "alice") 256 ++ asking ++ streaming) streamed ∧
      [ServerMessage.authenticated "alice", .subscribed ["x"] []].map
          (fun frame => Wire.decode frame.toFrame) =
        [some (.authenticated "alice"), some (.subscribed ["x"] [])] := by
  have genuine : ∀ channel payload, .publish channel payload ∈
      connecting 0 (Claims.new "alice") 256 ++ asking ++ streaming →
      Json.Value payload.get.toList := by
    intro channel payload listed
    have one : channel = "x" ∧ payload = ⟨"1"⟩ := by
      simpa [connecting, asking, streaming] using listed
    rw [one.2]
    exact Json.value_decimal 1
  have both := genuine_run (fun step => step) (run_answered.append run_streaming) (by decide)
    (fun ch payload given => by cases given) genuine
  have run := both.mono fun step => step.2
  refine ⟨run, ?_⟩
  exact (readable_run guarded LastValue.new _ _ run 0 _ rfl).1

end World

end WsFanout
