import WsFanout.ServerReplies

/-!
# Publishing while a connection unsubscribes

A publish holds the registry's read lock over its whole fan-out, and its deliveries are steps of
their own: any number of publishes may be part of the way through their subscribers.  Calls that
change the index take the write lock, and wait until no publish is under way.  `Unsubscribing.Step`
is one connection's handling of its messages among such publishes and the calls of others.

`Unsubscribing.Quiet` is what the lock buys: the connection is not listed under a channel, and no
publish of that channel still has it ahead.  It holds from the call of `unsubscribe` on, so the
acknowledgement that follows is final.
-/

namespace WsFanout

open Lib

variable {σ : Type}

/-- The call takes the write lock. -/
def Op.writes {F : Type} : Op F → Bool
  | .add _ _ => true
  | .remove _ => true
  | .subscribe _ _ _ => true
  | .unsubscribe _ _ => true
  | _ => false

/-- A publish under way, with the connections it has yet to visit. -/
structure FanOut where
  channel : String
  payload : RawValue
  rest : Finset ConnectionId
  deriving DecidableEq

/-- The frame it delivers. -/
def FanOut.frame (f : FanOut) : ServerMessage :=
  .data f.channel f.payload

/-- The registry, how far the connection's task has come with its message, and the publishes under
way, each of which holds the read lock. -/
structure Unsubscribing where
  registry : Registry ServerMessage
  handling : Handling
  fanOuts : List FanOut

namespace Unsubscribing

/-- Whose turn it is: the client sends a message, the connection's task takes it one step further,
a thread begins to publish, visits one of its subscribers or is done, or another call is made. -/
inductive Action where
  | message (message : Inbound)
  | handle
  | begin (channel : String) (payload : RawValue)
  | deliver (k : Nat) (visited : ConnectionId)
  | finish (k : Nat)
  | other (op : Op ServerMessage)
  deriving DecidableEq, Repr

/-- One step.  What others call is not for this connection, its own receiver's taking of a frame
apart, and delivers no `data`. -/
inductive Step (shared : Shared σ) (id : ConnectionId) (claims : Claims) :
    Unsubscribing → Action → Unsubscribing → Prop
  | message {s : Unsubscribing} {h : Handling} (message : Inbound) (idle : s.handling = .done)
      (branch : Session.inbound message = some (.handling h)) :
      Step shared id claims s (.message message) { s with handling := h }
  | handle {s : Unsubscribing} (source : σ)
      (lock : ∀ op, s.handling.op? shared id claims = some op → op.writes = true →
        s.fanOuts = []) :
      Step shared id claims s .handle
        { s with
          registry := (s.handling.step shared id claims source s.registry).1
          handling := (s.handling.step shared id claims source s.registry).2 }
  | begin {s : Unsubscribing} (channel : String) (payload : RawValue) :
      Step shared id claims s (.begin channel payload)
        { s with
          fanOuts := s.fanOuts ++ [⟨channel, payload, s.registry.byChannel.members channel⟩] }
  | deliver {s : Unsubscribing} {k : Nat} {f : FanOut} {visited : ConnectionId}
      (found : s.fanOuts[k]? = some f) (ahead : visited ∈ f.rest) :
      Step shared id claims s (.deliver k visited)
        { s with
          registry := (Registry.deliverTo f.frame (s.registry, 0) visited).1
          fanOuts := s.fanOuts.set k { f with rest := f.rest.erase visited } }
  | finish {s : Unsubscribing} {k : Nat} {f : FanOut} (found : s.fanOuts[k]? = some f)
      (empty : f.rest = ∅) :
      Step shared id claims s (.finish k) { s with fanOuts := s.fanOuts.eraseIdx k }
  | other {s : Unsubscribing} (op : Op ServerMessage)
      (foreign : s.registry.Spares id op ∨ op = .recv id)
      (notData : ∀ channel payload, op.frame? ≠ some (.data channel payload))
      (lock : op.writes = true → s.fanOuts = []) :
      Step shared id claims s (.other op) { s with registry := (s.registry.step op).1 }

/-- The connection is not listed under `ch`, and no publish of `ch` under way has it ahead. -/
def Quiet (id : ConnectionId) (ch : String) (s : Unsubscribing) : Prop :=
  id ∉ s.registry.byChannel.members ch ∧ ∀ f ∈ s.fanOuts, f.channel = ch → id ∉ f.rest

/-- The action is a call of `subscribe` for the connection that adds `ch`. -/
def Adds (shared : Shared σ) (id : ConnectionId) (claims : Claims) (ch : String)
    (s : Unsubscribing) : Action → Prop
  | .handle => ∃ text channels, s.handling = .start text ∧
    shared.fromStr text = .ok (.subscribe channels) ∧
    ch ∈ shared.newlyAdded claims s.registry id channels
  | _ => False

variable {shared : Shared σ} {id : ConnectionId} {claims : Claims} {s s' : Unsubscribing}
  {a : Action} {ch : String}

/-- Visiting one subscriber is a send to it. -/
theorem deliverTo_eq_send (r : Registry ServerMessage) (frame : ServerMessage)
    (visited : ConnectionId) :
    (Registry.deliverTo frame (r, 0) visited).1 = (r.step (.send visited frame)).1 :=
  (Registry.send_eq r visited frame).1.symm

/-- Handling a message lists the connection under no channel but the ones it adds. -/
theorem members_handle {r : Registry ServerMessage} {h : Handling} (source : σ)
    (listed : id ∈ (h.step shared id claims source r).1.byChannel.members ch) :
    id ∈ r.byChannel.members ch ∨ ∃ text channels, h = .start text ∧
      shared.fromStr text = .ok (.subscribe channels) ∧
      ch ∈ shared.newlyAdded claims r id channels := by
  rw [Handling.step_fst] at listed
  have sends : ∀ frame : ServerMessage, id ∈ (r.step (.send id frame)).1.byChannel.members ch →
      id ∈ r.byChannel.members ch := by
    intro frame member
    rwa [(r.deliver_spec (.send id frame) rfl id).2.1] at member
  cases h with
  | start text =>
      simp only [Handling.op?] at listed
      cases parsed : shared.fromStr text with
      | error e =>
          rw [parsed] at listed
          exact .inl listed
      | ok message =>
          rw [parsed] at listed
          cases message with
          | subscribe channels =>
              rcases Registry.listed_of_subscribe listed with old | ⟨-, added⟩
              · exact .inl old
              · exact .inr ⟨text, channels, rfl, parsed, added⟩
          | unsubscribe channels => exact .inl (Registry.listed_of_unsubscribe listed).1
          | auth _ | ping _ => exact .inl listed
  | ack _ _ | snapshot _ _ _ | reply _ => exact .inl (sends _ listed)
  | snapshots _ | done => exact .inl listed

/-- Until the connection adds the channel again, it stays quiet. -/
theorem Quiet.step (quiet : Quiet id ch s) (step : Step shared id claims s a s')
    (notAdded : ¬ Adds shared id claims ch s a) : Quiet id ch s' := by
  obtain ⟨unlisted, passed⟩ := quiet
  cases step with
  | message message idle branch => exact ⟨unlisted, passed⟩
  | handle source lock =>
      refine ⟨fun listed => ?_, passed⟩
      rcases members_handle source listed with old | added
      · exact unlisted old
      · exact notAdded added
  | begin channel payload =>
      refine ⟨unlisted, fun f listed same => ?_⟩
      rcases List.mem_append.mp listed with old | new
      · exact passed f old same
      · rw [List.mem_singleton.mp new] at same ⊢
        subst same
        exact unlisted
  | @deliver k f visited found ahead =>
      refine ⟨?_, fun g listed same => ?_⟩
      · rw [deliverTo_eq_send, (s.registry.deliver_spec _ rfl id).2.1]
        exact unlisted
      · rcases List.mem_or_eq_of_mem_set listed with old | rfl
        · exact passed g old same
        · exact fun still => passed f (List.mem_of_getElem? found) same
            (Finset.mem_of_mem_erase still)
  | finish found empty =>
      exact ⟨unlisted, fun f listed => passed f (List.mem_of_mem_eraseIdx listed)⟩
  | other op foreign notData lock =>
      refine ⟨fun listed => unlisted ?_, passed⟩
      rcases foreign with spares | rfl
      · exact spares.members listed
      · rwa [← (Registry.recv_frame s.registry id).1]

/-- A quiet connection gets no `data` of the channel. -/
theorem Quiet.no_data (quiet : Quiet id ch s) (step : Step shared id claims s a s')
    (replies : ∀ frame ∈ s.handling.owed, frame.isReply = true) (payload : RawValue) :
    .data ch payload ∉ (s'.registry.queueOf id).drop (s.registry.queueOf id).length := by
  have unchanged : ServerMessage.data ch payload ∉
      (s.registry.queueOf id).drop (s.registry.queueOf id).length := by
    rw [List.drop_length]
    exact List.not_mem_nil
  cases step with
  | message _ _ _ | begin _ _ | finish _ _ => exact unchanged
  | handle source lock =>
      intro enqueued
      change _ ∈ ((s.handling.step shared id claims source s.registry).1.queueOf id).drop _
        at enqueued
      rw [Handling.step_fst] at enqueued
      cases called : s.handling.op? shared id claims with
      | none =>
          rw [called] at enqueued
          exact unchanged enqueued
      | some op =>
          rw [called] at enqueued
          obtain ⟨carries, -⟩ := s.registry.reaches_of_mem_drop op enqueued
          cases handling : s.handling with
          | start text =>
              rw [handling] at called
              simp only [Handling.op?] at called
              split at called <;> cases called <;> cases carries
          | ack _ _ | snapshot _ _ _ =>
              rw [handling] at called
              cases called
              cases carries
          | reply frame =>
              rw [handling] at called replies
              cases called
              cases carries
              have reply := replies _ (List.mem_singleton_self _)
              cases reply
          | snapshots _ | done =>
              rw [handling] at called
              cases called
  | @deliver k f visited found ahead =>
      intro enqueued
      rw [deliverTo_eq_send] at enqueued
      obtain ⟨carries, reached⟩ := s.registry.reaches_of_mem_drop _ enqueued
      obtain ⟨same, -⟩ := ServerMessage.data.inj (Option.some.inj carries)
      obtain rfl : id = visited := of_decide_eq_true reached
      exact quiet.2 f (List.mem_of_getElem? found) same ahead
  | other op foreign notData lock =>
      intro enqueued
      exact notData ch payload (s.registry.reaches_of_mem_drop op enqueued).1

/-- What a step of `handle` comes to owe: a reply, and an acknowledgement of removed channels only
by the call that removes them. -/
theorem owed_handle (shared : Shared σ) (id : ConnectionId) (claims : Claims) (source : σ)
    (r : Registry ServerMessage) (h : Handling) :
    (∀ frame ∈ (h.step shared id claims source r).2.owed, frame.isReply = true) ∧
    ∀ removed, (h.step shared id claims source r).2 = .reply (.unsubscribed removed) →
      ∃ text channels, h = .start text ∧ shared.fromStr text = .ok (.unsubscribe channels) ∧
        removed = (r.unsubscribe id channels).2 := by
  cases h with
  | start text =>
      simp only [Handling.step]
      cases parsed : shared.fromStr text with
      | error e => simp [Handling.owed, ServerMessage.isReply]
      | ok message =>
          cases message with
          | unsubscribe channels =>
              refine ⟨by simp [Handling.owed, ServerMessage.isReply], fun removed same => ?_⟩
              cases same
              exact ⟨text, channels, rfl, parsed, rfl⟩
          | auth _ | subscribe _ | ping _ => simp [Handling.owed, ServerMessage.isReply]
  | snapshots rest =>
      cases rest with
      | nil => simp [Handling.step, Handling.owed]
      | cons ch rest =>
          simp only [Handling.step]
          cases shared.snapshot source ch <;> simp [Handling.owed]
  | ack _ _ | snapshot _ _ _ | reply _ | done => simp [Handling.step, Handling.owed]

/-- What holds however the connection got to its acknowledgement. -/
structure Sound (id : ConnectionId) (s : Unsubscribing) : Prop where
  replies : ∀ frame ∈ s.handling.owed, frame.isReply = true
  quiet : ∀ removed, s.handling = .reply (.unsubscribed removed) → ∀ ch ∈ removed, Quiet id ch s

theorem Sound.step (sound : Sound id s) (step : Step shared id claims s a s') : Sound id s' := by
  have kept : s'.handling = s.handling → (∀ ch, ¬ Adds shared id claims ch s a) → Sound id s' := by
    intro same never
    refine ⟨fun frame owed => ?_, fun removed acks ch named => ?_⟩
    · rw [same] at owed
      exact sound.replies frame owed
    · rw [same] at acks
      exact (sound.quiet removed acks ch named).step step (never ch)
  cases step with
  | message message idle branch =>
      cases message with
      | text text =>
          cases branch
          exact ⟨by simp [Handling.owed], by simp⟩
      | binary =>
          cases branch
          exact ⟨by simp [Handling.owed, ServerMessage.isReply], by simp⟩
      | ping _ | pong | close | frame | failed _ | ended => cases branch
  | handle source lock =>
      obtain ⟨replies, acks⟩ := owed_handle shared id claims source s.registry s.handling
      refine ⟨replies, fun removed same ch named => ?_⟩
      obtain ⟨text, channels, handling, parsed, rfl⟩ := acks removed same
      -- the call had the write lock, so no publish is under way
      have called : s.handling.op? shared id claims = some (.unsubscribe id channels) := by
        rw [handling]
        simp only [Handling.op?, parsed]
      have alone := lock _ called rfl
      have registry : (s.handling.step shared id claims source s.registry).1 =
          (s.registry.unsubscribe id channels).1 := by
        rw [Handling.step_fst, called]
        rfl
      refine ⟨fun listed => ?_, fun f underWay => ?_⟩
      · rw [registry] at listed
        exact (Registry.listed_of_unsubscribe listed).2 ⟨rfl, named⟩
      · rw [alone] at underWay
        cases underWay
  | begin _ _ | deliver _ _ | finish _ _ | other _ _ _ _ => exact kept rfl fun _ added => added

/-- A step that does not add `ch` to the connection's channels. -/
def StepWithout (shared : Shared σ) (id : ConnectionId) (claims : Claims) (ch : String)
    (s : Unsubscribing) (a : Action) (s' : Unsubscribing) : Prop :=
  Step shared id claims s a s' ∧ ¬ Adds shared id claims ch s a

/-- **An unsubscribe acknowledgement is final.**  Whatever publishes are under way and however their
deliveries interleave with the connection's handling of its messages: once the acknowledgement of an
unsubscription naming `ch` is enqueued, no step enqueues a `data` frame of `ch` on the connection
until a call of `subscribe` adds `ch` again. -/
theorem ack_final (shared : Shared σ) (id : ConnectionId) (claims : Claims)
    (s₀ s s₁ u v : Unsubscribing) (idle : s₀.handling = .done) (as : List Action)
    (before : Run (Step shared id claims) s₀ as s) (removed : List String)
    (acking : s.handling = .reply (.unsubscribed removed))
    (ack : Step shared id claims s .handle s₁) (ch : String) (named : ch ∈ removed)
    (bs : List Action) (later : Run (StepWithout shared id claims ch) s₁ bs u) (a : Action)
    (step : StepWithout shared id claims ch u a v) :
    ∀ payload, .data ch payload ∉ (v.registry.queueOf id).drop (u.registry.queueOf id).length := by
  have start : Sound id s₀ := by
    refine ⟨?_, ?_⟩
    · rw [idle]
      simp [Handling.owed]
    · rw [idle]
      simp
  have sound := before.invariant (fun sound step => Sound.step sound step) start
  have quiet := (sound.quiet removed acking ch named).step ack (by
    rintro ⟨text, channels, starts, -⟩
    rw [acking] at starts
    cases starts)
  obtain ⟨stays, stillQuiet⟩ := later.invariant (I := fun s => Sound id s ∧ Quiet id ch s)
    (fun both step => ⟨both.1.step step.1, both.2.step step.1 step.2⟩) ⟨sound.step ack, quiet⟩
  exact stillQuiet.no_data step.1 stays.replies

/-- A client gives up the channel `x`. -/
def unsubscribeText : String :=
  "\x7b\"type\":\"unsubscribe\",\"channels\":[\"x\"]\x7d"

/-- The small server, which also reads that message. -/
def quitting : Shared LastValue :=
  { demo with
    fromStr := fun text =>
      if text = unsubscribeText then .ok (.unsubscribe ["x"]) else demo.fromStr text }

/-- A client holds `x`, and a publish of `x` is under way when it gives up the channel. -/
def publishing : Unsubscribing where
  registry := Registry.new.run [.add "alice" 2, .subscribe ⟨1⟩ ["x"] 1]
  handling := .done
  fanOuts := [⟨"x", ⟨"1"⟩, {⟨1⟩}⟩]

/-- The publish has ended and the channel is removed; the acknowledgement is next. -/
def acking : Unsubscribing where
  registry := publishing.registry.run [.send ⟨1⟩ (.data "x" ⟨"1"⟩), .unsubscribe ⟨1⟩ ["x"]]
  handling := .reply (.unsubscribed ["x"])
  fanOuts := []

/-- The acknowledgement is enqueued. -/
def acked : Unsubscribing where
  registry := (acking.registry.send ⟨1⟩ (.unsubscribed ["x"])).1
  handling := .done
  fanOuts := []

/-- The publish ends, the client's request is handled, and a later publish passes it by. -/
theorem ack_final_after_publish :
    Run (Step quitting ⟨1⟩ (Claims.new "alice")) publishing
      [.message (.text unsubscribeText), .deliver 0 ⟨1⟩, .finish 0, .handle] acking ∧
    Step quitting ⟨1⟩ (Claims.new "alice") acking .handle acked ∧
    acked.registry.queueOf ⟨1⟩ = [.data "x" ⟨"1"⟩, .unsubscribed ["x"]] ∧
    ∃ u v : Unsubscribing,
      Run (StepWithout quitting ⟨1⟩ (Claims.new "alice") "x") acked [.begin "x" ⟨"2"⟩] u ∧
      ∀ payload, .data "x" payload ∉
        (v.registry.queueOf ⟨1⟩).drop (u.registry.queueOf ⟨1⟩).length := by
  have before : Run (Step quitting ⟨1⟩ (Claims.new "alice")) publishing
      [.message (.text unsubscribeText), .deliver 0 ⟨1⟩, .finish 0, .handle] acking :=
    .cons (.message (.text unsubscribeText) rfl rfl) <|
    .cons (.deliver rfl (by decide)) <| .cons (.finish rfl (by decide)) <|
    .cons (.handle LastValue.new fun _ _ _ => rfl) <| .nil _
  have ack : Step quitting ⟨1⟩ (Claims.new "alice") acking .handle acked :=
    .handle LastValue.new fun _ _ _ => rfl
  have none : acked.registry.byChannel.members "x" = ∅ := by decide
  have later : Run (StepWithout quitting ⟨1⟩ (Claims.new "alice") "x") acked
      [.begin "x" ⟨"2"⟩]
      { acked with fanOuts := [⟨"x", ⟨"2"⟩, acked.registry.byChannel.members "x"⟩] } :=
    .single ⟨.begin "x" ⟨"2"⟩, fun added => added⟩
  have step : StepWithout quitting ⟨1⟩ (Claims.new "alice") "x"
      { acked with fanOuts := [⟨"x", ⟨"2"⟩, acked.registry.byChannel.members "x"⟩] } (.finish 0)
      acked :=
    ⟨Step.finish (s := { acked with
      fanOuts := [⟨"x", ⟨"2"⟩, acked.registry.byChannel.members "x"⟩] }) rfl none,
      fun added => added⟩
  exact ⟨before, ack, rfl, _, acked, later, ack_final quitting ⟨1⟩ (Claims.new "alice") publishing
    _ _ _ _ rfl _ before ["x"] rfl ack "x" (by decide) _ later _ step⟩

/-! ## The publish as one call -/

/-- The count of a fan-out does not touch the registry. -/
theorem deliverTo_fst (frame : ServerMessage) (acc : Registry ServerMessage × Nat)
    (visited : ConnectionId) :
    (Registry.deliverTo frame acc visited).1 =
      (Registry.deliverTo frame (acc.1, 0) visited).1 := by
  unfold Registry.deliverTo
  cases acc.1.connections.lookup visited <;> rfl

/-- The deliveries of a publish that nobody interrupts. -/
theorem run_deliveries (shared : Shared σ) (id : ConnectionId) (claims : Claims)
    (registry : Registry ServerMessage) (h : Handling) (channel : String) (payload : RawValue)
    (todo rest : Finset ConnectionId) (apart : Disjoint todo rest) :
    ∃ as, Run (Step shared id claims) ⟨registry, h, [⟨channel, payload, todo ∪ rest⟩]⟩ as
      ⟨(registry.fanOut (.data channel payload) todo).1, h, [⟨channel, payload, rest⟩]⟩ := by
  induction todo using Finset.induction_on generalizing rest with
  | empty =>
      rw [Finset.empty_union]
      exact ⟨[], .nil _⟩
  | insert visited todo fresh ih =>
      obtain ⟨notRest, apart⟩ := Finset.disjoint_insert_left.mp apart
      obtain ⟨as, run⟩ := ih (insert visited rest)
        (Finset.disjoint_insert_right.mpr ⟨fresh, apart⟩)
      have same : insert visited todo ∪ rest = todo ∪ insert visited rest := by
        rw [Finset.insert_union, Finset.union_insert]
      rw [same]
      refine ⟨as ++ [.deliver 0 visited], run.append (.single ?_)⟩
      have last : Step shared id claims
          ⟨(registry.fanOut (.data channel payload) todo).1, h,
            [⟨channel, payload, insert visited rest⟩]⟩ (.deliver 0 visited) _ :=
        .deliver rfl (Finset.mem_insert_self visited rest)
      have visits : (registry.fanOut (.data channel payload) (insert visited todo)).1 =
          (Registry.deliverTo (.data channel payload)
            ((registry.fanOut (.data channel payload) todo).1, 0) visited).1 := by
        rw [Registry.fanOut, Finset.foldl_insert _ fresh]
        exact deliverTo_fst _ _ _
      rw [visits]
      rwa [Finset.erase_insert notRest] at last

/-- A publish that nobody interrupts is the registry's `publish`. -/
theorem run_publish (shared : Shared σ) (id : ConnectionId) (claims : Claims)
    (registry : Registry ServerMessage) (h : Handling) (channel : String) (payload : RawValue) :
    ∃ as, Run (Step shared id claims) ⟨registry, h, []⟩
      (.begin channel payload :: (as ++ [.finish 0]))
      ⟨(registry.publish channel (.data channel payload)).1, h, []⟩ := by
  obtain ⟨as, run⟩ := run_deliveries shared id claims registry h channel payload
    (registry.byChannel.members channel) ∅ (Finset.disjoint_empty_right _)
  rw [Finset.union_empty, ← Registry.publish_eq] at run
  exact ⟨as, .cons (.begin channel payload) (run.append (.single (.finish rfl rfl)))⟩

end Unsubscribing

end WsFanout
