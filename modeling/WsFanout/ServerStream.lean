import WsFanout.ServerAcks

/-!
# What a socket carries

The way of a frame through the server: a queue accepts it, the session takes it off the queue,
holds it while it is being written, and writes it to the socket.  `World.Streamed` is the
invariant of that way, for one connection among all others: the frames its queue has accepted are
those written after the acknowledgement, the one in the session's hands and those still queued, in
this order.  `World.stream_run` shows it over whole runs.
-/

namespace WsFanout

open Lib

/-! ## One operation -/

namespace Registry

variable {F : Type} {r : Registry F} {id : ConnectionId}

/-- The operation neither takes from the queue of `id` nor ends or replaces its entry. -/
def Adds (r : Registry F) (id : ConnectionId) (op : Op F) : Prop :=
  op ≠ .recv id ∧ op ≠ .close id ∧ op ≠ .remove id ∧ (op.isAdd = true → id ≠ ⟨r.nextId⟩)

theorem Spares.adds {op : Op F} (spares : r.Spares id op) : r.Adds id op := by
  obtain ⟨elsewhere, notIssued⟩ := spares
  refine ⟨?_, ?_, ?_, notIssued⟩ <;>
    · rintro rfl
      exact elsewhere rfl

/-- Such an operation leaves a connection there, with whatever was queued still in front. -/
theorem Joined.grows (joined : r.Joined id) {op : Op F} (adds : r.Adds id op) :
    (r.step op).1.Joined id ∧ ∃ more, (r.step op).1.queueOf id = r.queueOf id ++ more := by
  obtain ⟨notTaken, notClosed, notRemoved, notIssued⟩ := adds
  cases carries : op.frame? with
  | some frame =>
      obtain ⟨conn, found, opened⟩ := joined
      have after := (deliver_spec r op carries id).1
      rw [found] at after
      cases reached : r.reaches id op with
      | false =>
          rw [reached, if_neg Bool.false_ne_true] at after
          exact ⟨⟨conn, after, opened⟩, [],
            by rw [queueOf_of_lookup after, queueOf_of_lookup found, List.append_nil]⟩
      | true =>
          rw [reached, if_pos rfl, Option.map_some] at after
          refine ⟨⟨_, after, ?_⟩, if conn.tx.accepts then [frame] else [], ?_⟩
          · rw [Connection.offer, BoundedQueue.isOpen_trySend]
            exact opened
          · rw [queueOf_of_lookup after, queueOf_of_lookup found, buffer_offer]
  | none =>
      have elsewhere : op.target? ≠ some id → (r.step op).1.Joined id ∧
          ∃ more, (r.step op).1.queueOf id = r.queueOf id ++ more := by
        intro other
        have same := Spares.lookup (r := r) ⟨other, notIssued⟩ carries
        obtain ⟨conn, found, opened⟩ := joined
        have after := same.trans found
        exact ⟨⟨conn, after, opened⟩, [],
          by rw [queueOf_of_lookup after, queueOf_of_lookup found, List.append_nil]⟩
      cases op with
      | publish _ _ | broadcast _ | send _ _ => cases carries
      | add subject sendQueue => exact elsewhere (Option.some_ne_none id).symm
      | remove i =>
          refine elsewhere fun same => ?_
          exact notRemoved (congrArg Op.remove (Option.some.inj same))
      | recv i =>
          refine elsewhere fun same => ?_
          exact notTaken (congrArg Op.recv (Option.some.inj same))
      | close i =>
          refine elsewhere fun same => ?_
          exact notClosed (congrArg Op.close (Option.some.inj same))
      | subscribe i channels max =>
          rcases eq_or_ne i id with rfl | other
          · obtain ⟨joined', queue⟩ := joined.subscribe channels max
            exact ⟨joined', [], by rw [List.append_nil]; exact queue⟩
          · exact elsewhere fun same => other (Option.some.inj same)
      | unsubscribe i channels =>
          rcases eq_or_ne i id with rfl | other
          · obtain ⟨joined', queue, -⟩ := joined.unsubscribe channels
            exact ⟨joined', [], by rw [List.append_nil]; exact queue⟩
          · exact elsewhere fun same => other (Option.some.inj same)

/-- The same for at most one operation. -/
theorem Joined.after {r : Registry ServerMessage} (joined : r.Joined id)
    {called : Option (Op ServerMessage)} (adds : ∀ op, called = some op → r.Adds id op) :
    (r.after called).Joined id ∧ ∃ more, (r.after called).queueOf id = r.queueOf id ++ more := by
  cases called with
  | none => exact ⟨joined, [], (List.append_nil _).symm⟩
  | some op => exact joined.grows (adds op rfl)

/-- What the receiver takes is the front of the queue. -/
theorem queueOf_of_taken {frame : F} (taken : (r.step (.recv id)).2 = .taken (.frame frame)) :
    r.queueOf id = frame :: (r.step (.recv id)).1.queueOf id := by
  obtain ⟨lookups, -, -, outcome⟩ := recv_spec r id
  have after := lookups id
  simp only [Registry.step, Reply.taken.injEq] at taken
  rw [taken] at outcome
  rw [if_pos rfl] at after
  cases found : r.connections.lookup id with
  | none => simp [found] at outcome
  | some conn =>
      rw [found, Option.map_some] at after
      change _ = frame :: (r.recv id).1.queueOf id
      rw [queueOf_of_lookup found, queueOf_of_lookup after]
      cases held : conn.tx.buffer with
      | nil => simp [found, BoundedQueue.recv, held] at outcome
      | cons f rest =>
          simp only [found, BoundedQueue.recv, held, List.head?_cons, Taken.frame.injEq] at outcome
          simp [BoundedQueue.recv, held, outcome]

end Registry

/-! ## One turn -/

/-- The frame a session has taken off its queue and not written yet. -/
def Session.inflight : Session → List ServerMessage
  | writing message => message.text?.toList
  | _ => []

variable {σ : Type} {shared : Shared σ}

/-- The calls `handle` makes add to the queue of its connection or leave it alone. -/
theorem Handling.adds {id : ConnectionId} {claims : Claims} {h : Handling}
    {op : Op ServerMessage} (called : h.op? shared id claims = some op)
    (r : Registry ServerMessage) : r.Adds id op := by
  cases h with
  | start text =>
      simp only [Handling.op?] at called
      split at called <;> cases called <;> simp [Registry.Adds, Op.isAdd]
  | ack _ _ | snapshot _ _ _ | reply _ =>
      cases called
      simp [Registry.Adds, Op.isAdd]
  | snapshots _ | done => cases called

namespace Turn

variable {r : Registry ServerMessage} {source : σ} {t t' : Task} {e : Effect}

/-- A task whose session is over writes nothing more. -/
theorem texts_of_left (turn : Turn shared r source t e t') (left : t.phase.left = true) :
    t'.texts = t.texts := by
  cases turn with
  | dropReceiver _ | unregister _ | release _ => rfl
  | start was _ | recv was _ _ | drain was _ | inbound _ was _ | tick was | timeout was | write was
  | handle was _ | handled was | fastEnough was _ | tooSlow was _ | timerPanic was _
  | drained was _ | inboundEnd _ was _ | notWritten _ was | handlePanic was _ | sinkClosed was
  | upgraded was | notUpgraded was | authorised _ was _ | refused _ was _
  | validatorPanic _ _ was _ | refuse _ was | closed was | acknowledge was | notAcknowledged _ was
  | channelPanic was _ | join was _ =>
      rw [was] at left
      cases left

/-- What a turn of a session makes of the frame in its hands: it is written, or the session is left
without it, or a new one is taken off the queue. -/
theorem moves (turn : Turn shared r source t e t') {id : ConnectionId} {claims : Claims}
    {stage : Session} (phase : t.phase = .session id claims stage) (rx : t.rx = .attached) :
    (t'.phase = .leaving id claims ∧ e.op? = none ∧
      ∃ part, t'.texts = t.texts ++ part ∧ part <+: stage.inflight) ∨
    ∃ stage', t'.phase = .session id claims stage' ∧ t'.rx = .attached ∧
      ((e.op? = some (.recv id) ∧ t'.texts = t.texts ∧ stage.inflight = [] ∧
          r.queueOf id = stage'.inflight ++ (r.step (.recv id)).1.queueOf id) ∨
        ((∀ op, e.op? = some op → r.Adds id op) ∧
          ∃ part, t'.texts = t.texts ++ part ∧ stage.inflight = part ++ stage'.inflight)) := by
  have nothing : t.texts = t.texts ++ [] := (List.append_nil _).symm
  cases turn with
  | recv was _ taken =>
      rw [phase] at was
      cases was
      exact .inr ⟨_, rfl, rx, .inl ⟨rfl, rfl, rfl, Registry.queueOf_of_taken taken⟩⟩
  | drain _ detached | drained _ detached =>
      rw [rx] at detached
      cases detached
  | @write _ _ message was =>
      rw [phase] at was
      cases was
      refine .inr ⟨_, rfl, rx, .inr ⟨nofun, _, Task.texts_write t _ [message], ?_⟩⟩
      cases message <;> rfl
  | @notWritten _ _ message reached was =>
      rw [phase] at was
      cases was
      refine .inl ⟨rfl, rfl, _, Task.texts_write t _ (attempted message reached), ?_⟩
      cases reached with
      | false => exact List.nil_prefix
      | true => cases message <;> exact List.prefix_rfl
  | @inbound _ _ next message was branch =>
      rw [phase] at was
      cases was
      refine .inr ⟨next, rfl, rx, .inr ⟨nofun, [], nothing, ?_⟩⟩
      cases message <;> cases branch <;> rfl
  | @handle _ _ h was going =>
      rw [phase] at was
      cases was
      refine .inr ⟨_, rfl, rx, .inr ⟨fun op called => ?_, [], nothing, rfl⟩⟩
      cases calls : h.op? shared id claims with
      | none =>
          rw [calls] at called
          cases called
      | some op' =>
          rw [calls] at called
          cases called
          exact Handling.adds calls r
  | start was _ | tick was | timeout was | handled was | fastEnough was _ | tooSlow was _ =>
      rw [phase] at was
      cases was
      exact .inr ⟨_, rfl, rx, .inr ⟨nofun, [], nothing, rfl⟩⟩
  | timerPanic was _ | inboundEnd _ was _ | handlePanic was _ | sinkClosed was =>
      rw [phase] at was
      cases was
      exact .inl ⟨rfl, rfl, [], nothing, List.nil_prefix⟩
  | upgraded was | notUpgraded was | authorised _ was _ | refused _ was _
  | validatorPanic _ _ was _ | refuse _ was | closed was | acknowledge was | notAcknowledged _ was
  | channelPanic was _ | join was _ | dropReceiver was | unregister was | release was =>
      rw [phase] at was
      cases was

end Turn

/-- A task keeps its end of the queue when another's turn spares its connection. -/
theorem Effect.bystander_spared {r : Registry ServerMessage} {e : Effect} {t : Task}
    {id : ConnectionId} (given : t.id = some id)
    (spares : ∀ op, e.op? = some op → r.Spares id op) : e.bystander r t = t := by
  have kept : ∀ (other : ConnectionId) (buffer : List ServerMessage), id ≠ other →
      t.detach other buffer = t := by
    intro other buffer apart
    refine if_neg fun same => apart ?_
    exact Option.some.inj (given.symm.trans same.1)
  cases e with
  | join subject sendQueue => exact kept _ _ ((spares _ rfl).2 rfl)
  | unregister i =>
      refine kept _ _ fun same => (spares _ rfl).1 ?_
      exact congrArg some same.symm
  | quiet | call _ | release | timeout => rfl

/-! ## One connection among all others -/

/-- What the task of `id` has written, beside the frames `log` its queue has accepted. -/
def Task.Stream (id : ConnectionId) (log : List ServerMessage) (r : Registry ServerMessage)
    (t : Task) : Prop :=
  ∃ claims sent, t.texts = .authenticated claims.subject :: sent ∧
    ((t.phase.left = true ∧ sent <+: log) ∨
      ∃ stage, t.phase = .session id claims stage ∧ t.rx = .attached ∧ r.Joined id ∧
        log = sent ++ stage.inflight ++ r.queueOf id)

namespace Task.Stream

variable {r : Registry ServerMessage} {source : σ} {t t' : Task} {e : Effect} {id : ConnectionId}
  {log : List ServerMessage}

/-- A turn of the task itself. -/
theorem turn (stream : t.Stream id log r) (turn : Turn shared r source t e t') :
    t'.Stream id (log ++ ((r.after e.op?).queueOf id).drop (r.queueOf id).length)
      (r.after e.op?) := by
  obtain ⟨claims, sent, texts, here⟩ := stream
  rcases here with ⟨left, part⟩ | ⟨stage, phase, rx, joined, rfl⟩
  · exact ⟨claims, sent, (turn.texts_of_left left).trans texts,
      .inl ⟨turn.left_kept left, part.trans (List.prefix_append _ _)⟩⟩
  rcases turn.moves phase rx with ⟨leaving, quiet, part, written, short⟩ |
    ⟨stage', phase', rx', ⟨taking, same, idle, front⟩ | ⟨adds, part, written, rest⟩⟩
  · refine ⟨claims, sent ++ part, by rw [written, texts, List.cons_append], .inl ⟨?_, ?_⟩⟩
    · rw [leaving]
      rfl
    · rw [List.append_assoc, List.append_assoc]
      exact (List.prefix_append_right_inj sent).mpr (short.trans (List.prefix_append _ _))
  · obtain ⟨joined', -, drained⟩ := joined.recv
    refine ⟨claims, sent, same.trans texts, .inr ⟨stage', phase', rx', ?_, ?_⟩⟩
    · rw [taking]
      exact joined'
    · rw [taking]
      simp only [Registry.after]
      rw [drained, List.append_nil, idle, List.append_nil, List.append_assoc, ← front]
  · obtain ⟨joined', more, queue⟩ := joined.after adds
    refine ⟨claims, sent ++ part, by rw [written, texts, List.cons_append],
      .inr ⟨stage', phase', rx', joined', ?_⟩⟩
    rw [queue, List.drop_left, rest]
    simp only [List.append_assoc]

/-- A step of another, which spares the connection while its session goes on. -/
theorem other (stream : t.Stream id log r) (called : Option (Op ServerMessage))
    (same : t'.phase = t.phase) (written : t'.texts = t.texts)
    (spares : ∀ claims stage, t.phase = .session id claims stage →
      t'.rx = t.rx ∧ ∀ op, called = some op → r.Spares id op) :
    t'.Stream id (log ++ ((r.after called).queueOf id).drop (r.queueOf id).length)
      (r.after called) := by
  obtain ⟨claims, sent, texts, here⟩ := stream
  refine ⟨claims, sent, written.trans texts, ?_⟩
  rw [same]
  rcases here with ⟨left, part⟩ | ⟨stage, phase, attached, joined, rfl⟩
  · exact .inl ⟨left, part.trans (List.prefix_append _ _)⟩
  · obtain ⟨rx, spared⟩ := spares claims stage phase
    obtain ⟨joined', more, queue⟩ := joined.after fun op called => (spared op called).adds
    refine .inr ⟨stage, phase, rx.trans attached, joined', ?_⟩
    rw [queue, List.drop_left, List.append_assoc]

end Task.Stream

namespace World

variable {w w' : World σ} {a : Action} {n : Nat} {id : ConnectionId} {log : List ServerMessage}

/-- The invariant: the queue of an id nobody has yet has accepted nothing, and the task that has it
streams what the queue has accepted. -/
structure Streamed (id : ConnectionId) (log : List ServerMessage) (w : World σ) : Prop where
  unborn : (∀ (i : Nat) (t : Task), w.tasks[i]? = some t → t.id ≠ some id) → log = []
  stream : ∀ (i : Nat) (t : Task), w.tasks[i]? = some t → t.id = some id →
    t.Stream id log w.registry

/-- An id that no task has has no queue. -/
theorem Owners.queueOf_unborn (owners : Owners n w) (gate : GateInv shared w)
    (unborn : ∀ (i : Nat) (t : Task), w.tasks[i]? = some t → t.id ≠ some id) :
    w.registry.queueOf id = [] := by
  cases found : w.registry.connections.lookup id with
  | none => simp [Registry.queueOf, found]
  | some conn =>
      obtain ⟨i, t, claims, there, stands, -⟩ := owners.owned id conn found
      exact absurd (gate.id_of_registered there stands).1 (unborn i t there)

/-- The id a registration issues is one that no task has. -/
theorem Owners.fresh (owners : Owners n w) (joins : a.isJoin = true)
    (below : n + [a].countP Action.isJoin ≤ 2 ^ 64) (i : Nat) (t : Task)
    (found : w.tasks[i]? = some t) : t.id ≠ some ⟨w.registry.nextId⟩ := by
  intro given
  have issued := owners.issued i t _ found given
  rw [owners.consistent.nextId] at issued
  exact ConnectionId.not_issued_nth (by simp [joins] at below; omega) issued

/-- What one step preserves, for as long as its id is a new one. -/
theorem Streamed.step (inv : Streamed id log w) (gate : GateInv shared w) (owners : Owners n w)
    (step : Step shared w a w') (below : n + [a].countP Action.isJoin ≤ 2 ^ 64) :
    Streamed id (log ++ (w'.registry.queueOf id).drop (w.registry.queueOf id).length) w' := by
  refine ⟨fun unborn => ?_, fun i t' found' given => ?_⟩
  · have before : log = [] := by
      refine inv.unborn fun i t found given => ?_
      obtain ⟨t', found', still, -⟩ := gate.task_kept step found given
      exact unborn i t' found' still
    have after := (owners.step step below).queueOf_unborn (gate.step step) unborn
    rw [before, after, List.drop_nil, List.nil_append]
  rcases step.task_id found' given with ⟨t, found, had⟩ | ⟨rfl, joins, e, rfl⟩
  · rw [step.registry_eq]
    have stream := inv.stream i t found had
    rcases step.task_cases found' with ⟨u, e, rfl, was, turn⟩ | ⟨u, was, others, same⟩ |
      ⟨-, last, -⟩
    · obtain rfl := Option.some.inj (found.symm.trans was)
      exact stream.turn turn
    · obtain rfl := Option.some.inj (found.symm.trans was)
      have spares : ∀ claims stage, t.phase = .session id claims stage →
          ∀ op, a.op? = some op → w.registry.Spares id op := by
        intro claims stage phase op called
        have stands : t.phase.registered? = some (id, claims) := by
          rw [phase]
          rfl
        exact owners.spares gate step below found stands others called
      rcases same with rfl | ⟨j, e, rfl, rfl⟩
      · exact stream.other a.op? rfl rfl fun claims stage phase =>
          ⟨rfl, spares claims stage phase⟩
      · obtain ⟨phases, -, -, texts⟩ := e.bystander_keeps w.registry t
        refine stream.other (Action.act j e).op? phases texts fun claims stage phase => ?_
        have spared := spares claims stage phase
        exact ⟨congrArg Task.rx (Effect.bystander_spared had spared), spared⟩
    · rw [last, List.getElem?_eq_none (Nat.le_refl _)] at found
      cases found
  · have before := inv.unborn fun j u found => owners.fresh joins below j u found
    obtain ⟨t, e', same, found, turn⟩ | ⟨_, _, others, _⟩ | ⟨nothing, -, -⟩ :=
      step.task_cases found'
    · cases same
      have called : ∃ op, e.op? = some op ∧ op.isAdd = true := step.isJoin_iff.mp joins
      obtain ⟨op, called, isAdd⟩ := called
      obtain ⟨claims, phase, -, rfl, rfl⟩ := turn.adds called isAdd
      have atPhase := (gate.tasks i t found).phase
      rw [phase] at atPhase
      obtain ⟨-, -, -, -, joined, -, empty⟩ := Talking.of_join step
      refine ⟨claims, [], atPhase.1, .inr ⟨.starting, rfl, rfl, joined, ?_⟩⟩
      rw [before, empty]
      simp [Session.inflight]
    · exact absurd rfl (others e)
    · cases nothing

end World

/-! ## Where data comes from -/

/-- What `handle` returns to its session is a reply. -/
def Handling.Replies : Handling → Prop
  | .reply frame => frame.isReply = true
  | _ => True

theorem Handling.replies_step (id : ConnectionId) (claims : Claims) (source : σ)
    (r : Registry ServerMessage) (h : Handling) :
    (h.step shared id claims source r).2.Replies := by
  cases h with
  | start text =>
      simp only [step]
      cases shared.fromStr text with
      | error e => rfl
      | ok message => cases message <;> trivial
  | snapshots rest =>
      cases rest with
      | nil => trivial
      | cons ch rest =>
          simp only [step]
          cases shared.snapshot source ch <;> trivial
  | ack _ _ | snapshot _ _ _ | reply _ | done => trivial

/-- The message a session has at hand is answered by a reply. -/
def Task.Replies (t : Task) : Prop :=
  ∀ id claims h, t.phase = .session id claims (.handling h) → h.Replies

theorem Turn.replies {r : Registry ServerMessage} {source : σ} {t t' : Task} {e : Effect}
    (turn : Turn shared r source t e t') : t'.Replies := by
  intro id claims h phase'
  cases turn with
  | handle phase going =>
      cases phase'
      exact Handling.replies_step _ _ _ _ _
  | inbound message phase branch =>
      cases message <;> cases branch <;> cases phase'
      · trivial
      · rfl
  | upgraded _ | notUpgraded _ | authorised _ _ _ | refused _ _ _ | validatorPanic _ _ _ _
  | refuse _ _ | closed _ | acknowledge _ | notAcknowledged _ _ | channelPanic _ _ | join _ _
  | timerPanic _ _ | start _ _ | recv _ _ _ | drain _ _ | drained _ _ | inboundEnd _ _ _ | tick _
  | timeout _ | write _ | notWritten _ _ | handlePanic _ _ | handled _ | fastEnough _ _
  | tooSlow _ _ | sinkClosed _ | dropReceiver _ | unregister _ | release _ => cases phase'

namespace World

variable {w w' : World σ} {a : Action}

/-- The payload an action publishes on `ch`. -/
def publishedOn? (ch : String) : Action → Option RawValue
  | .publish channel payload => if channel = ch then some payload else none
  | _ => none

/-- A step leaves every task with a reply at hand, if any. -/
theorem Step.replies (step : Step shared w a w')
    (inv : ∀ (i : Nat) (t : Task), w.tasks[i]? = some t → t.Replies) :
    ∀ (i : Nat) (t : Task), w'.tasks[i]? = some t → t.Replies := by
  intro i t' found'
  rcases step.task_cases found' with ⟨t, e, -, -, turn⟩ | ⟨t, found, -, same⟩ | ⟨-, -, rfl⟩
  · exact turn.replies
  · rcases same with rfl | ⟨_, e, -, rfl⟩
    · exact inv i _ found
    · intro id claims h phase
      rw [(e.bystander_keeps w.registry t).1] at phase
      exact inv i t found id claims h phase
  · intro id claims h phase
    cases phase

/-- Only the server's `publish` hands `data` to the registry. -/
theorem Step.publishesData (step : Step shared w a w')
    (inv : ∀ (i : Nat) (t : Task), w.tasks[i]? = some t → t.Replies)
    {op : Op ServerMessage} (called : a.op? = some op) :
    op.PublishesData ∧ ∀ ch, op.publishOn? ch = publishedOn? ch a := by
  cases step with
  | @act i t t' e found turn =>
      cases carries : op.frame? with
      | none =>
          cases op with
          | publish _ _ | broadcast _ | send _ _ => cases carries
          | add _ _ | remove _ | subscribe _ _ _ | unsubscribe _ _ | recv _ | close _ =>
              exact ⟨trivial, fun _ => rfl⟩
      | some frame =>
          obtain ⟨id, claims, h, phase, calls⟩ := turn.delivers called carries
          have replies := inv i t found id claims h phase
          cases h with
          | start text =>
              simp only [Handling.op?] at calls
              split at calls <;> cases calls <;> cases carries
          | ack _ _ | snapshot _ _ _ =>
              cases calls
              exact ⟨trivial, fun _ => rfl⟩
          | reply f =>
              cases calls
              refine ⟨?_, fun _ => rfl⟩
              cases f with
              | data _ _ => cases replies
              | _ => trivial
          | snapshots _ | done => cases calls
  | publish channel payload =>
      cases called
      refine ⟨rfl, fun ch => ?_⟩
      simp only [Op.publishOn?, publishedOn?, ServerMessage.dataOn?]
      split <;> rfl
  | resync channels channel listed =>
      cases called
      refine ⟨trivial, fun ch => ?_⟩
      simp [Op.publishOn?, publishedOn?, ServerMessage.dataOn?]
  | resyncAll =>
      cases called
      exact ⟨trivial, fun ch => rfl⟩
  | accept _ | refuse _ | update _ => cases called

/-- The registry's part of a run: its calls publish what the application publishes, and register as
often as tasks do. -/
theorem calls_run {as : List Action} (run : Run (Step shared) w as w')
    (inv : ∀ (i : Nat) (t : Task), w.tasks[i]? = some t → t.Replies) :
    (∀ op ∈ as.filterMap Action.op?, op.PublishesData) ∧
      (∀ ch, (as.filterMap Action.op?).filterMap (Op.publishOn? ch) =
        as.filterMap (publishedOn? ch)) ∧
      (as.filterMap Action.op?).countP Op.isAdd = as.countP Action.isJoin := by
  induction run with
  | nil => simp
  | @cons w u w' a as step rest ih =>
      obtain ⟨data, published, adds⟩ := ih (step.replies inv)
      have joins := step.isJoin_iff
      cases called : a.op? with
      | none =>
          have silent : ∀ ch, publishedOn? ch a = none := by
            intro ch
            cases a with
            | publish _ _ => cases called
            | accept | refuse | act _ _ | resync _ _ | resyncAll | update => rfl
          have others : a.isJoin = false := by simpa [called] using joins
          rw [List.filterMap_cons_none called]
          refine ⟨data, fun ch => ?_, ?_⟩
          · rw [List.filterMap_cons_none (silent ch), published]
          · rw [adds, List.countP_cons_of_neg (by simp [others])]
      | some op =>
          obtain ⟨first, same⟩ := step.publishesData inv called
          have iff : op.isAdd = a.isJoin := by
            rw [Bool.eq_iff_iff, joins, called]
            simp
          rw [List.filterMap_cons_some called]
          refine ⟨fun o mem => ?_, fun ch => ?_, ?_⟩
          · rcases List.mem_cons.mp mem with rfl | later
            · exact first
            · exact data o later
          · rw [List.filterMap_cons, List.filterMap_cons, same ch, published]
          · rw [List.countP_cons, List.countP_cons, adds, iff]

/-! ## Whole runs -/

/-- The frames of a run from its first step on. -/
theorem Step.history (step : Step shared w a w') (id : ConnectionId) (as : List Action) :
    World.history id w (a :: as) =
      (w'.registry.queueOf id).drop (w.registry.queueOf id).length ++ World.history id w' as := by
  rw [World.history, World.history, step.registry_eq]
  cases called : a.op? with
  | none => simp [called, Registry.after]
  | some op => simp [called, Registry.after, Registry.enqueued]

/-- The frames of two runs, one after the other. -/
theorem history_run {as : List Action} (run : Run (Step shared) w as w') (id : ConnectionId)
    (bs : List Action) : history id w (as ++ bs) = history id w as ++ history id w' bs := by
  induction run with
  | nil => rfl
  | cons step _ ih =>
      rw [List.cons_append, step.history, step.history, ih, List.append_assoc]

/-- The invariant holds in every state reached with at most `2 ^ 64` registrations. -/
theorem Streamed.of_run {source : σ} {as : List Action}
    (run : Run (Step shared) (start shared source) as w)
    (joins : as.countP Action.isJoin ≤ 2 ^ 64) (id : ConnectionId) :
    Streamed id (history id (start shared source) as) w := by
  have reached := run_history shared id (2 ^ 64)
    (I := fun n log w => (GateInv shared w ∧ Owners n w) ∧ Streamed id log w)
    (fun step => step)
    (fun below inv step => ⟨⟨inv.1.1.step step, inv.1.2.step step below⟩,
      inv.2.step inv.1.1 inv.1.2 step below⟩)
    run (n := 0) (by omega)
    ⟨⟨gateInv_start shared source, owners_start shared source⟩, ⟨fun _ => rfl, by simp [start]⟩⟩
  exact reached.2

/-- **What a socket carries.**  In every run of the server with at most `2 ^ 64` registrations, the
text frames on the socket of a registered connection are its acknowledgement and then `sent`.
While the session goes on, the frames its queue has accepted are `sent`, the frame being written
and those still queued, in this order: none is lost, repeated, reordered or made up on the way.
Once the session is over, `sent` is what had been accepted up to some point.  So on each channel
the client has seen, in order, publishes of the application made while it was subscribed and its
queue took them, and it has seen all of these up to some point. -/
theorem stream_run (shared : Shared σ) (source : σ) (as : List Action) (w : World σ)
    (run : Run (Step shared) (start shared source) as w)
    (joins : as.countP Action.isJoin ≤ 2 ^ 64) (i : Nat) (t : Task) (id : ConnectionId)
    (found : w.tasks[i]? = some t) (given : t.id = some id) :
    ∃ claims sent, t.texts = .authenticated claims.subject :: sent ∧
      ((t.phase.left = true ∧ sent <+: history id (start shared source) as) ∨
        ∃ stage, t.phase = .session id claims stage ∧ t.rx = .attached ∧ w.registry.Joined id ∧
          history id (start shared source) as = sent ++ stage.inflight ++ w.registry.queueOf id) ∧
      ∀ ch, sent.filterMap (ServerMessage.dataOn? ch) <+:
          Registry.publishedTo id ch Registry.new (as.filterMap Action.op?) ∧
        (sent.filterMap (ServerMessage.dataOn? ch)).Sublist
          (as.filterMap (publishedOn? ch)) := by
  obtain ⟨claims, sent, texts, here⟩ := (Streamed.of_run run joins id).stream i t found given
  refine ⟨claims, sent, texts, here, fun ch => ?_⟩
  obtain ⟨data, published, adds⟩ := calls_run run (by simp [start])
  have part : sent <+: history id (start shared source) as := by
    rcases here with ⟨-, part⟩ | ⟨stage, -, -, -, all⟩
    · exact part
    · rw [all, List.append_assoc]
      exact List.prefix_append _ _
  have accepted := Registry.enqueued_data Registry.Consistent.initial (as.filterMap Action.op?)
    (by omega) data id ch
  have seen := part.filterMap (ServerMessage.dataOn? ch)
  rw [history, start, accepted] at seen
  refine ⟨seen, ?_⟩
  rw [← published ch]
  exact seen.sublist.trans (Registry.publishedTo_sublist id ch Registry.new _)

/-- Something is published for the first client of `guarded`, which is written its acknowledgement
and is being written the frame. -/
def streaming : List Action :=
  [.publish "x" ⟨"1"⟩, .act 0 .quiet, .act 0 .quiet, .act 0 (.call (.recv ⟨1⟩)), .act 0 .quiet,
    .act 0 .quiet, .act 0 (.call (.recv ⟨1⟩))]

/-- That client's world. -/
def streamed : World LastValue :=
  { answered with
    registry :=
      answered.registry.run [.publish "x" (.data "x" ⟨"1"⟩), .recv ⟨1⟩, .recv ⟨1⟩]
    tasks := [{ registeredTask ⟨1⟩ (Claims.new "alice") authText with
      phase := .session ⟨1⟩ (Claims.new "alice") (.writing (.text (.data "x" ⟨"1"⟩)))
      received := [.text authText, .text subscribeText]
      written := [.text (.authenticated "alice"), .text (.subscribed ["x"] [])] }] }

theorem run_streaming : Run (Step guarded) answered streaming streamed := by
  refine .cons (.publish "x" ⟨"1"⟩) ?_
  refine .cons (.act rfl (.handled rfl)) ?_
  refine .cons (.act rfl (.fastEnough rfl (by decide))) ?_
  refine .cons (.act rfl (.recv rfl rfl rfl)) ?_
  refine .cons (.act rfl (.write rfl)) ?_
  refine .cons (.act rfl (.fastEnough rfl (by decide))) ?_
  exact .single (.act rfl (.recv rfl rfl rfl))

/-- The client has been written the acknowledgement of its request; the data is on its way. -/
theorem stream_run_subscribed :
    ∃ sent, streamed.tasks.map Task.texts = [.authenticated "alice" :: sent] ∧
      history ⟨1⟩ (start guarded LastValue.new)
          (connecting 0 (Claims.new "alice") 256 ++ asking ++ streaming) =
        sent ++ [.data "x" ⟨"1"⟩] := by
  have run := run_answered.append run_streaming
  obtain ⟨claims, sent, texts, here, -⟩ :=
    stream_run guarded LastValue.new _ _ run (by decide) 0 _ ⟨1⟩ rfl rfl
  have empty : streamed.registry.queueOf ⟨1⟩ = [] := rfl
  refine ⟨sent, ?_, ?_⟩
  · obtain ⟨-, rest⟩ := List.cons.inj texts
    rw [← rest]
    rfl
  · rcases here with ⟨left, -⟩ | ⟨stage, phase, -, -, all⟩
    · cases left
    · cases phase
      refine all.trans ?_
      rw [empty, List.append_nil]
      rfl

end World

end WsFanout
