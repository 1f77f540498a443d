import WsFanout.ServerEviction
import WsFanout.ServerTalk

/-!
# Replies in the order of requests

The protocol has no request ids, so a client matches replies to requests by position.  Replies are
enqueued from three places: by `handle` itself (the acknowledgement of a subscription), by the
session for what `handle` returns, and by the session for a binary frame.  `World.replies_in_order`
puts them together: on a connection for which no frame is dropped, the frames that are not `data`,
`snapshot` or `resync` answer the client's text and binary messages one by one.  It also says that
none of these messages is left out: the session takes up each of them, and is done with it after
finitely many turns (`Handling.remaining`).
-/

namespace WsFanout

open Lib

variable {σ : Type} {shared : Shared σ}

/-- The client expects a reply. -/
def Inbound.isRequest : Inbound → Bool
  | text _ => true
  | binary => true
  | _ => false

/-- The frame is the reply the protocol has for the message. -/
def Answers (shared : Shared σ) : Inbound → ServerMessage → Prop
  | .text text, frame =>
    match shared.fromStr text with
    | .error e => frame = .error .invalidMessage e
    | .ok (.auth _) =>
      frame = .error .alreadyAuthenticated "auth is accepted only as the first message"
    | .ok (.subscribe _) => ∃ added rejected, frame = .subscribed added rejected
    | .ok (.unsubscribe _) => ∃ removed, frame = .unsubscribed removed
    | .ok (.ping timestamp) => frame = .pong timestamp
  | .binary, frame => frame = .error .protocol "binary frames are not part of this protocol"
  | _, _ => False

theorem Handling.answers (shared : Shared σ) (id : ConnectionId) (claims : Claims)
    (r : Registry ServerMessage) (text : String) :
    Answers shared (.text text) (answer shared id claims r text) ∧
      (answer shared id claims r text).isReply = true := by
  cases parsed : shared.fromStr text with
  | error e => simp [Answers, answer, parsed, ServerMessage.isReply]
  | ok message =>
      cases message <;> simp [Answers, answer, parsed, ServerMessage.isReply]

/-- The request at hand, while its reply is not decided. -/
def Session.pending : Session → List Inbound
  | handling (.start text) => [.text text]
  | _ => []

theorem Session.pending_of_settled {stage : Session} (settled : stage.settled = true) :
    stage.pending = [] := by
  cases stage with
  | handling h =>
      obtain rfl : h = .done := of_decide_eq_true settled
      rfl
  | starting | select | writing _ | check | closing => rfl

/-- A step never takes a message back to its start. -/
theorem Handling.pending_step (shared : Shared σ) (id : ConnectionId) (claims : Claims) (source : σ)
    (r : Registry ServerMessage) (h : Handling) :
    Session.pending (.handling (h.step shared id claims source r).2) = [] := by
  cases h with
  | start text =>
      simp only [step]
      cases shared.fromStr text with
      | error e => rfl
      | ok message => cases message <;> rfl
  | snapshots rest =>
      cases rest with
      | nil => rfl
      | cons ch rest =>
          simp only [step]
          cases shared.snapshot source ch <;> rfl
  | ack _ _ | snapshot _ _ _ | reply _ | done => rfl

/-- The replies, those enqueued and the one owed, answer the requests but the one at hand, of which
`first` had come before the session. -/
def Answered (shared : Shared σ) (first : List Inbound) (stage : Session)
    (received : List Inbound) (_ : Finset String) (log : List ServerMessage) : Prop :=
  ∃ said answered, received = first ++ said ∧
    said.filter Inbound.isRequest = answered ++ stage.pending ∧
    List.Forall₂ (Answers shared) answered ((log ++ stage.owed).filter ServerMessage.isReply)

/-- The session and the others keep the replies in order. -/
theorem answered_kept (shared : Shared σ) (id : ConnectionId) (claims : Claims)
    (first : List Inbound) : World.Kept shared id claims (Answered shared first) where
  overheard := by
    rintro stage received subs log frame ⟨said, answered, split, requests, replies⟩ data
    refine ⟨said, answered, split, requests, ?_⟩
    rw [List.filter_append] at replies
    simpa [List.filter_append, data] using replies
  inbound := by
    rintro stage received subs log message ⟨said, answered, rfl, requests, replies⟩ branch
    rw [Session.pending_of_settled rfl, List.append_nil] at requests
    rw [Session.owed_of_settled rfl, List.append_nil] at replies
    have quiet : message.isRequest = false → stage.pending = [] → stage.owed = [] →
        Answered shared first stage (first ++ said ++ [message]) subs log := by
      intro notRequest none nothing
      refine ⟨said ++ [message], answered, List.append_assoc _ _ _, ?_, ?_⟩
      · simp [List.filter_append, requests, notRequest, none]
      · rwa [nothing, List.append_nil]
    cases message with
    | text text =>
        cases branch
        refine ⟨said ++ [.text text], answered, List.append_assoc _ _ _, ?_, ?_⟩
        · simp [List.filter_append, requests, Inbound.isRequest, Session.pending]
        · simpa [Session.owed, Handling.owed] using replies
    | binary =>
        cases branch
        refine ⟨said ++ [.binary], answered ++ [.binary], List.append_assoc _ _ _, ?_, ?_⟩
        · simp [List.filter_append, requests, Inbound.isRequest, Session.pending]
        · rw [List.filter_append]
          exact List.rel_append replies (.cons rfl .nil)
    | ping payload | pong | frame =>
        cases branch
        exact quiet rfl rfl rfl
    | close | failed _ | ended => cases branch
  goesOn := by
    rintro stage stage' received subs log settled settled'
      ⟨said, answered, split, requests, replies⟩
    refine ⟨said, answered, split, ?_, ?_⟩
    · rw [requests, Session.pending_of_settled settled, Session.pending_of_settled settled']
    · rwa [Session.owed_of_settled settled', ← Session.owed_of_settled settled]
  handled := by
    rintro h received log sent r source joined ⟨said, answered, split, requests, replies⟩ spoken
    have frames : (log ++ sent ++
        Session.owed (.handling (h.step shared id claims source r).2)).filter
          ServerMessage.isReply =
        (log ++ Session.owed (.handling h)).filter ServerMessage.isReply ++
          (h.news shared id claims r).filter ServerMessage.isReply := by
      rw [List.append_assoc]
      change (log ++ (sent ++ (h.step shared id claims source r).2.owed)).filter _ = _
      rw [spoken, ← List.append_assoc, List.filter_append]
      rfl
    have silent : Session.pending (.handling h) = [] →
        (h.news shared id claims r).filter ServerMessage.isReply = [] →
        Answered shared first (.handling (h.step shared id claims source r).2) received
          ((h.step shared id claims source r).1.subscriptionsOf id) (log ++ sent) := by
      intro none nothing
      refine ⟨said, answered, split, ?_, ?_⟩
      · rw [requests, none, Handling.pending_step]
      · rwa [frames, nothing, List.append_nil]
    cases h with
    | start text =>
        obtain ⟨answers, isReply⟩ := Handling.answers shared id claims r text
        refine ⟨said, answered ++ [.text text], split, ?_, ?_⟩
        · rw [requests, Handling.pending_step, List.append_nil]
          rfl
        · rw [frames]
          refine List.rel_append replies ?_
          simp only [Handling.news, List.filter_cons, isReply, ↓reduceIte, List.filter_nil]
          exact .cons answers .nil
    | ack _ _ | snapshots _ | snapshot _ _ _ | reply _ | done => exact silent rfl rfl

/-! ## What a message changes -/

namespace Registry

/-- Two registries agree on the channels of `id`, in its set and in the index. -/
def SameChannels (r r' : Registry ServerMessage) (id : ConnectionId) : Prop :=
  r'.subscriptionsOf id = r.subscriptionsOf id ∧
    ∀ ch, id ∈ r'.byChannel.members ch ↔ id ∈ r.byChannel.members ch

/-- A request changes the channels of the connection it is made for only. -/
theorem sameChannels_subscribe (r : Registry ServerMessage) {id other : ConnectionId}
    (apart : other ≠ id) (channels : List String) (max : Nat) :
    SameChannels r (r.subscribe id channels max).1 other := by
  refine ⟨by simp only [subscriptionsOf, lookup_subscribe, if_neg apart], fun ch => ?_⟩
  unfold Registry.subscribe
  cases r.connections.lookup id with
  | none => exact Iff.rfl
  | some conn =>
      refine Index.mem_members_foldl_link.trans ⟨fun listed => ?_, .inr⟩
      rcases listed with ⟨-, same⟩ | old
      · exact absurd same apart
      · exact old

theorem sameChannels_unsubscribe (r : Registry ServerMessage) {id other : ConnectionId}
    (apart : other ≠ id) (channels : List String) :
    SameChannels r (r.unsubscribe id channels).1 other := by
  refine ⟨by simp only [subscriptionsOf, lookup_unsubscribe, if_neg apart], fun ch => ?_⟩
  unfold Registry.unsubscribe
  cases r.connections.lookup id with
  | none => exact Iff.rfl
  | some conn =>
      refine Index.mem_members_foldl_unlink.trans ⟨fun listed => listed.2, fun old => ⟨?_, old⟩⟩
      exact fun gone => apart gone.2

end Registry

/-- The call a step of `handle` makes changes the subscription sets or the index only for a message
that is `subscribe` or `unsubscribe`, and only this connection's part of them. -/
theorem Handling.changes (shared : Shared σ) (id : ConnectionId) (claims : Claims)
    (r : Registry ServerMessage) (h : Handling) :
    (∀ other, other ≠ id →
      r.SameChannels (r.after (h.op? shared id claims)) other) ∧
    ((∃ text channels, h = .start text ∧
        (shared.fromStr text = .ok (.subscribe channels) ∨
          shared.fromStr text = .ok (.unsubscribe channels))) ∨
      (r.after (h.op? shared id claims)).subscriptionsOf = r.subscriptionsOf ∧
        (r.after (h.op? shared id claims)).byChannel = r.byChannel) := by
  have nothing : ∀ {r' : Registry ServerMessage}, r'.subscriptionsOf = r.subscriptionsOf →
      r'.byChannel = r.byChannel → ∀ other, other ≠ id → r.SameChannels r' other := by
    intro r' subs byChannel other _
    rw [Registry.SameChannels, subs, byChannel]
    exact ⟨rfl, fun _ => Iff.rfl⟩
  have sends : ∀ frame : ServerMessage,
      (r.step (.send id frame)).1.subscriptionsOf = r.subscriptionsOf ∧
        (r.step (.send id frame)).1.byChannel = r.byChannel := by
    intro frame
    obtain ⟨-, byChannel, subs⟩ := r.deliver_spec (.send id frame) rfl id
    exact ⟨subs, byChannel⟩
  cases h with
  | start text =>
      simp only [op?]
      cases parsed : shared.fromStr text with
      | error e => exact ⟨nothing rfl rfl, .inr ⟨rfl, rfl⟩⟩
      | ok message =>
          cases message with
          | subscribe channels =>
              exact ⟨fun other apart => r.sameChannels_subscribe apart _ _,
                .inl ⟨text, channels, rfl, .inl parsed⟩⟩
          | unsubscribe channels =>
              exact ⟨fun other apart => r.sameChannels_unsubscribe apart _,
                .inl ⟨text, channels, rfl, .inr parsed⟩⟩
          | auth _ | ping _ => exact ⟨nothing rfl rfl, .inr ⟨rfl, rfl⟩⟩
  | ack added rejected =>
      obtain ⟨subs, byChannel⟩ := sends (.subscribed added rejected)
      exact ⟨nothing subs byChannel, .inr ⟨subs, byChannel⟩⟩
  | snapshot ch payload rest =>
      obtain ⟨subs, byChannel⟩ := sends (.snapshot ch payload)
      exact ⟨nothing subs byChannel, .inr ⟨subs, byChannel⟩⟩
  | reply frame =>
      obtain ⟨subs, byChannel⟩ := sends frame
      exact ⟨nothing subs byChannel, .inr ⟨subs, byChannel⟩⟩
  | snapshots _ | done => exact ⟨nothing rfl rfl, .inr ⟨rfl, rfl⟩⟩

/-- A message for which the queue has room to its end is taken one step further without a drop, and
still has room. -/
theorem Handling.room_step (shared : Shared σ) {id : ConnectionId} (claims : Claims) (source : σ)
    {r : Registry ServerMessage} {h : Handling} (going : h ≠ .done)
    {conn : Connection ServerMessage} (found : r.connections.lookup id = some conn)
    (room : h.remaining shared ≤ conn.tx.room) :
    (∀ op, h.op? shared id claims = some op → r.dropsFor id op = false) ∧
      ∃ conn', (h.step shared id claims source r).1.connections.lookup id = some conn' ∧
        (h.step shared id claims source r).2.remaining shared ≤ conn'.tx.room := by
  have nearer := Handling.remaining_step shared id claims source r going
  have sends : ∀ frame : ServerMessage, ∃ conn',
      (r.step (.send id frame)).1.connections.lookup id = some conn' ∧
        conn.tx.room - 1 ≤ conn'.tx.room := by
    intro frame
    have entry := (r.deliver_spec (.send id frame) rfl id).1
    rw [Registry.reaches, decide_eq_true rfl, if_pos rfl, found] at entry
    exact ⟨_, entry, (conn.tx.room_trySend frame).ge⟩
  -- a call other than a send leaves the queue as it is
  have after : ∀ op, h.op? shared id claims = some op → ∃ conn',
      (r.step op).1.connections.lookup id = some conn' ∧ conn.tx.room - 1 ≤ conn'.tx.room := by
    intro op called
    cases h with
    | start text =>
        simp only [Handling.op?] at called
        split at called
        · next channels _ =>
            cases called
            have entry := r.lookup_subscribe id (shared.allowed claims channels).1
              shared.config.maxSubscriptions id
            rw [if_pos rfl, found] at entry
            exact ⟨_, entry, Nat.sub_le _ _⟩
        · next channels _ =>
            cases called
            have entry := r.lookup_unsubscribe id channels id
            rw [if_pos rfl, found] at entry
            exact ⟨_, entry, Nat.sub_le _ _⟩
        · cases called
    | ack _ _ | snapshot _ _ _ | reply _ =>
        cases called
        exact sends _
    | snapshots _ | done => cases called
  constructor
  · intro op _
    have taken : conn.tx.accepts = true := BoundedQueue.accepts_iff_room.mpr (by omega)
    have free := (BoundedQueue.accepts_iff.mp taken).2
    have notFull : conn.tx.isFull = false := by
      simp [BoundedQueue.isFull, Nat.not_le.mpr free]
    rw [Registry.dropsFor, found, Option.any_some, notFull, Bool.and_false]
  · rw [Handling.step_fst]
    cases called : h.op? shared id claims with
    | none => exact ⟨conn, found, by omega⟩
    | some op =>
        obtain ⟨conn', found', left⟩ := after op called
        exact ⟨conn', found', by omega⟩

/-- A turn that reads a message in a session takes the message's branch. -/
theorem Turn.takes_branch {r : Registry ServerMessage} {source : σ} {t t' : Task} {e : Effect}
    (turn : Turn shared r source t e t') {id : ConnectionId} {claims : Claims} {stage : Session}
    (phase : t.phase = .session id claims stage) {message : Inbound}
    (read : t'.received = t.received ++ [message]) {next : Session}
    (branch : Session.inbound message = some next) : t'.phase = .session id claims next := by
  cases turn with
  | inbound m was taken =>
      rw [phase] at was
      cases was
      obtain rfl := List.singleton_inj.mp (List.append_cancel_left read)
      rw [branch] at taken
      cases taken
      rfl
  | inboundEnd m was taken =>
      obtain rfl := List.singleton_inj.mp (List.append_cancel_left read)
      rw [branch] at taken
      cases taken
  | authorised _ was _ | refused _ was _ | validatorPanic _ _ was _ =>
      rw [phase] at was
      cases was
  | _ => simp at read

/-- The turns of a session with a message at hand: the application panics, the message is done with,
or it is taken one step further. -/
theorem Turn.handling_cases {r : Registry ServerMessage} {source : σ} {t t' : Task} {e : Effect}
    (turn : Turn shared r source t e t') {id : ConnectionId} {claims : Claims} {h : Handling}
    (phase : t.phase = .session id claims (.handling h)) :
    t'.received = t.received ∧
      (h.CallsOut shared ∧ t'.phase = .leaving id claims ∨
        h = .done ∧ t'.phase = .session id claims .check ∨
        h ≠ .done ∧
          t'.phase = .session id claims (.handling (h.step shared id claims source r).2)) := by
  cases turn with
  | handle was going =>
      rw [phase] at was
      cases was
      exact ⟨rfl, .inr (.inr ⟨going, rfl⟩)⟩
  | handlePanic was calls =>
      rw [phase] at was
      cases was
      exact ⟨rfl, .inl ⟨calls, rfl⟩⟩
  | handled was =>
      rw [phase] at was
      cases was
      exact ⟨rfl, .inr (.inl ⟨rfl, rfl⟩)⟩
  | upgraded was | notUpgraded was | authorised _ was _ | refused _ was _
  | validatorPanic _ _ was _ | refuse _ was | closed was | acknowledge was | notAcknowledged _ was
  | channelPanic was _ | join was _ | timerPanic was _ | start was _ | recv was _ _ | drain was _
  | drained was _ | inbound _ was _ | inboundEnd _ was _ | tick was | timeout was | write was
  | notWritten _ was | fastEnough was _ | tooSlow was _ | sinkClosed was | dropReceiver was
  | unregister was | release was =>
      rw [phase] at was
      cases was

/-- The check of a session below the limit goes on. -/
theorem Turn.checked {r : Registry ServerMessage} {source : σ} {t t' : Task} {e : Effect}
    (turn : Turn shared r source t e t') {id : ConnectionId} {claims : Claims}
    (phase : t.phase = .session id claims .check)
    (few : r.drops id < shared.config.maxConsecutiveDrops) :
    t'.phase = .session id claims .select ∧ t'.received = t.received := by
  cases turn with
  | fastEnough was _ =>
      rw [phase] at was
      cases was
      exact ⟨rfl, rfl⟩
  | tooSlow was many =>
      rw [phase] at was
      cases was
      exact absurd few (UInt64.not_lt.mpr many)
  | upgraded was | notUpgraded was | authorised _ was _ | refused _ was _
  | validatorPanic _ _ was _ | refuse _ was | closed was | acknowledge was | notAcknowledged _ was
  | channelPanic was _ | join was _ | timerPanic was _ | start was _ | recv was _ _ | drain was _
  | drained was _ | inbound _ was _ | inboundEnd _ was _ | tick was | timeout was | write was
  | notWritten _ was | handle was _ | handlePanic was _ | handled was | sinkClosed was
  | dropReceiver was | unregister was | release was =>
      rw [phase] at was
      cases was

/-- A request is handled. -/
theorem Session.inbound_request {message : Inbound} (request : message.isRequest = true) :
    ∃ h, Session.inbound message = some (.handling h) := by
  cases message with
  | text _ | binary => exact ⟨_, rfl⟩
  | ping _ | pong | close | frame | failed _ | ended => cases request

/-- The action is a turn of task `i` or of nobody: another thread publishes, tells clients to
resync, or writes to the snapshot source, or the listener takes or refuses a connection. -/
def Action.noOther (i : Nat) : Action → Bool
  | act j _ => j = i
  | _ => true

namespace World

variable {i : Nat} {id : ConnectionId}

/-- What such an action does to the subscription sets and the index while task `i` is in its
session on `id`. -/
theorem Step.changes {w w' : World σ} {a : Action} (step : Step shared w a w')
    (alone : a.noOther i = true) {t : Task} {claims : Claims} {stage : Session}
    (found : w.tasks[i]? = some t) (phase : t.phase = .session id claims stage) :
    (∀ other, other ≠ id → w.registry.SameChannels w'.registry other) ∧
    ((∃ text channels, stage = .handling (.start text) ∧
        (shared.fromStr text = .ok (.subscribe channels) ∨
          shared.fromStr text = .ok (.unsubscribe channels))) ∨
      w'.registry.subscriptionsOf = w.registry.subscriptionsOf ∧
        w'.registry.byChannel = w.registry.byChannel) := by
  have unchanged : w'.registry.subscriptionsOf = w.registry.subscriptionsOf ∧
      w'.registry.byChannel = w.registry.byChannel →
      (∀ other, other ≠ id → w.registry.SameChannels w'.registry other) ∧
      ((∃ text channels, stage = .handling (.start text) ∧
          (shared.fromStr text = .ok (.subscribe channels) ∨
            shared.fromStr text = .ok (.unsubscribe channels))) ∨
        w'.registry.subscriptionsOf = w.registry.subscriptionsOf ∧
          w'.registry.byChannel = w.registry.byChannel) := by
    intro same
    refine ⟨fun other _ => ?_, .inr same⟩
    rw [Registry.SameChannels, same.1, same.2]
    exact ⟨rfl, fun _ => Iff.rfl⟩
  have registry := step.registry_eq
  cases step with
  | @act j u t' e there turn =>
      obtain rfl : j = i := of_decide_eq_true alone
      obtain rfl := Option.some.inj (found.symm.trans there)
      change _ = w.registry.after e.op? at registry
      have quiet : e.op? = none → _ := fun none => unchanged (by
        rw [registry, none]
        exact ⟨rfl, rfl⟩)
      rcases turn.session_cases phase with ⟨-, none⟩ | ⟨stage', -, turned⟩
      · exact quiet none
      rcases turned with ⟨-, -, none, -, -⟩ | ⟨h, rfl, calls, -, -⟩ | ⟨-, -, none | taking, -⟩
      · exact quiet none
      · obtain ⟨others, changed⟩ := Handling.changes shared id claims w.registry h
        rw [registry, calls]
        refine ⟨others, ?_⟩
        rcases changed with ⟨text, channels, rfl, parsed⟩ | same
        · exact .inl ⟨text, channels, rfl, parsed⟩
        · exact .inr same
      · exact quiet none
      · obtain ⟨byChannel, subs⟩ := Registry.recv_frame w.registry id
        refine unchanged ?_
        rw [registry, taking]
        exact ⟨subs, byChannel⟩
  | publish channel payload =>
      obtain ⟨-, byChannel, subs⟩ :=
        w.registry.deliver_spec (.publish channel (.data channel payload)) rfl id
      exact unchanged ⟨subs, byChannel⟩
  | resync channels channel listed =>
      obtain ⟨-, byChannel, subs⟩ :=
        w.registry.deliver_spec (.publish channel (.resync channels)) rfl id
      exact unchanged ⟨subs, byChannel⟩
  | resyncAll =>
      obtain ⟨-, byChannel, subs⟩ := w.registry.deliver_spec (.broadcast (.resync [])) rfl id
      exact unchanged ⟨subs, byChannel⟩
  | accept _ | refuse _ | update _ => exact unchanged ⟨rfl, rfl⟩

/-- A step in which only task `i` takes turns and no frame is dropped for `id`. -/
def StepAlone (shared : Shared σ) (i : Nat) (id : ConnectionId) (w : World σ) (a : Action)
    (w' : World σ) : Prop :=
  StepDelivering shared id w a w' ∧ a.noOther i = true

/-- A turn that calls nobody. -/
theorem StepAlone.quiet {w : World σ} {t t' : Task} (found : w.tasks[i]? = some t)
    (turn : Turn shared w.registry w.source t .quiet t') :
    StepAlone shared i id w (.act i .quiet) ((w.apply .quiet).put i t') :=
  ⟨⟨.act found turn, fun _ called => by cases called⟩, decide_eq_true rfl⟩

/-- A step of `handle`, by the call it makes. -/
theorem StepAlone.handle {w : World σ} {t : Task} {claims : Claims} {h : Handling} {e : Effect}
    (found : w.tasks[i]? = some t) (phase : t.phase = .session id claims (.handling h))
    (going : h ≠ .done) (effect : (h.op? shared id claims).elim .quiet .call = e)
    (kept : ∀ op, e.op? = some op → w.registry.dropsFor id op = false) :
    StepAlone shared i id w (.act i e) ((w.apply e).put i
      { t with
        phase :=
          .session id claims (.handling (h.step shared id claims w.source w.registry).2) }) :=
  ⟨⟨Step.handle found phase going effect, kept⟩, decide_eq_true rfl⟩

/-- What is called by nobody's turn is called for nobody. -/
theorem spares_of_noOther {a : Action} (alone : a.noOther i = true) (other : ∀ e, a ≠ .act i e)
    (r : Registry ServerMessage) {op : Op ServerMessage} (called : a.op? = some op) :
    r.Spares id op := by
  cases a with
  | act j e =>
      obtain rfl : j = i := of_decide_eq_true alone
      exact absurd rfl (other e)
  | publish _ _ | resync _ _ | resyncAll =>
      cases called
      exact ⟨by simp [Op.target?], by simp [Op.isAdd]⟩
  | accept | refuse | update => cases called

/-! ## Every request is answered -/

/-- Task `t`, the `i`th, takes up every request of its client: it can read one whenever it waits,
and no turn that reads one leaves the session. -/
def TakesUp (shared : Shared σ) (i : Nat) (id : ConnectionId) (claims : Claims) (w : World σ)
    (t : Task) : Prop :=
  ∀ message, message.isRequest = true →
    (t.phase = .session id claims .select → ∃ h w', Step shared w (.act i .quiet) w' ∧
      w'.tasks[i]? = some
        { t with
          phase := .session id claims (.handling h)
          received := t.received ++ [message] }) ∧
    ∀ e w' t', Step shared w (.act i e) w' → w'.tasks[i]? = some t' →
      t'.received = t.received ++ [message] → ∃ h, t'.phase = .session id claims (.handling h)

/-- Task `t`, the `i`th, is done with the message it is handling after finitely many turns: each of
them brings it nearer to the end, unless the application panics in it. -/
def Finishes (shared : Shared σ) (i : Nat) (id : ConnectionId) (claims : Claims) (w : World σ)
    (t : Task) (h : Handling) : Prop :=
  ∀ e w' t', Step shared w (.act i e) w' → w'.tasks[i]? = some t' →
    t'.received = t.received ∧
      (h.CallsOut shared ∧ t'.phase = .leaving id claims ∨
        h = .done ∧ t'.phase = .session id claims .check ∨
        ∃ h', t'.phase = .session id claims (.handling h') ∧
          h'.remaining shared < h.remaining shared)

/-- A step of a task is a turn of it. -/
theorem Step.turn {w w' : World σ} {e : Effect} {t t' : Task}
    (step : Step shared w (.act i e) w') (found : w.tasks[i]? = some t)
    (found' : w'.tasks[i]? = some t') : Turn shared w.registry w.source t e t' := by
  obtain ⟨u, there, how⟩ := step.turn_cases found
  obtain rfl := Option.some.inj (found'.symm.trans there)
  rcases how with ⟨e', same, turn⟩ | ⟨others, -⟩
  · cases same
    exact turn
  · exact absurd rfl (others e)

theorem takesUp {w : World σ} {t : Task} {claims : Claims} {stage : Session}
    (found : w.tasks[i]? = some t) (phase : t.phase = .session id claims stage) :
    TakesUp shared i id claims w t := by
  intro message request
  obtain ⟨h, branch⟩ := Session.inbound_request request
  refine ⟨fun waiting => ?_, fun e w' t' step found' read => ?_⟩
  · exact ⟨h, _, .act found (.inbound message waiting branch), Step.act_task found _ _⟩
  · exact ⟨h, (step.turn found found').takes_branch phase read branch⟩

theorem finishes {w : World σ} {t : Task} {claims : Claims} {h : Handling}
    (found : w.tasks[i]? = some t) (phase : t.phase = .session id claims (.handling h)) :
    Finishes shared i id claims w t h := by
  intro e w' t' step found'
  obtain ⟨received, how⟩ := (step.turn found found').handling_cases phase
  refine ⟨received, ?_⟩
  rcases how with panics | finished | ⟨going, next⟩
  · exact .inl panics
  · exact .inr (.inl finished)
  · exact .inr (.inr ⟨_, next,
      Handling.remaining_step shared id claims w.source w.registry going⟩)

/-- The task brings the message at hand to its end by turns of its own, and drops nothing on the way
if there is room. -/
theorem run_finish (shared : Shared σ) {w : World σ} {t : Task} {claims : Claims} {h : Handling}
    (found : w.tasks[i]? = some t) (phase : t.phase = .session id claims (.handling h)) :
    ∃ own w' t', Run (Step shared) w own w' ∧ (∀ a ∈ own, ∃ e, a = .act i e) ∧
      w'.tasks[i]? = some t' ∧ t'.phase = .session id claims .check ∧
      t'.received = t.received ∧
      ∀ conn, w.registry.connections.lookup id = some conn → h.remaining shared ≤ conn.tx.room →
        Run (StepAlone shared i id) w own w' := by
  generalize bound : h.remaining shared = n
  induction n using Nat.strongRecOn generalizing w t h with
  | ind n ih =>
      by_cases finished : h = .done
      · subst finished
        have last : Turn shared w.registry w.source t .quiet _ := .handled phase
        refine ⟨_, _, _, .single (.act found last), ?_, Step.act_task found _ _, rfl, rfl, ?_⟩
        · simp
        · exact fun _ _ _ => .single (.quiet found last)
      · have step : Step shared w _ _ := Step.handle found phase finished rfl
        have nearer := Handling.remaining_step shared id claims w.source w.registry finished
        have there := Step.act_task found ((h.op? shared id claims).elim .quiet .call)
          { t with
            phase := .session id claims
              (.handling (h.step shared id claims w.source w.registry).2) }
        obtain ⟨own, w', t', run, mine, found', phase', received, alone⟩ :=
          ih _ (bound ▸ nearer) there rfl rfl
        refine ⟨_, w', t', .cons step run, ?_, found', phase', received, ?_⟩
        · intro a mem
          rcases List.mem_cons.mp mem with rfl | later
          · exact ⟨_, rfl⟩
          · exact mine a later
        · intro conn entry room
          obtain ⟨kept, conn', entry', room'⟩ :=
            Handling.room_step shared claims w.source finished entry (bound ▸ room)
          refine .cons (.handle found phase finished rfl fun op called => kept op ?_)
            (alone conn' ?_ room')
          · cases calls : h.op? shared id claims with
            | none =>
                rw [calls] at called
                cases called
            | some _ =>
                rw [calls] at called
                exact called
          · rw [← registry_apply_handle] at entry'
            exact entry'

section FromJoin

variable {w₀ w₁ w : World σ} {subject : String} {sendQueue : Nat}
  (joins : Step shared w₀ (.act i (.join subject sendQueue)) w₁) {as : List Action}

include joins

/-- What the replies come to over a run, while no message is at hand. -/
theorem run_replies {t₁ t : Task} (found₁ : w₁.tasks[i]? = some t₁)
    (run : Run (StepAlone shared i ⟨w₀.registry.nextId⟩) w₁ as w)
    (found : w.tasks[i]? = some t) {claims : Claims} {stage : Session}
    (phase : t.phase = .session ⟨w₀.registry.nextId⟩ claims stage)
    (settled : stage.settled = true) :
    ∃ said, t.received = t₁.received ++ said ∧
      List.Forall₂ (Answers shared) (said.filter Inbound.isRequest)
        ((history ⟨w₀.registry.nextId⟩ w₁ as).filter ServerMessage.isReply) := by
  obtain ⟨u, claims₁, there, starting, joined, -, -⟩ := Talking.of_join joins
  obtain rfl := Option.some.inj (there.symm.trans found₁)
  have begun : Talking (Answered shared u.received) i ⟨w₀.registry.nextId⟩ claims₁ [] w₁ :=
    ⟨u, there, .inr ⟨.starting, starting, joined, [], [], (List.append_nil _).symm, rfl, .nil⟩⟩
  have ended := run_history shared ⟨w₀.registry.nextId⟩
    (I := fun _ log w => Talking (Answered shared u.received) i ⟨w₀.registry.nextId⟩ claims₁ log w)
    (as.countP Action.isJoin) (n := 0) (fun step => step.1.1)
    (fun _ talking step => talking.step (answered_kept shared _ claims₁ u.received) step.1
      fun other _ op called => spares_of_noOther step.2 other _ called) run (by omega) begun
  obtain ⟨t', found', here⟩ := ended
  obtain rfl := Option.some.inj (found.symm.trans found')
  rcases here with left | ⟨stage', phase', -, said, answered, received, requests, replies⟩
  · rw [phase] at left
    cases left
  · rw [phase] at phase'
    cases phase'
    rw [Session.pending_of_settled settled, List.append_nil] at requests
    rw [Session.owed_of_settled settled, List.append_nil, List.nil_append] at replies
    exact ⟨said, received, requests ▸ replies⟩

/-- A connection for which nothing is dropped has no streak. -/
theorem run_drops (run : Run (StepAlone shared i ⟨w₀.registry.nextId⟩) w₁ as w) :
    w.registry.drops ⟨w₀.registry.nextId⟩ = 0 := by
  refine run.invariant (I := fun w => w.registry.drops ⟨w₀.registry.nextId⟩ = 0) ?_ ?_
  · intro u a v zero step
    rw [step.1.1.registry_eq]
    cases called : a.op? with
    | none => exact zero
    | some op => exact Registry.drops_eq_zero_step zero (step.1.2 op called)
  · have entry := w₀.registry.lookup_add subject sendQueue ⟨w₀.registry.nextId⟩
    rw [if_pos rfl] at entry
    rw [joins.registry_eq]
    exact Registry.drops_of_lookup entry

end FromJoin

/-- **Replies in order.**  From the moment a client is registered, however publishes, resyncs and
updates come in between: if no frame is dropped for the connection, then whenever its session has no
message at hand, the frames enqueued for it other than `data`, `snapshot` and `resync` answer the
text and binary messages it has received, one by one and in order.

No message is left out.  A session that waits takes up whatever text or binary message comes, and
never leaves because of one; each turn on a message brings it nearer to its end, unless the
application panics, and turns of the task alone take it there, with the reply enqueued and, if the
queue has room for all it may come to, without a drop; and the check that comes after it lets the
session go on.

And no step changes the subscription sets or the index but that of a `subscribe` or `unsubscribe`
message, which changes only this connection's part. -/
theorem replies_in_order (shared : Shared σ) (i : Nat) (w₀ w₁ w : World σ) (subject : String)
    (sendQueue : Nat) (joins : Step shared w₀ (.act i (.join subject sendQueue)) w₁)
    (as : List Action) (run : Run (StepAlone shared i ⟨w₀.registry.nextId⟩) w₁ as w)
    (t₁ t : Task) (found₁ : w₁.tasks[i]? = some t₁) (found : w.tasks[i]? = some t)
    (claims : Claims) (stage : Session)
    (phase : t.phase = .session ⟨w₀.registry.nextId⟩ claims stage) :
    (stage.settled = true → ∃ said, t.received = t₁.received ++ said ∧
      List.Forall₂ (Answers shared) (said.filter Inbound.isRequest)
        ((history ⟨w₀.registry.nextId⟩ w₁ as).filter ServerMessage.isReply)) ∧
    TakesUp shared i ⟨w₀.registry.nextId⟩ claims w t ∧
    (∀ h, stage = .handling h →
      Finishes shared i ⟨w₀.registry.nextId⟩ claims w t h ∧
      ∃ own w' t', Run (Step shared) w own w' ∧ (∀ a ∈ own, ∃ e, a = .act i e) ∧
        w'.tasks[i]? = some t' ∧ t'.phase = .session ⟨w₀.registry.nextId⟩ claims .check ∧
        t'.received = t.received ∧
        (∀ conn, w.registry.connections.lookup ⟨w₀.registry.nextId⟩ = some conn →
          h.remaining shared ≤ conn.tx.room →
          Run (StepAlone shared i ⟨w₀.registry.nextId⟩) w own w') ∧
        (Run (StepAlone shared i ⟨w₀.registry.nextId⟩) w own w' →
          ∃ said, t'.received = t₁.received ++ said ∧
            List.Forall₂ (Answers shared) (said.filter Inbound.isRequest)
              ((history ⟨w₀.registry.nextId⟩ w₁ (as ++ own)).filter ServerMessage.isReply))) ∧
    (stage = .check → 0 < shared.config.maxConsecutiveDrops →
      (∃ e w', Step shared w (.act i e) w') ∧
      ∀ e w' t', Step shared w (.act i e) w' → w'.tasks[i]? = some t' →
        t'.phase = .session ⟨w₀.registry.nextId⟩ claims .select ∧ t'.received = t.received) ∧
    ∀ a w', Step shared w a w' → a.noOther i = true →
      (∀ other, other ≠ ⟨w₀.registry.nextId⟩ → w.registry.SameChannels w'.registry other) ∧
      ((∃ text channels, stage = .handling (.start text) ∧
          (shared.fromStr text = .ok (.subscribe channels) ∨
            shared.fromStr text = .ok (.unsubscribe channels))) ∨
        w'.registry.subscriptionsOf = w.registry.subscriptionsOf ∧
          w'.registry.byChannel = w.registry.byChannel) := by
  refine ⟨run_replies joins found₁ run found phase, takesUp found phase, ?_, ?_,
    fun a w' step alone => step.changes alone found phase⟩
  · intro h handling
    subst handling
    obtain ⟨own, w', t', turns, mine, found', phase', received, room⟩ :=
      run_finish shared found phase
    refine ⟨finishes found phase, own, w', t', turns, mine, found', phase', received, room, ?_⟩
    intro alone
    exact run_replies joins found₁ (run.append alone) found' phase' rfl
  · intro checking lenient
    subst checking
    have few : w.registry.drops ⟨w₀.registry.nextId⟩ < shared.config.maxConsecutiveDrops := by
      rw [run_drops joins run]
      exact lenient
    refine ⟨⟨_, _, .act found (.fastEnough phase few)⟩, fun e w' t' step found' => ?_⟩
    exact (step.turn found found').checked phase few

/-- A client asks for a pong. -/
def pingText : String :=
  "\x7b\"type\":\"ping\",\"timestamp\":1\x7d"

/-- The small server, with clients that also ping. -/
def chatty : Shared LastValue :=
  { demo with
    fromStr text := if text = pingText then .ok (.ping 1) else demo.fromStr text }

/-- A client of that server has just been registered. -/
def greeted : World LastValue :=
  (start chatty LastValue.new).welcome chatty (Claims.new "alice") authText

/-- The client sends a text that is no message, a ping, a request and a binary frame, and everyone
is told to resync before the first of them is answered. -/
def chat : List Action :=
  [.act 0 .quiet,
    .act 0 .quiet, .act 0 .quiet, .resyncAll,
    .act 0 (.call (.send ⟨1⟩ (.error .invalidMessage "expected value at line 1 column 1"))),
    .act 0 .quiet, .act 0 .quiet,
    .act 0 .quiet, .act 0 .quiet, .act 0 (.call (.send ⟨1⟩ (.pong 1))), .act 0 .quiet,
    .act 0 .quiet,
    .act 0 .quiet, .act 0 (.call (.subscribe ⟨1⟩ ["x"] 256)),
    .act 0 (.call (.send ⟨1⟩ (.subscribed ["x"] []))), .act 0 .quiet, .act 0 .quiet,
    .act 0 .quiet, .act 0 .quiet,
    .act 0 .quiet,
    .act 0 (.call (.send ⟨1⟩ (.error .protocol "binary frames are not part of this protocol"))),
    .act 0 .quiet, .act 0 .quiet]

theorem run_chat :
    ∃ (w : World LastValue) (t : Task), Run (StepAlone chatty 0 ⟨1⟩) greeted chat w ∧
      w.tasks[0]? = some t ∧ t.phase = .session ⟨1⟩ (Claims.new "alice") .select ∧
      t.received =
        [.text authText, .text "\x7bnot json", .text pingText, .text subscribeText, .binary] := by
  have period : 0 < chatty.config.heartbeatInterval := by decide
  have going : ∀ {text}, Handling.start text ≠ .done := by simp
  have replies : ∀ {frame}, Handling.reply frame ≠ .done := by simp
  have answers : Handling.ack ["x"] [] ≠ .done := by simp
  have reads : ∀ {rest}, Handling.snapshots rest ≠ .done := by simp
  have run : Run (StepAlone chatty 0 ⟨1⟩) greeted chat _ :=
    .cons (.quiet rfl (.start rfl period)) <|
    .cons (.quiet rfl (.inbound (.text "\x7bnot json") rfl rfl)) <|
    .cons (.handle rfl rfl going rfl fun _ called => by cases called) <|
    .cons ⟨⟨.resyncAll, fun _ called => by cases called; rfl⟩, rfl⟩ <|
    .cons (.handle rfl rfl replies rfl fun _ called => by cases called; rfl) <|
    .cons (.quiet rfl (.handled rfl)) <|
    .cons (.quiet rfl (.fastEnough rfl (of_decide_eq_true rfl))) <|
    .cons (.quiet rfl (.inbound (.text pingText) rfl rfl)) <|
    .cons (.handle rfl rfl going rfl fun _ called => by cases called) <|
    .cons (.handle rfl rfl replies rfl fun _ called => by cases called; rfl) <|
    .cons (.quiet rfl (.handled rfl)) <|
    .cons (.quiet rfl (.fastEnough rfl (of_decide_eq_true rfl))) <|
    .cons (.quiet rfl (.inbound (.text subscribeText) rfl rfl)) <|
    .cons (.handle rfl rfl going rfl fun _ called => by cases called; rfl) <|
    .cons (.handle rfl rfl answers rfl fun _ called => by cases called; rfl) <|
    .cons (.handle rfl rfl reads rfl fun _ called => by cases called) <|
    .cons (.handle rfl rfl reads rfl fun _ called => by cases called) <|
    .cons (.quiet rfl (.handled rfl)) <|
    .cons (.quiet rfl (.fastEnough rfl (of_decide_eq_true rfl))) <|
    .cons (.quiet rfl (.inbound .binary rfl rfl)) <|
    .cons (.handle rfl rfl replies rfl fun _ called => by cases called; rfl) <|
    .cons (.quiet rfl (.handled rfl)) <|
    .cons (.quiet rfl (.fastEnough rfl (of_decide_eq_true rfl))) <| .nil _
  exact ⟨_, _, run, rfl, rfl, rfl⟩

/-- The four messages are answered one by one, and the session is ready for the next. -/
theorem replies_in_order_chat :
    ∃ (w : World LastValue) (t : Task),
      Step chatty ((start chatty LastValue.new).acknowledged (Claims.new "alice") authText)
        (.act 0 (.join "alice" 256)) greeted ∧
      Run (StepAlone chatty 0 ⟨1⟩) greeted chat w ∧ w.tasks[0]? = some t ∧
      List.Forall₂ (Answers chatty)
        [.text "\x7bnot json", .text pingText, .text subscribeText, .binary]
        ((history ⟨1⟩ greeted chat).filter ServerMessage.isReply) ∧
      t.phase = .session ⟨1⟩ (Claims.new "alice") .select ∧
      TakesUp chatty 0 ⟨1⟩ (Claims.new "alice") w t := by
  have capacity : 0 < chatty.config.sendQueue ∧ chatty.config.sendQueue ≤ maxPermits := by decide
  have joins := step_welcome chatty (start chatty LastValue.new) (Claims.new "alice") authText
    capacity
  obtain ⟨w, t, run, found, phase, received⟩ := run_chat
  obtain ⟨answered, takes, -⟩ := replies_in_order chatty 0 _ _ w "alice" 256 joins _ run _ t rfl
    found (Claims.new "alice") .select phase
  obtain ⟨said, split, replies⟩ := answered rfl
  rw [received] at split
  obtain rfl := (List.cons.inj split).2
  exact ⟨w, t, joins, run, found, replies, phase, takes⟩

end World

end WsFanout
