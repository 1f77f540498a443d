import WsFanout.ServerSlots

/-!
# What a connection's queue says to its client

The history of one connection's queue, in a server where every other task and publisher acts in
between.  A session handles one message after the other, and what it is going to say about the
message at hand is `Session.owed`: the frame that `handle` or the session is about to enqueue.
`World.Talking` carries a predicate of the session's stage, of what the client has sent, of the
connection's channels and of the frames enqueued so far; `World.Talking.run` shows it over whole
runs from what the two parties do.
-/

namespace WsFanout

open Lib

/-! ## One message -/

namespace Handling

/-- The frame about to be enqueued about the message at hand. -/
def owed : Handling → List ServerMessage
  | ack added rejected => [.subscribed added rejected]
  | reply frame => [frame]
  | _ => []

variable {σ : Type} (shared : Shared σ) (id : ConnectionId) (claims : Claims)

/-- The reply to a client message that arrives in `r`. -/
def answer (r : Registry ServerMessage) (text : String) : ServerMessage :=
  match shared.fromStr text with
  | .error e => .error .invalidMessage e
  | .ok (.auth _) => .error .alreadyAuthenticated "auth is accepted only as the first message"
  | .ok (.subscribe channels) =>
    let (_, oversized) := shared.sized channels
    let (allowed, unauthorized) := shared.allowed claims channels
    let (_, added, overLimit) := r.subscribe id allowed shared.config.maxSubscriptions
    .subscribed added (rejections oversized unauthorized overLimit)
  | .ok (.unsubscribe channels) => .unsubscribed (r.unsubscribe id channels).2
  | .ok (.ping timestamp) => .pong timestamp

/-- What the next step decides to say. -/
def news (r : Registry ServerMessage) : Handling → List ServerMessage
  | start text => [answer shared id claims r text]
  | snapshot ch payload _ => [.snapshot ch payload]
  | _ => []

variable {shared id claims}

/-- What a step does to the queue of the connection it is taken for: the frames it enqueues and the
frame it then owes are the frame it owed and what it decides to say. -/
theorem step_spoken (source : σ) {r : Registry ServerMessage} (joined : r.Joined id) (h : Handling)
    (kept : ∀ op, h.op? shared id claims = some op → r.dropsFor id op = false) :
    (h.step shared id claims source r).1.Joined id ∧
      ∃ sent, (h.step shared id claims source r).1.queueOf id = r.queueOf id ++ sent ∧
        sent ++ (h.step shared id claims source r).2.owed =
          h.owed ++ h.news shared id claims r := by
  cases h with
  | start text =>
      simp only [step, news, answer, owed, List.nil_append]
      cases shared.fromStr text with
      | error e => exact ⟨joined, [], (List.append_nil _).symm, rfl⟩
      | ok message =>
          cases message with
          | subscribe channels =>
              obtain ⟨joined', queue⟩ := joined.subscribe (shared.allowed claims channels).1
                shared.config.maxSubscriptions
              exact ⟨joined', [], by rw [queue, List.append_nil], rfl⟩
          | unsubscribe channels =>
              obtain ⟨joined', queue, -⟩ := joined.unsubscribe channels
              exact ⟨joined', [], by rw [queue, List.append_nil], rfl⟩
          | auth _ | ping _ => exact ⟨joined, [], (List.append_nil _).symm, rfl⟩
  | ack added rejected =>
      obtain ⟨joined', queue⟩ := joined.send (.subscribed added rejected) (kept _ rfl)
      exact ⟨joined', _, queue, rfl⟩
  | snapshots rest =>
      cases rest with
      | nil => exact ⟨joined, [], (List.append_nil _).symm, rfl⟩
      | cons ch rest =>
          simp only [step]
          cases shared.snapshot source ch with
          | none => exact ⟨joined, [], (List.append_nil _).symm, rfl⟩
          | some payload => exact ⟨joined, [], (List.append_nil _).symm, rfl⟩
  | snapshot ch payload rest =>
      obtain ⟨joined', queue⟩ := joined.send (.snapshot ch payload) (kept _ rfl)
      exact ⟨joined', _, queue, rfl⟩
  | reply frame =>
      obtain ⟨joined', queue⟩ := joined.send frame (kept _ rfl)
      exact ⟨joined', _, queue, rfl⟩
  | done => exact ⟨joined, [], (List.append_nil _).symm, rfl⟩

end Handling

/-! ## One session -/

namespace Session

/-- The frame about to be enqueued about the message at hand. -/
def owed : Session → List ServerMessage
  | handling h => h.owed
  | _ => []

/-- A session without a message at hand owes nothing. -/
theorem owed_of_settled {stage : Session} (settled : stage.settled = true) : stage.owed = [] := by
  cases stage with
  | handling h =>
      obtain rfl : h = .done := of_decide_eq_true settled
      rfl
  | starting | select | writing _ | check | closing => rfl

end Session

variable {σ : Type} {shared : Shared σ}

namespace ServerMessage

/-- A reply to a message of the client; not `data`, `snapshot` or `resync`. -/
def isReply : ServerMessage → Bool
  | data _ _ => false
  | snapshot _ _ => false
  | resync _ => false
  | _ => true

end ServerMessage

namespace World

/-- A step that drops no frame for `id`. -/
def StepDelivering (shared : Shared σ) (id : ConnectionId) (w : World σ) (a : Action)
    (w' : World σ) : Prop :=
  Step shared w a w' ∧ ∀ op, a.op? = some op → w.registry.dropsFor id op = false

/-- The frames the actions `as` put on the queue of `id`, in order. -/
def history (id : ConnectionId) (w : World σ) (as : List Action) : List ServerMessage :=
  w.registry.enqueued id (as.filterMap Action.op?)

/-- What another's step puts on the queue of `id` is no reply. -/
theorem Step.overheard {w w' : World σ} {a : Action} (step : Step shared w a w')
    {op : Op ServerMessage} {id : ConnectionId} {frame : ServerMessage} (called : a.op? = some op)
    (elsewhere : op.target? ≠ some id) (reached : w.registry.reaches id op = true)
    (carries : op.frame? = some frame) : frame.isReply = false := by
  cases step with
  | act found turn =>
      obtain ⟨i, claims, h, -, calls⟩ := turn.delivers called carries
      have sends : ∃ i f, op = .send i f := by
        cases h with
        | start text =>
            simp only [Handling.op?] at calls
            split at calls <;> cases calls <;> cases carries
        | ack _ _ | snapshot _ _ _ | reply _ =>
            cases calls
            exact ⟨_, _, rfl⟩
        | snapshots _ | done => cases calls
      obtain ⟨j, f, rfl⟩ := sends
      exact absurd (congrArg some (of_decide_eq_true reached).symm) elsewhere
  | publish _ _ | resync _ _ _ | resyncAll =>
      cases called
      cases carries
      rfl
  | accept _ | refuse _ | update _ => cases called

/-- A predicate of a session that its turns and the steps of others keep: of its stage, what the
client has sent, the channels of the connection and the frames enqueued for it. -/
structure Kept (shared : Shared σ) (id : ConnectionId) (claims : Claims)
    (Q : Session → List Inbound → Finset String → List ServerMessage → Prop) : Prop where
  overheard : ∀ {stage received subs log frame}, Q stage received subs log →
    ServerMessage.isReply frame = false → Q stage received subs (log ++ [frame])
  inbound : ∀ {stage received subs log message}, Q .select received subs log →
    Session.inbound message = some stage → Q stage (received ++ [message]) subs log
  goesOn : ∀ {stage stage' received subs log}, stage.settled = true → stage'.settled = true →
    Q stage received subs log → Q stage' received subs log
  handled : ∀ {h received log sent} {r : Registry ServerMessage} (source : σ), r.Joined id →
    Q (.handling h) received (r.subscriptionsOf id) log →
    sent ++ (h.step shared id claims source r).2.owed = h.owed ++ h.news shared id claims r →
    Q (.handling (h.step shared id claims source r).2) received
      ((h.step shared id claims source r).1.subscriptionsOf id) (log ++ sent)

/-- Task `i` is in its session on `id`, of which `Q` holds, or has left it. -/
def Talking (Q : Session → List Inbound → Finset String → List ServerMessage → Prop) (i : Nat)
    (id : ConnectionId) (claims : Claims) (log : List ServerMessage) (w : World σ) : Prop :=
  ∃ t : Task, w.tasks[i]? = some t ∧
    (t.phase.left = true ∨
      ∃ stage, t.phase = .session id claims stage ∧ w.registry.Joined id ∧
        Q stage t.received (w.registry.subscriptionsOf id) log)

variable {Q : Session → List Inbound → Finset String → List ServerMessage → Prop}
  {id : ConnectionId} {claims : Claims} {i : Nat} {log : List ServerMessage}

/-- A turn of the session itself. -/
theorem Kept.turn {r : Registry ServerMessage} {source : σ} {t t' : Task} {e : Effect}
    {stage : Session} (holds : Kept shared id claims Q) (turn : Turn shared r source t e t')
    (phase : t.phase = .session id claims stage) (joined : r.Joined id)
    (known : Q stage t.received (r.subscriptionsOf id) log)
    (kept : ∀ op, e.op? = some op → r.dropsFor id op = false) :
    t'.phase.left = true ∨
      ∃ stage', t'.phase = .session id claims stage' ∧ (r.after e.op?).Joined id ∧
        Q stage' t'.received ((r.after e.op?).subscriptionsOf id)
          (log ++ ((r.after e.op?).queueOf id).drop (r.queueOf id).length) := by
  have nothing : (r.queueOf id).drop (r.queueOf id).length = [] := List.drop_length
  rcases turn.session_cases phase with ⟨leaving, -⟩ | ⟨stage', phase', turned⟩
  · refine .inl ?_
    rw [leaving]
    rfl
  refine .inr ⟨stage', phase', ?_⟩
  rcases turned with ⟨message, rfl, quiet, branch, received⟩ | ⟨h, rfl, calls, rfl, received⟩ |
    ⟨settled, settled', calls, received⟩
  · rw [quiet, Registry.after, received, nothing, List.append_nil]
    exact ⟨joined, holds.inbound known branch⟩
  · have after : r.after e.op? = (h.step shared id claims source r).1 := by
      rw [Handling.step_fst, calls]
      cases h.op? shared id claims <;> rfl
    obtain ⟨joined', sent, queue, spoken⟩ := Handling.step_spoken source joined h
      fun op called => kept op (calls.trans called)
    rw [after, received, queue, List.drop_left]
    exact ⟨joined', holds.handled source joined known spoken⟩
  · rcases calls with quiet | taking
    · rw [quiet, Registry.after, received, nothing, List.append_nil]
      exact ⟨joined, holds.goesOn settled settled' known⟩
    · obtain ⟨joined', subs, drained⟩ := joined.recv
      rw [taking, Registry.after, received, subs, drained, List.append_nil]
      exact ⟨joined', holds.goesOn settled settled' known⟩

/-- A step of another, whose call is not for this connection. -/
theorem Kept.other {w w' : World σ} {a : Action} {stage : Session} {received : List Inbound}
    (holds : Kept shared id claims Q) (step : Step shared w a w')
    (joined : w.registry.Joined id)
    (known : Q stage received (w.registry.subscriptionsOf id) log)
    (spares : ∀ op, a.op? = some op → w.registry.Spares id op)
    (kept : ∀ op, a.op? = some op → w.registry.dropsFor id op = false) :
    (w.registry.after a.op?).Joined id ∧
      Q stage received ((w.registry.after a.op?).subscriptionsOf id)
        (log ++ ((w.registry.after a.op?).queueOf id).drop (w.registry.queueOf id).length) := by
  cases called : a.op? with
  | none =>
      rw [Registry.after, List.drop_length, List.append_nil]
      exact ⟨joined, known⟩
  | some op =>
      obtain ⟨joined', subs, queue⟩ := joined.spared (spares op called) (kept op called)
      rw [Registry.after, subs, queue, List.drop_left]
      refine ⟨joined', ?_⟩
      cases reached : w.registry.reaches id op with
      | false => simpa using known
      | true =>
          rw [if_pos rfl]
          cases carries : op.frame? with
          | none => simpa using known
          | some frame =>
              exact holds.overheard known
                (step.overheard called (spares op called).1 reached carries)

/-- One step, when whatever others call is not for this connection. -/
theorem Talking.step {w w' : World σ} {a : Action} (talking : Talking Q i id claims log w)
    (holds : Kept shared id claims Q) (step : StepDelivering shared id w a w')
    (spares : (∀ e, a ≠ .act i e) →
      (∃ (t : Task) (stage : Session), w.tasks[i]? = some t ∧ t.phase = .session id claims stage) →
      ∀ op, a.op? = some op → w.registry.Spares id op) :
    Talking Q i id claims
      (log ++ (w'.registry.queueOf id).drop (w.registry.queueOf id).length) w' := by
  obtain ⟨step, kept⟩ := step
  obtain ⟨t, found, here⟩ := talking
  obtain ⟨t', found', how⟩ := step.turn_cases found
  refine ⟨t', found', ?_⟩
  rw [step.registry_eq]
  rcases how with ⟨e, rfl, turn⟩ | ⟨other, samePhase, -, sameReceived, -⟩
  · rcases here with left | ⟨stage, phase, joined, known⟩
    · exact .inl (turn.left_kept left)
    · exact holds.turn turn phase joined known kept
  · rw [samePhase, sameReceived]
    rcases here with left | ⟨stage, phase, joined, known⟩
    · exact .inl left
    · exact .inr ⟨stage, phase, holds.other step joined known
        (spares other ⟨t, stage, found, phase⟩) kept⟩

/-- The rule for what is said over whole runs: an invariant of the frames enqueued for `id` so far,
and of the number of registrations while that stays within a bound. -/
theorem run_history (shared : Shared σ) (id : ConnectionId)
    {R : World σ → Action → World σ → Prop} {I : Nat → List ServerMessage → World σ → Prop}
    (bound : Nat)
    (steps : ∀ {w a w'}, R w a w' → Step shared w a w')
    (preserved : ∀ {n log w a w'}, n + [a].countP Action.isJoin ≤ bound → I n log w → R w a w' →
      I (n + [a].countP Action.isJoin)
        (log ++ (w'.registry.queueOf id).drop (w.registry.queueOf id).length) w')
    {w w' : World σ} {as : List Action} (run : Run R w as w') {n : Nat} {log : List ServerMessage}
    (within : n + as.countP Action.isJoin ≤ bound) (first : I n log w) :
    I (n + as.countP Action.isJoin) (log ++ history id w as) w' := by
  induction run generalizing n log with
  | nil => simpa [history, Registry.enqueued] using first
  | @cons w u w' a as step rest ih =>
      have split : (a :: as).countP Action.isJoin =
          [a].countP Action.isJoin + as.countP Action.isJoin := by
        rw [← List.countP_append, List.singleton_append]
      have registry := (steps step).registry_eq
      have logs : history id w (a :: as) =
          (u.registry.queueOf id).drop (w.registry.queueOf id).length ++ history id u as := by
        rw [registry]
        cases called : a.op? with
        | none =>
            rw [called] at registry
            simp [history, called, Registry.after, registry]
        | some op =>
            rw [called] at registry
            simp [history, called, Registry.after, registry,
              Registry.enqueued]
      rw [split, ← Nat.add_assoc] at within ⊢
      rw [logs, ← List.append_assoc]
      exact ih within (preserved (Nat.le_trans (Nat.le_add_right _ _) within) first step)

/-- The world right after task `i` registered: its session is about to start, on an empty queue. -/
theorem Talking.of_join {w w' : World σ} {subject : String} {sendQueue : Nat}
    (joins : Step shared w (.act i (.join subject sendQueue)) w') :
    ∃ t claims, w'.tasks[i]? = some t ∧
      t.phase = .session ⟨w.registry.nextId⟩ claims .starting ∧
      w'.registry.Joined ⟨w.registry.nextId⟩ ∧
      w'.registry.subscriptionsOf ⟨w.registry.nextId⟩ = ∅ ∧
      w'.registry.queueOf ⟨w.registry.nextId⟩ = [] := by
  have registry := joins.registry_eq
  cases joins with
  | @act _ t t' e found turn =>
      obtain ⟨claims, -, -, -, rfl⟩ := turn.adds rfl rfl
      have entry := w.registry.lookup_add subject sendQueue ⟨w.registry.nextId⟩
      rw [if_pos rfl] at entry
      refine ⟨_, claims, Step.act_task found _ _, rfl, ?_⟩
      rw [registry]
      exact ⟨⟨_, entry, rfl⟩, Registry.subscriptionsOf_of_lookup entry,
        Registry.queueOf_of_lookup entry⟩

/-- A step of `handle`, by the call it makes. -/
theorem Step.handle {w : World σ} {i : Nat} {t : Task} {id : ConnectionId} {claims : Claims}
    {h : Handling} {e : Effect} (found : w.tasks[i]? = some t)
    (phase : t.phase = .session id claims (.handling h)) (going : h ≠ .done)
    (effect : (h.op? shared id claims).elim .quiet .call = e) :
    Step shared w (.act i e) ((w.apply e).put i
      { t with
        phase :=
          .session id claims (.handling (h.step shared id claims w.source w.registry).2) }) :=
  effect ▸ .act found (.handle phase going)

end World

end WsFanout
