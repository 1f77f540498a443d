import WsFanout.ServerTalk
import WsFanout.ServerWrap

/-!
# The subscriptions a client reads off its acknowledgements

A client learns what it is subscribed to from the `subscribed` and `unsubscribed` frames alone.
`replay` is what it computes from them, refusing a name that is added twice or removed without being
there.  `World.acks_replay` says that the two replicas agree: on a connection for which no frame is
dropped, replaying its queue's history gives the set the registry holds, whenever no message is at
hand.
-/

namespace WsFanout

open Lib

variable {σ : Type} {shared : Shared σ}

/-- Add each name, none of which may be there. -/
def addAll : Finset String → List String → Option (Finset String)
  | held, [] => some held
  | held, ch :: rest => if ch ∈ held then none else addAll (insert ch held) rest

/-- Remove each name, all of which must be there. -/
def removeAll : Finset String → List String → Option (Finset String)
  | held, [] => some held
  | held, ch :: rest => if ch ∈ held then removeAll (held.erase ch) rest else none

/-- What one frame makes of the names the client believes it holds. -/
def ServerMessage.acknowledge (held : Finset String) : ServerMessage → Option (Finset String)
  | subscribed channels _ => addAll held channels
  | unsubscribed channels => removeAll held channels
  | _ => some held

/-- What a queue's history makes of them. -/
def replay (held : Finset String) (frames : List ServerMessage) : Option (Finset String) :=
  frames.foldlM ServerMessage.acknowledge held

theorem replay_append (held : Finset String) (frames more : List ServerMessage) :
    replay held (frames ++ more) = (replay held frames).bind (replay · more) :=
  List.foldlM_append

/-- The loop of `subscribe` adds names the client can add. -/
theorem addAll_subscribeLoop (max : Nat) (subs : Finset String) (channels : List String) :
    addAll subs (Registry.subscribeLoop max subs channels).2.1 =
      some (Registry.subscribeLoop max subs channels).1 := by
  induction channels generalizing subs with
  | nil => rfl
  | cons ch rest ih =>
      unfold Registry.subscribeLoop
      by_cases held : ch ∈ subs
      · rw [if_pos held]
        exact ih subs
      · rw [if_neg held]
        by_cases full : max ≤ subs.card
        · rw [if_pos full]
          exact ih subs
        · rw [if_neg full, addAll, if_neg held]
          exact ih (insert ch subs)

/-- The loop of `unsubscribe` removes names the client can remove. -/
theorem removeAll_unsubscribeLoop (subs : Finset String) (channels : List String) :
    removeAll subs (Registry.unsubscribeLoop subs channels).2 =
      some (Registry.unsubscribeLoop subs channels).1 := by
  induction channels generalizing subs with
  | nil => rfl
  | cons ch rest ih =>
      unfold Registry.unsubscribeLoop
      by_cases held : ch ∈ subs
      · rw [if_pos held, removeAll, if_pos held]
        exact ih (subs.erase ch)
      · rw [if_neg held]
        exact ih subs

/-- What a step of `handle` decides to say is what it does to the set. -/
theorem Handling.replay_news {id : ConnectionId} {claims : Claims} {r : Registry ServerMessage}
    (joined : r.Joined id) (source : σ) (h : Handling) :
    replay (r.subscriptionsOf id) (h.news shared id claims r) =
      some ((h.step shared id claims source r).1.subscriptionsOf id) := by
  have sends : ∀ frame : ServerMessage,
      (r.send id frame).1.subscriptionsOf id = r.subscriptionsOf id :=
    fun frame => congrFun (r.deliver_spec (.send id frame) rfl id).2.2 id
  cases h with
  | start text =>
      simp only [news, answer, step]
      cases shared.fromStr text with
      | error e => rfl
      | ok message =>
          cases message with
          | subscribe channels =>
              have added := Registry.added_subscribe joined (shared.allowed claims channels).1
                shared.config.maxSubscriptions
              have left := Registry.subscriptionsOf_subscribe joined
                (shared.allowed claims channels).1 shared.config.maxSubscriptions
              rw [← (Registry.subscribeLoop_spec _ _ _).1] at left
              change (addAll _ (r.subscribe id _ _).2.1).bind some = some _
              rw [added, addAll_subscribeLoop, left]
              rfl
          | unsubscribe channels =>
              obtain ⟨-, -, left, removed⟩ := joined.unsubscribe channels
              change (removeAll _ (r.unsubscribe id channels).2).bind some = some _
              rw [removed, removeAll_unsubscribeLoop, left]
              rfl
          | auth _ | ping _ => rfl
  | snapshots rest =>
      cases rest with
      | nil => rfl
      | cons ch rest =>
          simp only [step]
          cases shared.snapshot source ch <;> rfl
  | ack _ _ | snapshot _ _ _ | reply _ => exact congrArg some (sends _).symm
  | done => rfl

/-- The frames enqueued, and the one owed, replay to the set the connection holds. -/
def Replayed (stage : Session) (_ : List Inbound) (subs : Finset String)
    (log : List ServerMessage) : Prop :=
  replay ∅ (log ++ stage.owed) = some subs

theorem replayed_kept (shared : Shared σ) (id : ConnectionId) (claims : Claims) :
    World.Kept shared id claims Replayed where
  overheard := by
    intro stage received subs log frame known data
    have ignored : ∀ held, frame.acknowledge held = some held := by
      intro held
      cases frame with
      | subscribed _ _ | unsubscribed _ => cases data
      | authenticated _ | data _ _ | snapshot _ _ | resync _ | pong _ | error _ _ => rfl
    rw [Replayed, replay_append] at known ⊢
    rw [replay_append]
    cases first : replay ∅ log with
    | none =>
        rw [first] at known
        cases known
    | some held =>
        rw [first] at known
        simpa [replay, ignored] using known
  inbound := by
    intro stage received subs log message known branch
    rw [Replayed, Session.owed_of_settled rfl, List.append_nil] at known
    rw [Replayed, replay_append, known]
    cases message with
    | text _ | binary | ping _ | pong | frame =>
        cases branch
        rfl
    | close | failed _ | ended => cases branch
  goesOn := by
    intro stage stage' received subs log settled settled' known
    rw [Replayed, Session.owed_of_settled settled] at known
    rwa [Replayed, Session.owed_of_settled settled']
  handled := by
    intro h received log sent r source joined known spoken
    rw [Replayed, List.append_assoc]
    change replay ∅ (log ++ (sent ++ (h.step shared id claims source r).2.owed)) = _
    rw [spoken, ← List.append_assoc, replay_append]
    change (replay ∅ (log ++ Session.owed (.handling h))).bind _ = _
    rw [known]
    exact Handling.replay_news joined source h

namespace World

/-- **The client's replica.**  In every run with at most `2 ^ 64` registrations, from the moment a
client is registered and however the other tasks and the publishers act in between: if no frame is
dropped for the connection, then whenever its session has no message at hand, replaying the
acknowledgements in its queue's history from the empty set succeeds, so no name is added that is
there and none removed that is not, and gives the set the registry holds for the connection. -/
theorem acks_replay (shared : Shared σ) (source : σ) (as bs : List Action) (w₀ w₁ w : World σ)
    (reached : Run (Step shared) (start shared source) as w₀) (i : Nat) (subject : String)
    (sendQueue : Nat) (joins : Step shared w₀ (.act i (.join subject sendQueue)) w₁)
    (run : Run (StepDelivering shared ⟨w₀.registry.nextId⟩) w₁ bs w)
    (registrations : as.countP Action.isJoin + 1 + bs.countP Action.isJoin ≤ 2 ^ 64)
    (t : Task) (found : w.tasks[i]? = some t) (claims : Claims) (stage : Session)
    (phase : t.phase = .session ⟨w₀.registry.nextId⟩ claims stage)
    (settled : stage.settled = true) :
    replay ∅ (history ⟨w₀.registry.nextId⟩ w₁ bs) =
      some (w.registry.subscriptionsOf ⟨w₀.registry.nextId⟩) := by
  obtain ⟨gate, owners⟩ := Owners.of_run reached (by omega)
  have gate₁ := gate.step joins
  have owners₁ : Owners (as.countP Action.isJoin + 1) w₁ :=
    owners.step joins (by simp only [List.countP_singleton, Action.isJoin, ↓reduceIte]; omega)
  obtain ⟨u, claims₁, there, starting, joined, empty, -⟩ := Talking.of_join joins
  have begun : Talking Replayed i ⟨w₀.registry.nextId⟩ claims₁ [] w₁ :=
    ⟨u, there, .inr ⟨.starting, starting, joined, congrArg some empty.symm⟩⟩
  obtain ⟨-, -, t', found', here⟩ := run_history shared ⟨w₀.registry.nextId⟩
    (I := fun n log w => GateInv shared w ∧ Owners n w ∧
      Talking Replayed i ⟨w₀.registry.nextId⟩ claims₁ log w)
    (2 ^ 64) (fun step => step.1)
    (fun below inv step => ⟨inv.1.step step.1, inv.2.1.step step.1 below,
      inv.2.2.step (replayed_kept shared _ claims₁) step fun other session op called => by
        obtain ⟨s, stage, there, phase⟩ := session
        exact inv.2.1.spares inv.1 step.1 below there (by rw [phase]; rfl) other called⟩)
    run registrations ⟨gate₁, owners₁, begun⟩
  obtain rfl := Option.some.inj (found.symm.trans found')
  rcases here with left | ⟨stage', phase', -, known⟩
  · rw [phase] at left
    cases left
  · rw [phase] at phase'
    cases phase'
    rwa [Replayed, Session.owed_of_settled settled, List.append_nil, List.nil_append] at known

/-- The first client of `guarded` asks for `x` and is answered. -/
def asking : List Action :=
  [.act 0 .quiet, .act 0 .quiet, .act 0 (.call (.subscribe ⟨1⟩ ["x"] 256)),
    .act 0 (.call (.send ⟨1⟩ (.subscribed ["x"] []))), .act 0 .quiet, .act 0 .quiet]

/-- That client has just been registered. -/
def admitted : World LastValue :=
  (start guarded LastValue.new).welcome guarded (Claims.new "alice") authText

/-- That client after its request was answered. -/
def answered : World LastValue :=
  { admitted with
    registry :=
      admitted.registry.run [.subscribe ⟨1⟩ ["x"] 256, .send ⟨1⟩ (.subscribed ["x"] [])]
    tasks := [{ registeredTask ⟨1⟩ (Claims.new "alice") authText with
      phase := .session ⟨1⟩ (Claims.new "alice") (.handling .done)
      received := [.text authText, .text subscribeText] }] }

theorem run_asking : Run (StepDelivering guarded ⟨1⟩) admitted asking answered := by
  have period : 0 < guarded.config.heartbeatInterval := by decide
  have asks : Handling.start subscribeText ≠ .done := by simp
  have answers : Handling.ack ["x"] [] ≠ .done := by simp
  have reads : Handling.snapshots ["x"] ≠ .done := by simp
  have ends : Handling.snapshots [] ≠ .done := by simp
  refine .cons ⟨.act rfl (.start rfl period), fun _ called => by cases called⟩ ?_
  refine .cons ⟨.act rfl (.inbound (.text subscribeText) rfl rfl),
    fun _ called => by cases called⟩ ?_
  refine .cons ⟨Step.handle rfl rfl asks rfl, fun _ called => by cases called; rfl⟩ ?_
  refine .cons ⟨Step.handle rfl rfl answers rfl, fun _ called => by cases called; rfl⟩ ?_
  refine .cons ⟨Step.handle rfl rfl reads rfl, fun _ called => by cases called⟩ ?_
  exact .cons ⟨Step.handle rfl rfl ends rfl, fun _ called => by cases called⟩ (.nil _)

/-- The server up to that answer. -/
theorem run_answered :
    Run (Step guarded) (start guarded LastValue.new)
      (connecting 0 (Claims.new "alice") 256 ++ asking) answered := by
  have parsed : guarded.fromStr authText = .ok (.auth "t") := rfl
  have capacity : 0 < guarded.config.sendQueue ∧ guarded.config.sendQueue ≤ maxPermits := by decide
  have connected := run_connecting guarded (start guarded LastValue.new) (by decide) parsed rfl
    capacity
  exact connected.append (run_asking.mono fun step => step.1)

/-- The client's replica after its first request. -/
theorem acks_replay_subscribed :
    Run (StepDelivering guarded ⟨1⟩) admitted asking answered ∧
      replay ∅ (history ⟨1⟩ admitted asking) = some (answered.registry.subscriptionsOf ⟨1⟩) := by
  have parsed : guarded.fromStr authText = .ok (.auth "t") := rfl
  have capacity : 0 < guarded.config.sendQueue ∧ guarded.config.sendQueue ≤ maxPermits := by decide
  have reached := run_acknowledged guarded (start guarded LastValue.new) (by decide) parsed rfl
  have joins := step_welcome guarded (start guarded LastValue.new) (Claims.new "alice") authText
    capacity
  exact ⟨run_asking, acks_replay guarded LastValue.new _ _ _ _ answered reached 0 _ _ joins
    run_asking (by decide) _ rfl (Claims.new "alice") (.handling .done) rfl rfl⟩

end World

/-! ## An id issued twice -/

namespace Registry

variable {F : Type}

theorem enqueued_append (id : ConnectionId) (r : Registry F) (ops ops' : List (Op F)) :
    enqueued id r (ops ++ ops') = enqueued id r ops ++ enqueued id (r.run ops) ops' := by
  induction ops generalizing r with
  | nil => rfl
  | cons op ops ih => rw [List.cons_append, enqueued, enqueued, ih, run_cons, List.append_assoc]

/-- Operations that carry no frame put nothing on any queue. -/
theorem enqueued_of_silent (id : ConnectionId) (r : Registry F) (ops : List (Op F))
    (silent : ∀ op ∈ ops, op.frame? = none) : enqueued id r ops = [] := by
  induction ops generalizing r with
  | nil => rfl
  | cons op ops ih =>
      have later := ih (r.step op).1 fun o listed => silent o (List.mem_cons_of_mem _ listed)
      rw [enqueued, later, List.append_nil]
      exact drop_queueOf_of_silent r (silent op List.mem_cons_self) id

end Registry

namespace World

/-- Where nothing is delivered, nothing is dropped. -/
theorem delivering_of_silent {w w' : World σ} {as : List Action} (id : ConnectionId)
    (run : Run (Step shared) w as w') (silent : ∀ a ∈ as, a.frame? = none) :
    Run (StepDelivering shared id) w as w' := by
  induction run with
  | nil => exact .nil _
  | @cons w u w' a as step rest ih =>
      refine .cons ⟨step, fun op called => ?_⟩ (ih fun b listed =>
        silent b (List.mem_cons_of_mem _ listed))
      have none : op.frame? = none := by
        have quiet := silent a List.mem_cons_self
        rwa [Action.frame?, called] at quiet
      cases op with
      | publish _ _ | broadcast _ | send _ _ => cases none
      | add _ _ | remove _ | subscribe _ _ _ | unsubscribe _ _ | recv _ | close _ => rfl

/-- The id of a subscribed client is issued once more: its acknowledgements still say `x`, and the
registry holds nothing under its id. -/
theorem acks_replay_wrapped :
    Run (Step guarded) (start guarded LastValue.new)
      (connecting 0 (Claims.new "alice") guarded.config.sendQueue) admitted ∧
    ∃ (bs : List Action) (w : World LastValue) (t : Task),
      Run (StepDelivering guarded ⟨1⟩) admitted bs w ∧ w.tasks[0]? = some t ∧
      t.phase = .session ⟨1⟩ (Claims.new "alice") (.handling .done) ∧
      replay ∅ (history ⟨1⟩ admitted bs) ≠ some (w.registry.subscriptionsOf ⟨1⟩) := by
  have parsed : guarded.fromStr authText = .ok (.auth "t") := rfl
  have capacity : 0 < guarded.config.sendQueue ∧ guarded.config.sendQueue ≤ maxPermits := by decide
  refine ⟨run_connecting guarded (start guarded LastValue.new) (by decide) parsed rfl capacity, ?_⟩
  obtain ⟨bs, v, crowd, silent, entry, -, t', i, found, same, -, -⟩ :=
    run_crowd answered _ rfl rfl rfl (by decide)
  refine ⟨asking ++ bs, v, t', run_asking.append (delivering_of_silent _ crowd silent), found,
    same, ?_⟩
  have quiet : ∀ op ∈ bs.filterMap Action.op?, op.frame? = none := by
    intro op listed
    obtain ⟨a, member, called⟩ := List.mem_filterMap.mp listed
    have none := silent a member
    rwa [Action.frame?, called] at none
  have log : history ⟨1⟩ admitted (asking ++ bs) = [.subscribed ["x"] []] := by
    rw [history, List.filterMap_append, Registry.enqueued_append,
      Registry.enqueued_of_silent _ _ _ quiet, List.append_nil]
    rfl
  rw [log, Registry.subscriptionsOf_of_lookup entry]
  decide

end World

end WsFanout
