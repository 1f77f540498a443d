import WsFanout.Server

/-!
# What a step of the server changes

`World.Step.registry_eq` reduces a step to at most one operation of the registry, and
`World.Step.task_cases` says what it does to each task: one task takes its turn, and another loses
its entry if the turn registers or unregisters the same id.  The invariants of the server are
proved from these two and from the turns of a single task.
-/

namespace WsFanout

open Lib

variable {σ : Type}

/-- The registry operation behind an effect. -/
def Effect.op? : Effect → Option (Op ServerMessage)
  | call op => some op
  | join subject sendQueue => some (.add subject sendQueue)
  | unregister id => some (.remove id)
  | _ => none

/-- What an effect does to the tasks that do not take the turn. -/
def Effect.bystander (r : Registry ServerMessage) : Effect → Task → Task
  | join _ _ => Task.detach ⟨r.nextId⟩ (r.queueOf ⟨r.nextId⟩)
  | unregister id => Task.detach id (r.queueOf id)
  | _ => id

/-- The registry operation behind an action. -/
def Action.op? : Action → Option (Op ServerMessage)
  | act _ e => e.op?
  | publish channel payload => some (.publish channel (.data channel payload))
  | resync channels channel => some (.publish channel (.resync channels))
  | resyncAll => some (.broadcast (.resync []))
  | _ => none

/-- The registry after at most one operation. -/
def Registry.after (r : Registry ServerMessage) : Option (Op ServerMessage) →
    Registry ServerMessage
  | none => r
  | some op => (r.step op).1

namespace Task

@[simp] theorem detach_phase (id : ConnectionId) (buffer : List ServerMessage) (t : Task) :
    (t.detach id buffer).phase = t.phase := by
  unfold detach
  split <;> rfl

@[simp] theorem detach_id (id : ConnectionId) (buffer : List ServerMessage) (t : Task) :
    (t.detach id buffer).id = t.id := by
  unfold detach
  split <;> rfl

@[simp] theorem detach_received (id : ConnectionId) (buffer : List ServerMessage) (t : Task) :
    (t.detach id buffer).received = t.received := by
  unfold detach
  split <;> rfl

@[simp] theorem detach_texts (id : ConnectionId) (buffer : List ServerMessage) (t : Task) :
    (t.detach id buffer).texts = t.texts := by
  unfold detach
  split <;> rfl

end Task

/-- Only the handling of a client's message puts a frame on a queue. -/
theorem Turn.delivers {shared : Shared σ} {r : Registry ServerMessage} {source : σ} {t t' : Task}
    {e : Effect} (turn : Turn shared r source t e t') {op : Op ServerMessage}
    {frame : ServerMessage} (called : e.op? = some op) (carries : op.frame? = some frame) :
    ∃ id claims h, t.phase = .session id claims (.handling h) ∧
      h.op? shared id claims = some op := by
  cases turn with
  | @handle id claims h phase going =>
      refine ⟨id, claims, h, phase, ?_⟩
      cases calls : h.op? shared id claims with
      | none =>
          rw [calls] at called
          cases called
      | some _ =>
          rw [calls] at called
          cases called
          rfl
  | dropReceiver phase =>
      split at called
      · cases called
        cases carries
      · cases called
  | recv _ _ _ | join _ _ | unregister _ =>
      cases called
      cases carries
  | _ => cases called

/-- Handling a message registers nobody. -/
theorem Handling.isAdd_op? {shared : Shared σ} {id : ConnectionId} {claims : Claims}
    {h : Handling} {op : Op ServerMessage} (called : h.op? shared id claims = some op) :
    op.isAdd = false := by
  cases h with
  | start text =>
      simp only [Handling.op?] at called
      split at called <;> cases called <;> rfl
  | ack _ _ | snapshot _ _ _ | reply _ =>
      cases called
      rfl
  | snapshots _ | done => cases called

/-- A subscription is asked for only by a task that handles its client's request. -/
theorem Turn.requests {shared : Shared σ} {r : Registry ServerMessage} {source : σ} {t t' : Task}
    {e : Effect} (turn : Turn shared r source t e t') {id : ConnectionId} {channels : List String}
    {max : Nat} (called : e.op? = some (.subscribe id channels max)) :
    ∃ claims text requested, t.phase = .session id claims (.handling (.start text)) ∧
      channels = (shared.allowed claims requested).1 ∧ max = shared.config.maxSubscriptions := by
  cases turn with
  | @handle id' claims h phase going =>
      cases h with
      | start text =>
          simp only [Handling.op?] at called
          split at called
          · next requested parsed =>
              cases called
              exact ⟨claims, text, requested, phase, rfl, rfl⟩
          · cases called
          · cases called
      | ack _ _ | snapshots _ | snapshot _ _ _ | reply _ | done => cases called
  | dropReceiver phase => split at called <;> cases called
  | _ => cases called

/-- A task that registers has acknowledged its client, and takes the next id. -/
theorem Turn.adds {shared : Shared σ} {r : Registry ServerMessage} {source : σ} {t t' : Task}
    {e : Effect} (turn : Turn shared r source t e t') {op : Op ServerMessage}
    (called : e.op? = some op) (isAdd : op.isAdd = true) :
    ∃ claims, t.phase = .joining claims ∧ op = .add claims.subject shared.config.sendQueue ∧
      e = .join claims.subject shared.config.sendQueue ∧
      t' = { t with
        phase := .session ⟨r.nextId⟩ claims .starting
        id := some ⟨r.nextId⟩
        rx := .attached } := by
  cases turn with
  | @join claims phase capacity =>
      cases called
      exact ⟨claims, phase, rfl, rfl, rfl⟩
  | @handle id claims h phase going =>
      cases calls : h.op? shared id claims with
      | none =>
          rw [calls] at called
          cases called
      | some _ =>
          rw [calls] at called
          cases called
          rw [Handling.isAdd_op? calls] at isAdd
          cases isAdd
  | dropReceiver phase =>
      split at called
      · cases called
        cases isAdd
      · cases called
  | recv _ _ _ | unregister _ =>
      cases called
      cases isAdd
  | _ => cases called

/-- Only the last drop of a task ends it, and an ended task takes no turn. -/
theorem Turn.ended_iff {shared : Shared σ} {r : Registry ServerMessage} {source : σ} {t t' : Task}
    {e : Effect} (turn : Turn shared r source t e t') :
    t.phase ≠ .ended ∧ (t'.phase = .ended ↔ e = .release) := by
  cases turn with
  | @handle id claims h phase going =>
      refine ⟨by simp [phase], ?_⟩
      cases h.op? shared id claims <;> simp
  | dropReceiver phase =>
      refine ⟨by simp [phase], ?_⟩
      split <;> simp
  | upgraded phase | notUpgraded phase | authorised _ phase _ | refused _ phase _
  | validatorPanic _ _ phase _ | refuse _ phase | closed phase | acknowledge phase
  | notAcknowledged _ phase | channelPanic phase _ | join phase _ | timerPanic phase _
  | start phase _ | recv phase _ _ | drain phase _ | drained phase _ | inbound _ phase _
  | inboundEnd _ phase _ | tick phase | timeout phase | write phase | notWritten _ phase
  | handlePanic phase _ | handled phase | fastEnough phase _ | tooSlow phase _ | sinkClosed phase
  | unregister phase | release phase =>
      exact ⟨by simp [phase], by simp⟩

/-- A task stands for its entry until its guard is dropped. -/
theorem Turn.registered {shared : Shared σ} {r : Registry ServerMessage} {source : σ}
    {t t' : Task} {e : Effect} (turn : Turn shared r source t e t') {id : ConnectionId}
    {claims : Claims} (stands : t.phase.registered? = some (id, claims)) :
    t'.phase.registered? = some (id, claims) ∨ e = .unregister id := by
  cases turn with
  | unregister phase =>
      rw [phase] at stands
      cases stands
      exact .inr rfl
  | upgraded phase | notUpgraded phase | authorised _ phase _ | refused _ phase _
  | validatorPanic _ _ phase _ | refuse _ phase | closed phase | acknowledge phase
  | notAcknowledged _ phase | channelPanic phase _ | join phase _ | timerPanic phase _
  | start phase _ | recv phase _ _ | drain phase _ | drained phase _ | inbound _ phase _
  | inboundEnd _ phase _ | tick phase | timeout phase | write phase | notWritten _ phase
  | handle phase _ | handlePanic phase _ | handled phase | fastEnough phase _ | tooSlow phase _
  | sinkClosed phase | dropReceiver phase | release phase =>
      rw [phase] at stands
      cases stands
      try exact .inl rfl

/-- A task stands for an entry because it did before, or because it has just registered. -/
theorem Turn.registered_before {shared : Shared σ} {r : Registry ServerMessage} {source : σ}
    {t t' : Task} {e : Effect} (turn : Turn shared r source t e t') {id : ConnectionId}
    {claims : Claims} (stands : t'.phase.registered? = some (id, claims)) :
    t.phase.registered? = some (id, claims) ∨
      (id = ⟨r.nextId⟩ ∧ ∃ subject sendQueue, e = .join subject sendQueue) := by
  cases turn with
  | join phase _ =>
      cases stands
      exact .inr ⟨rfl, _, _, rfl⟩
  | upgraded phase | notUpgraded phase | authorised _ phase _ | refused _ phase _
  | validatorPanic _ _ phase _ | refuse _ phase | closed phase | acknowledge phase
  | notAcknowledged _ phase | channelPanic phase _ | timerPanic phase _ | start phase _
  | recv phase _ _ | drain phase _ | drained phase _ | inbound _ phase _ | inboundEnd _ phase _
  | tick phase | timeout phase | write phase | notWritten _ phase | handle phase _
  | handlePanic phase _ | handled phase | fastEnough phase _ | tooSlow phase _ | sinkClosed phase
  | dropReceiver phase | unregister phase | release phase =>
      cases stands
      try exact .inl (by rw [phase]; rfl)

/-- A task takes a new id only by registering. -/
theorem Turn.id_cases {shared : Shared σ} {r : Registry ServerMessage} {source : σ}
    {t t' : Task} {e : Effect} (turn : Turn shared r source t e t') :
    t'.id = t.id ∨
      (t'.id = some ⟨r.nextId⟩ ∧ ∃ subject sendQueue, e = .join subject sendQueue) := by
  cases turn with
  | join phase _ => exact .inr ⟨rfl, _, _, rfl⟩
  | _ => exact .inl rfl

/-- What has been written stays written. -/
theorem Turn.texts_grow {shared : Shared σ} {r : Registry ServerMessage} {source : σ}
    {t t' : Task} {e : Effect} (turn : Turn shared r source t e t') :
    ∃ more, t'.texts = t.texts ++ more := by
  cases turn with
  | refuse _ _ | acknowledge _ | notAcknowledged _ _ | write _ | notWritten _ _ =>
      exact ⟨_, List.filterMap_append⟩
  | _ => exact ⟨[], (List.append_nil _).symm⟩

section Turns

variable {shared : Shared σ}

/-! ## The turns of a session -/

/-- No message is at hand. -/
def Session.settled : Session → Bool
  | handling h => h = .done
  | _ => true

/-- The turns of a session: it is left, a message comes in, the message at hand is taken one step
further, or the session goes on without one. -/
theorem Turn.session_cases {r : Registry ServerMessage} {source : σ} {t t' : Task} {e : Effect}
    (turn : Turn shared r source t e t') {id : ConnectionId} {claims : Claims} {stage : Session}
    (phase : t.phase = .session id claims stage) :
    (t'.phase = .leaving id claims ∧ e.op? = none) ∨
    ∃ stage', t'.phase = .session id claims stage' ∧
      ((∃ message, stage = .select ∧ e.op? = none ∧ Session.inbound message = some stage' ∧
          t'.received = t.received ++ [message]) ∨
        (∃ h, stage = .handling h ∧ e.op? = h.op? shared id claims ∧
          stage' = .handling (h.step shared id claims source r).2 ∧ t'.received = t.received) ∨
        (stage.settled = true ∧ stage'.settled = true ∧
          (e.op? = none ∨ e.op? = some (.recv id)) ∧ t'.received = t.received)) := by
  cases turn with
  | inbound message was branch =>
      rw [phase] at was
      cases was
      exact .inr ⟨_, rfl, .inl ⟨message, rfl, rfl, branch, rfl⟩⟩
  | @handle i claims' h was going =>
      rw [phase] at was
      cases was
      refine .inr ⟨_, rfl, .inr (.inl ⟨h, rfl, ?_, rfl, rfl⟩)⟩
      cases h.op? shared id claims <;> rfl
  | recv was _ _ =>
      rw [phase] at was
      cases was
      exact .inr ⟨_, rfl, .inr (.inr ⟨rfl, rfl, .inr rfl, rfl⟩)⟩
  | start was _ | drain was _ | tick was | timeout was | write was | handled was
  | fastEnough was _ | tooSlow was _ =>
      rw [phase] at was
      cases was
      exact .inr ⟨_, rfl, .inr (.inr ⟨rfl, rfl, .inl rfl, rfl⟩)⟩
  | timerPanic was _ | drained was _ | inboundEnd _ was _ | notWritten _ was | handlePanic was _
  | sinkClosed was =>
      rw [phase] at was
      cases was
      exact .inl ⟨rfl, rfl⟩
  | upgraded was | notUpgraded was | authorised _ was _ | refused _ was _
  | validatorPanic _ _ was _ | refuse _ was | closed was | acknowledge was | notAcknowledged _ was
  | channelPanic was _ | join was _ | dropReceiver was | unregister was | release was =>
      rw [phase] at was
      cases was

/-- The session of a task is over. -/
def Phase.left : Phase → Bool
  | leaving _ _ => true
  | unregistering _ _ => true
  | releasing => true
  | ended => true
  | _ => false

/-- No task comes back to its session. -/
theorem Turn.left_kept {r : Registry ServerMessage} {source : σ} {t t' : Task} {e : Effect}
    (turn : Turn shared r source t e t') (left : t.phase.left = true) :
    t'.phase.left = true := by
  cases turn with
  | dropReceiver _ | unregister _ | release _ => rfl
  | start was _ | recv was _ _ | drain was _ | inbound _ was _ | tick was | timeout was | write was
  | handle was _ | handled was | fastEnough was _ | tooSlow was _ | timerPanic was _
  | drained was _ | inboundEnd _ was _ | notWritten _ was | handlePanic was _ | sinkClosed was
  | upgraded was | notUpgraded was | authorised _ was _ | refused _ was _
  | validatorPanic _ _ was _ | refuse _ was | closed was | acknowledge was | notAcknowledged _ was
  | channelPanic was _ | join was _ =>
      rw [was] at left
      cases left

/-- An entry is removed only by the guard of its task. -/
theorem Turn.removes {r : Registry ServerMessage} {source : σ} {t t' : Task} {e : Effect}
    (turn : Turn shared r source t e t') {id : ConnectionId} (called : e.op? = some (.remove id)) :
    ∃ claims, t.phase = .unregistering id claims := by
  cases turn with
  | @unregister i claims phase =>
      cases called
      exact ⟨claims, phase⟩
  | @handle i claims h phase going =>
      cases h with
      | start text =>
          simp only [Handling.op?] at called
          split at called <;> cases called
      | ack _ _ | snapshots _ | snapshot _ _ _ | reply _ | done => cases called
  | dropReceiver phase => split at called <;> cases called
  | _ => cases called

/-- A task calls the registry for its own connection only. -/
theorem Turn.targets {r : Registry ServerMessage} {source : σ} {t t' : Task} {e : Effect}
    (turn : Turn shared r source t e t') {op : Op ServerMessage} {id : ConnectionId}
    (called : e.op? = some op) (target : op.target? = some id) :
    ∃ claims, t.phase.registered? = some (id, claims) := by
  cases turn with
  | @handle i claims h phase going =>
      rw [phase]
      cases h with
      | start text =>
          simp only [Handling.op?] at called
          split at called <;> cases called <;> cases target <;> exact ⟨_, rfl⟩
      | ack _ _ | snapshot _ _ _ | reply _ =>
          cases called
          cases target
          exact ⟨_, rfl⟩
      | snapshots _ | done => cases called
  | dropReceiver phase =>
      rw [phase]
      split at called
      · cases called
        cases target
        exact ⟨_, rfl⟩
      · cases called
  | recv phase _ _ | unregister phase =>
      rw [phase]
      cases called
      cases target
      exact ⟨_, rfl⟩
  | join _ _ =>
      cases called
      cases target
  | _ => cases called

end Turns

/-- A task that does not take the turn keeps all but its end of the queue. -/
theorem Effect.bystander_keeps (r : Registry ServerMessage) (e : Effect) (t : Task) :
    (e.bystander r t).phase = t.phase ∧ (e.bystander r t).id = t.id ∧
      (e.bystander r t).received = t.received ∧ (e.bystander r t).texts = t.texts := by
  cases e <;> simp [bystander]

namespace World

theorem registry_apply (w : World σ) (e : Effect) :
    (w.apply e).registry = w.registry.after e.op? := by
  cases e <;> rfl

/-- A turn that handles a message is that step of `handle` on the server's registry. -/
theorem registry_apply_handle (shared : Shared σ) (w : World σ) (id : ConnectionId)
    (claims : Claims) (h : Handling) :
    (w.apply ((h.op? shared id claims).elim .quiet .call)).registry =
      (h.step shared id claims w.source w.registry).1 := by
  rw [Handling.step_fst]
  cases h.op? shared id claims <;> rfl

theorem tasks_apply (w : World σ) (e : Effect) :
    (w.apply e).tasks = w.tasks.map (e.bystander w.registry) := by
  cases e <;> simp [apply, Effect.bystander]

namespace Step

variable {shared : Shared σ} {w w' : World σ} {a : Action}

/-- A step makes at most one call on the registry. -/
theorem registry_eq (step : Step shared w a w') : w'.registry = w.registry.after a.op? := by
  cases step with
  | act found turn => exact registry_apply w _
  | accept _ | refuse _ | publish _ _ | resync _ _ _ | resyncAll | update _ => rfl

/-- A step registers a connection exactly when its call is an `add`. -/
theorem isJoin_iff (step : Step shared w a w') :
    a.isJoin = true ↔ ∃ op, a.op? = some op ∧ op.isAdd = true := by
  constructor
  · intro joins
    cases a with
    | act i e =>
        cases e with
        | join subject sendQueue => exact ⟨_, rfl, rfl⟩
        | quiet | call _ | unregister _ | release | timeout => cases joins
    | accept | refuse | publish _ _ | resync _ _ | resyncAll | update => cases joins
  · rintro ⟨op, called, isAdd⟩
    cases step with
    | act found turn =>
        obtain ⟨claims, -, -, rfl, -⟩ := turn.adds called isAdd
        rfl
    | publish _ _ | resync _ _ _ | resyncAll =>
        cases called
        cases isAdd
    | accept _ | refuse _ | update _ => cases called

/-- The registry stays consistent, one id further on after a step that registers. -/
theorem consistent (step : Step shared w a w') {n : Nat} (inv : w.registry.Consistent n)
    (below : n + [a].countP Action.isJoin ≤ 2 ^ 64) :
    w'.registry.Consistent (n + [a].countP Action.isJoin) := by
  rw [step.registry_eq]
  have joins := step.isJoin_iff
  cases called : a.op? with
  | none =>
      have others : a.isJoin = false := by simpa [called] using joins
      simpa [Registry.after, others] using inv
  | some op =>
      have same : [op].countP Op.isAdd = [a].countP Action.isJoin := by
        have iff : op.isAdd = a.isJoin := by
          rw [Bool.eq_iff_iff, joins, called]
          simp
        simp [List.countP_cons, iff]
      rw [← same] at below ⊢
      exact inv.step op below

/-- The task a step finds at `j`, and the one it leaves there. -/
theorem task_cases (step : Step shared w a w') {j : Nat} {t' : Task}
    (found' : w'.tasks[j]? = some t') :
    (∃ t e, a = .act j e ∧ w.tasks[j]? = some t ∧ Turn shared w.registry w.source t e t') ∨
    (∃ t, w.tasks[j]? = some t ∧ (∀ e, a ≠ .act j e) ∧
      (t' = t ∨ ∃ i e, a = .act i e ∧ t' = e.bystander w.registry t)) ∨
    (a = .accept ∧ j = w.tasks.length ∧ t' = {}) := by
  cases step with
  | accept free =>
      rw [List.getElem?_append] at found'
      split at found'
      · exact .inr (.inl ⟨t', found', by simp, .inl rfl⟩)
      · obtain ⟨inside, rfl⟩ := List.getElem?_eq_some_iff.mp found'
        simp only [List.length_singleton] at inside
        exact .inr (.inr ⟨rfl, by omega, by simp⟩)
  | @act i t u e found turn =>
      simp only [put, tasks_apply, List.getElem?_set, List.getElem?_map, List.length_map] at found'
      rcases eq_or_ne i j with rfl | mine
      · rw [if_pos rfl] at found'
        split at found'
        · cases found'
          exact .inl ⟨t, e, rfl, found, turn⟩
        · cases found'
      · rw [if_neg mine] at found'
        obtain ⟨t₀, old, rfl⟩ := Option.map_eq_some_iff.mp found'
        refine .inr (.inl ⟨t₀, old, ?_, .inr ⟨i, e, rfl, rfl⟩⟩)
        intro e' same
        cases same
        exact mine rfl
  | refuse _ | publish _ _ | resync _ _ _ | resyncAll | update _ =>
      exact .inr (.inl ⟨t', found', by simp, .inl rfl⟩)

/-- No task is forgotten. -/
theorem length_le (step : Step shared w a w') : w.tasks.length ≤ w'.tasks.length := by
  cases step with
  | act found turn => simp [put, tasks_apply]
  | accept _ => simp
  | refuse _ | publish _ _ | resync _ _ _ | resyncAll | update _ => exact Nat.le_refl _

/-- A task that was there is still there. -/
theorem task_kept (step : Step shared w a w') {j : Nat} {t : Task}
    (found : w.tasks[j]? = some t) : ∃ t', w'.tasks[j]? = some t' := by
  obtain ⟨inside, -⟩ := List.getElem?_eq_some_iff.mp found
  exact ⟨_, List.getElem?_eq_getElem (Nat.lt_of_lt_of_le inside step.length_le)⟩

/-- What a step makes of a task that was there: it takes its turn, or keeps all but its end of the
queue. -/
theorem turn_cases (step : Step shared w a w') {j : Nat} {t : Task}
    (found : w.tasks[j]? = some t) :
    ∃ t', w'.tasks[j]? = some t' ∧
      ((∃ e, a = .act j e ∧ Turn shared w.registry w.source t e t') ∨
        (∀ e, a ≠ .act j e) ∧ t'.phase = t.phase ∧ t'.id = t.id ∧ t'.received = t.received ∧
          t'.texts = t.texts) := by
  obtain ⟨t', found'⟩ := step.task_kept found
  refine ⟨t', found', ?_⟩
  rcases step.task_cases found' with ⟨u, e, rfl, was, turn⟩ | ⟨u, was, others, same⟩ | ⟨-, last, -⟩
  · obtain rfl := Option.some.inj (found.symm.trans was)
    exact .inl ⟨e, rfl, turn⟩
  · obtain rfl := Option.some.inj (found.symm.trans was)
    refine .inr ⟨others, ?_⟩
    rcases same with rfl | ⟨_, e, -, rfl⟩
    · exact ⟨rfl, rfl, rfl, rfl⟩
    · exact e.bystander_keeps w.registry t
  · rw [last, List.getElem?_eq_none (Nat.le_refl _)] at found
    cases found

/-- The task a turn leaves. -/
theorem act_task {i : Nat} {t : Task} (found : w.tasks[i]? = some t) (e : Effect) (t' : Task) :
    ((w.apply e).put i t').tasks[i]? = some t' := by
  obtain ⟨inside, -⟩ := List.getElem?_eq_some_iff.mp found
  simp [put, tasks_apply, inside]

end Step

/-! ## One client -/

/-- A client connects, presents a token that validates as `claims`, and is registered. -/
def connecting (i : Nat) (claims : Claims) (sendQueue : Nat) : List Action :=
  [.accept, .act i .quiet, .act i .quiet, .act i .quiet, .act i (.join claims.subject sendQueue)]

/-- The task of a client that has just been registered. -/
def registeredTask (id : ConnectionId) (claims : Claims) (text : String) : Task where
  phase := .session id claims .starting
  id := some id
  rx := .attached
  received := [.text text]
  written := [.text (.authenticated claims.subject)]

/-- The world after a client was registered. -/
def welcome (shared : Shared σ) (w : World σ) (claims : Claims) (text : String) : World σ :=
  { w with
    registry := (w.registry.step (.add claims.subject shared.config.sendQueue)).1
    permits := w.permits - 1
    tasks := w.tasks.map
        (Task.detach ⟨w.registry.nextId⟩ (w.registry.queueOf ⟨w.registry.nextId⟩)) ++
      [registeredTask ⟨w.registry.nextId⟩ claims text] }

/-- What a turn of the task spawned last leaves. -/
theorem put_last (w : World σ) {tasks : List Task} {t : Task} (split : w.tasks = tasks ++ [t])
    (e : Effect) (t' : Task) :
    (w.apply e).put tasks.length t' =
      { w.apply e with tasks := tasks.map (e.bystander w.registry) ++ [t'] } := by
  simp [put, tasks_apply, split]

/-- A turn of the task spawned last. -/
theorem Step.act_last (shared : Shared σ) (w : World σ) {tasks : List Task} {t t' : Task}
    {e : Effect} (split : w.tasks = tasks ++ [t])
    (turn : Turn shared w.registry w.source t e t') :
    Step shared w (.act tasks.length e)
      { w.apply e with tasks := tasks.map (e.bystander w.registry) ++ [t'] } := by
  have found : w.tasks[tasks.length]? = some t := by simp [split]
  have step := Step.act found turn
  rwa [put_last w split] at step

/-- A client with a valid token is acknowledged and about to be registered. -/
def acknowledged (w : World σ) (claims : Claims) (text : String) : World σ :=
  { w with
    permits := w.permits - 1
    tasks := w.tasks ++
      [{ phase := .joining claims
         received := [.text text]
         written := [.text (.authenticated claims.subject)] }] }

theorem run_acknowledged (shared : Shared σ) (w : World σ) (free : 0 < w.permits)
    {text token : String} {claims : Claims} (parsed : shared.fromStr text = .ok (.auth token))
    (valid : shared.validate token = .ok claims) :
    Run (Step shared) w
      [.accept, .act w.tasks.length .quiet, .act w.tasks.length .quiet, .act w.tasks.length .quiet]
      (w.acknowledged claims text) := by
  have accepted : authenticate shared (some (.text text)) = .ok claims := by
    simp [authenticate, parsed, valid, Except.mapError]
  refine .cons (.accept free) <| .cons (Step.act_last _ _ rfl (.upgraded rfl)) ?_
  simp only [apply, Effect.bystander, List.map_id]
  refine .cons (Step.act_last _ _ rfl (.authorised _ rfl accepted)) ?_
  simp only [apply, Effect.bystander, List.map_id]
  have last := Step.act_last shared
    { w with
      permits := w.permits - 1
      tasks := w.tasks ++ [{ phase := .acking claims, received := [.text text] }] } rfl
    (.acknowledge rfl)
  simp only [apply, Effect.bystander, List.map_id] at last
  exact .single last

/-- That client is registered next. -/
theorem step_welcome (shared : Shared σ) (w : World σ) (claims : Claims) (text : String)
    (capacity : 0 < shared.config.sendQueue ∧ shared.config.sendQueue ≤ maxPermits) :
    Step shared (w.acknowledged claims text)
      (.act w.tasks.length (.join claims.subject shared.config.sendQueue))
      (w.welcome shared claims text) :=
  Step.act_last shared (w.acknowledged claims text) rfl (.join rfl capacity)

/-- Whatever the others do, a client with a valid token can be registered while a permit is
free. -/
theorem run_connecting (shared : Shared σ) (w : World σ) (free : 0 < w.permits)
    {text token : String} {claims : Claims} (parsed : shared.fromStr text = .ok (.auth token))
    (valid : shared.validate token = .ok claims)
    (capacity : 0 < shared.config.sendQueue ∧ shared.config.sendQueue ≤ maxPermits) :
    Run (Step shared) w (connecting w.tasks.length claims shared.config.sendQueue)
      (w.welcome shared claims text) :=
  (run_acknowledged shared w free parsed valid).append
    (.single (step_welcome shared w claims text capacity))

/-- A registered client closes its socket and its task ends. -/
def departing (i : Nat) (id : ConnectionId) : List Action :=
  [.act i .quiet, .act i .quiet, .act i (.call (.close id)), .act i (.unregister id),
    .act i .release]

/-- The task of a client that was registered and has gone. -/
def departedTask (id : ConnectionId) (claims : Claims) (text : String) : Task :=
  { registeredTask id claims text with
    phase := .ended
    rx := .absent
    received := [.text text, .ended] }

/-- The world after the client registered last, whose task follows `tasks`, has gone. -/
def farewell (w : World σ) (tasks : List Task) (id : ConnectionId) (claims : Claims)
    (text : String) : World σ :=
  { w with
    registry := ((w.registry.step (.close id)).1.step (.remove id)).1
    permits := w.permits + 1
    tasks := tasks.map (Task.detach id ((w.registry.step (.close id)).1.queueOf id)) ++
      [departedTask id claims text] }

/-- The client registered last can leave at any time. -/
theorem run_departing (shared : Shared σ) (w : World σ) {tasks : List Task} {id : ConnectionId}
    {claims : Claims} {text : String} (split : w.tasks = tasks ++ [registeredTask id claims text])
    (period : 0 < shared.config.heartbeatInterval) :
    Run (Step shared) w (departing tasks.length id) (w.farewell tasks id claims text) := by
  refine .cons (Step.act_last _ _ split (.start rfl period)) ?_
  simp only [apply, Effect.bystander, List.map_id]
  refine .cons (Step.act_last _ _ rfl (.inboundEnd .ended rfl rfl)) ?_
  simp only [apply, Effect.bystander, List.map_id]
  refine .cons (Step.act_last _ _ rfl (.dropReceiver rfl)) ?_
  simp only [apply, Effect.bystander, List.map_id]
  refine .cons (Step.act_last _ _ rfl (.unregister rfl)) ?_
  simp only [apply, Effect.bystander]
  have last := Step.act_last shared
    { w with
      registry := ((w.registry.step (.close id)).1.step (.remove id)).1
      tasks := tasks.map (Task.detach id ((w.registry.step (.close id)).1.queueOf id)) ++
        [{ departedTask id claims text with phase := .releasing }] } rfl (.release rfl)
  simp only [apply, Effect.bystander, List.map_id, List.length_map] at last
  exact .single last

end World

end WsFanout
