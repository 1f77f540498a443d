import WsFanout.RegistryIsolation
import WsFanout.ServerStream

/-!
# A client among others

A server promises each client that the others do not matter: a slow one pays itself.  Here that is
a statement about the whole server.  A connection's task reads of the registry its own entry alone
(`Turn.congr`), and what another task does leaves that entry as it is.  `World.alone_run` puts the
two together: from any run of the server one can delete everything the other clients do, and what
is left is a run of the server in which the client has sent, been sent and queued exactly the same.
-/

namespace WsFanout

open Lib

variable {σ : Type} {shared : Shared σ}

/-! ## A registry with one connection -/

namespace Registry

variable {F : Type} {r v : Registry F} {id : ConnectionId} {entry : Option (Connection F)}

/-- No other connection than `id` is registered, and `entry` is what is registered there. -/
structure Solo (id : ConnectionId) (entry : Option (Connection F)) (v : Registry F) : Prop where
  inverts : Index.Inverts v.subscriptionsOf v.byChannel
  entry : v.connections.lookup id = entry
  others : ∀ other, other ≠ id → v.connections.lookup other = none

/-- What `op` makes of the entry of `id`, if it is not the `add` of `id`. -/
def seen (id : ConnectionId) (op : Op F) (entry : Option (Connection F)) :
    Option (Connection F) :=
  match op.seenBy id with
  | none => entry
  | some seen => seen.apply entry

/-- Only the `add` of `id` makes an entry of it. -/
theorem seen_none {op : Op F} (notAdd : op.isAdd = false) : seen id op none = none := by
  unfold seen
  cases op with
  | add _ _ => cases notAdd
  | publish _ _ | broadcast _ => rfl
  | remove i | subscribe i _ _ | unsubscribe i _ | send i _ | recv i | close i =>
      by_cases mine : id = i <;> simp [Op.seenBy, mine, LocalOp.apply]

theorem Solo.step (solo : Solo id entry v) {op : Op F} (notAdd : op.isAdd = false) :
    Solo id (seen id op entry) (v.step op).1 where
  inverts := inverts_step solo.inverts op (by simp [notAdd])
  entry := by
    rw [lookup_step_seenBy solo.inverts op (by simp [notAdd]), solo.entry]
    rfl
  others := by
    intro other apart
    rw [lookup_step_seenBy solo.inverts op (by simp [notAdd]), solo.others other apart]
    exact seen_none notAdd

/-- An operation does to the entry of `id` what it does in another registry with this entry. -/
theorem Solo.follows {present : Prop} [Decidable present]
    (solo : Solo id (if present then r.connections.lookup id else none) v)
    (inverts : Index.Inverts r.subscriptionsOf r.byChannel) {op : Op F}
    (notAdd : op.isAdd = false) :
    Solo id (if present then (r.step op).1.connections.lookup id else none) (v.step op).1 := by
  have after := solo.step notAdd
  by_cases there : present
  · rw [if_pos there] at after ⊢
    rwa [lookup_step_seenBy inverts op (by simp [notAdd])]
  · rw [if_neg there] at after ⊢
    rwa [seen_none notAdd] at after

/-- The first `add`. -/
theorem Solo.add (solo : Solo id none v) (next : ⟨v.nextId⟩ = id) (subject : String)
    (sendQueue : Nat) :
    Solo id ((LocalOp.add subject sendQueue).apply none) (v.step (.add subject sendQueue)).1 where
  inverts := inverts_step solo.inverts _ fun _ => by rw [next]; exact solo.entry
  entry := by
    rw [lookup_step solo.inverts, Op.localTo, if_pos next.symm]
    rfl
  others := by
    intro other apart
    rw [lookup_step solo.inverts, Op.localTo, if_neg fun same => apart (same.trans next)]
    exact solo.others other apart

end Registry

/-! ## What a task reads of the registry -/

/-- What a step of `handle` goes on to depends on the entry of its connection alone. -/
theorem Handling.step_snd_congr {r v : Registry ServerMessage} {id : ConnectionId}
    (same : v.connections.lookup id = r.connections.lookup id) (claims : Claims) (source : σ)
    (h : Handling) :
    (h.step shared id claims source v).2 = (h.step shared id claims source r).2 := by
  cases h with
  | start text =>
      simp only [step]
      cases shared.fromStr text with
      | error e => rfl
      | ok message =>
          cases message with
          | subscribe channels =>
              simp only [Registry.subscribe, same]
              cases r.connections.lookup id <;> rfl
          | unsubscribe channels =>
              simp only [Registry.unsubscribe, same]
              cases r.connections.lookup id <;> rfl
          | auth _ | ping _ => rfl
  | snapshots rest =>
      cases rest with
      | nil => rfl
      | cons ch rest =>
          simp only [step]
          cases shared.snapshot source ch <;> rfl
  | ack _ _ | snapshot _ _ _ | reply _ | done => rfl

/-- A turn depends on the entry of its own connection alone, and on the next id where it takes
one. -/
theorem Turn.congr {r v : Registry ServerMessage} {source : σ} {t t' : Task} {e : Effect}
    (turn : Turn shared r source t e t')
    (next : ∀ subject sendQueue, e = .join subject sendQueue → v.nextId = r.nextId)
    (entry : ∀ id claims, t.phase.registered? = some (id, claims) →
      v.connections.lookup id = r.connections.lookup id) :
    Turn shared v source t e t' := by
  cases turn with
  | upgraded phase => exact .upgraded phase
  | notUpgraded phase => exact .notUpgraded phase
  | authorised first phase accepted => exact .authorised first phase accepted
  | refused first phase rejected => exact .refused first phase rejected
  | validatorPanic text token phase parsed => exact .validatorPanic text token phase parsed
  | refuse reached phase => exact .refuse reached phase
  | closed phase => exact .closed phase
  | acknowledge phase => exact .acknowledge phase
  | notAcknowledged reached phase => exact .notAcknowledged reached phase
  | channelPanic phase capacity => exact .channelPanic phase capacity
  | join phase capacity =>
      rw [← next _ _ rfl]
      exact .join phase capacity
  | timerPanic phase period => exact .timerPanic phase period
  | start phase period => exact .start phase period
  | @recv id claims frame phase rx taken =>
      have same := entry id claims (by rw [phase]; rfl)
      refine .recv phase rx ?_
      simp only [Registry.step, (Registry.recv_spec _ id).2.2.2] at taken ⊢
      rwa [same]
  | drain phase rx => exact .drain phase rx
  | drained phase rx => exact .drained phase rx
  | inbound message phase branch => exact .inbound message phase branch
  | inboundEnd message phase branch => exact .inboundEnd message phase branch
  | tick phase => exact .tick phase
  | timeout phase => exact .timeout phase
  | write phase => exact .write phase
  | notWritten reached phase => exact .notWritten reached phase
  | @handle id claims h phase going =>
      have same := entry id claims (by rw [phase]; rfl)
      rw [← Handling.step_snd_congr same]
      exact .handle phase going
  | handlePanic phase calls => exact .handlePanic phase calls
  | handled phase => exact .handled phase
  | @fastEnough id claims phase drops =>
      have same := entry id claims (by rw [phase]; rfl)
      refine .fastEnough phase ?_
      rwa [Registry.drops, same]
  | @tooSlow id claims phase drops =>
      have same := entry id claims (by rw [phase]; rfl)
      refine .tooSlow phase ?_
      rwa [Registry.drops, same]
  | sinkClosed phase => exact .sinkClosed phase
  | dropReceiver phase => exact .dropReceiver phase
  | unregister phase => exact .unregister phase
  | release phase => exact .release phase

/-- Only a registration gives a task an id. -/
theorem Turn.id_eq {r : Registry ServerMessage} {source : σ} {t t' : Task} {e : Effect}
    (turn : Turn shared r source t e t')
    (others : ∀ subject sendQueue, e ≠ .join subject sendQueue) : t'.id = t.id := by
  cases turn with
  | join _ _ => exact absurd rfl (others _ _)
  | _ => rfl

/-- A task calls the registry to register or for one connection. -/
theorem Turn.calls {r : Registry ServerMessage} {source : σ} {t t' : Task} {e : Effect}
    (turn : Turn shared r source t e t') {op : Op ServerMessage} (called : e.op? = some op) :
    op.isAdd = true ∨ op.target?.isSome := by
  cases carries : op.frame? with
  | some frame =>
      obtain ⟨id, claims, h, -, calls⟩ := turn.delivers called carries
      refine .inr ?_
      cases h with
      | start text =>
          simp only [Handling.op?] at calls
          split at calls <;> cases calls <;> rfl
      | ack _ _ | snapshot _ _ _ | reply _ =>
          cases calls
          rfl
      | snapshots _ | done => cases calls
  | none =>
      cases op with
      | publish _ _ | broadcast _ | send _ _ => cases carries
      | add _ _ => exact .inl rfl
      | remove _ | subscribe _ _ _ | unsubscribe _ _ | recv _ | close _ => exact .inr rfl

/-- What is called for another connection is not seen. -/
theorem Registry.Spares.lookup_eq {r : Registry ServerMessage} {id : ConnectionId}
    {op : Op ServerMessage} (spares : r.Spares id op)
    (inverts : Index.Inverts r.subscriptionsOf r.byChannel)
    (aimed : op.isAdd = true ∨ op.target?.isSome) :
    (r.step op).1.connections.lookup id = r.connections.lookup id := by
  obtain ⟨elsewhere, notIssued⟩ := spares
  rw [lookup_step_seenBy inverts op notIssued]
  cases op with
  | add _ _ => rfl
  | publish _ _ | broadcast _ => simp [Op.isAdd, Op.target?] at aimed
  | remove i | subscribe i _ _ | unsubscribe i _ | send i _ | recv i | close i =>
      have apart : id ≠ i := fun same => elsewhere (congrArg some same.symm)
      simp [Op.seenBy, apart]

/-! ## The world of one client -/

/-- What is left of an action when all tasks but `i` are gone. -/
def Action.around (i : Nat) : Action → Option Action
  | .act j e => if j = i then some (.act 0 e) else none
  | .accept => none
  | .refuse => none
  | .publish channel payload => some (.publish channel payload)
  | .resync channels channel => some (.resync channels channel)
  | .resyncAll => some .resyncAll
  | .update => some .update

namespace World

variable {w w' v : World σ} {a : Action} {n : Nat} {id : ConnectionId} {i : Nat} {t t' : Task}

/-- The world `v` is that of the task `t` of `w`, whose id is or will be `id`, and of nobody
else. -/
structure Alone (id : ConnectionId) (t : Task) (w v : World σ) : Prop where
  tasks : v.tasks = [t]
  source : v.source = w.source
  solo : v.registry.Solo id (if t.id ≠ none then w.registry.connections.lookup id else none)
  next : t.id = none → (⟨v.registry.nextId⟩ : ConnectionId) = id

namespace Alone

/-- A call of another thread reaches both. -/
theorem called (alone : Alone id t w v)
    (inverts : Index.Inverts w.registry.subscriptionsOf w.registry.byChannel)
    {op : Op ServerMessage} (notAdd : op.isAdd = false) :
    Alone id t (w.apply (.call op)) (v.apply (.call op)) where
  tasks := alone.tasks
  source := alone.source
  solo := alone.solo.follows inverts notAdd
  next := by
    intro unregistered
    rw [← alone.next unregistered]
    exact congrArg ConnectionId.mk ((Registry.nextId_step v.registry op).trans (by simp [notAdd]))

/-- A turn of the task itself. -/
theorem turn {e : Effect} (alone : Alone id t w v) (gate : GateInv shared w)
    (inverts : Index.Inverts w.registry.subscriptionsOf w.registry.byChannel)
    (found : w.tasks[i]? = some t) (turn : Turn shared w.registry w.source t e t')
    (given : t'.id = none ∨ t'.id = some id) :
    Step shared v (.act 0 e) ((v.apply e).put 0 t') ∧
      Alone id t' ((w.apply e).put i t') ((v.apply e).put 0 t') := by
  have was : ∀ x, t.id = some x → x = id := by
    intro x had
    rcases given with none | mine
    · rw [(gate.tasks i t found).id_kept turn had] at none
      cases none
    · exact Option.some.inj (((gate.tasks i t found).id_kept turn had).symm.trans mine)
  have registers : ∀ subject sendQueue, e = .join subject sendQueue →
      t.id = none ∧ t'.id = some ⟨w.registry.nextId⟩ ∧
        (⟨w.registry.nextId⟩ : ConnectionId) = id := by
    rintro subject sendQueue rfl
    obtain ⟨claims, phase, -, -, rfl⟩ := turn.adds rfl rfl
    have atPhase := (gate.tasks i t found).phase
    rw [phase] at atPhase
    exact ⟨atPhase.2.2, rfl, by simpa using given⟩
  have turn' : Turn shared v.registry v.source t e t' := by
    rw [alone.source]
    refine turn.congr (fun subject sendQueue joins => ?_) fun x claims stands => ?_
    · obtain ⟨unregistered, -, issued⟩ := registers subject sendQueue joins
      exact congrArg ConnectionId.val ((alone.next unregistered).trans issued.symm)
    · have mine := (gate.id_of_registered found stands).1
      obtain rfl := was x mine
      rw [alone.solo.entry, if_pos (by simp [mine])]
  have tasks : ((v.apply e).put 0 t').tasks = [t'] := by simp [put, tasks_apply, alone.tasks]
  have source : ((v.apply e).put 0 t').source = ((w.apply e).put i t').source := by
    cases e <;> exact alone.source
  refine ⟨.act (by rw [alone.tasks]; rfl) turn', ?_⟩
  by_cases joins : ∃ subject sendQueue, e = .join subject sendQueue
  · obtain ⟨subject, sendQueue, rfl⟩ := joins
    obtain ⟨unregistered, registered, issued⟩ := registers subject sendQueue rfl
    have before := alone.solo
    rw [if_neg (not_not.mpr unregistered)] at before
    have after := before.add (alone.next unregistered) subject sendQueue
    refine ⟨tasks, source, ?_, fun none => absurd (registered.symm.trans none) (by simp)⟩
    rw [if_pos (by simp [registered])]
    change Registry.Solo id
      ((w.registry.step (.add subject sendQueue)).1.connections.lookup id) _
    rw [Registry.lookup_step inverts, Op.localTo, if_pos issued.symm]
    exact after
  · have kept : t'.id = t.id := turn.id_eq fun subject sendQueue same =>
      joins ⟨subject, sendQueue, same⟩
    cases called : e.op? with
    | none =>
        have same : ∀ (u : World σ) (j : Nat), ((u.apply e).put j t').registry = u.registry := by
          intro u j
          exact (registry_apply u e).trans (by rw [called]; rfl)
        refine ⟨tasks, source, ?_, ?_⟩
        · rw [same, same, kept]
          exact alone.solo
        · rw [same, kept]
          exact alone.next
    | some op =>
        have notAdd : op.isAdd = false := by
          by_contra isAdd
          obtain ⟨claims, -, -, same, -⟩ := turn.adds called (by simpa using isAdd)
          exact joins ⟨_, _, same⟩
        have same : ∀ (u : World σ) (j : Nat),
            ((u.apply e).put j t').registry = (u.apply (.call op)).registry := by
          intro u j
          exact (registry_apply u e).trans (by rw [called]; rfl)
        have both := alone.called inverts notAdd
        refine ⟨tasks, source, ?_, ?_⟩
        · rw [same, same, kept]
          exact both.solo
        · rw [same, kept]
          exact both.next

/-- A step of another task. -/
theorem other {e : Effect} {j : Nat} (alone : Alone id t w v) (gate : GateInv shared w)
    (owners : Owners n w) (below : n + [Action.act j e].countP Action.isJoin ≤ 2 ^ 64)
    (found : w.tasks[i]? = some t) (step : Step shared w (.act j e) w') (apart : j ≠ i)
    (found' : w'.tasks[i]? = some t') (given : t'.id = none ∨ t'.id = some id) :
    Alone id t' w' v := by
  have others : ∀ e', Action.act j e ≠ .act i e' := by
    intro e' same
    cases same
    exact apart rfl
  have spares : ∀ x, t.id = some x → ∀ op, e.op? = some op → w.registry.Spares x op :=
    fun x mine op called => owners.spares_id gate step below found mine others called
  have untouched : t' = t := by
    rcases step.task_cases found' with ⟨_, e', same, -⟩ | ⟨u, was, -, same⟩ | ⟨same, -⟩
    · exact absurd same (others e')
    · obtain rfl := Option.some.inj (found.symm.trans was)
      rcases same with rfl | ⟨_, e', same, rfl⟩
      · rfl
      · cases same
        cases mine : t.id with
        | none => cases e <;> simp [Effect.bystander, Task.detach, mine]
        | some x => exact Effect.bystander_spared mine (spares x mine)
    · cases same
  subst untouched
  have source : w'.source = w.source := by
    cases step with
    | act _ _ => cases e <;> rfl
  refine ⟨alone.tasks, alone.source.trans source.symm, ?_, alone.next⟩
  have solo := alone.solo
  rw [step.registry_eq]
  rcases given with unregistered | mine
  · rwa [if_neg (not_not.mpr unregistered)] at solo ⊢
  · rw [if_pos (by simp [mine])] at solo ⊢
    cases called : (Action.act j e).op? with
    | none => exact solo
    | some op =>
        have aimed : op.isAdd = true ∨ op.target?.isSome := by
          cases step with
          | act _ turn => exact turn.calls called
        rw [Registry.after, (spares id mine op called).lookup_eq owners.consistent.inverts aimed]
        exact solo

/-- What one step preserves, for as long as ids are new. -/
theorem step (alone : Alone id t w v) (gate : GateInv shared w) (owners : Owners n w)
    (below : n + [a].countP Action.isJoin ≤ 2 ^ 64) (found : w.tasks[i]? = some t)
    (step : Step shared w a w') (found' : w'.tasks[i]? = some t')
    (given : t'.id = none ∨ t'.id = some id) :
    ∃ v', Run (Step shared) v (a.around i).toList v' ∧ Alone id t' w' v' := by
  have inverts := owners.consistent.inverts
  cases step with
  | accept free =>
      have same : t' = t := by
        obtain ⟨inside, -⟩ := List.getElem?_eq_some_iff.mp found
        rw [List.getElem?_append_left inside] at found'
        exact Option.some.inj (found'.symm.trans found)
      exact ⟨v, .nil v, same ▸ ⟨alone.tasks, alone.source, alone.solo, alone.next⟩⟩
  | refuse full =>
      obtain rfl := Option.some.inj (found.symm.trans found')
      exact ⟨v, .nil v, alone.tasks, alone.source, alone.solo, alone.next⟩
  | @act j u u' e there turn =>
      rcases eq_or_ne j i with rfl | apart
      · obtain rfl := Option.some.inj (found.symm.trans there)
        rw [Step.act_task there] at found'
        obtain rfl := Option.some.inj found'
        obtain ⟨taken, after⟩ := alone.turn gate inverts found turn given
        rw [Action.around, if_pos rfl]
        exact ⟨_, .single taken, after⟩
      · rw [Action.around, if_neg apart]
        exact ⟨v, .nil v,
          alone.other gate owners below found (.act there turn) apart found' given⟩
  | publish channel payload =>
      obtain rfl := Option.some.inj (found.symm.trans found')
      exact ⟨_, .single (.publish channel payload), alone.called inverts rfl⟩
  | resync channels channel listed =>
      obtain rfl := Option.some.inj (found.symm.trans found')
      exact ⟨_, .single (.resync channels channel listed), alone.called inverts rfl⟩
  | resyncAll =>
      obtain rfl := Option.some.inj (found.symm.trans found')
      exact ⟨_, .single .resyncAll, alone.called inverts rfl⟩
  | update source =>
      obtain rfl := Option.some.inj (found.symm.trans found')
      exact ⟨_, .single (.update source), alone.tasks, rfl, alone.solo, alone.next⟩

end Alone

/-! ## Whole runs -/

/-- The server with nobody connected, about to issue `id`. -/
def vacant (shared : Shared σ) (source : σ) (id : ConnectionId) : World σ :=
  { start shared source with registry := { Registry.new with nextId := id.val } }

/-- **Nobody else is noticed.**  Take any run of the server with at most `2 ^ 64` registrations and
a client accepted in it.  Delete everything that the other clients do: what is left, the turns of
this client's task and the calls of the application, is a run of a server in which it is the only
client, and there it comes to the same: the same messages have been read from it and the same frames
written to it, its task stands at the same point, and its queue, its streak of drops and its
subscriptions are the same.  So however many others there are and however fast, slow or ill-behaved
they are, they add nothing to what a client is sent and take nothing away from it. -/
theorem alone_run (shared : Shared σ) (source : σ) (as bs : List Action) (w₀ w₁ w : World σ)
    (reached : Run (Step shared) (start shared source) as w₀)
    (accepted : Step shared w₀ .accept w₁) (run : Run (Step shared) w₁ bs w)
    (joins : as.countP Action.isJoin + bs.countP Action.isJoin ≤ 2 ^ 64) (t : Task)
    (found : w.tasks[w₀.tasks.length]? = some t) (id : ConnectionId)
    (given : t.id = none ∨ t.id = some id) :
    ∃ v, Run (Step shared) (vacant shared w₀.source id)
        (.accept :: bs.filterMap (Action.around w₀.tasks.length)) v ∧
      v.tasks = [t] ∧ v.source = w.source ∧
      (t.id = some id →
        v.registry.connections.lookup id = w.registry.connections.lookup id) := by
  have served := reached.append (.single accepted)
  have free : 0 < shared.config.maxConnections := by
    have slots := reached.invariant
      (I := fun w => w.permits + w.live.card = shared.config.maxConnections)
      (fun slots step => slots_step slots step) (by simp [start, live])
    cases accepted with
    | accept free => omega
  have first : w₁.tasks[w₀.tasks.length]? = some {} ∧ w₁.source = w₀.source := by
    cases accepted with
    | accept free => exact ⟨List.getElem?_concat_length, rfl⟩
  suffices follows : ∃ v, Run (Step shared) (vacant shared w₀.source id)
      (.accept :: bs.filterMap (Action.around w₀.tasks.length)) v ∧ Alone id t w v by
    obtain ⟨v, around, alone⟩ := follows
    refine ⟨v, around, alone.tasks, alone.source, fun mine => ?_⟩
    rw [alone.solo.entry, if_pos (by simp [mine])]
  induction bs using List.reverseRecOn generalizing w t with
  | nil =>
      obtain rfl := run.eq_of_nil
      obtain rfl := Option.some.inj (first.1.symm.trans found)
      refine ⟨_, .single (.accept free), rfl, first.2.symm, ?_, fun _ => rfl⟩
      rw [if_neg (by simp)]
      exact ⟨Registry.Consistent.initial.inverts, by simp [vacant, start, Registry.new],
        by simp [vacant, start, Registry.new]⟩
  | append_singleton bs a ih =>
      obtain ⟨u, before, last⟩ := run.of_append
      obtain ⟨u', step, rest⟩ := last.of_cons
      obtain rfl := rest.eq_of_nil
      rw [List.countP_append] at joins
      have total : (as ++ [Action.accept] ++ bs).countP Action.isJoin =
          as.countP Action.isJoin + bs.countP Action.isJoin := by
        simp [List.countP_append, Action.isJoin]
      obtain ⟨gate, owners⟩ := Owners.of_run (served.append before) (by omega)
      obtain ⟨t₀, found₀⟩ := before.invariant
        (I := fun u => ∃ t, u.tasks[w₀.tasks.length]? = some t)
        (fun there step => there.elim fun _ found => step.task_kept found) ⟨_, first.1⟩
      have given₀ : t₀.id = none ∨ t₀.id = some id := by
        cases had : t₀.id with
        | none => exact .inl rfl
        | some x =>
            obtain ⟨t', found', kept, -⟩ := gate.task_kept step found₀ had
            obtain rfl := Option.some.inj (found.symm.trans found')
            rw [kept] at given
            simpa using given
      obtain ⟨v, around, alone⟩ := ih u before (by omega) t₀ found₀ given₀
      obtain ⟨v', more, after⟩ := alone.step gate owners (by omega) found₀ step found given
      rw [filterMap_concat]
      exact ⟨v', around.append more, after⟩

/-- A second client of `guarded` is registered beside one that is subscribed to `x`, goes on with
its session and gets what is published there. -/
theorem alone_run_second :
    ∃ w v, Run (Step guarded) answered
        (connecting 1 (Claims.new "alice") 256 ++ [.act 0 .quiet, .publish "x" ⟨"1"⟩]) w ∧
      Run (Step guarded) (vacant guarded LastValue.new ⟨2⟩)
        (connecting 0 (Claims.new "alice") 256 ++ [.publish "x" ⟨"1"⟩]) v ∧
      w.tasks[1]? = some (registeredTask ⟨2⟩ (Claims.new "alice") authText) ∧
      v.tasks = [registeredTask ⟨2⟩ (Claims.new "alice") authText] ∧
      w.registry.queueOf ⟨1⟩ = [.subscribed ["x"] [], .data "x" ⟨"1"⟩] ∧
      v.registry.connections.lookup ⟨2⟩ = w.registry.connections.lookup ⟨2⟩ := by
  have parsed : guarded.fromStr authText = .ok (.auth "t") := rfl
  have capacity : 0 < guarded.config.sendQueue ∧ guarded.config.sendQueue ≤ maxPermits := by decide
  have connected := run_connecting guarded answered (by decide) parsed rfl capacity
  have goesOn : Run (Step guarded) (answered.welcome guarded (Claims.new "alice") authText)
      [.act 0 .quiet, .publish "x" ⟨"1"⟩] _ :=
    .cons (.act rfl (.handled rfl)) (.single (.publish "x" ⟨"1"⟩))
  have whole := connected.append goesOn
  obtain ⟨w₁, accepted, rest⟩ := whole.of_cons
  obtain ⟨v, around, tasks, -, entry⟩ := alone_run guarded LastValue.new _ _ answered w₁ _
    run_answered accepted rest (by decide) _ rfl ⟨2⟩ (.inr rfl)
  exact ⟨_, v, whole, around, rfl, tasks, by decide, entry rfl⟩

end World

end WsFanout
