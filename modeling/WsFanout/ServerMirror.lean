import WsFanout.ServerReadable

/-!
# The replica a client keeps of its subscriptions

A client that reads its socket by the protocol has the texts alone.  `Wire.mirror` is what such a
client computes from them: it decodes each frame and follows the acknowledgements, and it fails if
a frame cannot be read, a name is added twice or one is removed that is not there.
`World.mirror_run` says that it never fails while no frame is dropped for it, that what it has is
at every moment a set the registry has held for it, and that it is the present set once the client
has read all there is.
-/

namespace WsFanout

open Lib

variable {σ : Type} {shared : Shared σ}

/-! ## The client -/

namespace Wire

/-- What one message makes of the names the client believes it holds. -/
def Message.acknowledge (held : Finset String) : Message → Option (Finset String)
  | subscribed channels _ => addAll held channels
  | unsubscribed channels => removeAll held channels
  | _ => some held

/-- What a client that holds `held` makes of the texts on its socket. -/
def follow (held : Finset String) (texts : List String) : Option (Finset String) :=
  texts.foldlM (fun held text => (decode text).bind (Message.acknowledge held)) held

/-- What a client makes of all of them. -/
def mirror (texts : List String) : Option (Finset String) :=
  follow ∅ texts

end Wire

theorem ServerMessage.acknowledge_toWire (held : Finset String) (frame : ServerMessage) :
    frame.toWire.acknowledge held = frame.acknowledge held := by
  cases frame <;> rfl

/-- Reading the texts is replaying the messages they were made from. -/
theorem Wire.follow_toFrame {frames : List ServerMessage}
    (wellFormed : ∀ frame ∈ frames, frame.toWire.WellFormed) (held : Finset String) :
    follow held (frames.map ServerMessage.toFrame) = replay held frames := by
  induction frames generalizing held with
  | nil => rfl
  | cons frame frames ih =>
      obtain ⟨here, there⟩ := List.forall_mem_cons.mp wellFormed
      have read : decode frame.toFrame = some frame.toWire := Message.decode_toFrame here
      rw [follow, List.map_cons, List.foldlM_cons, read, Option.bind_some,
        frame.acknowledge_toWire, replay, List.foldlM_cons]
      cases frame.acknowledge held with
      | none => rfl
      | some held' => exact ih there held'

/-- A frame that is no reply leaves the client's set as it is. -/
theorem replay_overheard (held : Finset String) {frames : List ServerMessage}
    (overheard : ∀ frame ∈ frames, frame.isReply = false) : replay held frames = some held := by
  induction frames with
  | nil => rfl
  | cons frame frames ih =>
      obtain ⟨here, there⟩ := List.forall_mem_cons.mp overheard
      have same : frame.acknowledge held = some held := by
        cases frame with
        | subscribed _ _ | unsubscribed _ => cases here
        | authenticated _ | data _ _ | snapshot _ _ | resync _ | pong _ | error _ _ => rfl
      rw [replay, List.foldlM_cons, same]
      exact ih there

/-! ## One step -/

/-- A step of `handle` that enqueues does so for its own connection, and then owes nothing. -/
theorem Handling.owed_step {id : ConnectionId} {claims : Claims} {h : Handling}
    {op : Op ServerMessage} {frame : ServerMessage} (called : h.op? shared id claims = some op)
    (carries : op.frame? = some frame) (source : σ) (r : Registry ServerMessage) :
    op.target? = some id ∧ (h.step shared id claims source r).2.owed = [] := by
  cases h with
  | start text =>
      simp only [Handling.op?] at called
      split at called <;> cases called <;> cases carries
  | ack _ _ | snapshot _ _ _ | reply _ =>
      cases called
      exact ⟨rfl, rfl⟩
  | snapshots _ | done => cases called

namespace World

variable {w w' : World σ} {a : Action} {n : Nat} {id : ConnectionId} {log : List ServerMessage}

/-- A frame sent to one connection is sent by its own session, which then owes nothing. -/
theorem Step.replied (step : Step shared w a w') {op : Op ServerMessage} {frame : ServerMessage}
    (called : a.op? = some op) (carries : op.frame? = some frame) (target : op.target? = some id) :
    ∃ (i : Nat) (t : Task) (claims : Claims) (stage : Session), w'.tasks[i]? = some t ∧
      t.phase = .session id claims stage ∧ stage.owed = [] := by
  cases step with
  | @act i t t' e found turn =>
      obtain ⟨id', claims, h, phase, calls⟩ := turn.delivers called carries
      obtain ⟨own, nothing⟩ := Handling.owed_step calls carries w.source w.registry
      obtain rfl := Option.some.inj (own.symm.trans target)
      rcases turn.session_cases phase with ⟨-, quiet⟩ | ⟨stage, phase', turned⟩
      · cases quiet.symm.trans called
      refine ⟨i, t', claims, stage, Step.act_task found _ _, phase', ?_⟩
      rcases turned with ⟨_, selecting, -⟩ | ⟨h', same, -, rfl, -⟩ | ⟨-, settled, -⟩
      · cases selecting
      · cases same
        exact nothing
      · exact Session.owed_of_settled settled
  | publish _ _ | resync _ _ _ | resyncAll =>
      cases called
      cases target
  | accept _ | refuse _ | update _ => cases called

/-- What a step puts on the queue of `id`: nothing, a frame that is no reply, or a frame of its own
session, which then owes nothing. -/
theorem Step.speaks_cases (step : Step shared w a w') (owners : Owners n w) (id : ConnectionId) :
    (w'.registry.queueOf id).drop (w.registry.queueOf id).length = [] ∨
    ∃ frame, (w'.registry.queueOf id).drop (w.registry.queueOf id).length = [frame] ∧
      (frame.isReply = false ∨
        ∃ (i : Nat) (t : Task) (claims : Claims) (stage : Session), w'.tasks[i]? = some t ∧
          t.phase = .session id claims stage ∧ stage.owed = []) := by
  rw [step.registry_eq]
  cases called : a.op? with
  | none => exact .inl List.drop_length
  | some op =>
      have put := Registry.drop_queueOf_step owners.consistent.inverts op id
      rw [Registry.after]
      cases carries : op.frame? with
      | none =>
          rw [carries] at put
          exact .inl put
      | some frame =>
          simp only [carries] at put
          split at put
          · refine .inr ⟨frame, put, ?_⟩
            by_cases target : op.target? = some id
            · exact .inr (step.replied called carries target)
            · have mem : frame ∈ ((w.registry.step op).1.queueOf id).drop
                  (w.registry.queueOf id).length := by
                rw [put]
                exact List.mem_singleton_self frame
              have reached := (Registry.reaches_of_mem_drop w.registry op mem).2
              exact .inl (step.overheard called target reached carries)
          · exact .inl put

/-- The frames enqueued for `id`, and the one owed, replay to the set it holds. -/
def Echoing (id : ConnectionId) (log : List ServerMessage) (w : World σ) : Prop :=
  ∀ (i : Nat) (t : Task), w.tasks[i]? = some t → t.id = some id →
    ∃ claims, Talking Replayed i id claims log w

/-- What one step preserves, for as long as its id is a new one. -/
theorem Echoing.step (echoing : Echoing id log w) (streamed : Streamed id log w)
    (gate : GateInv shared w) (owners : Owners n w) (step : StepDelivering shared id w a w')
    (below : n + [a].countP Action.isJoin ≤ 2 ^ 64) :
    Echoing id (log ++ (w'.registry.queueOf id).drop (w.registry.queueOf id).length) w' := by
  intro i t' found' given
  rcases step.1.task_id found' given with ⟨t, found, had⟩ | ⟨rfl, joins, e, rfl⟩
  · obtain ⟨claims, talking⟩ := echoing i t found had
    refine ⟨claims, talking.step (replayed_kept shared id claims) step ?_⟩
    rintro others ⟨u, stage, there, phase⟩ op called
    exact owners.spares gate step.1 below there (by rw [phase]; rfl) others called
  · have before := streamed.unborn fun j u found => owners.fresh joins below j u found
    obtain ⟨op, called, isAdd⟩ := step.1.isJoin_iff.mp joins
    obtain ⟨t, e', same, found, turn⟩ | ⟨_, _, others, _⟩ | ⟨nothing, -, -⟩ :=
      step.1.task_cases found'
    · cases same
      obtain ⟨claims, -, -, rfl, -⟩ := turn.adds called isAdd
      obtain ⟨u, claims', there, starting, joined, empty, queue⟩ := Talking.of_join step.1
      rw [before, queue, List.drop_nil, List.nil_append]
      exact ⟨claims', u, there, .inr ⟨.starting, starting, joined, congrArg some empty.symm⟩⟩
    · exact absurd rfl (others e)
    · cases nothing

/-! ## Whole runs -/

/-- The invariant holds in every state reached with at most `2 ^ 64` registrations. -/
theorem Echoing.of_run {source : σ} {as : List Action}
    (run : Run (StepDelivering shared id) (start shared source) as w)
    (joins : as.countP Action.isJoin ≤ 2 ^ 64) :
    Echoing id (history id (start shared source) as) w := by
  have reached := run_history shared id (2 ^ 64)
    (I := fun n log w => (GateInv shared w ∧ Owners n w) ∧ Streamed id log w ∧ Echoing id log w)
    (fun step => step.1)
    (fun below inv step => ⟨⟨inv.1.1.step step.1, inv.1.2.step step.1 below⟩,
      inv.2.1.step inv.1.1 inv.1.2 step.1 below, inv.2.2.step inv.2.1 inv.1.1 inv.1.2 step below⟩)
    run (n := 0) (by omega)
    ⟨⟨gateInv_start shared source, owners_start shared source⟩,
      ⟨fun _ => rfl, by simp [start]⟩, by simp [Echoing, start]⟩
  exact reached.2.2

/-- Once a session owes nothing, its log replays to the set its connection holds. -/
theorem Echoing.replay {i : Nat} {t : Task} {claims : Claims} {stage : Session}
    (echoing : Echoing id log w) (gate : GateInv shared w) (found : w.tasks[i]? = some t)
    (phase : t.phase = .session id claims stage) (nothing : stage.owed = []) :
    replay ∅ log = some (w.registry.subscriptionsOf id) := by
  have stands : t.phase.registered? = some (id, claims) := by
    rw [phase]
    rfl
  obtain ⟨claims', t', found', here⟩ := echoing i t found (gate.id_of_registered found stands).1
  obtain rfl := Option.some.inj (found.symm.trans found')
  rcases here with left | ⟨stage', phase', -, known⟩
  · rw [phase] at left
    cases left
  · cases phase.symm.trans phase'
    rwa [Replayed, nothing, List.append_nil] at known

/-- Every prefix of the log replays to a set that the connection has held. -/
theorem held_run {source : σ} {as : List Action}
    (run : Run (StepDelivering shared id) (start shared source) as w)
    (joins : as.countP Action.isJoin ≤ 2 ^ 64) {part : List ServerMessage}
    (before : part <+: history id (start shared source) as) :
    ∃ past later u, as = past ++ later ∧ Run (Step shared) (start shared source) past u ∧
      replay ∅ part = some (u.registry.subscriptionsOf id) := by
  induction as using List.reverseRecOn generalizing w part with
  | nil =>
      refine ⟨[], [], _, rfl, .nil _, ?_⟩
      rw [List.prefix_nil.mp before]
      rfl
  | append_singleton as a ih =>
      obtain ⟨u, reached, last⟩ := run.of_append
      obtain ⟨w', step, rest⟩ := last.of_cons
      obtain rfl := rest.eq_of_nil
      have split : as.countP Action.isJoin + [a].countP Action.isJoin ≤ 2 ^ 64 := by
        rwa [← List.countP_append]
      have earlier : ∀ {part}, part <+: history id (start shared source) as →
          ∃ past later u, as ++ [a] = past ++ later ∧
            Run (Step shared) (start shared source) past u ∧
            replay ∅ part = some (u.registry.subscriptionsOf id) := by
        intro part before
        obtain ⟨past, later, v, rfl, reachedPast, same⟩ := ih reached (by omega) before
        exact ⟨past, later ++ [a], v, List.append_assoc .., reachedPast, same⟩
      have steps := run.mono fun step => step.1
      obtain ⟨gate, owners⟩ := Owners.of_run (reached.mono fun step => step.1) (by omega)
      have log : history id (start shared source) (as ++ [a]) =
          history id (start shared source) as ++
            (w.registry.queueOf id).drop (u.registry.queueOf id).length := by
        rw [history_run (reached.mono fun step => step.1), step.1.history]
        exact congrArg _ (List.append_nil _)
      rcases step.1.speaks_cases owners id with nothing | ⟨frame, one, how⟩
      · rw [log, nothing, List.append_nil] at before
        exact earlier before
      rw [log, one, List.prefix_concat_iff] at before
      rcases before with rfl | before
      · rcases how with overheard | ⟨i, t, claims, stage, found, phase, nothing⟩
        · obtain ⟨past, later, v, split, reachedPast, same⟩ := earlier (List.prefix_refl _)
          refine ⟨past, later, v, split, reachedPast, ?_⟩
          rw [replay_append, same]
          exact replay_overheard _ (by simpa using overheard)
        · refine ⟨as ++ [a], [], w, (List.append_nil _).symm, steps, ?_⟩
          rw [← one, ← log]
          exact (Echoing.of_run run joins).replay (gate.step step.1) found phase nothing
      · exact earlier before

/-- A step at which no frame is dropped for `id` and every `RawValue` holds a JSON value. -/
def StepMirrored (shared : Shared σ) (id : ConnectionId) (w : World σ) (a : Action)
    (w' : World σ) : Prop :=
  StepDelivering shared id w a w' ∧ StepGenuine shared w a w'

/-- **The client's replica, from the bytes it reads.**  In every run of the server with at most
`2 ^ 64` registrations in which no frame is dropped for a connection, however the other tasks and
the publishers act in between: a client that decodes the texts on its socket and follows the
acknowledgements never meets one it cannot follow, and the set it has is one the registry has held
for it.  Once it has read all there is, with no message of its own at hand, it is the set the
registry holds. -/
theorem mirror_run (shared : Shared σ) (source : σ) (as : List Action) (w : World σ)
    (id : ConnectionId) (run : Run (StepMirrored shared id) (start shared source) as w)
    (joins : as.countP Action.isJoin ≤ 2 ^ 64) (i : Nat) (t : Task)
    (found : w.tasks[i]? = some t) (given : t.id = some id) :
    (∃ past later u, as = past ++ later ∧ Run (Step shared) (start shared source) past u ∧
      Wire.mirror (t.texts.map ServerMessage.toFrame) = some (u.registry.subscriptionsOf id)) ∧
    ∀ claims stage, t.phase = .session id claims stage → stage.settled = true →
      stage.inflight = [] → w.registry.queueOf id = [] →
      Wire.mirror (t.texts.map ServerMessage.toFrame) = some (w.registry.subscriptionsOf id) := by
  have delivering := run.mono fun step => step.1
  have steps := delivering.mono fun step => step.1
  have wellFormed := texts_wellFormed (run.mono fun step => step.2) found
  obtain ⟨claims, sent, texts, here⟩ := (Streamed.of_run steps joins id).stream i t found given
  have mirrored : Wire.mirror (t.texts.map ServerMessage.toFrame) = replay ∅ sent := by
    rw [Wire.mirror, Wire.follow_toFrame wellFormed, texts]
    rfl
  rw [mirrored]
  refine ⟨held_run delivering joins ?_, fun claims' stage' phase' settled written empty => ?_⟩
  · rcases here with ⟨-, part⟩ | ⟨stage, -, -, -, all⟩
    · exact part
    · rw [all, List.append_assoc]
      exact List.prefix_append _ _
  · rcases here with ⟨left, -⟩ | ⟨stage, phase, -, -, all⟩
    · rw [phase'] at left
      cases left
    · cases phase.symm.trans phase'
      rw [written, empty, List.append_nil, List.append_nil] at all
      rw [← all]
      exact (Echoing.of_run delivering joins).replay (Owners.of_run steps joins).1 found phase
        (Session.owed_of_settled settled)

/-- The first client of `guarded` is written the acknowledgement of its request. -/
def following : List Action :=
  [.act 0 .quiet, .act 0 .quiet, .act 0 (.call (.recv ⟨1⟩)), .act 0 .quiet]

/-- That client's world. -/
def followed : World LastValue :=
  { answered with
    registry := answered.registry.run [.recv ⟨1⟩]
    tasks := [{ registeredTask ⟨1⟩ (Claims.new "alice") authText with
      phase := .session ⟨1⟩ (Claims.new "alice") .check
      received := [.text authText, .text subscribeText]
      written := [.text (.authenticated "alice"), .text (.subscribed ["x"] [])] }] }

theorem run_following : Run (StepDelivering guarded ⟨1⟩) answered following followed := by
  refine .cons ⟨.act rfl (.handled rfl), fun _ called => by cases called⟩ ?_
  refine .cons ⟨.act rfl (.fastEnough rfl (by decide)), fun _ called => by cases called⟩ ?_
  refine .cons ⟨.act rfl (.recv rfl rfl rfl), fun _ called => by cases called; rfl⟩ ?_
  exact .single ⟨.act rfl (.write rfl), fun _ called => by cases called⟩

/-- The client that reads its two frames knows that it is subscribed to `x`. -/
theorem mirror_run_subscribed :
    Run (StepMirrored guarded ⟨1⟩) (start guarded LastValue.new)
        (connecting 0 (Claims.new "alice") 256 ++ asking ++ following) followed ∧
      Wire.mirror ([ServerMessage.authenticated "alice", .subscribed ["x"] []].map
          ServerMessage.toFrame) = some (followed.registry.subscriptionsOf ⟨1⟩) ∧
      followed.registry.subscriptionsOf ⟨1⟩ = {"x"} := by
  have parsed : guarded.fromStr authText = .ok (.auth "t") := rfl
  have capacity : 0 < guarded.config.sendQueue ∧ guarded.config.sendQueue ≤ maxPermits := by decide
  have connected := delivering_of_silent ⟨1⟩ (run_connecting guarded (start guarded LastValue.new)
    (by decide) parsed rfl capacity) (by decide)
  have run : Run (StepMirrored guarded ⟨1⟩) _ _ followed :=
    genuine_run (fun step => step.1) ((connected.append run_asking).append run_following)
      (by decide) (fun ch payload given => by cases given)
      (by simp [connecting, asking, following])
  refine ⟨run, ?_, by decide⟩
  exact (mirror_run guarded LastValue.new _ followed ⟨1⟩ run (by decide) 0 _ rfl rfl).2
    (Claims.new "alice") .check rfl rfl rfl rfl

end World

end WsFanout
