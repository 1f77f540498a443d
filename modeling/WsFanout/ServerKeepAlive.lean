import WsFanout.Bind
import WsFanout.ServerDeadline
import WsFanout.ServerEviction

/-!
# Keeping a well-behaved client

A client that answers each ping at once, takes each write at once and never lets its queue fill up
has done what the protocol asks of it.  `Timed.Prompt` is a step in the life of such a connection:
time passes only while the session waits at `select!` with nothing to do.  `Timed.kept_iff` compares
the configurations under which its session is never closed with those that `Config::validate`
accepts.
-/

namespace WsFanout

open Lib

variable {σ : Type}

/-- A session is closed by a tick that finds its client silent, or by a check that finds it too
slow. -/
theorem Turn.closes {shared : Shared σ} {r : Registry ServerMessage} {source : σ} {t t' : Task}
    {e : Effect} {c : Cause} (turn : Turn shared r source t e t') (caused : Caused t c t')
    {id : ConnectionId} {claims : Claims} (next : t'.phase = .session id claims .closing) :
    c = .silence ∨ shared.config.maxConsecutiveDrops ≤ r.drops id := by
  cases turn with
  | timeout phase =>
      refine .inl ?_
      cases caused with
      | silence _ _ => rfl
      | peer awaits => rw [phase] at awaits; cases awaits
      | read message taken => simp at taken
      | expiry gaveUp => simp [Task.GaveUp, phase] at gaveUp
      | start was => rw [phase] at was; cases was
      | tick _ next | queued _ next | drained _ next _ => cases next
      | work computes => rw [phase] at computes; cases computes
  | tooSlow phase drops =>
      cases next
      exact .inr drops
  | inbound message phase branch =>
      cases next
      cases message <;> cases branch
  | upgraded _ | notUpgraded _ | authorised _ _ _ | refused _ _ _ | validatorPanic _ _ _ _
  | refuse _ _ | closed _ | acknowledge _ | notAcknowledged _ _ | channelPanic _ _ | join _ _
  | timerPanic _ _ | start _ _ | recv _ _ _ | drain _ _ | drained _ _ | inboundEnd _ _ _ | tick _
  | write _ | notWritten _ _ | handle _ _ | handlePanic _ _ | handled _ | fastEnough _ _
  | sinkClosed _ | dropReceiver _ | unregister _ | release _ =>
      cases next

/-- A session begins with the set-up of its heartbeat. -/
theorem Turn.cause_of_starting {shared : Shared σ} {r : Registry ServerMessage} {source : σ}
    {t t' : Task} {e : Effect} {c : Cause} (turn : Turn shared r source t e t')
    (caused : Caused t c t') {id : ConnectionId} {claims : Claims}
    (phase : t.phase = .session id claims .starting) : c = .start := by
  cases caused with
  | start _ => rfl
  | read message taken =>
      rcases turn.reads taken with was | ⟨id, claims, was⟩ <;>
        · rw [phase] at was
          cases was
  | peer awaits => rw [phase] at awaits; cases awaits
  | expiry gaveUp => simp [Task.GaveUp, phase] at gaveUp
  | tick was _ | silence was _ | queued was _ | drained was _ _ =>
      rw [phase] at was
      cases was
  | work computes => rw [phase] at computes; cases computes

namespace Timed

variable {shared : Shared σ} {i : Nat}

/-- The session of task `i` begins, and no frame has been dropped for its connection. -/
def Entered (i : Nat) (s : Timed σ) : Prop :=
  ∃ (t : Task) (id : ConnectionId) (claims : Claims), s.world.tasks[i]? = some t ∧
    t.phase = .session id claims .starting ∧ s.world.registry.drops id = 0

/-- The session of task `i`, if it is in one, waits at `select!`, no branch has anything to do, and
every ping has been answered. -/
def Idle (i : Nat) (s : Timed σ) : Prop :=
  ∀ (t : Task) (id : ConnectionId) (claims : Claims) (stage : Session),
    s.world.tasks[i]? = some t → t.phase = .session id claims stage →
    stage = .select ∧ t.rx = .attached ∧ s.world.registry.queueOf id = [] ∧
      s.clock.unread = [] ∧ s.clock.owed = false

/-- A step in the life of a well-behaved client: time passes only while the session is idle, and no
frame is dropped for the connection. -/
def Prompt (shared : Shared σ) (i : Nat) (s : Timed σ) (ev : Event) (s' : Timed σ) : Prop :=
  Step shared i s ev s' ∧ (∀ d, ev = .elapse d → Idle i s) ∧
    ∀ (t : Task) (id : ConnectionId) (claims : Claims) (stage : Session) (op : Op ServerMessage),
      s.world.tasks[i]? = some t → t.phase = .session id claims stage → ev.op? = some op →
      s.world.registry.dropsFor id op = false

/-- A step that calls nobody drops nothing. -/
theorem Prompt.of_quiet {s s' : Timed σ} {ev : Event} (step : Step shared i s ev s')
    (quiet : ev.op? = none) (idle : ∀ d, ev = .elapse d → Idle i s) : Prompt shared i s ev s' := by
  refine ⟨step, idle, fun _ _ _ _ op _ _ called => ?_⟩
  rw [quiet] at called
  cases called

/-- The session of task `i` is being closed, by the heartbeat or as too slow. -/
def Closing (i : Nat) (s : Timed σ) : Prop :=
  ∃ (t : Task) (id : ConnectionId) (claims : Claims), s.world.tasks[i]? = some t ∧
    t.phase = .session id claims .closing

/-- Every session begins so. -/
theorem Entered.of_join {s s' : Timed σ} {subject : String} {sendQueue : Nat} {c : Cause}
    (step : Step shared i s (.turn c (.join subject sendQueue)) s') : Entered i s' := by
  have registry := step.registry_eq
  cases step with
  | turn found turn caused timely =>
      obtain ⟨claims, -, -, -, rfl⟩ := turn.adds rfl rfl
      refine ⟨_, _, claims, World.Step.act_task found _ _, rfl, ?_⟩
      rw [registry]
      have entry : ((s.world.registry.step (.add subject sendQueue)).1).connections.lookup
          ⟨s.world.registry.nextId⟩ = some
            { subject, subscriptions := ∅, tx := BoundedQueue.new sendQueue, dropped := 0 } := by
        rw [Registry.step, Registry.lookup_add, if_pos rfl]
      exact Registry.drops_of_lookup entry

/-! ## The heartbeat of a client that answers -/

/-- The next tick comes within the interval after the last message, or a message that will be read
before time passes is on its way. -/
structure OnTime (config : Config) (stage : Session) (k : Clock) : Prop where
  ahead : k.now ≤ k.heartbeat
  seen : k.lastSeen ≤ k.now
  answered : k.heartbeat ≤ k.lastSeen + config.heartbeatInterval ∨
    k.heartbeat = k.now + config.heartbeatInterval ∧
      (stage = .writing .ping ∨ k.owed = true ∨ k.unread ≠ [])

theorem OnTime.within {config : Config} {stage : Session} {k : Clock}
    (onTime : OnTime config stage k) : k.heartbeat ≤ k.now + config.heartbeatInterval := by
  rcases onTime.answered with soon | ⟨same, -⟩
  · exact Nat.le_trans soon (Nat.add_le_add_right onTime.seen _)
  · exact Nat.le_of_eq same

/-- Where the interval is no longer than the timeout, no tick finds the client silent. -/
theorem OnTime.not_silent {config : Config} {stage : Session} {k : Clock}
    (onTime : OnTime config stage k) (period : 0 < config.heartbeatInterval)
    (fits : config.heartbeatInterval ≤ config.heartbeatTimeout) : ¬ k.Allows config .silence := by
  rintro ⟨due, long⟩
  have ahead := onTime.ahead
  rcases onTime.answered with soon | ⟨same, -⟩ <;> omega

/-- A turn of the session that does not close it keeps the heartbeat on time. -/
theorem OnTime.turn {config : Config} {stage stage' : Session} {k : Clock} {t t' : Task}
    {c : Cause} {id : ConnectionId} {claims : Claims} (onTime : OnTime config stage k)
    (phase : t.phase = .session id claims stage) (phase' : t'.phase = .session id claims stage')
    (caused : Caused t c t') (timely : k.Allows config c) (other : stage ≠ .starting)
    (open' : stage' ≠ .closing) : OnTime config stage' (k.turn config c t t') := by
  have same : ∀ {c}, k.note config c = k → OnTime config stage' (k.turn config c t t') := by
    intro c unchanged
    have clock : k.turn config c t t' =
        { k with
          owed := k.owed || t.phase.pinging
          deadline := (t'.phase.within? config).map (k.now + ·) } := by
      rw [Clock.turn, unchanged]
    rw [clock]
    refine ⟨onTime.ahead, onTime.seen, onTime.answered.imp_right fun pending => ⟨pending.1, ?_⟩⟩
    rcases pending.2 with rfl | owed | unread
    · exact .inr (.inl (by simp [phase, Phase.pinging]))
    · exact .inr (.inl (by simp [owed]))
    · exact .inr (.inr unread)
  cases caused with
  | peer _ | expiry _ | queued _ _ | drained _ _ _ | work _ => exact same rfl
  | read message taken => exact ⟨onTime.ahead, Nat.le_refl _, .inl onTime.within⟩
  | start was =>
      rw [phase] at was
      cases was
      exact absurd rfl other
  | tick was next =>
      rw [phase'] at next
      cases next
      have due : k.heartbeat = k.now := Nat.le_antisymm timely.1 onTime.ahead
      have scheduled : (k.turn config .tick t t').heartbeat = k.now + config.heartbeatInterval := by
        simp [Clock.turn, Clock.note, Clock.nextTick, due]
      refine ⟨?_, onTime.seen, .inr ⟨scheduled, .inl rfl⟩⟩
      rw [scheduled, Clock.turn_now]
      exact Nat.le_add_right _ _
  | silence was next =>
      rw [phase'] at next
      cases next
      exact absurd rfl open'

/-- The heartbeat of a session is on time from its start. -/
theorem OnTime.start {config : Config} {stage' : Session} {k : Clock} {t t' : Task} :
    OnTime config stage' (k.turn config .start t t') :=
  ⟨Nat.le_add_right _ _, Nat.le_refl _, .inl (Nat.le_refl _)⟩

/-- What arrives will be read before time passes. -/
theorem OnTime.arrive {config : Config} {stage : Session} {k : Clock}
    (onTime : OnTime config stage k) (message : Inbound) :
    OnTime config stage (k.arrive message) := by
  refine ⟨onTime.ahead, onTime.seen, onTime.answered.imp_right fun pending => ⟨pending.1, ?_⟩⟩
  exact .inr (.inr (List.append_ne_nil_of_right_ne_nil _ (List.cons_ne_nil _ _)))

/-- Once every ping is answered and every message read, time may pass until the next tick. -/
theorem OnTime.elapse {config : Config} {k : Clock} (onTime : OnTime config .select k)
    (read : k.unread = []) (answered : k.owed = false) {d : Nat}
    (within : k.now + d ≤ k.heartbeat) :
    OnTime config .select { k with now := k.now + d } := by
  refine ⟨within, Nat.le_trans onTime.seen (Nat.le_add_right _ _), ?_⟩
  rcases onTime.answered with soon | ⟨-, writing | owed | unread⟩
  · exact .inl soon
  · cases writing
  · rw [answered] at owed
    cases owed
  · exact absurd read unread

/-- Task `i` has left its session, or is in it with no streak and a heartbeat that is on time. -/
def Kept (config : Config) (i : Nat) (s : Timed σ) : Prop :=
  ∃ t : Task, s.world.tasks[i]? = some t ∧
    (t.phase.left = true ∨
      ∃ (id : ConnectionId) (claims : Claims) (stage : Session),
        t.phase = .session id claims stage ∧ stage ≠ .closing ∧ s.world.registry.drops id = 0 ∧
          (stage = .starting ∨ OnTime config stage s.clock))

theorem Kept.not_closing {config : Config} {s : Timed σ} (kept : Kept config i s) :
    ¬ Closing i s := by
  rintro ⟨t, id, claims, found, phase⟩
  obtain ⟨u, there, left | ⟨_, _, _, was, going, -⟩⟩ := kept
  · obtain rfl := Option.some.inj (found.symm.trans there)
    rw [phase] at left
    cases left
  · obtain rfl := Option.some.inj (found.symm.trans there)
    rw [phase] at was
    cases was
    exact going rfl

/-- A step of a well-behaved client's connection does not close its session, under a limit of at
least one drop and an interval no longer than the timeout. -/
theorem Kept.step {s s' : Timed σ} {ev : Event} (kept : Kept shared.config i s)
    (limit : 1 ≤ shared.config.maxConsecutiveDrops) (period : 0 < shared.config.heartbeatInterval)
    (fits : shared.config.heartbeatInterval ≤ shared.config.heartbeatTimeout)
    (prompt : Prompt shared i s ev s') : Kept shared.config i s' := by
  obtain ⟨step, idle, room⟩ := prompt
  obtain ⟨t, found, here⟩ := kept
  obtain ⟨t', found', how⟩ := step.task_cases found
  refine ⟨t', found', ?_⟩
  rcases here with left | ⟨id, claims, stage, phase, going, zero, onTime⟩
  · refine .inl ?_
    rcases how with ⟨c, e, -, turn, -⟩ | ⟨-, same⟩
    · exact turn.left_kept left
    · rw [same]
      exact left
  · have zero' : s'.world.registry.drops id = 0 := by
      rw [step.registry_eq]
      cases called : ev.op? with
      | none => exact zero
      | some op =>
          exact Registry.drops_eq_zero_step zero (room t id claims stage op found phase called)
    rcases how with ⟨c, e, rfl, turn, caused, timely, clock⟩ | ⟨others, same⟩
    · rcases turn.session_cases phase with ⟨leaving, -⟩ | ⟨stage', phase', -⟩
      · refine .inl ?_
        rw [leaving]
        rfl
      have going' : stage' ≠ .closing := by
        rintro rfl
        rcases turn.closes caused phase' with rfl | slow
        · rcases onTime with rfl | onTime
          · cases turn.cause_of_starting caused phase
          · exact onTime.not_silent period fits timely
        · rw [zero] at slow
          exact absurd (UInt64.le_trans limit slow) (by decide)
      refine .inr ⟨id, claims, stage', phase', going', zero', .inr ?_⟩
      rw [clock]
      by_cases starting : stage = .starting
      · rw [starting] at phase
        obtain rfl := turn.cause_of_starting caused phase
        exact OnTime.start
      · exact (onTime.resolve_left starting).turn phase phase' caused timely starting going'
    · refine .inr ⟨id, claims, stage, same.trans phase, going, zero', ?_⟩
      cases step with
      | other _ _ => exact onTime
      | arrive message => exact onTime.imp_right fun onTime => onTime.arrive message
      | elapse d there within =>
          obtain rfl := Option.some.inj (found.symm.trans there)
          obtain ⟨rfl, -, -, read, answered⟩ := idle d rfl t id claims stage found phase
          have ticks : s.clock.now + d ≤ s.clock.heartbeat := within _ (by rw [phase]; rfl)
          exact .inr ((onTime.resolve_left (by simp)).elapse read answered ticks)
      | turn _ _ _ _ => cases others

/-! ## The configurations that keep it -/

/-- A server with one client whose session begins. -/
def sessionStart (shared : Shared σ) (source : σ) : Timed σ :=
  joined shared (World.start shared source) 0 (Claims.new "alice") authText

/-- The entry of that client, whose queue is empty. -/
theorem lookup_sessionStart (shared : Shared σ) (source : σ) :
    (sessionStart shared source).world.registry.connections.lookup ⟨1⟩ =
      some { subject := "alice", subscriptions := ∅, dropped := 0,
             tx := BoundedQueue.new shared.config.sendQueue } := by
  have added := Registry.lookup_add (Registry.new (F := ServerMessage)) "alice"
    shared.config.sendQueue ⟨1⟩
  rwa [if_pos (show (⟨1⟩ : ConnectionId) = ⟨Registry.new.nextId⟩ from rfl)] at added

theorem entered_sessionStart (shared : Shared σ) (source : σ) :
    Entered 0 (sessionStart shared source) :=
  ⟨_, ⟨1⟩, Claims.new "alice", rfl, rfl,
    Registry.drops_of_lookup (lookup_sessionStart shared source)⟩

/-- With a limit of zero, the first message a client sends closes its session. -/
theorem closing_of_limit (shared : Shared σ) (source : σ)
    (period : 0 < shared.config.heartbeatInterval)
    (limit : shared.config.maxConsecutiveDrops = 0) :
    ∃ evs s, Run (Prompt shared 0) (sessionStart shared source) evs s ∧ Closing 0 s := by
  refine ⟨[.turn .start .quiet, .arrive .pong, .turn (.read .pong) .quiet, .turn .work .quiet], _,
    .cons (.of_quiet (.turn rfl (.start rfl period) (.start rfl) trivial) rfl (by simp)) <|
    .cons (.of_quiet (.arrive .pong) rfl (by simp)) <|
    .cons (.of_quiet (.turn rfl (.inbound .pong rfl rfl) (.read _ rfl) rfl) rfl (by simp)) <|
    .single (.of_quiet (.turn rfl (.tooSlow rfl ?_) (.work rfl) trivial) rfl (by simp)),
    ⟨_, _, _, rfl, rfl⟩⟩
  rw [limit]
  exact UInt64.zero_le

/-- With an interval longer than the timeout, the first tick closes the session of a client that has
nothing to say. -/
theorem closing_of_interval (shared : Shared σ) (source : σ)
    (period : 0 < shared.config.heartbeatInterval)
    (exceeds : shared.config.heartbeatTimeout < shared.config.heartbeatInterval) :
    ∃ evs s, Run (Prompt shared 0) (sessionStart shared source) evs s ∧ Closing 0 s := by
  have idle : ∀ k : Clock, k.unread = [] → k.owed = false →
      Idle 0 ⟨(((sessionStart shared source).world.apply .quiet).put 0
        { World.registeredTask ⟨1⟩ (Claims.new "alice") authText with
          phase := .session ⟨1⟩ (Claims.new "alice") .select }), k⟩ := by
    rintro k read answered t id claims stage ⟨⟩ ⟨⟩
    exact ⟨rfl, rfl, Registry.queueOf_of_lookup (lookup_sessionStart shared source), read, answered⟩
  refine ⟨[.turn .start .quiet, .elapse shared.config.heartbeatInterval, .turn .silence .timeout],
    _, .cons (.of_quiet (.turn rfl (.start rfl period) (.start rfl) trivial) rfl (by simp)) <|
    .cons (.of_quiet (.elapse _ rfl ?_) rfl ?_) <|
    .single (.of_quiet (.turn rfl (.timeout rfl) (.silence rfl rfl) ⟨?_, ?_⟩) rfl (by simp)),
    ⟨_, _, _, rfl, rfl⟩⟩
  · rintro _ ⟨⟩
    exact Nat.le_refl _
  · exact fun d same => idle _ rfl rfl
  · exact Nat.le_refl _
  · show 0 + _ < 0 + _
    omega

/-- **Well-behaved clients are kept**, under some of the configurations that `validate` accepts.
Take every run of a session whose client answers each ping at once and takes each write at once,
with no frame dropped for it, whatever else it sends and whatever the rest of the server does: the
session is never closed by its heartbeat or as too slow exactly when the limit of drops is not zero
and the interval of the heartbeat does not exceed its timeout. -/
theorem kept_iff [Nonempty σ] (shared : Shared σ) (valid : shared.config.validate = .ok ()) :
    (∀ (i : Nat) (s s' : Timed σ) (evs : List Event), Entered i s →
      Run (Prompt shared i) s evs s' → ¬ Closing i s') ↔
    1 ≤ shared.config.maxConsecutiveDrops ∧
      shared.config.heartbeatInterval ≤ shared.config.heartbeatTimeout := by
  obtain ⟨-, -, -, period⟩ := Config.validate_ok valid
  constructor
  · intro keeps
    obtain ⟨source⟩ := ‹Nonempty σ›
    have entered := entered_sessionStart shared source
    refine ⟨?_, ?_⟩
    · by_contra low
      have limit : shared.config.maxConsecutiveDrops = 0 :=
        UInt64.lt_one_iff.mp (UInt64.not_le.mp low)
      obtain ⟨evs, s, run, closing⟩ := closing_of_limit shared source period limit
      exact keeps 0 _ s evs entered run closing
    · by_contra exceeds
      obtain ⟨evs, s, run, closing⟩ :=
        closing_of_interval shared source period (Nat.not_le.mp exceeds)
      exact keeps 0 _ s evs entered run closing
  · rintro ⟨limit, fits⟩ i s s' evs ⟨t, id, claims, found, phase, zero⟩ run
    have start : Kept shared.config i s :=
      ⟨t, found, .inr ⟨id, claims, .starting, phase, by simp, zero, .inl rfl⟩⟩
    have kept : Kept shared.config i s' :=
      run.invariant (fun kept prompt => kept.step limit period fits prompt) start
    exact kept.not_closing

/-- The default configuration keeps every well-behaved client. -/
theorem kept_iff_default :
    demo.config.validate = .ok () ∧
    ∀ (i : Nat) (s s' : Timed LastValue) (evs : List Event), Entered i s →
      Run (Prompt demo i) s evs s' → ¬ Closing i s' := by
  have : Nonempty LastValue := ⟨LastValue.new⟩
  exact ⟨rfl, (kept_iff demo rfl).mpr ⟨by decide, by decide⟩⟩

/-- `validate` accepts the configuration, and of a server under it some client connects, behaves
well from the start of its session on, and is closed. -/
def ClosesPrompt (config : Config) : Prop :=
  config.validate = .ok () ∧
  ∃ (evs evs' : List Event) (s s' : Timed LastValue),
    Run (Step (demoWith config) 0)
      (spawned (demoWith config) (World.start (demoWith config) LastValue.new) 0) evs s ∧
    Entered 0 s ∧ Run (Prompt (demoWith config) 0) s evs' s' ∧ Closing 0 s'

theorem closesPrompt_of_closing {config : Config} (valid : config.validate = .ok ())
    (capacity : 0 < config.sendQueue ∧ config.sendQueue ≤ maxPermits)
    (closes : ∃ evs s, Run (Prompt (demoWith config) 0)
      (sessionStart (demoWith config) LastValue.new) evs s ∧ Closing 0 s) :
    ClosesPrompt config := by
  obtain ⟨evs', s', run, closing⟩ := closes
  have parsed : (demoWith config).fromStr authText = .ok (.auth "t") := rfl
  have registered := run_joining (demoWith config) (World.start (demoWith config) LastValue.new) 0
    parsed rfl capacity
  exact ⟨valid, _, evs', _, s', registered, entered_sessionStart (demoWith config) LastValue.new,
    run, closing⟩

/-- A limit of zero is accepted, and so is a heartbeat whose interval exceeds its timeout of ninety
seconds. -/
theorem kept_iff_unchecked :
    ClosesPrompt { maxConsecutiveDrops := 0 } ∧
      ClosesPrompt { heartbeatInterval := 90000000001 } := by
  constructor
  · exact closesPrompt_of_closing rfl (by decide) (closing_of_limit _ _ (by decide) rfl)
  · exact closesPrompt_of_closing rfl (by decide)
      (closing_of_interval _ _ (by decide) (by decide))

end Timed

end WsFanout
