import WsFanout.ServerKeepAlive
import WsFanout.ServerSilence

/-!
# How long a silent client is kept

A session looks at the time of the last message only when it takes a tick.  A tick that finds the
client alive comes back one interval later, a write that is pending when a tick falls due lasts up
to the timeout, and at `select!` a queued frame may be taken before a tick that is due.
`Timed.Metered` adds up, since the last message, what the session spent on such frames and on
computing, and `Timed.silence_noticed` bounds the time since the last message by it: beyond two
timeouts and an interval, only that keeps a silent client.
-/

namespace WsFanout

open Lib

variable {σ : Type}

/-- The session waits at `select!`. -/
def Phase.selecting : Phase → Bool
  | session _ _ .select => true
  | _ => false

/-- A write begins at `select!`. -/
theorem Turn.selecting_of_writing {shared : Shared σ} {r : Registry ServerMessage} {source : σ}
    {t t' : Task} {e : Effect} (turn : Turn shared r source t e t') {id : ConnectionId}
    {claims : Claims} {message : Outbound}
    (next : t'.phase = .session id claims (.writing message)) :
    t.phase = .session id claims .select := by
  cases turn with
  | recv phase _ _ | drain phase _ | tick phase =>
      cases next
      exact phase
  | inbound inbound phase branch =>
      cases next
      exact phase
  | upgraded _ | notUpgraded _ | authorised _ _ _ | refused _ _ _ | validatorPanic _ _ _ _
  | refuse _ _ | closed _ | acknowledge _ | notAcknowledged _ _ | channelPanic _ _ | join _ _
  | timerPanic _ _ | start _ _ | drained _ _ | inboundEnd _ _ _ | timeout _ | write _
  | notWritten _ _ | handle _ _ | handlePanic _ _ | handled _ | fastEnough _ _ | tooSlow _ _
  | sinkClosed _ | dropReceiver _ | unregister _ | release _ => cases next

/-- A session is entered at its start. -/
theorem Turn.session_before {shared : Shared σ} {r : Registry ServerMessage} {source : σ}
    {t t' : Task} {e : Effect} (turn : Turn shared r source t e t') {id : ConnectionId}
    {claims : Claims} {stage' : Session} (next : t'.phase = .session id claims stage')
    (later : stage' ≠ .starting) : ∃ stage, t.phase = .session id claims stage := by
  cases turn with
  | join _ _ =>
      cases next
      exact absurd rfl later
  | start phase _ | recv phase _ _ | drain phase _ | inbound _ phase _ | tick phase | timeout phase
  | write phase | handle phase _ | handled phase | fastEnough phase _ | tooSlow phase _ =>
      cases next
      exact ⟨_, phase⟩
  | upgraded _ | notUpgraded _ | authorised _ _ _ | refused _ _ _ | validatorPanic _ _ _ _
  | refuse _ _ | closed _ | acknowledge _ | notAcknowledged _ _ | channelPanic _ _
  | timerPanic _ _ | drained _ _ | inboundEnd _ _ _ | notWritten _ _ | handlePanic _ _
  | sinkClosed _ | dropReceiver _ | unregister _ | release _ => cases next

namespace Timed

/-! ## What keeps a session from its tick -/

/-- The event sets the time of the last message. -/
def hears : Event → Bool
  | .turn (.read _) _ => true
  | .turn .start _ => true
  | _ => false

/-- What an event keeps the session of task `i` from its tick: the time that passes while it
computes, and a whole write for a queued frame that is taken while the tick is due. -/
def delay (config : Config) (i : Nat) (s : Timed σ) : Event → Nat
  | .elapse d => if (s.world.tasks[i]?).any (·.phase.computes) then d else 0
  | .turn .work _ =>
    if (s.world.tasks[i]?).any (·.phase.selecting) ∧ s.clock.heartbeat ≤ s.clock.now then
      config.heartbeatTimeout
    else 0
  | _ => 0

/-- A step with what the session was kept from its tick since the last message. -/
def Metered (shared : Shared σ) (i : Nat) (p : Timed σ × Nat) (ev : Event) (q : Timed σ × Nat) :
    Prop :=
  Step shared i p.1 ev q.1 ∧
    q.2 = if hears ev then 0 else p.2 + delay shared.config i p.1 ev

/-! ## The clock of a session that watches -/

/-- The bound on the clock: two timeouts and an interval after the last message, and what kept the
session from its tick. -/
def limit (config : Config) (k : Clock) (late : Nat) : Nat :=
  k.lastSeen + 2 * config.heartbeatTimeout + config.heartbeatInterval + late

/-- The tick comes no later than a timeout and an interval after the last message, and neither the
clock nor the timer of a pending write is beyond the bound. -/
structure Watching (config : Config) (k : Clock) (late : Nat) : Prop where
  seen : k.lastSeen ≤ k.now
  tick : k.heartbeat ≤ k.lastSeen + config.heartbeatTimeout + config.heartbeatInterval
  bound : k.now ≤ limit config k late
  write : ∀ due, k.deadline = some due → due ≤ limit config k late

namespace Watching

variable {config : Config} {k : Clock} {late : Nat}

theorem mono (watching : Watching config k late) {late' : Nat} (more : late ≤ late') :
    Watching config k late' := by
  obtain ⟨seen, tick, bound, write⟩ := watching
  refine ⟨seen, tick, ?_, fun due set => ?_⟩
  · simp only [limit] at bound ⊢
    omega
  · have earlier := write due set
    simp only [limit] at earlier ⊢
    omega

/-- The timer of an operation that begins with a turn is that of a write begun at `select!`. -/
theorem deadline_turn {shared : Shared σ} {r : Registry ServerMessage} {source : σ} {t t' : Task}
    {e : Effect} {c : Cause} (turn : Turn shared r source t e t') {id : ConnectionId}
    {claims : Claims} {stage' : Session} (phase' : t'.phase = .session id claims stage')
    {due : Nat} (set : (k.turn config c t t').deadline = some due) :
    t.phase = .session id claims .select ∧ due = k.now + config.heartbeatTimeout := by
  rw [Clock.turn_deadline, phase'] at set
  cases stage' with
  | writing message =>
      cases set
      exact ⟨turn.selecting_of_writing phase', rfl⟩
  | starting | select | handling _ | check | closing => cases set

/-- A turn that starts the heartbeat or takes a message in. -/
theorem heard {shared : Shared σ} {r : Registry ServerMessage} {source : σ} {t t' : Task}
    {e : Effect} {c : Cause} (turn : Turn shared r source t e t') {id : ConnectionId}
    {claims : Claims} {stage' : Session} (phase' : t'.phase = .session id claims stage')
    (now : (k.turn config c t t').lastSeen = k.now)
    (tick : (k.turn config c t t').heartbeat ≤
      k.now + config.heartbeatTimeout + config.heartbeatInterval) :
    Watching config (k.turn config c t t') 0 := by
  refine ⟨?_, ?_, ?_, fun due set => ?_⟩
  · rw [now, Clock.turn_now]
  · rw [now]
    exact tick
  · rw [limit, now, Clock.turn_now]
    omega
  · obtain ⟨-, rfl⟩ := deadline_turn turn phase' set
    rw [limit, now]
    omega

/-- A turn that leaves the last message and the tick where they are. -/
theorem kept {shared : Shared σ} {r : Registry ServerMessage} {source : σ} {t t' : Task}
    {e : Effect} {c : Cause} (watching : Watching config k late)
    (turn : Turn shared r source t e t') {id : ConnectionId} {claims : Claims} {stage' : Session}
    (phase' : t'.phase = .session id claims stage') (same : k.note config c = k) {late' : Nat}
    (more : late ≤ late')
    (passed : t.phase = .session id claims .select → k.heartbeat ≤ k.now →
      late + config.heartbeatTimeout ≤ late') :
    Watching config (k.turn config c t t') late' := by
  obtain ⟨seen, tick, bound, write⟩ := watching.mono more
  have lastSeen : (k.turn config c t t').lastSeen = k.lastSeen := by
    rw [Clock.turn, same]
  have heartbeat : (k.turn config c t t').heartbeat = k.heartbeat := by
    rw [Clock.turn, same]
  refine ⟨?_, ?_, ?_, fun due set => ?_⟩
  · rwa [lastSeen, Clock.turn_now]
  · rwa [lastSeen, heartbeat]
  · rwa [limit, lastSeen, Clock.turn_now]
  · obtain ⟨select, rfl⟩ := deadline_turn turn phase' set
    have before := watching.bound
    rw [limit, lastSeen]
    simp only [limit] at before
    rcases Nat.lt_or_ge k.now k.heartbeat with early | overdue
    · omega
    · have paid := passed select overdue
      omega

end Watching

variable {shared : Shared σ} {i : Nat}

/-- A turn of a session that goes on watching. -/
theorem Watching.turn {s : Timed σ} {t t' : Task} {c : Cause} {e : Effect} {id : ConnectionId}
    {claims : Claims} {stage stage' : Session} {late : Nat}
    (watching : Watching shared.config s.clock late) (found : s.world.tasks[i]? = some t)
    (turn : Turn shared s.world.registry s.world.source t e t') (caused : Caused t c t')
    (timely : s.clock.Allows shared.config c) (phase : t.phase = .session id claims stage)
    (phase' : t'.phase = .session id claims stage') (begun : stage ≠ .starting)
    (going : stage' ≠ .closing) :
    Watching shared.config (s.clock.turn shared.config c t t')
      (if hears (.turn c e) then 0 else late + delay shared.config i s (.turn c e)) := by
  have waits : t.phase.awaitsPeer = true ∨ t.phase.computes = true →
      t.phase ≠ .session id claims .select := by
    intro busy select
    rw [select] at busy
    rcases busy with awaits | computes
    · cases awaits
    · cases computes
  cases caused with
  | peer awaits =>
      exact watching.kept turn phase' rfl (Nat.le_refl _)
        fun select => absurd select (waits (.inl awaits))
  | expiry gaveUp =>
      refine watching.kept turn phase' rfl (Nat.le_refl _) fun select => ?_
      simp [Task.GaveUp, select] at gaveUp
  | work computes =>
      exact watching.kept turn phase' rfl (Nat.le_add_right _ _)
        fun select => absurd select (waits (.inr computes))
  | queued select next =>
      refine watching.kept turn phase' rfl (Nat.le_add_right _ _) fun _ overdue => ?_
      have waiting : t.phase.selecting = true := by
        rw [select]
        rfl
      simp [hears, delay, found, waiting, overdue]
  | read message taken =>
      refine Watching.heard turn phase' rfl ?_
      have seen := watching.seen
      have tick := watching.tick
      change s.clock.heartbeat ≤ _
      omega
  | tick select next =>
      obtain ⟨overdue, recent⟩ := timely
      have seen := watching.seen
      have scheduled : (s.clock.turn shared.config .tick t t').heartbeat ≤
          s.clock.now + shared.config.heartbeatInterval := by
        change s.clock.nextTick shared.config ≤ _
        unfold Clock.nextTick
        split <;> omega
      refine ⟨seen, ?_, ?_, fun due set => ?_⟩
      · change _ ≤ s.clock.lastSeen + _ + _
        omega
      · change s.clock.now ≤ s.clock.lastSeen + _ + _ + _
        omega
      · obtain ⟨-, rfl⟩ := Watching.deadline_turn turn phase' set
        change _ ≤ s.clock.lastSeen + _ + _ + _
        omega
  | start was =>
      rw [phase] at was
      cases was
      exact absurd rfl begun
  | silence was next =>
      rw [phase'] at next
      cases next
      exact absurd rfl going
  | drained was next _ =>
      rw [phase'] at next
      cases next

/-- Time passes in a session that watches, up to its timer or while it computes. -/
theorem Watching.elapse {s : Timed σ} {t : Task} {id : ConnectionId} {claims : Claims}
    {stage : Session} {late d : Nat} (watching : Watching shared.config s.clock late)
    (armed : Armed shared.config i s) (found : s.world.tasks[i]? = some t)
    (phase : t.phase = .session id claims stage) (begun : stage ≠ .starting)
    (going : stage ≠ .closing)
    (within : ∀ due, s.clock.timer? t.phase = some due → s.clock.now + d ≤ due) :
    Watching shared.config { s.clock with now := s.clock.now + d }
      (late + delay shared.config i s (.elapse d)) := by
  have later : s.clock.now + d ≤ limit shared.config s.clock
      (late + delay shared.config i s (.elapse d)) := by
    have bound := watching.bound
    have tick := watching.tick
    simp only [limit] at bound ⊢
    have computing : t.phase.computes = true → delay shared.config i s (.elapse d) = d := by
      intro computes
      simp [delay, found, computes]
    cases stage with
    | starting => exact absurd rfl begun
    | closing => exact absurd rfl going
    | select =>
        have early := within s.clock.heartbeat (by rw [phase]; rfl)
        omega
    | writing message =>
        obtain ⟨due, set, fires, -⟩ := armed.timer found (by rw [phase]; rfl)
        have early := within due fires
        have timer := watching.write due set
        simp only [limit] at timer
        omega
    | handling _ | check =>
        rw [computing (by rw [phase]; rfl)]
        omega
  obtain ⟨seen, tick, -, write⟩ := watching.mono
    (Nat.le_add_right late (delay shared.config i s (.elapse d)))
  exact ⟨Nat.le_trans seen (Nat.le_add_right _ _), tick, later, write⟩

/-- The clock of task `i` watches while its session goes on. -/
def Vigil (config : Config) (i : Nat) (p : Timed σ × Nat) : Prop :=
  ∃ t : Task, p.1.world.tasks[i]? = some t ∧
    ∀ (id : ConnectionId) (claims : Claims) (stage : Session), t.phase = .session id claims stage →
      stage ≠ .starting → stage ≠ .closing → Watching config p.1.clock p.2

theorem Vigil.step {p q : Timed σ × Nat} {ev : Event} (vigil : Vigil shared.config i p)
    (armed : Armed shared.config i p.1) (metered : Metered shared i p ev q) :
    Vigil shared.config i q := by
  obtain ⟨step, meter⟩ := metered
  obtain ⟨t, found, watching⟩ := vigil
  obtain ⟨t', found', how⟩ := step.task_cases found
  refine ⟨t', found', fun id claims stage' phase' begun' going' => ?_⟩
  rw [meter]
  rcases how with ⟨c, e, rfl, turn, caused, timely, clock⟩ | ⟨others, same⟩
  · rw [clock]
    obtain ⟨stage, phase⟩ := turn.session_before phase' begun'
    rcases eq_or_ne stage .starting with rfl | begun
    · obtain rfl := turn.cause_of_starting caused phase
      refine Watching.heard turn phase' rfl ?_
      change _ + _ ≤ _ + _ + _
      omega
    · have going : stage ≠ .closing := by
        rintro rfl
        rw [turn.leaving_of_closing phase] at phase'
        cases phase'
      exact (watching id claims stage phase begun going).turn found turn caused timely phase phase'
        begun going'
  · rw [same] at phase'
    have watches := watching id claims stage' phase' begun' going'
    obtain ⟨s, late⟩ := p
    obtain ⟨s', late'⟩ := q
    cases step with
    | elapse d there within =>
        obtain rfl := Option.some.inj (found.symm.trans there)
        exact watches.elapse armed found phase' begun' going' within
    | arrive _ => exact ⟨watches.seen, watches.tick, watches.bound, watches.write⟩
    | other _ _ => exact watches
    | turn _ _ _ _ => cases others

/-- **A silent client is noticed.**  In every run of a connection, with writes that take any time
up to the timeout, delayed ticks, and a `select!` that takes any ready branch: while the session
goes on and is not being closed, the time since the last message it has read is at most two
timeouts and an interval, and what kept it from its tick since then.  That is the time it spent
computing, and a timeout for each queued frame it took while its tick was due. -/
theorem silence_noticed (shared : Shared σ) (w : World σ) (now : Nat) (evs : List Event)
    (s : Timed σ) (late : Nat)
    (reached : Run (Metered shared w.tasks.length) (spawned shared w now, 0) evs (s, late))
    (t : Task) (found : s.world.tasks[w.tasks.length]? = some t) (id : ConnectionId)
    (claims : Claims) (stage : Session) (phase : t.phase = .session id claims stage)
    (begun : stage ≠ .starting) (going : stage ≠ .closing) :
    s.clock.now ≤ s.clock.lastSeen + 2 * shared.config.heartbeatTimeout +
      shared.config.heartbeatInterval + late := by
  obtain ⟨-, u, there, watching⟩ := reached.invariant
    (I := fun p => Armed shared.config w.tasks.length p.1 ∧
      Vigil shared.config w.tasks.length p)
    (fun inv metered => ⟨inv.1.step metered.1, inv.2.step inv.1 metered⟩)
    ⟨.spawned w now, {}, by simp [spawned], fun _ _ _ phase => by cases phase⟩
  obtain rfl := Option.some.inj (found.symm.trans there)
  exact (watching id claims stage phase begun going).bound

/-- A client of `brisk` sends nothing and takes nothing: its first ping, due after two seconds, is
still being written at five. -/
theorem silence_noticed_pinged :
    ∃ evs, Run (Metered brisk 0) (spawned brisk (World.start brisk LastValue.new) 0, 0) evs
        (onBrisk (.writing .ping) []
          { now := 5000000000, deadline := some 5000000000, heartbeat := 4000000000 }, 0) ∧
      5000000000 ≤ 0 + 2 * brisk.config.heartbeatTimeout + brisk.config.heartbeatInterval + 0 := by
  have parsed : brisk.fromStr authText = .ok (.auth "t") := rfl
  have registered :=
    run_joining brisk (World.start brisk LastValue.new) 0 parsed rfl (by decide)
  obtain ⟨late, joins⟩ := registered.metered
    (fun s ev late => if hears ev then 0 else late + delay brisk.config 0 s ev) 0
  have enters : Metered brisk 0 (_, late) (.turn .start .quiet)
      (onBrisk .select [] { now := 0, deadline := none, heartbeat := 2000000000 }, 0) :=
    ⟨step_entered brisk (World.start brisk LastValue.new) 0 (Claims.new "alice") authText
      (by decide), rfl⟩
  have waits : Metered brisk 0
      (onBrisk .select [] { now := 0, deadline := none, heartbeat := 2000000000 }, 0)
      (.elapse 2000000000)
      (onBrisk .select [] { now := 2000000000, deadline := none, heartbeat := 2000000000 }, 0) := by
    refine ⟨.elapse _ rfl ?_, rfl⟩
    rintro _ ⟨⟩
    decide
  have ticks : Metered brisk 0
      (onBrisk .select [] { now := 2000000000, deadline := none, heartbeat := 2000000000 }, 0)
      (.turn .tick .quiet)
      (onBrisk (.writing .ping) []
        { now := 2000000000, deadline := some 5000000000, heartbeat := 4000000000 }, 0) :=
    ⟨.turn (t := briskTask .select []) rfl (.tick rfl) (.tick rfl rfl) (by decide), rfl⟩
  have writes : Metered brisk 0
      (onBrisk (.writing .ping) []
        { now := 2000000000, deadline := some 5000000000, heartbeat := 4000000000 }, 0)
      (.elapse 3000000000)
      (onBrisk (.writing .ping) []
        { now := 5000000000, deadline := some 5000000000, heartbeat := 4000000000 }, 0) := by
    refine ⟨.elapse _ rfl ?_, rfl⟩
    rintro _ ⟨⟩
    decide
  have run := Run.append joins <| .cons enters <| .cons waits <| .cons ticks <| .single writes
  refine ⟨_, run, ?_⟩
  exact silence_noticed brisk (World.start brisk LastValue.new) 0 _ _ 0 run _ rfl ⟨1⟩
    (Claims.new "alice") (.writing .ping) rfl (by simp) (by simp)

end Timed

end WsFanout
