import WsFanout.ServerRun

/-!
# One connection under a clock

A connection task goes on because its peer has done its part, because a timer has fired, or because
nothing keeps it.  `Caused` says which of these a turn is, `Clock` is what time adds to a task, and
`Timed.Step` is a step of the server seen from task `i`: each turn is a `Turn` of `Server`, taken at
an instant at which the clock allows it.

Instants and durations are in nanoseconds.  Time does not pass a timer: `tokio::time::timeout` ends
the operation it wraps at its deadline, and the tick of the heartbeat makes its branch of `select!`
ready.  A message that arrives stays at the socket until the task reads it, and an operation on the
socket stays pending until the peer lets it end.  While a task computes, any time may pass.
-/

namespace WsFanout

open Lib

variable {σ : Type}

/-! ## What a task waits for -/

/-- The `timeout` around the operation a task awaits, if there is one. -/
def Phase.within? (config : Config) : Phase → Option Nat
  | handshake => some config.authTimeout
  | authenticating => some config.authTimeout
  | session _ _ (.writing _) => some config.heartbeatTimeout
  | _ => none

/-- The task awaits the handshake, a write or a close: operations that the peer lets end. -/
def Phase.awaitsPeer : Phase → Bool
  | handshake => true
  | refusing _ => true
  | closing _ => true
  | acking _ => true
  | session _ _ (.writing _) => true
  | session _ _ .closing => true
  | _ => false

/-- A ping is being written. -/
def Phase.pinging : Phase → Bool
  | session _ _ (.writing .ping) => true
  | _ => false

/-- The task awaits nothing. -/
def Phase.computes : Phase → Bool
  | joining _ => true
  | session _ _ (.handling _) => true
  | session _ _ .check => true
  | leaving _ _ => true
  | unregistering _ _ => true
  | releasing => true
  | _ => false

/-- What lets a task take its turn. -/
inductive Cause where
  /-- The handshake, the write or the close it awaits has ended, well or badly. -/
  | peer
  /-- A message waits at the socket. -/
  | read (message : Inbound)
  /-- The timer around the awaited operation has fired. -/
  | expiry
  /-- The session begins and sets up its heartbeat. -/
  | start
  /-- A tick that finds the client alive. -/
  | tick
  /-- A tick that finds the client silent for too long. -/
  | silence
  /-- A queued frame, or work of its own. -/
  | work
  deriving DecidableEq, Repr

/-- The turn is the one that follows when the awaited operation is given up. -/
def Task.GaveUp (t t' : Task) : Prop :=
  match t.phase with
  | .handshake => t'.phase = .releasing
  | .authenticating => t'.received = t.received
  | .session id claims (.writing _) => t'.phase = .leaving id claims
  | _ => False

/-- What lets a task take the turn from `t` to `t'`. -/
inductive Caused : Task → Cause → Task → Prop
  | peer {t t' : Task} (awaits : t.phase.awaitsPeer = true) : Caused t .peer t'
  | read {t t' : Task} (message : Inbound) (taken : t'.received = t.received ++ [message]) :
      Caused t (.read message) t'
  | expiry {t t' : Task} (gaveUp : t.GaveUp t') : Caused t .expiry t'
  | start {t t' : Task} {id : ConnectionId} {claims : Claims}
      (phase : t.phase = .session id claims .starting) : Caused t .start t'
  | tick {t t' : Task} {id : ConnectionId} {claims : Claims}
      (phase : t.phase = .session id claims .select)
      (next : t'.phase = .session id claims (.writing .ping)) : Caused t .tick t'
  | silence {t t' : Task} {id : ConnectionId} {claims : Claims}
      (phase : t.phase = .session id claims .select)
      (next : t'.phase = .session id claims .closing) : Caused t .silence t'
  | queued {t t' : Task} {id : ConnectionId} {claims : Claims} {frame : ServerMessage}
      (phase : t.phase = .session id claims .select)
      (next : t'.phase = .session id claims (.writing (.text frame))) : Caused t .work t'
  | drained {t t' : Task} {id : ConnectionId} {claims : Claims}
      (phase : t.phase = .session id claims .select) (next : t'.phase = .leaving id claims)
      (unread : t'.received = t.received) : Caused t .work t'
  | work {t t' : Task} (computes : t.phase.computes = true) : Caused t .work t'

/-- Every turn has a cause. -/
theorem Turn.exists_cause {shared : Shared σ} {r : Registry ServerMessage} {source : σ}
    {t t' : Task} {e : Effect} (turn : Turn shared r source t e t') : ∃ c, Caused t c t' := by
  cases turn with
  | upgraded phase | notUpgraded phase | refuse _ phase | closed phase | acknowledge phase
  | notAcknowledged _ phase | write phase | notWritten _ phase | sinkClosed phase =>
      exact ⟨.peer, .peer (by rw [phase]; rfl)⟩
  | authorised first phase _ | refused first phase _ =>
      cases first with
      | none => exact ⟨.expiry, .expiry (by simp [Task.GaveUp, phase])⟩
      | some message => exact ⟨.read message, .read message rfl⟩
  | validatorPanic text _ _ _ => exact ⟨.read (.text text), .read _ rfl⟩
  | inbound message _ _ | inboundEnd message _ _ => exact ⟨.read message, .read message rfl⟩
  | timerPanic phase _ | start phase _ => exact ⟨.start, .start phase⟩
  | tick phase => exact ⟨.tick, .tick phase rfl⟩
  | timeout phase => exact ⟨.silence, .silence phase rfl⟩
  | recv phase _ _ | drain phase _ => exact ⟨.work, .queued phase rfl⟩
  | drained phase _ => exact ⟨.work, .drained phase rfl rfl⟩
  | channelPanic phase _ | join phase _ | handle phase _ | handlePanic phase _ | handled phase
  | fastEnough phase _ | tooSlow phase _ | dropReceiver phase | unregister phase
  | release phase =>
      exact ⟨.work, .work (by rw [phase]; rfl)⟩

/-! ## The clock of a task -/

/-- What time adds to a task: the instant, its timers, and the inbound messages with the instants
at which they arrived. -/
structure Clock where
  now : Nat
  /-- When the timer around the awaited operation fires. -/
  deadline : Option Nat
  /-- The next tick. -/
  heartbeat : Nat := 0
  /-- When a message was last read; nothing looks at it before the session begins. -/
  lastSeen : Nat := 0
  /-- What waits at the socket, the end of the stream and a failure included. -/
  unread : List (Nat × Inbound) := []
  /-- All that has arrived so far. -/
  arrived : List (Nat × Inbound) := []
  /-- A ping was written and no pong has arrived since. -/
  owed : Bool := false
  /-- When a tick found the client silent for too long. -/
  silent : Option Nat := none
  deriving DecidableEq, Repr

namespace Clock

/-- The timer that fires next while the task is in the given phase. -/
def timer? (k : Clock) : Phase → Option Nat
  | .session _ _ .select => some k.heartbeat
  | _ => k.deadline

/-- `MissedTickBehavior::Delay`: a tick that comes more than five milliseconds late moves the
schedule, and any other keeps it. -/
def nextTick (config : Config) (k : Clock) : Nat :=
  if 5000000 < k.now - k.heartbeat then k.now + config.heartbeatInterval
  else k.heartbeat + config.heartbeatInterval

/-- A message arrives at the socket. -/
def arrive (k : Clock) (message : Inbound) : Clock :=
  { k with
    unread := k.unread ++ [(k.now, message)]
    arrived := k.arrived ++ [(k.now, message)]
    owed := k.owed && message ≠ .pong }

/-- The instant at which a turn with this cause may be taken has come. -/
def Allows (config : Config) (k : Clock) : Cause → Prop
  | .read message => k.unread.head?.map Prod.snd = some message
  | .expiry => k.deadline = some k.now
  | .tick => k.heartbeat ≤ k.now ∧ k.now ≤ k.lastSeen + config.heartbeatTimeout
  | .silence => k.heartbeat ≤ k.now ∧ k.lastSeen + config.heartbeatTimeout < k.now
  | .peer | .start | .work => True

instance (config : Config) (k : Clock) : (c : Cause) → Decidable (k.Allows config c)
  | .read message => inferInstanceAs (Decidable (k.unread.head?.map Prod.snd = some message))
  | .expiry => inferInstanceAs (Decidable (k.deadline = some k.now))
  | .tick => inferInstanceAs
      (Decidable (k.heartbeat ≤ k.now ∧ k.now ≤ k.lastSeen + config.heartbeatTimeout))
  | .silence => inferInstanceAs
      (Decidable (k.heartbeat ≤ k.now ∧ k.lastSeen + config.heartbeatTimeout < k.now))
  | .peer | .start | .work => inferInstanceAs (Decidable True)

/-- Each cause has its time. -/
theorem exists_allows (config : Config) (c : Cause) : ∃ k : Clock, k.Allows config c := by
  cases c with
  | peer | start | work => exact ⟨{ now := 0, deadline := none }, trivial⟩
  | read message => exact ⟨{ now := 0, deadline := none, unread := [(0, message)] }, rfl⟩
  | expiry => exact ⟨{ now := 0, deadline := some 0 }, rfl⟩
  | tick => exact ⟨{ now := 0, deadline := none }, Nat.le_refl _, Nat.zero_le _⟩
  | silence =>
      exact ⟨{ now := config.heartbeatTimeout + 1, deadline := none }, Nat.zero_le _,
        by simp only; omega⟩

/-- What the cause of a turn does to the clock. -/
def note (config : Config) (k : Clock) : Cause → Clock
  -- the end of the stream leaves the loop before `last_seen` is set, and nothing reads it again
  | .read _ => { k with unread := k.unread.tail, lastSeen := k.now }
  | .start => { k with heartbeat := k.now + config.heartbeatInterval, lastSeen := k.now }
  | .tick => { k with heartbeat := k.nextTick config }
  | .silence => { k with heartbeat := k.nextTick config, silent := some k.now }
  | .peer | .expiry | .work => k

/-- The clock after a turn: the operation awaited next has its own timer. -/
def turn (config : Config) (k : Clock) (c : Cause) (t t' : Task) : Clock :=
  { k.note config c with
    owed := k.owed || t.phase.pinging
    deadline := (t'.phase.within? config).map (k.now + ·) }

variable {config : Config} {k : Clock} {c : Cause} {t t' : Task}

@[simp] theorem turn_now : (k.turn config c t t').now = k.now := by
  cases c <;> rfl

@[simp] theorem turn_deadline :
    (k.turn config c t t').deadline = (t'.phase.within? config).map (k.now + ·) :=
  rfl

@[simp] theorem turn_arrived : (k.turn config c t t').arrived = k.arrived := by
  cases c <;> rfl

end Clock

/-! ## The server seen from one task -/

/-- The server, and the clock of one of its tasks. -/
structure Timed (σ : Type) where
  world : World σ
  clock : Clock

/-- Time passes, a message arrives, the task takes a turn, or the rest of the server a step. -/
inductive Event where
  | elapse (d : Nat)
  | arrive (message : Inbound)
  | turn (c : Cause) (e : Effect)
  | other (a : Action)
  deriving DecidableEq, Repr

namespace Event

/-- The peer does something: it sends, or lets an operation on the socket end. -/
def ofPeer : Event → Bool
  | arrive _ => true
  | turn .peer _ => true
  | _ => false

/-- The task goes on. -/
def isTurn : Event → Bool
  | turn _ _ => true
  | _ => false

/-- The registry operation behind an event. -/
def op? : Event → Option (Op ServerMessage)
  | turn _ e => e.op?
  | other a => a.op?
  | _ => none

end Event

namespace Timed

/-- The server has accepted a connection and spawned its task. -/
def spawned (shared : Shared σ) (w : World σ) (now : Nat) : Timed σ where
  world := { w with permits := w.permits - 1, tasks := w.tasks ++ [{}] }
  clock := { now := now, deadline := some (now + shared.config.authTimeout) }

/-- One step of the server, as the clock of task `i` sees it. -/
inductive Step (shared : Shared σ) (i : Nat) : Timed σ → Event → Timed σ → Prop
  | elapse {s : Timed σ} {t : Task} (d : Nat) (found : s.world.tasks[i]? = some t)
      (within : ∀ due, s.clock.timer? t.phase = some due → s.clock.now + d ≤ due) :
      Step shared i s (.elapse d) ⟨s.world, { s.clock with now := s.clock.now + d }⟩
  | arrive {s : Timed σ} (message : Inbound) :
      Step shared i s (.arrive message) ⟨s.world, s.clock.arrive message⟩
  | turn {s : Timed σ} {t t' : Task} {c : Cause} {e : Effect}
      (found : s.world.tasks[i]? = some t)
      (turn : Turn shared s.world.registry s.world.source t e t') (caused : Caused t c t')
      (timely : s.clock.Allows shared.config c) :
      Step shared i s (.turn c e)
        ⟨(s.world.apply e).put i t', s.clock.turn shared.config c t t'⟩
  | other {s : Timed σ} {w : World σ} {a : Action} (others : ∀ e, a ≠ .act i e)
      (step : World.Step shared s.world a w) :
      Step shared i s (.other a) ⟨w, s.clock⟩

namespace Step

variable {shared : Shared σ} {i : Nat} {s s' : Timed σ} {ev : Event}

/-- Without the clock it is a step of the server, or none. -/
theorem toWorld (step : Step shared i s ev s') :
    s'.world = s.world ∨ ∃ a, World.Step shared s.world a s'.world ∧ a.op? = ev.op? := by
  cases step with
  | elapse d found within => exact .inl rfl
  | arrive message => exact .inl rfl
  | turn found turn caused timely => exact .inr ⟨_, .act found turn, rfl⟩
  | other others step => exact .inr ⟨_, step, rfl⟩

theorem registry_eq (step : Step shared i s ev s') :
    s'.world.registry = s.world.registry.after ev.op? := by
  cases step with
  | elapse _ _ _ | arrive _ => rfl
  | turn found turn caused timely => exact World.registry_apply s.world _
  | other others step => exact step.registry_eq

/-- The task a step finds at `i`, and the one it leaves there. -/
theorem task_cases (step : Step shared i s ev s') {t : Task}
    (found : s.world.tasks[i]? = some t) :
    ∃ t', s'.world.tasks[i]? = some t' ∧
      ((∃ c e, ev = .turn c e ∧ Turn shared s.world.registry s.world.source t e t' ∧
          Caused t c t' ∧ s.clock.Allows shared.config c ∧
          s'.clock = s.clock.turn shared.config c t t') ∨
        (ev.isTurn = false ∧ t'.phase = t.phase)) := by
  cases step with
  | elapse d there within => exact ⟨t, found, .inr ⟨rfl, rfl⟩⟩
  | arrive message => exact ⟨t, found, .inr ⟨rfl, rfl⟩⟩
  | @turn u t' c e there turn caused timely =>
      obtain rfl := Option.some.inj (found.symm.trans there)
      exact ⟨t', World.Step.act_task found e t',
        .inl ⟨c, e, rfl, turn, caused, timely, rfl⟩⟩
  | @other w a others step =>
      obtain ⟨t', found', ⟨e, rfl, -⟩ | ⟨-, same, -⟩⟩ := step.turn_cases found
      · exact absurd rfl (others e)
      · exact ⟨t', found', .inr ⟨rfl, same⟩⟩

/-- An event that is no turn of the task leaves its timers where they are. -/
theorem timers_kept (step : Step shared i s ev s') (others : ev.isTurn = false) :
    s'.clock.deadline = s.clock.deadline ∧ s'.clock.heartbeat = s.clock.heartbeat := by
  cases step with
  | elapse _ _ _ | arrive _ | other _ _ => exact ⟨rfl, rfl⟩
  | turn _ _ _ _ => cases others

end Step

/-- A run under the clock of a task is a run of the server. -/
theorem toWorld_run {shared : Shared σ} {i : Nat} {s s' : Timed σ} {evs : List Event}
    (run : Run (Step shared i) s evs s') :
    ∃ as, Run (World.Step shared) s.world as s'.world := by
  induction run with
  | nil s => exact ⟨[], .nil _⟩
  | cons step rest ih =>
      obtain ⟨as, later⟩ := ih
      rcases step.toWorld with same | ⟨a, first, -⟩
      · rw [same] at later
        exact ⟨as, later⟩
      · exact ⟨a :: as, .cons first later⟩

/-- What a task reaches after it was spawned, the server reaches. -/
theorem toWorld_spawned {shared : Shared σ} {w : World σ} (free : 0 < w.permits) {now : Nat}
    {evs : List Event} {s : Timed σ}
    (run : Run (Step shared w.tasks.length) (spawned shared w now) evs s) :
    ∃ as, Run (World.Step shared) w (.accept :: as) s.world := by
  obtain ⟨as, later⟩ := toWorld_run run
  exact ⟨as, .cons (.accept free) later⟩

/-- Every turn of the server is a turn under the clock, at some instant. -/
theorem exists_step {shared : Shared σ} {i : Nat} {w w' : World σ} {e : Effect}
    (step : World.Step shared w (.act i e) w') :
    ∃ c k k', Step shared i ⟨w, k⟩ (.turn c e) ⟨w', k'⟩ := by
  cases step with
  | act found turn =>
      obtain ⟨c, caused⟩ := turn.exists_cause
      obtain ⟨k, timely⟩ := Clock.exists_allows shared.config c
      exact ⟨c, k, _, .turn found turn caused timely⟩

/-! ## One client -/

/-- A client connects, presents a token that validates as `claims`, and is registered. -/
def joining (claims : Claims) (sendQueue : Nat) (text : String) : List Event :=
  [.turn .peer .quiet, .arrive (.text text), .turn (.read (.text text)) .quiet, .turn .peer .quiet,
    .turn .work (.join claims.subject sendQueue)]

/-- The server when that client, the one accepted last, has been registered. -/
def joined (shared : Shared σ) (w : World σ) (now : Nat) (claims : Claims) (text : String) :
    Timed σ where
  world := w.welcome shared claims text
  clock := { now := now, deadline := none, lastSeen := now, arrived := [(now, .text text)] }

/-- The server when the session of that client has begun. -/
def entered (shared : Shared σ) (w : World σ) (now : Nat) (claims : Claims) (text : String) :
    Timed σ where
  world :=
    { w.welcome shared claims text with
      tasks := w.tasks.map
          (Task.detach ⟨w.registry.nextId⟩ (w.registry.queueOf ⟨w.registry.nextId⟩)) ++
        [{ World.registeredTask ⟨w.registry.nextId⟩ claims text with
          phase := .session ⟨w.registry.nextId⟩ claims .select }] }
  clock :=
    { now := now
      deadline := none
      heartbeat := now + shared.config.heartbeatInterval
      lastSeen := now
      arrived := [(now, .text text)] }

/-- A turn of the task spawned last. -/
theorem Step.turn_last (shared : Shared σ) (s : Timed σ) {tasks : List Task} {t t' : Task}
    {c : Cause} {e : Effect} (split : s.world.tasks = tasks ++ [t])
    (turn : Turn shared s.world.registry s.world.source t e t') (caused : Caused t c t')
    (timely : s.clock.Allows shared.config c) :
    Step shared tasks.length s (.turn c e)
      ⟨{ s.world.apply e with tasks := tasks.map (e.bystander s.world.registry) ++ [t'] },
        s.clock.turn shared.config c t t'⟩ := by
  have found : s.world.tasks[tasks.length]? = some t := by simp [split]
  have step := Step.turn found turn caused timely
  rwa [World.put_last s.world split] at step

/-- A client with a valid token can be registered without a delay. -/
theorem run_joining (shared : Shared σ) (w : World σ) (now : Nat) {text token : String}
    {claims : Claims} (parsed : shared.fromStr text = .ok (.auth token))
    (valid : shared.validate token = .ok claims)
    (capacity : 0 < shared.config.sendQueue ∧ shared.config.sendQueue ≤ maxPermits) :
    Run (Step shared w.tasks.length) (spawned shared w now)
      (joining claims shared.config.sendQueue text) (joined shared w now claims text) := by
  have accepted : authenticate shared (some (.text text)) = .ok claims := by
    simp [authenticate, parsed, valid, Except.mapError]
  refine .cons (Step.turn_last _ _ rfl (.upgraded rfl) (.peer rfl) trivial) ?_
  refine .cons (.arrive _) ?_
  simp only [World.apply, Effect.bystander, List.map_id]
  refine .cons (Step.turn_last _ _ rfl (.authorised _ rfl accepted) (.read _ rfl) rfl) ?_
  simp only [World.apply, Effect.bystander, List.map_id]
  refine .cons (Step.turn_last _ _ rfl (.acknowledge rfl) (.peer rfl) trivial) ?_
  simp only [World.apply, Effect.bystander, List.map_id]
  have last := Step.turn_last shared
    ⟨w.acknowledged claims text,
      { now := now, deadline := none, lastSeen := now, arrived := [(now, .text text)] }⟩
    rfl (.join rfl capacity) (.work rfl) trivial
  exact .single last

/-- Its session begins with the set-up of the heartbeat. -/
theorem step_entered (shared : Shared σ) (w : World σ) (now : Nat) (claims : Claims)
    (text : String) (period : 0 < shared.config.heartbeatInterval) :
    Step shared w.tasks.length (joined shared w now claims text) (.turn .start .quiet)
      (entered shared w now claims text) := by
  have step := Step.turn_last shared (joined shared w now claims text) rfl (.start rfl period)
    (.start rfl) trivial
  simp only [World.apply, Effect.bystander, List.map_id, List.length_map] at step
  exact step

/-- A server that pings every two seconds and closes a connection after three seconds of silence. -/
def brisk : Shared LastValue :=
  demoWith { heartbeatInterval := 2000000000, heartbeatTimeout := 3000000000 }

/-- The task of the only client of `brisk`, at a stage of its session. -/
def briskTask (stage : Session) (pings : List Outbound) : Task :=
  { World.registeredTask ⟨1⟩ (Claims.new "alice") authText with
    phase := .session ⟨1⟩ (Claims.new "alice") stage
    written := .text (.authenticated "alice") :: pings }

/-- The server `brisk` with that client. -/
def onBrisk (stage : Session) (pings : List Outbound) (clock : Clock) : Timed LastValue where
  world :=
    { (World.start brisk LastValue.new).welcome brisk (Claims.new "alice") authText with
      tasks := [briskTask stage pings] }
  clock := { clock with arrived := (0, .text authText) :: clock.arrived }

theorem run_onBrisk :
    Run (Step brisk 0) (spawned brisk (World.start brisk LastValue.new) 0)
      (joining (Claims.new "alice") 256 authText ++ [.turn .start .quiet])
      (onBrisk .select [] { now := 0, deadline := none, heartbeat := 2000000000 }) := by
  have parsed : brisk.fromStr authText = .ok (.auth "t") := rfl
  have registered :=
    run_joining brisk (World.start brisk LastValue.new) 0 parsed rfl (by decide)
  exact registered.append (.single (step_entered brisk _ 0 (Claims.new "alice") _ (by decide)))

/-- Its first ping is due after two seconds. -/
theorem run_firstPing :
    Run (Step brisk 0) (spawned brisk (World.start brisk LastValue.new) 0)
      (joining (Claims.new "alice") 256 authText ++ [.turn .start .quiet] ++
        [.elapse 2000000000, .turn .tick .quiet])
      (onBrisk (.writing .ping) []
        { now := 2000000000, deadline := some 5000000000, heartbeat := 4000000000 }) := by
  refine run_onBrisk.append ?_
  have ticks : Step brisk 0
      (onBrisk .select [] { now := 2000000000, deadline := none, heartbeat := 2000000000 })
      (.turn .tick .quiet)
      (onBrisk (.writing .ping) []
        { now := 2000000000, deadline := some 5000000000, heartbeat := 4000000000 }) :=
    .turn (t := briskTask .select []) rfl (.tick rfl) (.tick rfl rfl) (by decide)
  refine .cons (.elapse _ rfl ?_) <| .single ticks
  rintro _ ⟨⟩
  decide

/-- A client of `brisk` takes the first ping and answers nothing; the tick at four seconds has found
it silent, and the socket is being closed. -/
def silentClient : Timed LastValue :=
  let s := onBrisk .closing [.ping]
    { now := 4000000000
      deadline := none
      heartbeat := 6000000000
      owed := true
      silent := some 4000000000 }
  { s with world := { s.world with heartbeatTimeouts := 1 } }

theorem run_silentClient :
    Run (Step brisk 0) (spawned brisk (World.start brisk LastValue.new) 0)
      (joining (Claims.new "alice") 256 authText ++ [.turn .start .quiet] ++
        [.elapse 2000000000, .turn .tick .quiet] ++
        [.turn .peer .quiet, .turn .work .quiet, .elapse 2000000000, .turn .silence .timeout])
      silentClient := by
  refine run_firstPing.append ?_
  have writes : Step brisk 0
      (onBrisk (.writing .ping) []
        { now := 2000000000, deadline := some 5000000000, heartbeat := 4000000000 })
      (.turn .peer .quiet)
      (onBrisk .check [.ping]
        { now := 2000000000, deadline := none, heartbeat := 4000000000, owed := true }) :=
    .turn (t := briskTask (.writing .ping) []) rfl (.write rfl) (.peer rfl) trivial
  have checks : Step brisk 0
      (onBrisk .check [.ping]
        { now := 2000000000, deadline := none, heartbeat := 4000000000, owed := true })
      (.turn .work .quiet)
      (onBrisk .select [.ping]
        { now := 2000000000, deadline := none, heartbeat := 4000000000, owed := true }) :=
    .turn (t := briskTask .check [.ping]) rfl (.fastEnough rfl (by decide)) (.work rfl) trivial
  have closes : Step brisk 0
      (onBrisk .select [.ping]
        { now := 4000000000, deadline := none, heartbeat := 4000000000, owed := true })
      (.turn .silence .timeout) silentClient :=
    .turn (t := briskTask .select [.ping]) rfl (.timeout rfl) (.silence rfl rfl) (by decide)
  refine .cons writes <| .cons checks <| .cons (.elapse _ rfl ?_) <| .single closes
  rintro _ ⟨⟩
  decide

end Timed

end WsFanout
