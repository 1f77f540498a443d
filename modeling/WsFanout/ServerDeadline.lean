import WsFanout.ServerClock

/-!
# Waits that only the peer can end

`tokio::time::timeout` wraps the handshake, the wait for the first message and every write of a
session, and the heartbeat bounds the wait at `select!`.  Four operations on the socket have no
timer: the write and the close of a refusal, the write of the acknowledgement, and the close that
ends a session.  `Phase.unguarded` names them, and `Timed.unblocked_iff` says that a task in any
other phase goes on without its peer, while in these four it can be kept for ever.
-/

namespace WsFanout

open Lib

variable {σ : Type}

/-- The task waits at its socket. -/
def Phase.onSocket : Phase → Bool
  | authenticating => true
  | session _ _ .select => true
  | phase => phase.awaitsPeer

/-- The task awaits an operation on its socket that no timer wraps. -/
def Phase.unguarded : Phase → Bool
  | refusing _ => true
  | closing _ => true
  | acking _ => true
  | session _ _ .closing => true
  | _ => false

/-- An unguarded wait is one for the socket, with no timer. -/
theorem Phase.wait_of_unguarded {phase : Phase} (unguarded : phase.unguarded = true) :
    phase.computes = false ∧ (∀ config, phase.within? config = none) ∧
      ∀ k : Clock, k.timer? phase = k.deadline := by
  unfold Phase.unguarded at unguarded
  split at unguarded
  · exact ⟨rfl, fun _ => rfl, fun _ => rfl⟩
  · exact ⟨rfl, fun _ => rfl, fun _ => rfl⟩
  · exact ⟨rfl, fun _ => rfl, fun _ => rfl⟩
  · exact ⟨rfl, fun _ => rfl, fun _ => rfl⟩
  · cases unguarded

/-- The socket is read while a task waits for its first message or at `select!`. -/
theorem Turn.reads {shared : Shared σ} {r : Registry ServerMessage} {source : σ} {t t' : Task}
    {e : Effect} (turn : Turn shared r source t e t') {message : Inbound}
    (taken : t'.received = t.received ++ [message]) :
    t.phase = .authenticating ∨ ∃ id claims, t.phase = .session id claims .select := by
  cases turn with
  | authorised _ phase _ | refused _ phase _ | validatorPanic _ _ phase _ => exact .inl phase
  | inbound _ phase _ | inboundEnd _ phase _ => exact .inr ⟨_, _, phase⟩
  | _ => simp at taken

/-- No timer and no work of its own moves a task on from an unguarded wait. -/
theorem Turn.cause_of_unguarded {shared : Shared σ} {r : Registry ServerMessage} {source : σ}
    {t t' : Task} {e : Effect} {c : Cause} (turn : Turn shared r source t e t')
    (caused : Caused t c t') (unguarded : t.phase.unguarded = true) : c = .peer := by
  cases caused with
  | peer _ => rfl
  | read message taken =>
      rcases turn.reads taken with phase | ⟨id, claims, phase⟩ <;>
        · rw [phase] at unguarded
          cases unguarded
  | expiry gaveUp =>
      unfold Task.GaveUp at gaveUp
      split at gaveUp
      · next phase => rw [phase] at unguarded; cases unguarded
      · next phase => rw [phase] at unguarded; cases unguarded
      · next phase => rw [phase] at unguarded; cases unguarded
      · exact gaveUp.elim
  | start phase | tick phase _ | silence phase _ | queued phase _ | drained phase _ _ =>
      rw [phase] at unguarded
      cases unguarded
  | work computes =>
      rw [(Phase.wait_of_unguarded unguarded).1] at computes
      cases computes

namespace Timed

variable {shared : Shared σ} {i : Nat}

/-- The timer of task `i` is set exactly when one wraps the operation it awaits, and has not been
passed. -/
def Armed (config : Config) (i : Nat) (s : Timed σ) : Prop :=
  ∃ t : Task, s.world.tasks[i]? = some t ∧
    match t.phase.within? config with
    | none => s.clock.deadline = none
    | some _ => ∃ due, s.clock.deadline = some due ∧ s.clock.now ≤ due

theorem Armed.spawned (w : World σ) (now : Nat) :
    Armed shared.config w.tasks.length (spawned shared w now) :=
  ⟨{}, by simp [Timed.spawned], _, rfl, Nat.le_add_right _ _⟩

/-- The timer of an awaited operation is what bounds the passing of time. -/
theorem Armed.timer {s : Timed σ} {t : Task} (armed : Armed shared.config i s)
    (found : s.world.tasks[i]? = some t) {n : Nat}
    (wrapped : t.phase.within? shared.config = some n) :
    ∃ due, s.clock.deadline = some due ∧ s.clock.timer? t.phase = some due ∧
      s.clock.now ≤ due := by
  obtain ⟨u, there, timer⟩ := armed
  obtain rfl := Option.some.inj (found.symm.trans there)
  rw [wrapped] at timer
  obtain ⟨due, set, ahead⟩ := timer
  refine ⟨due, set, ?_, ahead⟩
  unfold Clock.timer?
  split
  · next phase =>
      rw [phase] at wrapped
      cases wrapped
  · exact set

theorem Armed.step {s s' : Timed σ} {ev : Event} (armed : Armed shared.config i s)
    (step : Step shared i s ev s') : Armed shared.config i s' := by
  obtain ⟨t, found, timer⟩ := id armed
  obtain ⟨t', found', moved | ⟨others, same⟩⟩ := step.task_cases found
  · obtain ⟨c, e, -, -, -, -, clock⟩ := moved
    refine ⟨t', found', ?_⟩
    rw [clock, Clock.turn_deadline, Clock.turn_now]
    cases t'.phase.within? shared.config with
    | none => rfl
    | some n => exact ⟨_, rfl, Nat.le_add_right _ _⟩
  · refine ⟨t', found', ?_⟩
    rw [same]
    cases wrapped : t.phase.within? shared.config with
    | none =>
        rw [wrapped] at timer
        exact (step.timers_kept others).1.trans timer
    | some n =>
        obtain ⟨due, set, fires, ahead⟩ := armed.timer found wrapped
        refine ⟨due, (step.timers_kept others).1.trans set, ?_⟩
        cases step with
        | elapse d there within =>
            obtain rfl := Option.some.inj (found.symm.trans there)
            exact within due fires
        | arrive _ | other _ _ => exact ahead
        | turn _ _ _ _ => cases others

theorem Armed.of_run {w : World σ} {now : Nat} {evs : List Event} {s : Timed σ}
    (reached : Run (Step shared w.tasks.length) (Timed.spawned shared w now) evs s) :
    Armed shared.config w.tasks.length s :=
  reached.invariant (fun armed step => armed.step step) (.spawned w now)

/-! ## What a wait allows -/

/-- Nothing but the peer moves the task on: whatever else happens, it takes no turn. -/
def Parked (shared : Shared σ) (i : Nat) (s : Timed σ) : Prop :=
  ∀ evs s', Run (Step shared i) s evs s' → (∀ ev ∈ evs, ev.ofPeer = false) →
    ∀ ev ∈ evs, ev.isTurn = false

/-- While the task takes no turn, time does not get past some instant. -/
def WaitEnds (shared : Shared σ) (i : Nat) (s : Timed σ) : Prop :=
  ∃ due, ∀ evs s', Run (Step shared i) s evs s' → (∀ ev ∈ evs, ev.isTurn = false) →
    s'.clock.now ≤ due

/-- A task that holds its permit waits at its socket until some instant at most, and it goes on
without its peer. -/
def Unblocked (shared : Shared σ) (i : Nat) (s : Timed σ) : Prop :=
  ∀ t : Task, s.world.tasks[i]? = some t → t.phase ≠ .ended →
    (t.phase.onSocket = true → WaitEnds shared i s) ∧ ¬ Parked shared i s

/-- In an unguarded wait the task is parked. -/
theorem parked_of_unguarded {s : Timed σ} {t : Task} (found : s.world.tasks[i]? = some t)
    (unguarded : t.phase.unguarded = true) : Parked shared i s := by
  intro evs s' run
  induction run generalizing t with
  | nil => simp
  | @cons s u s' ev evs step rest ih =>
      intro alone
      obtain ⟨t', found', moved | ⟨others, same⟩⟩ := step.task_cases found
      · obtain ⟨c, e, rfl, turn, caused, -, -⟩ := moved
        obtain rfl := turn.cause_of_unguarded caused unguarded
        exact absurd (alone _ List.mem_cons_self) (by simp [Event.ofPeer])
      · have later := ih found' (by rw [same]; exact unguarded)
          fun ev listed => alone ev (List.mem_cons_of_mem _ listed)
        exact List.forall_mem_cons.mpr ⟨others, later⟩

/-- A turn with another cause than the peer shows that the task is not parked. -/
theorem not_parked_of_turn {s : Timed σ} {t t' : Task} {c : Cause} {e : Effect}
    (found : s.world.tasks[i]? = some t)
    (turn : Turn shared s.world.registry s.world.source t e t') (caused : Caused t c t')
    (timely : s.clock.Allows shared.config c) (alone : (Event.turn c e).ofPeer = false) :
    ¬ Parked shared i s := by
  intro parked
  have still := parked [.turn c e] _ (.single (.turn found turn caused timely))
    (by simpa using alone)
  simp [Event.isTurn] at still

/-- Waiting alone does not park a task. -/
theorem not_parked_of_elapse {s : Timed σ} {t : Task} (found : s.world.tasks[i]? = some t) {d : Nat}
    (within : ∀ due, s.clock.timer? t.phase = some due → s.clock.now + d ≤ due)
    (later : ¬ Parked shared i ⟨s.world, { s.clock with now := s.clock.now + d }⟩) :
    ¬ Parked shared i s := by
  intro parked
  refine later fun evs s' run alone => ?_
  have still := parked (.elapse d :: evs) s' (.cons (.elapse d found within) run)
    (List.forall_mem_cons.mpr ⟨rfl, alone⟩)
  exact fun ev listed => still ev (List.mem_cons_of_mem _ listed)

/-- The timer around an awaited operation moves the task on. -/
theorem not_parked_of_expiry {s : Timed σ} {t t' : Task} {e : Effect} {n : Nat}
    (armed : Armed shared.config i s) (found : s.world.tasks[i]? = some t)
    (wrapped : t.phase.within? shared.config = some n)
    (turn : Turn shared s.world.registry s.world.source t e t') (gaveUp : t.GaveUp t') :
    ¬ Parked shared i s := by
  obtain ⟨due, set, fires, ahead⟩ := armed.timer found wrapped
  have arrives : s.clock.now + (due - s.clock.now) = due := Nat.add_sub_cancel' ahead
  refine not_parked_of_elapse found (d := due - s.clock.now) ?_ ?_
  · intro other same
    rw [fires] at same
    cases same
    exact Nat.le_of_eq arrives
  · refine not_parked_of_turn found turn (.expiry gaveUp) ?_ rfl
    simp only [Clock.Allows, set, arrives]

/-- At `select!` the next tick moves the task on. -/
theorem not_parked_of_select {s : Timed σ} {t : Task} {id : ConnectionId} {claims : Claims}
    (found : s.world.tasks[i]? = some t) (phase : t.phase = .session id claims .select) :
    ¬ Parked shared i s := by
  have due : ∀ s : Timed σ, s.world.tasks[i]? = some t → s.clock.heartbeat ≤ s.clock.now →
      ¬ Parked shared i s := by
    intro s there ticks
    by_cases recent : s.clock.now ≤ s.clock.lastSeen + shared.config.heartbeatTimeout
    · exact not_parked_of_turn there (.tick phase) (.tick phase rfl) ⟨ticks, recent⟩ rfl
    · exact not_parked_of_turn there (.timeout phase) (.silence phase rfl)
        ⟨ticks, Nat.not_le.mp recent⟩ rfl
  by_cases ticks : s.clock.heartbeat ≤ s.clock.now
  · exact due s found ticks
  · have arrives : s.clock.now + (s.clock.heartbeat - s.clock.now) = s.clock.heartbeat :=
      Nat.add_sub_cancel' (Nat.le_of_not_le ticks)
    refine not_parked_of_elapse found (d := s.clock.heartbeat - s.clock.now) ?_ ?_
    · intro other same
      rw [phase] at same
      cases same
      exact Nat.le_of_eq arrives
    · exact due _ found (Nat.le_of_eq arrives.symm)

/-- A task with work of its own goes on. -/
theorem not_parked_of_computes {s : Timed σ} {t : Task} (found : s.world.tasks[i]? = some t)
    (computes : t.phase.computes = true) : ¬ Parked shared i s := by
  have moves : ∀ {e t'}, Turn shared s.world.registry s.world.source t e t' →
      ¬ Parked shared i s :=
    fun turn => not_parked_of_turn found turn (.work computes) trivial rfl
  cases phase : t.phase with
  | joining claims =>
      by_cases capacity : 0 < shared.config.sendQueue ∧ shared.config.sendQueue ≤ maxPermits
      · exact moves (.join phase capacity)
      · exact moves (.channelPanic phase (by omega))
  | session id claims stage =>
      cases stage with
      | handling h =>
          by_cases done : h = .done
          · rw [done] at phase
            exact moves (.handled phase)
          · exact moves (.handle phase done)
      | check =>
          by_cases few : s.world.registry.drops id < shared.config.maxConsecutiveDrops
          · exact moves (.fastEnough phase few)
          · exact moves (.tooSlow phase (UInt64.not_lt.mp few))
      | starting | select | writing _ | closing =>
          rw [phase] at computes
          cases computes
  | leaving id claims => exact moves (.dropReceiver phase)
  | unregistering id claims => exact moves (.unregister phase)
  | releasing => exact moves (.release phase)
  | handshake | authenticating | refusing _ | closing _ | acking _ | ended =>
      rw [phase] at computes
      cases computes

/-- A task that holds its permit and is not in an unguarded wait goes on without its peer. -/
theorem not_parked {s : Timed σ} {t : Task} (armed : Armed shared.config i s)
    (found : s.world.tasks[i]? = some t) (holds : t.phase ≠ .ended)
    (guarded : t.phase.unguarded = false) : ¬ Parked shared i s := by
  cases phase : t.phase with
  | handshake =>
      exact not_parked_of_expiry armed found (by rw [phase]; rfl) (.notUpgraded phase)
        (by simp [Task.GaveUp, phase])
  | authenticating =>
      exact not_parked_of_expiry armed found (by rw [phase]; rfl) (.refused none phase rfl)
        (by simp [Task.GaveUp, phase])
  | session id claims stage =>
      cases stage with
      | starting =>
          rcases Nat.eq_zero_or_pos shared.config.heartbeatInterval with zero | period
          · exact not_parked_of_turn found (.timerPanic phase zero) (.start phase) trivial rfl
          · exact not_parked_of_turn found (.start phase period) (.start phase) trivial rfl
      | select => exact not_parked_of_select found phase
      | writing message =>
          exact not_parked_of_expiry armed found (by rw [phase]; rfl) (.notWritten false phase)
            (by simp [Task.GaveUp, phase])
      | handling _ | check => exact not_parked_of_computes found (by rw [phase]; rfl)
      | closing =>
          rw [phase] at guarded
          cases guarded
  | joining _ | leaving _ _ | unregistering _ _ | releasing =>
      exact not_parked_of_computes found (by rw [phase]; rfl)
  | refusing _ | closing _ | acking _ =>
      rw [phase] at guarded
      cases guarded
  | ended => exact absurd phase holds

/-- While the task takes no turn its timer stays, and time does not pass it. -/
theorem waitEnds_of_timer {s : Timed σ} {t : Task} {due : Nat}
    (found : s.world.tasks[i]? = some t) (fires : s.clock.timer? t.phase = some due) :
    WaitEnds shared i s := by
  refine ⟨max s.clock.now due, fun evs s' run => ?_⟩
  have bounded : ∀ {s evs s'}, Run (Step shared i) s evs s' → ∀ {t : Task} {bound : Nat},
      s.world.tasks[i]? = some t → s.clock.timer? t.phase = some due → s.clock.now ≤ bound →
      due ≤ bound → (∀ ev ∈ evs, ev.isTurn = false) → s'.clock.now ≤ bound := by
    intro s evs s' run
    induction run with
    | nil => exact fun _ _ inside _ _ => inside
    | @cons s u s' ev evs step rest ih =>
        intro t bound found fires inside below still
        have others : ev.isTurn = false := still ev List.mem_cons_self
        obtain ⟨t', found', ⟨c, e, rfl, -⟩ | ⟨-, same⟩⟩ := step.task_cases found
        · cases others
        · have kept : u.clock.timer? t'.phase = some due := by
            have timers := step.timers_kept others
            rw [same, ← fires]
            unfold Clock.timer?
            split
            · rw [timers.2]
            · exact timers.1
          have ahead : u.clock.now ≤ bound := by
            cases step with
            | elapse d there within =>
                obtain rfl := Option.some.inj (found.symm.trans there)
                exact Nat.le_trans (within due fires) below
            | arrive _ | other _ _ => exact inside
            | turn _ _ _ _ => cases others
          exact ih found' kept ahead below fun ev listed => still ev (List.mem_cons_of_mem _ listed)
  exact bounded run found fires (Nat.le_max_left _ _) (Nat.le_max_right _ _)

/-- No instant ends an unguarded wait. -/
theorem not_waitEnds_of_unguarded {s : Timed σ} {t : Task} (armed : Armed shared.config i s)
    (found : s.world.tasks[i]? = some t) (unguarded : t.phase.unguarded = true) :
    ¬ WaitEnds shared i s := by
  rintro ⟨due, bounded⟩
  obtain ⟨u, there, timer⟩ := armed
  obtain rfl := Option.some.inj (found.symm.trans there)
  obtain ⟨-, unwrapped, same⟩ := Phase.wait_of_unguarded unguarded
  rw [unwrapped] at timer
  have unset : s.clock.timer? t.phase = none := (same s.clock).trans timer
  have late := bounded [.elapse (due + 1)] _
    (.single (.elapse (due + 1) found fun other same => by rw [unset] at same; cases same))
    (by simp [Event.isTurn])
  exact absurd late (by simp only; omega)

/-- **Waits without a deadline.**  In every state that a connection task reaches, however its peer
behaves and whatever the rest of the server does: the task waits at its socket until some instant at
most, and goes on without its peer, exactly when it does not await the write or the close of a
refusal, the write of the acknowledgement or the close of its session. -/
theorem unblocked_iff (shared : Shared σ) (w : World σ) (now : Nat) (evs : List Event)
    (s : Timed σ) (t : Task)
    (reached : Run (Step shared w.tasks.length) (spawned shared w now) evs s)
    (found : s.world.tasks[w.tasks.length]? = some t) :
    Unblocked shared w.tasks.length s ↔ t.phase.unguarded = false := by
  have armed := Armed.of_run reached
  constructor
  · intro unblocked
    by_contra unguarded
    rw [Bool.not_eq_false] at unguarded
    have holds : t.phase ≠ .ended := by
      intro ended
      rw [ended] at unguarded
      cases unguarded
    exact (unblocked t found holds).2 (parked_of_unguarded found unguarded)
  · intro guarded u there holds
    obtain rfl := Option.some.inj (found.symm.trans there)
    refine ⟨fun onSocket => ?_, not_parked armed found holds guarded⟩
    cases phase : t.phase with
    | handshake | authenticating =>
        obtain ⟨due, -, fires, -⟩ := armed.timer found (by rw [phase]; rfl)
        exact waitEnds_of_timer found fires
    | session id claims stage =>
        cases stage with
        | writing message =>
            obtain ⟨due, -, fires, -⟩ := armed.timer found (by rw [phase]; rfl)
            exact waitEnds_of_timer found fires
        | select => exact waitEnds_of_timer found (by rw [phase]; rfl)
        | starting | handling _ | check =>
            rw [phase] at onSocket
            cases onSocket
        | closing =>
            rw [phase] at guarded
            cases guarded
    | refusing _ | closing _ | acking _ =>
        rw [phase] at guarded
        cases guarded
    | joining _ | leaving _ _ | unregistering _ _ | releasing | ended =>
        rw [phase] at onSocket
        cases onSocket

/-- At the start of a session, at `select!`, the task goes on without its peer. -/
theorem unblocked_iff_select :
    Unblocked brisk 0
      (onBrisk .select [] { now := 0, deadline := none, heartbeat := 2000000000 }) :=
  (unblocked_iff brisk (World.start brisk LastValue.new) 0 _ _ _ run_onBrisk rfl).mpr rfl

/-- The task of a silent client holds its entry and its permit while it closes the socket; no timer
is set, and only the peer can move it on. -/
theorem unblocked_iff_silent_client :
    (∃ evs, Run (Step brisk 0) (spawned brisk (World.start brisk LastValue.new) 0) evs
      silentClient) ∧
    ⟨1⟩ ∈ silentClient.world.registry.connections.keys ∧
    silentClient.world.permits + 1 = brisk.config.maxConnections ∧
    ¬ WaitEnds brisk 0 silentClient ∧ Parked brisk 0 silentClient ∧
    ¬ Unblocked brisk 0 silentClient := by
  have armed : Armed brisk.config 0 silentClient :=
    Armed.of_run (w := World.start brisk LastValue.new) run_silentClient
  have parked : Parked brisk 0 silentClient := parked_of_unguarded rfl rfl
  refine ⟨⟨_, run_silentClient⟩, by decide, by decide, ?_, parked, ?_⟩
  · exact not_waitEnds_of_unguarded armed rfl rfl
  · exact fun unblocked => (unblocked _ rfl (by decide)).2 parked

end Timed

end WsFanout
