import WsFanout.ServerRun

/-!
# Binding a server, and the constructors that panic

`Builder::bind` of `lib.rs`, with the three constructors of the runtime that take a configured
number: the semaphore of the slots, the channel of a connection and the timer of a session.  Each is
`none` where the runtime panics.  `Config::validate` is there to refuse such numbers before anything
is bound; `World.bind_safe_iff` says which one it lets through.
-/

namespace WsFanout

open Lib

variable {σ : Type}

/-- `Semaphore::new`: the free permits. -/
def Semaphore.new (permits : Nat) : Option Nat :=
  if maxPermits < permits then none else some permits

/-- `mpsc::channel`. -/
def channel (F : Type) (capacity : Nat) : Option (BoundedQueue F) :=
  if capacity = 0 ∨ maxPermits < capacity then none else some (.new capacity)

/-- `tokio::time::interval`: the time of the first tick. -/
def interval (now period : Nat) : Option Nat :=
  if period = 0 then none else some now

/-- Bind and start accepting.  The inner `none` is a panic. -/
def bind (shared : Shared σ) (source : σ) : Except Error (Option (World σ)) :=
  match shared.config.validate with
  | .error e => .error e
  | .ok () =>
    .ok ((Semaphore.new shared.config.maxConnections).map fun permits =>
      { World.start shared source with permits := permits })

/-- The next thing a task at this point does is to call a constructor that panics. -/
def Phase.Constructs (c : Config) : Phase → Prop
  | .joining _ => channel ServerMessage c.sendQueue = none
  | .session _ _ .starting => interval 0 c.heartbeatInterval = none
  | _ => False

theorem channel_eq_none {F : Type} {capacity : Nat} :
    channel F capacity = none ↔ capacity = 0 ∨ maxPermits < capacity := by
  unfold channel
  split
  · next bad => simp [bad]
  · next good => simpa using good

theorem interval_eq_none {now period : Nat} : interval now period = none ↔ period = 0 := by
  simp [interval]

/-- What `validate` accepts, as far as the constructors are concerned. -/
theorem Config.validate_ok {c : Config} (valid : c.validate = .ok ()) :
    0 < c.maxConnections ∧ c.maxConnections ≤ maxPermits ∧ 0 < c.sendQueue ∧
      0 < c.heartbeatInterval := by
  unfold Config.validate at valid
  repeat' split at valid
  all_goals first | omega | cases valid

/-- A task panics in a constructor by its next turn exactly when the constructor it is about to call
panics. -/
theorem Turn.constructor_panics {shared : Shared σ} (r : Registry ServerMessage) (source : σ)
    {t : Task} (bad : t.phase.Constructs shared.config) :
    (∃ t', Turn shared r source t .quiet t' ∧ (t'.phase = .releasing ∨
      ∃ id claims, t'.phase = .leaving id claims)) ∧
    ∀ e t', Turn shared r source t e t' → t'.phase = .releasing ∨
      ∃ id claims, t'.phase = .leaving id claims := by
  cases phase : t.phase with
  | joining claims =>
      rw [phase] at bad
      have refused := channel_eq_none.mp bad
      refine ⟨⟨_, .channelPanic phase refused, .inl rfl⟩, fun e t' turn => ?_⟩
      cases turn with
      | channelPanic _ _ => exact .inl rfl
      | join _ capacity => omega
      | _ => simp_all
  | session id claims stage =>
      rw [phase] at bad
      cases stage with
      | starting =>
          have zero := interval_eq_none.mp bad
          refine ⟨⟨_, .timerPanic phase zero, .inr ⟨_, _, rfl⟩⟩, fun e t' turn => ?_⟩
          cases turn with
          | timerPanic _ _ => exact .inr ⟨_, _, rfl⟩
          | start _ period => omega
          | _ => simp_all
      | select | writing _ | handling _ | check | closing => exact bad.elim
  | handshake | authenticating | refusing _ | closing _ | acking _ | leaving _ _
  | unregistering _ _ | releasing | ended =>
      rw [phase] at bad
      exact bad.elim

namespace World

/-- **Which constructor can still panic.**  Under a configuration that `validate` accepts, binding
succeeds and no task of any run meets a panicking constructor, whatever the application plugs in,
exactly when `send_queue` is at most the permit limit. -/
theorem bind_safe_iff (c : Config) (valid : c.validate = .ok ()) :
    (∀ (σ : Type) (shared : Shared σ) (source : σ), shared.config = c →
      ∃ w, bind shared source = .ok (some w) ∧
        ∀ as w', Run (Step shared) w as w' → ∀ (i : Nat) (t : Task), w'.tasks[i]? = some t →
          ¬ t.phase.Constructs c) ↔
      c.sendQueue ≤ maxPermits := by
  obtain ⟨some_slot, slots, room, period⟩ := Config.validate_ok valid
  have bound : ∀ (σ : Type) (shared : Shared σ) (source : σ), shared.config = c →
      bind shared source = .ok (some (start shared source)) := by
    intro σ shared source same
    have within : ¬ maxPermits < c.maxConnections := by omega
    simp only [bind, same, valid, Semaphore.new, within, ↓reduceIte, Option.map_some]
    rw [← same]
    rfl
  constructor
  · intro safe
    -- A client of the small server, run with this configuration, gets as far as the channel.
    obtain ⟨w, binds, never⟩ := safe LastValue (demoWith c) LastValue.new rfl
    rw [bound _ _ _ rfl] at binds
    cases binds
    have parsed : (demoWith c).fromStr authText = .ok (.auth "t") := rfl
    have accepted : (demoWith c).validate "t" = .ok (Claims.new "alice") := rfl
    have run := run_acknowledged (demoWith c) (start (demoWith c) LastValue.new) some_slot parsed
      accepted
    have fine := never _ _ run 0 _ rfl
    by_contra beyond
    exact fine (channel_eq_none.mpr (.inr (by omega)))
  · intro fits σ shared source same
    refine ⟨_, bound σ shared source same, fun as w' run i t found bad => ?_⟩
    cases phase : t.phase with
    | joining claims =>
        rw [phase] at bad
        have refused := channel_eq_none.mp bad
        omega
    | session id claims stage =>
        rw [phase] at bad
        cases stage with
        | starting =>
            have zero := interval_eq_none.mp bad
            omega
        | select | writing _ | handling _ | check | closing => exact bad
    | handshake | authenticating | refusing _ | closing _ | acking _ | leaving _ _
    | unregistering _ _ | releasing | ended =>
        rw [phase] at bad
        exact bad

/-- The default configuration is safe. -/
theorem bind_safe_iff_default :
    Config.validate {} = .ok () ∧ ∀ (source : LastValue), ∃ w, bind demo source = .ok (some w) := by
  refine ⟨rfl, fun source => ?_⟩
  obtain ⟨w, binds, -⟩ := (bind_safe_iff {} rfl).mpr (by decide) LastValue demo source rfl
  exact ⟨w, binds⟩

/-- A queue one longer than the permit limit passes `validate`; the first client is told it is
authenticated, and then its task panics. -/
theorem bind_safe_iff_long_queue :
    Config.validate { sendQueue := maxPermits + 1 } = .ok () ∧
    ∃ w t, Run (Step (demoWith { sendQueue := maxPermits + 1 }))
        (start (demoWith { sendQueue := maxPermits + 1 }) LastValue.new)
        [.accept, .act 0 .quiet, .act 0 .quiet, .act 0 .quiet] w ∧
      w.tasks = [t] ∧ t.texts = [.authenticated "alice"] ∧
      t.phase.Constructs { sendQueue := maxPermits + 1 } := by
  have parsed : (demoWith { sendQueue := maxPermits + 1 }).fromStr authText = .ok (.auth "t") := rfl
  have accepted : (demoWith { sendQueue := maxPermits + 1 }).validate "t" =
      .ok (Claims.new "alice") := rfl
  have run := run_acknowledged (demoWith { sendQueue := maxPermits + 1 })
    (start (demoWith { sendQueue := maxPermits + 1 }) LastValue.new) (by decide : 0 < 10000) parsed
    accepted
  refine ⟨rfl, _, _, run, rfl, rfl, ?_⟩
  exact channel_eq_none.mpr (.inr (Nat.lt_succ_self _))

end World

end WsFanout
