import WsFanout.ServerDeadline

/-!
# The budget of the handshake and the first message

`connection` gives the handshake `auth_timeout`, and `authenticate` gives the first message
`auth_timeout` again, from the instant at which the handshake completed.  `Timed.budget_iff` says
what that does to the time a client has for both: the bound from the accept on is kept exactly when
the handshake takes no time at all.
-/

namespace WsFanout

open Lib

variable {σ : Type}

/-- The task waits for the handshake or for the first message. -/
def Phase.awaitsAuth : Phase → Bool
  | handshake => true
  | authenticating => true
  | _ => false

/-- A task comes to wait for the first message by completing the handshake, and never comes to wait
for the handshake. -/
theorem Turn.awaitsAuth {shared : Shared σ} {r : Registry ServerMessage} {source : σ} {t t' : Task}
    {e : Effect} (turn : Turn shared r source t e t') (awaits : t'.phase.awaitsAuth = true) :
    t.phase = .handshake ∧ t'.phase = .authenticating := by
  cases turn with
  | upgraded phase => exact ⟨phase, rfl⟩
  | _ => cases awaits

/-- A wait for the handshake or the first message is bounded by its timer. -/
theorem Clock.timer?_of_awaitsAuth {phase : Phase} (awaits : phase.awaitsAuth = true)
    (k : Clock) : k.timer? phase = k.deadline := by
  cases phase with
  | handshake | authenticating => rfl
  | _ => cases awaits

namespace Timed

variable {shared : Shared σ} {i accepted : Nat}

/-- The step completes the handshake of task `i`. -/
def Completes (i : Nat) (s s' : Timed σ) : Prop :=
  (∃ t, s.world.tasks[i]? = some t ∧ t.phase = .handshake) ∧
    ∃ t', s'.world.tasks[i]? = some t' ∧ t'.phase = .authenticating

/-- While task `i` waits for the handshake or for the first message, no more than `auth_timeout`
has passed since its connection was accepted. -/
def WithinBudget (config : Config) (i accepted : Nat) (s : Timed σ) : Prop :=
  ∀ t, s.world.tasks[i]? = some t → t.phase.awaitsAuth = true →
    s.clock.now ≤ accepted + config.authTimeout

/-- The timer of such a wait is set to the end of the budget, and has not been passed. -/
def OnBudget (config : Config) (i accepted : Nat) (s : Timed σ) : Prop :=
  ∃ t, s.world.tasks[i]? = some t ∧ (t.phase.awaitsAuth = true →
    s.clock.deadline = some (accepted + config.authTimeout) ∧
      s.clock.now ≤ accepted + config.authTimeout)

theorem OnBudget.within {s : Timed σ} (onBudget : OnBudget shared.config i accepted s) :
    WithinBudget shared.config i accepted s := by
  obtain ⟨t, found, bound⟩ := onBudget
  intro u there awaits
  obtain rfl := Option.some.inj (found.symm.trans there)
  exact (bound awaits).2

/-- What a step keeps that completes no handshake, or does so at the instant of the accept. -/
theorem OnBudget.step {s s' : Timed σ} {ev : Event}
    (onBudget : OnBudget shared.config i accepted s) (step : Step shared i s ev s')
    (prompt : Completes i s s' → s.clock.now = accepted) :
    OnBudget shared.config i accepted s' := by
  obtain ⟨t, found, bound⟩ := onBudget
  obtain ⟨t', found', moved | ⟨others, same⟩⟩ := step.task_cases found
  · obtain ⟨c, e, -, turn, -, -, clock⟩ := moved
    refine ⟨t', found', fun awaits => ?_⟩
    obtain ⟨before, after⟩ := turn.awaitsAuth awaits
    have instant := prompt ⟨⟨t, found, before⟩, t', found', after⟩
    rw [clock, Clock.turn_deadline, Clock.turn_now, after, instant]
    exact ⟨rfl, Nat.le_add_right _ _⟩
  · refine ⟨t', found', fun awaits => ?_⟩
    rw [same] at awaits
    obtain ⟨set, ahead⟩ := bound awaits
    refine ⟨(step.timers_kept others).1.trans set, ?_⟩
    cases step with
    | elapse d there within =>
        obtain rfl := Option.some.inj (found.symm.trans there)
        exact within _ ((Clock.timer?_of_awaitsAuth awaits s.clock).trans set)
    | arrive _ | other _ _ => exact ahead
    | turn _ _ _ _ => cases others

theorem OnBudget.spawned (w : World σ) :
    OnBudget shared.config w.tasks.length accepted (spawned shared w accepted) :=
  ⟨{}, by simp [Timed.spawned], fun _ => ⟨rfl, Nat.le_add_right _ _⟩⟩

/-- A task past its handshake stays past it. -/
theorem not_handshake_step {s s' : Timed σ} {ev : Event} (step : Step shared i s ev s') {t : Task}
    (found : s.world.tasks[i]? = some t) (past : t.phase ≠ .handshake) :
    ∃ t', s'.world.tasks[i]? = some t' ∧ t'.phase ≠ .handshake := by
  obtain ⟨t', found', moved | ⟨-, same⟩⟩ := step.task_cases found
  · obtain ⟨c, e, -, turn, -, -, -⟩ := moved
    refine ⟨t', found', fun again => ?_⟩
    have next := (turn.awaitsAuth (by rw [again]; rfl)).2
    rw [again] at next
    cases next
  · exact ⟨t', found', by rwa [same]⟩

/-- Time does not run backwards. -/
theorem now_le_step {s s' : Timed σ} {ev : Event} (step : Step shared i s ev s') :
    s.clock.now ≤ s'.clock.now := by
  cases step with
  | elapse d _ _ => exact Nat.le_add_right _ _
  | arrive _ | other _ _ => exact Nat.le_refl _
  | turn _ _ _ _ => exact Nat.le_of_eq Clock.turn_now.symm

theorem accepted_le_now {w : World σ} {evs : List Event} {s : Timed σ}
    (reached : Run (Step shared w.tasks.length) (spawned shared w accepted) evs s) :
    accepted ≤ s.clock.now :=
  reached.invariant (I := fun s => accepted ≤ s.clock.now)
    (fun before step => Nat.le_trans before (now_le_step step)) (Nat.le_refl accepted)

/-- Once the handshake is complete on budget, every continuation is. -/
theorem OnBudget.run {s s' : Timed σ} {evs : List Event} {t : Task}
    (onBudget : OnBudget shared.config i accepted s) (found : s.world.tasks[i]? = some t)
    (past : t.phase ≠ .handshake) (later : Run (Step shared i) s evs s') :
    OnBudget shared.config i accepted s' := by
  have kept := later.invariant
    (I := fun s => OnBudget shared.config i accepted s ∧
      ∃ t : Task, s.world.tasks[i]? = some t ∧ t.phase ≠ .handshake)
    (fun inv step => by
      obtain ⟨onBudget, t, found, past⟩ := inv
      refine ⟨onBudget.step step fun completes => ?_, not_handshake_step step found past⟩
      obtain ⟨⟨u, there, phase⟩, -⟩ := completes
      obtain rfl := Option.some.inj (found.symm.trans there)
      exact absurd phase past)
    ⟨onBudget, t, found, past⟩
  exact kept.1

/-- The wait for the first message may last `auth_timeout` from the end of the handshake. -/
theorem run_wait {s s' : Timed σ} {ev : Event} (step : Step shared i s ev s')
    (completes : Completes i s s') :
    s'.clock.now = s.clock.now ∧
    s'.clock.deadline = some (s.clock.now + shared.config.authTimeout) ∧
    Step shared i s' (.elapse shared.config.authTimeout)
      ⟨s'.world, { s'.clock with now := s.clock.now + shared.config.authTimeout }⟩ := by
  obtain ⟨⟨t, found, before⟩, t', found', after⟩ := completes
  obtain ⟨u, there, moved | ⟨-, same⟩⟩ := step.task_cases found
  · obtain ⟨c, e, -, -, -, -, clock⟩ := moved
    obtain rfl := Option.some.inj (found'.symm.trans there)
    have now : s'.clock.now = s.clock.now := by rw [clock, Clock.turn_now]
    have deadline : s'.clock.deadline = some (s.clock.now + shared.config.authTimeout) := by
      rw [clock, Clock.turn_deadline, after]
      rfl
    refine ⟨now, deadline, ?_⟩
    rw [← now] at deadline ⊢
    refine .elapse _ found' fun due fires => ?_
    rw [after] at fires
    cases deadline.symm.trans fires
    exact Nat.le_refl _
  · obtain rfl := Option.some.inj (found'.symm.trans there)
    rw [after, before] at same
    cases same

/-- **When one budget covers both.**  In every run of a connection task whose handshake, if it
completes, completes at the instant of the accept, the budget is kept in every state reached.  And
whenever a handshake completes, all continuations keep the budget exactly if it does so at that
instant. -/
theorem budget_iff (shared : Shared σ) (w : World σ) (accepted : Nat) :
    (∀ evs s, Run (fun s ev s' => Step shared w.tasks.length s ev s' ∧
        (Completes w.tasks.length s s' → s.clock.now = accepted))
        (spawned shared w accepted) evs s →
      WithinBudget shared.config w.tasks.length accepted s) ∧
    ∀ evs s ev s', Run (Step shared w.tasks.length) (spawned shared w accepted) evs s →
      Step shared w.tasks.length s ev s' → Completes w.tasks.length s s' →
      ((∀ later s'', Run (Step shared w.tasks.length) s' later s'' →
        WithinBudget shared.config w.tasks.length accepted s'') ↔ s.clock.now = accepted) := by
  constructor
  · intro evs s run
    have kept := run.invariant (I := OnBudget shared.config w.tasks.length accepted)
      (fun onBudget step => onBudget.step step.1 step.2) (.spawned w)
    exact kept.within
  · intro evs s ev s' reached step completes
    obtain ⟨now, deadline, wait⟩ := run_wait step completes
    obtain ⟨-, t', found', after⟩ := id completes
    constructor
    · intro kept
      have bound := kept _ _ (.single wait) t' found' (by rw [after]; rfl)
      have start := accepted_le_now reached
      simp only at bound
      omega
    · intro prompt later s'' run
      have onBudget : OnBudget shared.config w.tasks.length accepted s' := by
        refine ⟨t', found', fun _ => ?_⟩
        rw [deadline, now, prompt]
        exact ⟨rfl, Nat.le_add_right _ _⟩
      have past : t'.phase ≠ .handshake := by
        rw [after]
        exact Phase.noConfusion
      exact (onBudget.run found' past run).within

/-- The only client of the small server, at a phase before its session. -/
def onDemo (phase : Phase) (clock : Clock) : Timed LastValue where
  world := { World.start demo LastValue.new with permits := 9999, tasks := [{ phase }] }
  clock := clock

/-- A client upgrades at once and then sends nothing for ten seconds. -/
theorem budget_iff_prompt :
    WithinBudget demo.config 0 0
      (onDemo .authenticating { now := 10000000000, deadline := some 10000000000 }) := by
  have upgrades : Step demo 0 (spawned demo (World.start demo LastValue.new) 0) (.turn .peer .quiet)
      (onDemo .authenticating { now := 0, deadline := some 10000000000 }) :=
    .turn (t := {}) rfl (.upgraded rfl) (.peer rfl) trivial
  have waits : Step demo 0 (onDemo .authenticating { now := 0, deadline := some 10000000000 })
      (.elapse 10000000000)
      (onDemo .authenticating { now := 10000000000, deadline := some 10000000000 }) := by
    refine .elapse _ rfl fun due fires => ?_
    cases fires
    exact Nat.le_refl _
  refine (budget_iff demo (World.start demo LastValue.new) 0).1
    [.turn .peer .quiet, .elapse 10000000000] _ ?_
  refine .cons ⟨upgrades, fun _ => rfl⟩ (.single ⟨waits, fun completes => ?_⟩)
  obtain ⟨⟨t, found, phase⟩, -⟩ := completes
  cases Option.some.inj found
  cases phase

/-- A client that upgrades after nine of its ten seconds and then sends nothing still has its
connection after eighteen. -/
theorem budget_iff_late :
    demo.config.authTimeout = 10000000000 ∧
    ∃ evs s, Run (Step demo 0) (spawned demo (World.start demo LastValue.new) 0) evs s ∧
      (∃ t, s.world.tasks[0]? = some t ∧ t.phase = .authenticating) ∧
      s.clock.now = 18000000000 ∧ ¬ WithinBudget demo.config 0 0 s := by
  have first : Step demo 0 (spawned demo (World.start demo LastValue.new) 0) (.elapse 9000000000)
      (onDemo .handshake { now := 9000000000, deadline := some 10000000000 }) := by
    refine .elapse (t := {}) _ rfl fun due fires => ?_
    cases fires
    decide
  have upgrades : Step demo 0
      (onDemo .handshake { now := 9000000000, deadline := some 10000000000 }) (.turn .peer .quiet)
      (onDemo .authenticating { now := 9000000000, deadline := some 19000000000 }) :=
    .turn (t := {}) rfl (.upgraded rfl) (.peer rfl) trivial
  have waits : Step demo 0
      (onDemo .authenticating { now := 9000000000, deadline := some 19000000000 })
      (.elapse 9000000000)
      (onDemo .authenticating { now := 18000000000, deadline := some 19000000000 }) := by
    refine .elapse _ rfl fun due fires => ?_
    cases fires
    decide
  refine ⟨rfl, _, _, .cons first (.cons upgrades (.single waits)), ⟨_, rfl, rfl⟩, rfl, ?_⟩
  intro within
  have bound := within _ rfl rfl
  revert bound
  decide

end Timed

end WsFanout
