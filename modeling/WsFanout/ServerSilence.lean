import WsFanout.ServerClock

/-!
# Closing a silent client

A tick of the heartbeat compares the time of the last message a session has *read* with the timeout.
While a write is pending nothing is read, so a message can have arrived and not count.
`Timed.Overlooks` is a tick that closes the connection over such a message, and
`Timed.onlySilent_iff` says that no other close hits a client heard within the timeout.
-/

namespace WsFanout

open Lib

variable {σ : Type}

/-- Something the client sent: text, binary, a ping or a pong. -/
def Inbound.isMessage : Inbound → Bool
  | text _ => true
  | binary => true
  | ping _ => true
  | pong => true
  | _ => false

/-- A session that is being closed is left next. -/
theorem Turn.leaving_of_closing {shared : Shared σ} {r : Registry ServerMessage} {source : σ}
    {t t' : Task} {e : Effect} (turn : Turn shared r source t e t') {id : ConnectionId}
    {claims : Claims} (phase : t.phase = .session id claims .closing) :
    t'.phase = .leaving id claims := by
  cases turn with
  | sinkClosed was =>
      rw [phase] at was
      cases was
      rfl
  | start was _ | recv was _ _ | drain was _ | inbound _ was _ | tick was | timeout was | write was
  | handle was _ | handled was | fastEnough was _ | tooSlow was _ | timerPanic was _
  | drained was _ | inboundEnd _ was _ | notWritten _ was | handlePanic was _ | upgraded was
  | notUpgraded was | authorised _ was _ | refused _ was _ | validatorPanic _ _ was _
  | refuse _ was | closed was | acknowledge was | notAcknowledged _ was | channelPanic was _
  | join was _ | dropReceiver was | unregister was | release was =>
      rw [phase] at was
      cases was

/-- The session is being closed, or over. -/
def Phase.ending : Phase → Bool
  | session _ _ .closing => true
  | phase => phase.left

theorem Turn.ending_kept {shared : Shared σ} {r : Registry ServerMessage} {source : σ} {t t' : Task}
    {e : Effect} (turn : Turn shared r source t e t') (ending : t.phase.ending = true) :
    t'.phase.ending = true := by
  unfold Phase.ending at ending
  split at ending
  · next id claims phase =>
      rw [turn.leaving_of_closing phase]
      rfl
  · have left := turn.left_kept ending
    unfold Phase.ending
    split
    · rfl
    · exact left

namespace Timed

variable {shared : Shared σ} {i : Nat}

/-- If a tick has closed the connection at `t`, no message had arrived from the timeout before `t`
up to `t`. -/
def OnlySilent (config : Config) (s : Timed σ) : Prop :=
  ∀ t, s.clock.silent = some t → ∀ a message, (a, message) ∈ s.clock.arrived →
    message.isMessage = true → ¬ (t ≤ a + config.heartbeatTimeout ∧ a < t)

/-- The tick closes the connection while a message that arrived within the timeout waits at the
socket. -/
def Overlooks (config : Config) (s : Timed σ) (ev : Event) : Prop :=
  (∃ e, ev = .turn .silence e) ∧ ∃ a message, (a, message) ∈ s.clock.unread ∧
    message.isMessage = true ∧ s.clock.now ≤ a + config.heartbeatTimeout ∧ a < s.clock.now

/-- What has been read was read no earlier than it arrived, the rest waits, and a session found
silent reads no more. -/
structure Heard (i : Nat) (s : Timed σ) : Prop where
  ending : ∃ t : Task, s.world.tasks[i]? = some t ∧
    (s.clock.silent ≠ none → t.phase.ending = true)
  past : ∀ a message, (a, message) ∈ s.clock.arrived → a ≤ s.clock.now
  read : ∃ read, s.clock.arrived = read ++ s.clock.unread ∧
    ∀ a message, (a, message) ∈ read → a ≤ s.clock.lastSeen
  since : ∀ t, s.clock.silent = some t → t ≤ s.clock.now

theorem Heard.spawned (w : World σ) (now : Nat) :
    Heard w.tasks.length (spawned shared w now) where
  ending := ⟨{}, by simp [Timed.spawned], fun closed => absurd rfl closed⟩
  past := by
    intro a message listed
    cases listed
  read := ⟨[], rfl, by simp⟩
  since := by
    intro t closed
    cases closed

/-- The clock of a session after a turn keeps what the invariant says of it. -/
theorem Heard.turn {s : Timed σ} {t t' : Task} {c : Cause} (heard : Heard i s)
    (timely : s.clock.Allows shared.config c) :
    ∃ read, s.clock.arrived = read ++ (s.clock.turn shared.config c t t').unread ∧
      ∀ a message, (a, message) ∈ read →
        a ≤ (s.clock.turn shared.config c t t').lastSeen := by
  obtain ⟨read, split, seen⟩ := heard.read
  cases c with
  | peer | expiry | tick | silence | work => exact ⟨read, split, seen⟩
  | start =>
      refine ⟨read, split, fun a message listed => heard.past a message ?_⟩
      rw [split]
      exact List.mem_append_left _ listed
  | read message =>
      -- the message at the head is read now
      obtain ⟨⟨a, head⟩, first, -⟩ := Option.map_eq_some_iff.mp timely
      obtain ⟨rest, unread⟩ := List.head?_eq_some_iff.mp first
      refine ⟨read ++ [(a, head)], ?_, fun b other listed => heard.past b other ?_⟩
      · rw [split, unread, List.append_assoc]
        simp [Clock.turn, Clock.note, unread]
      · rw [split, unread]
        rcases List.mem_append.mp listed with old | new
        · exact List.mem_append_left _ old
        · rw [List.mem_singleton.mp new]
          exact List.mem_append_right _ List.mem_cons_self

theorem Heard.step {s s' : Timed σ} {ev : Event} (heard : Heard i s)
    (step : Step shared i s ev s') : Heard i s' := by
  obtain ⟨t, found, ending⟩ := heard.ending
  obtain ⟨read, split, seen⟩ := heard.read
  obtain ⟨t', found', moved | ⟨others, same⟩⟩ := step.task_cases found
  · obtain ⟨c, e, rfl, turn, caused, timely, clock⟩ := moved
    refine ⟨⟨t', found', ?_⟩, ?_, ?_, ?_⟩ <;> rw [clock]
    · intro closed
      cases caused with
      | silence phase next =>
          rw [next]
          rfl
      | peer _ | read _ _ | expiry _ | start _ | tick _ _ | queued _ _ | drained _ _ _ | work _ =>
          exact turn.ending_kept (ending closed)
    · rw [Clock.turn_arrived, Clock.turn_now]
      exact heard.past
    · rw [Clock.turn_arrived]
      exact heard.turn timely
    · rw [Clock.turn_now]
      cases c with
      | silence =>
          intro u closed
          cases closed
          exact Nat.le_refl _
      | peer | read _ | expiry | start | tick | work => exact heard.since
  · cases step with
    | elapse d there within =>
        refine ⟨⟨t', found', by rw [same]; exact ending⟩, ?_, heard.read, ?_⟩
        · exact fun a message listed => Nat.le_trans (heard.past a message listed)
            (Nat.le_add_right _ _)
        · exact fun u closed => Nat.le_trans (heard.since u closed) (Nat.le_add_right _ _)
    | arrive message =>
        refine ⟨⟨t', found', by rw [same]; exact ending⟩, ?_, ⟨read, ?_, seen⟩, heard.since⟩
        · intro a other listed
          rcases List.mem_append.mp listed with old | new
          · exact heard.past a other old
          · cases List.mem_singleton.mp new
            exact Nat.le_refl _
        · simp only [Clock.arrive, split, List.append_assoc]
    | other _ _ =>
        exact ⟨⟨t', found', by rw [same]; exact ending⟩, heard.past, heard.read, heard.since⟩
    | turn _ _ _ _ => cases others

/-- Whether only silent clients are closed changes with a tick that overlooks a message. -/
theorem Heard.onlySilent_step {s s' : Timed σ} {ev : Event} (heard : Heard i s)
    (step : Step shared i s ev s') :
    OnlySilent shared.config s' ↔
      OnlySilent shared.config s ∧ ¬ Overlooks shared.config s ev := by
  have other : (∀ e, ev ≠ .turn .silence e) → ¬ Overlooks shared.config s ev :=
    fun differs overlooks => overlooks.1.elim fun e same => differs e same
  cases step with
  | elapse d found within => exact (and_iff_left (other (by simp))).symm
  | other others step => exact (and_iff_left (other (by simp))).symm
  | arrive message =>
      rw [and_iff_left (other (by simp))]
      refine ⟨fun only t closed a m listed => ?_, fun only t closed a m listed => ?_⟩
      · exact only t closed a m (List.mem_append_left _ listed)
      · rcases List.mem_append.mp listed with old | new
        · exact only t closed a m old
        · -- what arrives after the close is not in the window
          cases List.mem_singleton.mp new
          exact fun _ window => absurd window.2 (Nat.not_lt.mpr (heard.since t closed))
  | @turn t t' c e found turn caused timely =>
      cases c with
      | peer | read _ | expiry | start | tick | work => exact (and_iff_left (other (by simp))).symm
      | silence =>
          obtain ⟨read, split, seen⟩ := heard.read
          have unclosed : s.clock.silent = none := by
            by_contra closed
            obtain ⟨u, there, ending⟩ := heard.ending
            obtain rfl := Option.some.inj (found.symm.trans there)
            cases caused with
            | silence phase next =>
                have ends := ending closed
                rw [phase] at ends
                cases ends
          have before : OnlySilent shared.config s := by
            intro u closed
            rw [unclosed] at closed
            cases closed
          refine ⟨fun only => ⟨before, ?_⟩, fun fine u closed a m listed isMessage window => ?_⟩
          · rintro ⟨-, a, m, waiting, isMessage, late, early⟩
            refine only _ rfl a m ?_ isMessage ⟨late, early⟩
            rw [Clock.turn_arrived, split]
            exact List.mem_append_right _ waiting
          · cases closed
            rw [Clock.turn_arrived, split] at listed
            rcases List.mem_append.mp listed with old | waiting
            · have long := timely.2
              have earlier := seen a m old
              omega
            · exact fine.2 ⟨⟨e, rfl⟩, a, m, waiting, isMessage, window.1, window.2⟩

/-- **Only silent clients are closed for silence**, but for what is overlooked.  In every run of a
connection, with writes that take any time up to the timeout, delayed ticks, and a `select!` that
takes any ready branch: if a tick closes the connection at `t`, no message had arrived from the
timeout before `t` up to `t`, exactly when no tick closes it while such a message waits unread. -/
theorem onlySilent_iff (shared : Shared σ) (w : World σ) (now : Nat) (evs : List Event)
    (s : Timed σ) (reached : Run (Step shared w.tasks.length) (spawned shared w now) evs s) :
    OnlySilent shared.config s ↔
      Run (fun s ev s' => Step shared w.tasks.length s ev s' ∧ ¬ Overlooks shared.config s ev)
        (spawned shared w now) evs s := by
  have start : OnlySilent shared.config (spawned shared w now) := by
    intro t closed
    cases closed
  rw [reached.holds_iff_avoids (I := Heard w.tasks.length) (Overlooks shared.config)
    (fun heard step => heard.step step) (fun heard step => heard.onlySilent_step step)
    (.spawned w now)]
  exact and_iff_right start

/-- The client of `brisk` that answers nothing is closed, and nothing is overlooked. -/
theorem onlySilent_iff_silent :
    Run (fun s ev s' => Step brisk 0 s ev s' ∧ ¬ Overlooks brisk.config s ev)
      (spawned brisk (World.start brisk LastValue.new) 0)
      (joining (Claims.new "alice") 256 authText ++ [.turn .start .quiet] ++
        [.elapse 2000000000, .turn .tick .quiet] ++
        [.turn .peer .quiet, .turn .work .quiet, .elapse 2000000000, .turn .silence .timeout])
      silentClient := by
  refine (onlySilent_iff brisk (World.start brisk LastValue.new) 0 _ _ run_silentClient).mp ?_
  rintro t ⟨⟩ a message listed -
  cases List.mem_singleton.mp listed
  decide

/-- At four seconds, a message that a client of `brisk` sent at three seconds waits unread. -/
def lateClock (deadline : Option Nat) (owed : Bool) : Clock where
  now := 4000000000
  deadline := deadline
  heartbeat := 4000000000
  unread := [(3000000000, .text subscribeText)]
  arrived := [(3000000000, .text subscribeText)]
  owed := owed

/-- The message came while the first ping was still being written.  The write ended with the next
tick, and the tick was served first. -/
def overlookedClient : Timed LastValue :=
  let s := onBrisk .closing [.ping]
    { lateClock none true with heartbeat := 6000000000, silent := some 4000000000 }
  { s with world := { s.world with heartbeatTimeouts := 1 } }

theorem run_overlookedClient :
    Run (Step brisk 0) (spawned brisk (World.start brisk LastValue.new) 0)
      (joining (Claims.new "alice") 256 authText ++ [.turn .start .quiet] ++
        [.elapse 2000000000, .turn .tick .quiet] ++
        [.elapse 1000000000, .arrive (.text subscribeText), .elapse 1000000000, .turn .peer .quiet,
          .turn .work .quiet, .turn .silence .timeout]) overlookedClient := by
  refine run_firstPing.append ?_
  have writes : Step brisk 0
      (onBrisk (.writing .ping) [] (lateClock (some 5000000000) false)) (.turn .peer .quiet)
      (onBrisk .check [.ping] (lateClock none true)) :=
    .turn (t := briskTask (.writing .ping) []) rfl (.write rfl) (.peer rfl) trivial
  have checks : Step brisk 0
      (onBrisk .check [.ping] (lateClock none true)) (.turn .work .quiet)
      (onBrisk .select [.ping] (lateClock none true)) :=
    .turn (t := briskTask .check [.ping]) rfl (.fastEnough rfl (by decide)) (.work rfl) trivial
  have closes : Step brisk 0
      (onBrisk .select [.ping] (lateClock none true)) (.turn .silence .timeout)
      overlookedClient :=
    .turn (t := briskTask .select [.ping]) rfl (.timeout rfl) (.silence rfl rfl) (by decide)
  refine .cons (.elapse _ rfl ?_) <| .cons (.arrive _) <| .cons (.elapse _ rfl ?_) <|
    .cons writes <| .cons checks <| .single closes
  · rintro _ ⟨⟩
    decide
  · rintro _ ⟨⟩
    decide

/-- That client is closed at four seconds, one second after it was heard, with a timeout of
three. -/
theorem onlySilent_iff_overlooked :
    0 < brisk.config.heartbeatInterval ∧
    brisk.config.heartbeatInterval ≤ brisk.config.heartbeatTimeout ∧
    (∃ evs, Run (Step brisk 0) (spawned brisk (World.start brisk LastValue.new) 0) evs
      overlookedClient) ∧
    ¬ OnlySilent brisk.config overlookedClient := by
  refine ⟨by decide, by decide, ⟨_, run_overlookedClient⟩, fun only => ?_⟩
  exact only 4000000000 rfl 3000000000 (.text subscribeText)
    (List.mem_cons_of_mem _ (List.mem_singleton.mpr rfl)) rfl ⟨by decide, by decide⟩

end Timed

end WsFanout
