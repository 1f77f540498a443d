import WsFanout.RegistryAccounting
import WsFanout.ServerSlots

/-!
# Closing a client that is too slow

A session compares the streak of its connection with the limit once for each event it has handled.
In between, other threads deliver: a frame that gets through clears the streak, so a streak that
reached the limit may be gone when the session looks.  `Registry.Forgives` is such a delivery, and
`World.streak_closes` says that without one the next check closes the connection, whatever else the
tasks and the publishers do.
-/

namespace WsFanout

open Lib

namespace Registry

variable {F : Type}

/-- The operation lowers the streak of `id`: a frame gets through, or the counter goes round. -/
def Forgives (r : Registry F) (id : ConnectionId) (op : Op F) : Prop :=
  r.attempt? id op = some .ok ∨
    r.attempt? id op = some .full ∧ r.drops id = UInt64.ofNat (2 ^ 64 - 1)

theorem drops_of_lookup {r : Registry F} {id : ConnectionId} {conn : Connection F}
    (found : r.connections.lookup id = some conn) : r.drops id = conn.dropped := by
  simp [drops, found]

/-- Below its last value the counter grows. -/
theorem streak_le_succ {streak : UInt64} (below : streak ≠ UInt64.ofNat (2 ^ 64 - 1)) :
    streak ≤ streak + 1 := by
  have bound := streak.toNat_lt
  have different : streak.toNat ≠ 2 ^ 64 - 1 :=
    fun same => below (UInt64.toNat_inj.mp same)
  have one : (1 : UInt64).toNat = 1 := rfl
  rw [UInt64.le_iff_toNat_le, UInt64.toNat_add]
  omega

/-- While the entry of `id` stays and nothing forgives it, its streak does not fall. -/
theorem drops_step {r : Registry F} {id : ConnectionId} {op : Op F}
    (live : id ∈ r.connections.keys) (notRemove : op ≠ .remove id)
    (notIssued : op.isAdd = true → id ≠ ⟨r.nextId⟩) (kept : ¬ r.Forgives id op) :
    id ∈ (r.step op).1.connections.keys ∧ r.drops id ≤ (r.step op).1.drops id := by
  have still : id ∈ (r.step op).1.connections.keys := by
    rw [keys_step]
    cases op with
    | add _ _ => exact Finset.mem_insert_of_mem live
    | remove i => exact Finset.mem_erase.mpr ⟨fun same => notRemove (same ▸ rfl), live⟩
    | publish _ _ | broadcast _ | send _ _ | subscribe _ _ _ | unsubscribe _ _ | recv _
    | close _ => exact live
  refine ⟨still, ?_⟩
  obtain ⟨conn', found'⟩ := Finmap.mem_keys_iff.mp still
  rw [drops_of_lookup found']
  rcases dropped_step r op found' with ⟨isAdd, mine, -⟩ | ⟨conn, found, streak⟩
  · exact absurd mine (notIssued isAdd)
  · rw [drops_of_lookup found, streak]
    cases outcome : r.attempt? id op with
    | none => exact UInt64.le_refl _
    | some met =>
        cases met with
        | ok => exact absurd (.inl outcome) kept
        | closed => exact UInt64.le_refl _
        | full =>
            refine streak_le_succ fun last => kept (.inr ⟨outcome, ?_⟩)
            rw [drops_of_lookup found, last]

/-- An attempt that meets a full queue drops its frame. -/
theorem dropsFor_of_full {r : Registry F} {id : ConnectionId} {op : Op F}
    (full : r.attempt? id op = some .full) : r.dropsFor id op = true := by
  unfold attempt? at full
  split at full
  · next reached =>
      obtain ⟨frame, -, outcome⟩ := Option.bind_eq_some_iff.mp full
      obtain ⟨conn, found, result⟩ := Option.map_eq_some_iff.mp outcome
      rw [BoundedQueue.trySend_snd] at result
      unfold BoundedQueue.accepts at result
      cases isOpen : conn.tx.isOpen with
      | false => simp [isOpen] at result
      | true =>
          have noRoom : conn.tx.capacity ≤ conn.tx.buffer.length := by simpa [isOpen] using result
          simp [dropsFor, reached, found, BoundedQueue.isFull, isOpen, noRoom]
  · cases full

/-- Where nothing is dropped for it, a connection without a streak gets none. -/
theorem drops_eq_zero_step {r : Registry F} {id : ConnectionId} {op : Op F}
    (zero : r.drops id = 0) (room : r.dropsFor id op = false) : (r.step op).1.drops id = 0 := by
  cases found' : (r.step op).1.connections.lookup id with
  | none => simp [drops, found']
  | some conn' =>
      rw [drops_of_lookup found']
      rcases dropped_step r op found' with ⟨-, -, fresh⟩ | ⟨conn, found, streak⟩
      · exact fresh
      · rw [drops_of_lookup found] at zero
        rw [streak]
        cases outcome : r.attempt? id op with
        | none => exact zero
        | some met =>
            cases met with
            | ok => rfl
            | closed => exact zero
            | full =>
                rw [dropsFor_of_full outcome] at room
                cases room

end Registry

variable {σ : Type} {shared : Shared σ}

namespace World

/-- Task `i` is in its session on `id` with its streak at the limit, or has left it. -/
def AtLimit (shared : Shared σ) (i : Nat) (id : ConnectionId) (claims : Claims)
    (w : World σ) : Prop :=
  ∃ t : Task, w.tasks[i]? = some t ∧
    ((∃ stage, t.phase = .session id claims stage) ∧ id ∈ w.registry.connections.keys ∧
        shared.config.maxConsecutiveDrops ≤ w.registry.drops id ∨
      t.phase.left = true)

/-- A step that forgives nothing leaves the streak at the limit. -/
theorem AtLimit.step {w w' : World σ} {a : Action} {n i : Nat} {id : ConnectionId}
    {claims : Claims} (limit : AtLimit shared i id claims w) (gate : GateInv shared w)
    (owners : Owners n w) (step : Step shared w a w')
    (below : n + [a].countP Action.isJoin ≤ 2 ^ 64)
    (kept : ∀ op, a.op? = some op → ¬ w.registry.Forgives id op) :
    AtLimit shared i id claims w' := by
  obtain ⟨t, found, here⟩ := limit
  obtain ⟨t', found', how⟩ := step.turn_cases found
  refine ⟨t', found', ?_⟩
  rcases here with ⟨⟨stage, phase⟩, live, streak⟩ | left
  · have stands : t.phase.registered? = some (id, claims) := by rw [phase]; rfl
    have mine := (gate.id_of_registered found stands).1
    have grown : id ∈ w'.registry.connections.keys ∧
        w.registry.drops id ≤ w'.registry.drops id := by
      rw [step.registry_eq]
      cases called : a.op? with
      | none => exact ⟨live, UInt64.le_refl _⟩
      | some op =>
          refine Registry.drops_step live ?_ ?_ (kept op called)
          · -- only the guard of a task with this id removes it, and that is task `i` itself
            rintro rfl
            cases step with
            | @act j u u' e there turn =>
                obtain ⟨other, leaving⟩ := turn.removes called
                have theirs := (gate.id_of_registered there (by rw [leaving]; rfl)).1
                have same := owners.unique i j t u id found there mine theirs
                subst same
                obtain rfl := Option.some.inj (found.symm.trans there)
                rw [phase] at leaving
                cases leaving
            | accept _ | refuse _ | publish _ _ | resync _ _ _ | resyncAll | update _ =>
                cases called
          · intro isAdd same
            have joins := step.isJoin_iff.mpr ⟨op, called, isAdd⟩
            have fresh := owners.consistent.fresh (by simp [joins] at below; omega)
            obtain ⟨conn, entry⟩ := Finmap.mem_keys_iff.mp live
            rw [same, fresh] at entry
            cases entry
    rcases how with ⟨e, -, turn⟩ | ⟨-, same, -⟩
    · rcases turn.session_cases phase with ⟨leaving, -⟩ | ⟨stage', goesOn, -⟩
      · refine .inr ?_
        rw [leaving]
        rfl
      · exact .inl ⟨⟨stage', goesOn⟩, grown.1, UInt64.le_trans streak grown.2⟩
    · exact .inl ⟨⟨stage, same.trans phase⟩, grown.1, UInt64.le_trans streak grown.2⟩
  · refine .inr ?_
    rcases how with ⟨e, -, turn⟩ | ⟨-, same, -⟩
    · exact turn.left_kept left
    · rw [same]
      exact left

/-- A step after which the streak of `id` is not forgiven. -/
def StepKeeping (shared : Shared σ) (id : ConnectionId) (w : World σ) (a : Action)
    (w' : World σ) : Prop :=
  Step shared w a w' ∧ ∀ op, a.op? = some op → ¬ w.registry.Forgives id op

/-- **A streak at the limit closes the connection.**  In every run with at most `2 ^ 64`
registrations, from a state in which a session's connection has a streak at the limit, however the
tasks and the publishers go on: unless a frame gets through to the connection, or its 64-bit streak
goes round, the session's next check closes the connection and does nothing else. -/
theorem streak_closes (shared : Shared σ) (source : σ) (as bs : List Action) (w w' : World σ)
    (reached : Run (Step shared) (start shared source) as w)
    (joins : (as ++ bs).countP Action.isJoin ≤ 2 ^ 64)
    (i : Nat) (t t' : Task) (id id' : ConnectionId) (claims claims' : Claims) (stage : Session)
    (found : w.tasks[i]? = some t) (phase : t.phase = .session id claims stage)
    (positive : 1 ≤ shared.config.maxConsecutiveDrops)
    (streak : shared.config.maxConsecutiveDrops ≤ w.registry.drops id)
    (run : Run (StepKeeping shared id) w bs w') (found' : w'.tasks[i]? = some t')
    (check : t'.phase = .session id' claims' .check) :
    Turn shared w'.registry w'.source t' .quiet { t' with phase := .session id claims .closing } ∧
    ∀ e t'', Turn shared w'.registry w'.source t' e t'' →
      t'' = { t' with phase := .session id claims .closing } := by
  rw [List.countP_append] at joins
  obtain ⟨gate, owners⟩ := Owners.of_run reached (by omega)
  have live : id ∈ w.registry.connections.keys := by
    by_contra absent
    have none : w.registry.connections.lookup id = none :=
      Finmap.lookup_eq_none.mpr (mt Finmap.mem_keys.mpr absent)
    have zero : w.registry.drops id = 0 := by simp [Registry.drops, none]
    rw [zero] at streak
    exact absurd (UInt64.le_trans positive streak) (by decide)
  obtain ⟨-, -, later⟩ := run.invariant_count
    (I := fun n w => GateInv shared w ∧ Owners n w ∧ AtLimit shared i id claims w)
    Action.isJoin (2 ^ 64)
    (fun below inv step => ⟨inv.1.step step.1, inv.2.1.step step.1 below,
      inv.2.2.step inv.1 inv.2.1 step.1 below step.2⟩) joins
    ⟨gate, owners, t, found, .inl ⟨⟨stage, phase⟩, live, streak⟩⟩
  obtain ⟨u, there, here⟩ := later
  obtain rfl := Option.some.inj (there.symm.trans found')
  rcases here with ⟨⟨stage', session⟩, -, still⟩ | left
  · rw [check] at session
    cases session
    refine ⟨.tooSlow check still, fun e t'' turn => ?_⟩
    cases turn with
    | tooSlow was _ =>
        rw [check] at was
        cases was
        rfl
    | fastEnough was few =>
        rw [check] at was
        cases was
        exact absurd (UInt64.lt_of_lt_of_le few still) (UInt64.lt_irrefl _)
    | start was _ | recv was _ _ | drain was _ | inbound _ was _ | tick was | timeout was
    | write was | handle was _ | handled was | timerPanic was _ | drained was _
    | inboundEnd _ was _ | notWritten _ was | handlePanic was _ | sinkClosed was | upgraded was
    | notUpgraded was | authorised _ was _ | refused _ was _ | validatorPanic _ _ was _
    | refuse _ was | closed was | acknowledge was | notAcknowledged _ was | channelPanic was _
    | join was _ | dropReceiver was | unregister was | release was =>
        rw [check] at was
        cases was
  · rw [check] at left
    cases left

/-- A server that closes a connection at its first drop, with queues of one frame. -/
def strict : Shared LastValue :=
  demoWith { sendQueue := 1, maxConsecutiveDrops := 1 }

/-- A client of `strict` is in its session, and of two broadcasts one was queued and one dropped. -/
def atLimit : World LastValue :=
  let w := (start strict LastValue.new).welcome strict (Claims.new "alice") authText
  { w with
    registry := w.registry.run [.broadcast (.resync []), .broadcast (.resync [])]
    tasks := [{ registeredTask ⟨1⟩ (Claims.new "alice") authText with
      phase := .session ⟨1⟩ (Claims.new "alice") .select }] }

theorem run_atLimit :
    Run (Step strict) (start strict LastValue.new)
      (connecting 0 (Claims.new "alice") 1 ++ [.act 0 .quiet, .resyncAll, .resyncAll]) atLimit := by
  have parsed : strict.fromStr authText = .ok (.auth "t") := rfl
  have joined := run_connecting strict (start strict LastValue.new) (by decide) parsed rfl
    (by decide)
  refine joined.append ?_
  exact .cons (.act rfl (.start rfl (by decide))) <| .cons .resyncAll <| .cons .resyncAll <| .nil _

/-- Nothing gets through while the session writes the queued frame, and its check then closes. -/
theorem streak_closes_undelivered :
    ∃ (w' : World LastValue) (t' : Task),
      Run (StepKeeping strict ⟨1⟩) atLimit [.act 0 (.call (.recv ⟨1⟩)), .act 0 .quiet] w' ∧
      w'.tasks[0]? = some t' ∧ t'.phase = .session ⟨1⟩ (Claims.new "alice") .check ∧
      Turn strict w'.registry w'.source t' .quiet
        { t' with phase := .session ⟨1⟩ (Claims.new "alice") .closing } := by
  have quiet : ∀ op, (Action.act 0 .quiet).op? = some op →
      ¬ (atLimit.registry.step (.recv ⟨1⟩)).1.Forgives ⟨1⟩ op := by
    intro op called
    cases called
  have taking : ∀ op, (Action.act 0 (.call (.recv ⟨1⟩))).op? = some op →
      ¬ atLimit.registry.Forgives ⟨1⟩ op := by
    intro op called
    cases called
    rintro (through | ⟨full, -⟩)
    · cases through
    · cases full
  have run : Run (StepKeeping strict ⟨1⟩) atLimit
      [.act 0 (.call (.recv ⟨1⟩)), .act 0 .quiet] _ :=
    .cons ⟨.act rfl (.recv rfl rfl rfl), taking⟩ <| .cons ⟨.act rfl (.write rfl), quiet⟩ <| .nil _
  refine ⟨_, _, run, rfl, rfl, ?_⟩
  exact (streak_closes strict LastValue.new _ _ atLimit _ run_atLimit (by decide) 0 _ _ ⟨1⟩ ⟨1⟩ _ _
    .select rfl rfl (by decide) (by decide) run rfl rfl).1

/-- The session takes the queued frame, a third broadcast gets through and clears the streak, and
the check that follows the write lets the connection go on. -/
theorem streak_closes_delivered :
    1 ≤ strict.config.maxConsecutiveDrops ∧
    strict.config.maxConsecutiveDrops ≤ atLimit.registry.drops ⟨1⟩ ∧
    Run (Step strict) (start strict LastValue.new)
      (connecting 0 (Claims.new "alice") 1 ++ [.act 0 .quiet, .resyncAll, .resyncAll]) atLimit ∧
    ∃ (w' w'' : World LastValue) (t' t'' : Task),
      Run (Step strict) atLimit
        [.act 0 (.call (.recv ⟨1⟩)), .resyncAll, .act 0 .quiet] w' ∧
      w'.tasks[0]? = some t' ∧ t'.phase = .session ⟨1⟩ (Claims.new "alice") .check ∧
      Step strict w' (.act 0 .quiet) w'' ∧
      w''.tasks[0]? = some t'' ∧ t''.phase = .session ⟨1⟩ (Claims.new "alice") .select := by
  refine ⟨by decide, by decide, run_atLimit, ?_⟩
  have run : Run (Step strict) atLimit
      [.act 0 (.call (.recv ⟨1⟩)), .resyncAll, .act 0 .quiet] _ :=
    .cons (.act rfl (.recv rfl rfl rfl)) <| .cons .resyncAll <| .cons (.act rfl (.write rfl)) <|
    .nil _
  exact ⟨_, _, _, _, run, rfl, rfl, .act rfl (.fastEnough rfl (by decide)), rfl, rfl⟩

end World

end WsFanout
