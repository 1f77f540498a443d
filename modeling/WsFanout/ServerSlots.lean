import WsFanout.ServerAuth

/-!
# Connection slots and registry entries

`World.slots_run`: free permits and live tasks add up to `max_connections`, and every task that has
ended gave its permit back exactly once.  As long as ids are issued once, which is for the first
`2 ^ 64` registrations, every registry entry belongs to exactly one live task, and an ended task
has left no trace in the registry.
-/

namespace WsFanout

open Lib

variable {σ : Type}

namespace World

/-- The tasks that have not ended. -/
def live (w : World σ) : Finset Nat :=
  (Finset.range w.tasks.length).filter fun i => (w.tasks[i]?).any fun t => t.phase ≠ .ended

theorem mem_live {w : World σ} {i : Nat} :
    i ∈ w.live ↔ ∃ t : Task, w.tasks[i]? = some t ∧ t.phase ≠ .ended := by
  rw [live, Finset.mem_filter, Finset.mem_range]
  constructor
  · rintro ⟨inside, alive⟩
    rw [List.getElem?_eq_getElem inside] at alive
    exact ⟨_, List.getElem?_eq_getElem inside, by simpa using alive⟩
  · rintro ⟨t, found, alive⟩
    obtain ⟨inside, -⟩ := List.getElem?_eq_some_iff.mp found
    exact ⟨inside, by simp [found, alive]⟩

/-- Whether a task is live is read off its phase. -/
theorem mem_live_congr {w w' : World σ} {i : Nat}
    (same : (w'.tasks[i]?).map Task.phase = (w.tasks[i]?).map Task.phase) :
    i ∈ w'.live ↔ i ∈ w.live := by
  have read : ∀ v : World σ, i ∈ v.live ↔
      ∃ p, (v.tasks[i]?).map Task.phase = some p ∧ p ≠ .ended := by
    intro v
    rw [mem_live]
    simp only [Option.map_eq_some_iff, exists_exists_and_eq_and]
  rw [read, read, same]

theorem phase_apply (w : World σ) (e : Effect) (i : Nat) :
    ((w.apply e).tasks[i]?).map Task.phase = (w.tasks[i]?).map Task.phase := by
  rw [tasks_apply, List.getElem?_map]
  cases w.tasks[i]? with
  | none => rfl
  | some t => simp [(e.bystander_keeps w.registry t).1]

/-- The live tasks after a turn. -/
theorem live_act {shared : Shared σ} {w : World σ} {i : Nat} {t t' : Task} {e : Effect}
    (found : w.tasks[i]? = some t) (turn : Turn shared w.registry w.source t e t') :
    ((w.apply e).put i t').live = if e = .release then w.live.erase i else w.live := by
  obtain ⟨alive, ends⟩ := turn.ended_iff
  ext j
  rcases eq_or_ne j i with rfl | same
  · have before : j ∈ w.live := mem_live.mpr ⟨t, found, alive⟩
    have after : j ∈ ((w.apply e).put j t').live ↔ t'.phase ≠ .ended := by
      rw [mem_live, Step.act_task found]
      simp
    rw [after, ne_eq, ends]
    split <;> simp_all
  · have untouched : j ∈ ((w.apply e).put i t').live ↔ j ∈ w.live := by
      refine mem_live_congr ?_
      rw [← phase_apply w e j, put, List.getElem?_set_ne (Ne.symm same)]
    rw [untouched]
    split <;> simp [same]

/-- Free permits and live tasks add up. -/
theorem slots_step {shared : Shared σ} {w w' : World σ} {a : Action} {total : Nat}
    (slots : w.permits + w.live.card = total) (step : Step shared w a w') :
    w'.permits + w'.live.card = total := by
  cases step with
  | accept free =>
      have grown : live { w with permits := w.permits - 1, tasks := w.tasks ++ [{}] } =
          insert w.tasks.length w.live := by
        ext i
        rw [Finset.mem_insert, mem_live, mem_live]
        simp only [List.getElem?_append]
        rcases Nat.lt_trichotomy i w.tasks.length with less | same | more
        · have other : i ≠ w.tasks.length := by omega
          simp [less, other]
        · subst same
          simp
        · have beyond : i - w.tasks.length ≠ 0 := by omega
          have other : i ≠ w.tasks.length := by omega
          have notLess : ¬ i < w.tasks.length := by omega
          simp [notLess, beyond, other]
      have fresh : w.tasks.length ∉ w.live := by
        rw [mem_live]
        simp
      rw [grown, Finset.card_insert_of_notMem fresh]
      change w.permits - 1 + _ = total
      omega
  | @act i t t' e found turn =>
      have permits : ((w.apply e).put i t').permits =
          w.permits + if e = .release then 1 else 0 := by
        cases e <;> simp [apply, put]
      have alive : i ∈ w.live := mem_live.mpr ⟨t, found, turn.ended_iff.1⟩
      have some_live : 0 < w.live.card := Finset.card_pos.mpr ⟨i, alive⟩
      rw [permits, live_act found turn]
      split
      · rw [Finset.card_erase_of_mem alive]
        omega
      · omega
  | refuse _ | publish _ _ | resync _ _ _ | resyncAll | update _ => exact slots

/-! ## Each permit is given back once -/

/-- Task `i` has ended. -/
def Ended (w : World σ) (i : Nat) : Prop :=
  ∃ t : Task, w.tasks[i]? = some t ∧ t.phase = .ended

/-- A task ends by giving its permit back, and does so while it is live. -/
theorem ended_step {shared : Shared σ} {w w' : World σ} {a : Action} (step : Step shared w a w')
    (i : Nat) :
    (w'.Ended i ↔ w.Ended i ∨ a.releases i = true) ∧ ¬ (w.Ended i ∧ a.releases i = true) := by
  cases step with
  | accept free =>
      refine ⟨?_, by simp [Action.releases]⟩
      simp only [Ended, List.getElem?_append, Action.releases]
      rcases Nat.lt_or_ge i w.tasks.length with inside | outside
      · simp [inside]
      · have beyond : ¬ i < w.tasks.length := by omega
        rcases Nat.eq_zero_or_pos (i - w.tasks.length) with zero | more
        · simp [beyond, zero]
        · have absent : i - w.tasks.length ≠ 0 := by omega
          simp [beyond, absent]
  | @act j t t' e found turn =>
      obtain ⟨alive, ends⟩ := turn.ended_iff
      have releases : (Action.act j e).releases i = true ↔ i = j ∧ e = .release := by
        cases e <;> simp [Action.releases]
      rw [releases]
      rcases eq_or_ne i j with rfl | mine
      · have before : ¬ w.Ended i := by
          rintro ⟨u, there, ended⟩
          rw [found] at there
          cases there
          exact alive ended
        have after : ((w.apply e).put i t').Ended i ↔ e = .release := by
          unfold Ended
          rw [Step.act_task found, ← ends]
          simp
        rw [after]
        simp [before]
      · have same : ((w.apply e).put j t').Ended i ↔ w.Ended i := by
          have phases : (((w.apply e).put j t').tasks[i]?).map Task.phase =
              (w.tasks[i]?).map Task.phase := by
            rw [← phase_apply w e i, put, List.getElem?_set_ne (Ne.symm mine)]
          unfold Ended
          rw [← Option.map_eq_some_iff, ← Option.map_eq_some_iff, phases]
        rw [same]
        simp [mine]
  | refuse _ | publish _ _ | resync _ _ _ | resyncAll | update _ =>
      exact ⟨by simp [Action.releases, Ended, apply], by simp [Action.releases]⟩

/-- Over a run from the start, a task gave its permit back once if it has ended and never if it has
not. -/
theorem releases_run {shared : Shared σ} {source : σ} {w : World σ} {as : List Action}
    (run : Run (Step shared) (start shared source) as w) (i : Nat) :
    (w.Ended i → as.countP (Action.releases i) = 1) ∧
      (¬ w.Ended i → as.countP (Action.releases i) = 0) := by
  have counted := run.invariant_count
    (I := fun n w => (w.Ended i → n = 1) ∧ (¬ w.Ended i → n = 0)) (Action.releases i)
    (as.countP (Action.releases i)) (n := 0) ?preserved (by omega) ⟨?notEnded, fun _ => rfl⟩
  · rwa [Nat.zero_add] at counted
  case notEnded =>
    rintro ⟨t, found, -⟩
    simp [start] at found
  case preserved =>
    rintro n u a v - ⟨once, never⟩ step
    obtain ⟨ends, fresh⟩ := ended_step step i
    have count : [a].countP (Action.releases i) = if a.releases i then 1 else 0 := by
      cases kind : a.releases i <;> simp [kind]
    rw [ends, count]
    cases kind : a.releases i with
    | false => simpa [kind] using ⟨once, never⟩
    | true =>
        have live : ¬ u.Ended i := fun ended => fresh ⟨ended, kind⟩
        simp [never live]

/-! ## Every entry has one owner -/

/-- Where a task has its id from: it had it before, or this step registered it. -/
theorem Step.task_id {shared : Shared σ} {w w' : World σ} {a : Action}
    (step : Step shared w a w') {i : Nat} {t' : Task} {id : ConnectionId}
    (found' : w'.tasks[i]? = some t') (given : t'.id = some id) :
    (∃ t : Task, w.tasks[i]? = some t ∧ t.id = some id) ∨
      (id = ⟨w.registry.nextId⟩ ∧ a.isJoin = true ∧ ∃ e, a = .act i e) := by
  rcases step.task_cases found' with ⟨t, e, rfl, old, turn⟩ | ⟨t, old, -, same⟩ | ⟨-, -, rfl⟩
  · rcases turn.id_cases with kept | ⟨new, subject, sendQueue, rfl⟩
    · exact .inl ⟨t, old, kept ▸ given⟩
    · rw [new] at given
      exact .inr ⟨(Option.some.inj given).symm, rfl, _, rfl⟩
  · rcases same with rfl | ⟨_, e, -, rfl⟩
    · exact .inl ⟨t', old, given⟩
    · rw [(e.bystander_keeps w.registry t).2.1] at given
      exact .inl ⟨t, old, given⟩
  · cases given

/-- The invariant of ids and entries after `n` registrations. -/
structure Owners (n : Nat) (w : World σ) : Prop where
  consistent : w.registry.Consistent n
  issued : ∀ (i : Nat) (t : Task) (id : ConnectionId), w.tasks[i]? = some t → t.id = some id →
    ConnectionId.Issued n id
  unique : ∀ (i j : Nat) (t u : Task) (id : ConnectionId), w.tasks[i]? = some t →
    w.tasks[j]? = some u → t.id = some id → u.id = some id → i = j
  owned : ∀ id conn, w.registry.connections.lookup id = some conn →
    ∃ (i : Nat) (t : Task) (claims : Claims), w.tasks[i]? = some t ∧
      t.phase.registered? = some (id, claims) ∧ conn.subject = claims.subject

theorem owners_start (shared : Shared σ) (source : σ) : Owners 0 (start shared source) where
  consistent := .initial
  issued := by simp [start]
  unique := by simp [start]
  owned := by simp [start, Registry.new]

/-- A task that stands for an entry has its id. -/
theorem GateInv.id_of_registered {shared : Shared σ} {w : World σ} (gate : GateInv shared w)
    {i : Nat} {t : Task} {id : ConnectionId} {claims : Claims} (found : w.tasks[i]? = some t)
    (stands : t.phase.registered? = some (id, claims)) :
    t.id = some id ∧ t.AuthenticatedAs shared claims := by
  have atPhase := (gate.tasks i t found).phase
  cases phase : t.phase with
  | session _ _ _ =>
      rw [phase] at atPhase stands
      cases stands
      exact ⟨atPhase.2.1, atPhase.1.1⟩
  | leaving _ _ | unregistering _ _ =>
      rw [phase] at atPhase stands
      cases stands
      exact ⟨atPhase.2, atPhase.1.1⟩
  | handshake | authenticating | refusing _ | closing _ | acking _ | joining _ | releasing
  | ended =>
      rw [phase] at stands
      cases stands

namespace Owners

variable {shared : Shared σ} {w w' : World σ} {a : Action} {n : Nat}

/-- The entry of a registered task stays its entry, or goes with the task's guard. -/
theorem owned_step (inv : Owners n w) (step : Step shared w a w') {id : ConnectionId}
    {conn' : Connection ServerMessage}
    (found' : w'.registry.connections.lookup id = some conn') :
    ∃ (i : Nat) (t : Task) (claims : Claims), w'.tasks[i]? = some t ∧
      t.phase.registered? = some (id, claims) ∧ conn'.subject = claims.subject := by
  have older : ∀ conn, w.registry.connections.lookup id = some conn →
      conn'.subject = conn.subject → ∃ (i : Nat) (t : Task) (claims : Claims),
        w'.tasks[i]? = some t ∧ t.phase.registered? = some (id, claims) ∧
        conn'.subject = claims.subject := by
    intro conn old same
    obtain ⟨i, t, claims, there, stands, subject⟩ := inv.owned id conn old
    obtain ⟨t', there', how⟩ := step.turn_cases there
    refine ⟨i, t', claims, there', ?_, same.trans subject⟩
    rcases how with ⟨e, rfl, turn⟩ | ⟨-, phase, -⟩
    · rcases turn.registered stands with still | rfl
      · exact still
      · -- the guard's `remove` took the entry away
        have gone := w.registry.lookup_remove id id
        rw [if_pos rfl] at gone
        rw [step.registry_eq] at found'
        exact absurd (gone.symm.trans found') (by simp)
    · rw [phase]
      exact stands
  have after := found'
  rw [step.registry_eq] at after
  cases called : a.op? with
  | none =>
      rw [called] at after
      exact older conn' after rfl
  | some op =>
      rw [called] at after
      rcases w.registry.entry_step op after with ⟨sendQueue, rfl, rfl, -⟩ | ⟨conn, old, same, -⟩
      · cases step with
        | @act i t t' e found turn =>
            obtain ⟨claims, -, same, -, rfl⟩ := turn.adds called rfl
            obtain ⟨subject, -⟩ := Op.add.inj same
            exact ⟨i, _, claims, Step.act_task found _ _, rfl, subject⟩
        | accept _ | refuse _ | publish _ _ | resync _ _ _ | resyncAll | update _ => cases called
      · exact older conn old same

/-- What one step preserves, for as long as its id is a new one. -/
theorem step (inv : Owners n w) (step : Step shared w a w')
    (below : n + [a].countP Action.isJoin ≤ 2 ^ 64) :
    Owners (n + [a].countP Action.isJoin) w' := by
  have next : (⟨w.registry.nextId⟩ : ConnectionId) = ConnectionId.nth n := by
    rw [inv.consistent.nextId]
  have count : a.isJoin = true → [a].countP Action.isJoin = 1 := by
    intro joins
    simp [joins]
  refine ⟨step.consistent inv.consistent below, ?_, ?_, fun id conn found =>
    inv.owned_step step found⟩
  · intro i t' id found' given
    rcases step.task_id found' given with ⟨t, old, had⟩ | ⟨rfl, joins, -⟩
    · exact (inv.issued i t id old had).mono (Nat.le_add_right _ _)
    · rw [count joins]
      exact ⟨n, Nat.lt_succ_self n, next⟩
  · -- an id that is new now was not issued before
    have fresh : a.isJoin = true → ∀ (i : Nat) (t : Task) (id : ConnectionId),
        w.tasks[i]? = some t → t.id = some id → id ≠ ⟨w.registry.nextId⟩ := by
      intro joins i t id old had same
      rw [count joins] at below
      rw [next] at same
      exact ConnectionId.not_issued_nth (by omega) (same ▸ inv.issued i t id old had)
    intro i j t' u' id foundI foundJ givenI givenJ
    rcases step.task_id foundI givenI with ⟨t, oldI, hadI⟩ | ⟨newI, joins, e, rfl⟩
    · rcases step.task_id foundJ givenJ with ⟨u, oldJ, hadJ⟩ | ⟨newJ, joins, -⟩
      · exact inv.unique i j t u id oldI oldJ hadI hadJ
      · exact absurd newJ (fresh joins i t id oldI hadI)
    · rcases step.task_id foundJ givenJ with ⟨u, oldJ, hadJ⟩ | ⟨-, -, e', same⟩
      · exact absurd newI (fresh joins j u id oldJ hadJ)
      · cases same
        rfl

/-- Both invariants hold in every state reached with at most `2 ^ 64` registrations. -/
theorem of_run {source : σ} {as : List Action} (run : Run (Step shared) (start shared source) as w)
    (joins : as.countP Action.isJoin ≤ 2 ^ 64) :
    GateInv shared w ∧ Owners (as.countP Action.isJoin) w := by
  have reached := run.invariant_count
    (I := fun n w => GateInv shared w ∧ Owners n w) Action.isJoin (2 ^ 64) (n := 0)
    (fun below inv step => ⟨inv.1.step step, inv.2.step step below⟩) (by omega)
    ⟨gateInv_start shared source, owners_start shared source⟩
  rwa [Nat.zero_add] at reached

/-- Nobody else calls the registry for the id of a task. -/
theorem spares_id (inv : Owners n w) (gate : GateInv shared w) (step : Step shared w a w')
    (below : n + [a].countP Action.isJoin ≤ 2 ^ 64) {i : Nat} {t : Task} {id : ConnectionId}
    (found : w.tasks[i]? = some t) (mine : t.id = some id) (other : ∀ e, a ≠ .act i e)
    {op : Op ServerMessage} (called : a.op? = some op) : w.registry.Spares id op := by
  refine ⟨fun target => ?_, fun isAdd same => ?_⟩
  · cases step with
    | @act j u u' e there turn =>
        obtain ⟨claims', theirs⟩ := turn.targets called target
        have same := inv.unique i j t u id found there mine (gate.id_of_registered there theirs).1
        exact other e (congrArg (Action.act · e) same.symm)
    | publish _ _ | resync _ _ _ | resyncAll =>
        cases called
        cases target
    | accept _ | refuse _ | update _ => cases called
  · have joins := step.isJoin_iff.mpr ⟨op, called, isAdd⟩
    have issued := inv.issued i t id found mine
    rw [same, inv.consistent.nextId] at issued
    exact ConnectionId.not_issued_nth (by simp [joins] at below; omega) issued

/-- Nobody else calls the registry for the connection of a registered task. -/
theorem spares (inv : Owners n w) (gate : GateInv shared w) (step : Step shared w a w')
    (below : n + [a].countP Action.isJoin ≤ 2 ^ 64) {i : Nat} {t : Task} {id : ConnectionId}
    {claims : Claims} (found : w.tasks[i]? = some t)
    (stands : t.phase.registered? = some (id, claims)) (other : ∀ e, a ≠ .act i e)
    {op : Op ServerMessage} (called : a.op? = some op) : w.registry.Spares id op :=
  inv.spares_id gate step below found (gate.id_of_registered found stands).1 other called

/-- A task that stands for no entry has left the registry. -/
theorem gone (inv : Owners n w) (gate : GateInv shared w) {i : Nat} {t : Task}
    {id : ConnectionId} (found : w.tasks[i]? = some t) (given : t.id = some id)
    (left : t.phase.registered? = none) :
    w.registry.connections.lookup id = none ∧ ∀ ch, id ∉ w.registry.byChannel.members ch := by
  have absent : w.registry.connections.lookup id = none := by
    by_contra present
    obtain ⟨conn, there⟩ := Option.ne_none_iff_exists'.mp present
    obtain ⟨j, u, claims, found', stands, -⟩ := inv.owned id conn there
    have same := inv.unique i j t u id found found' given (gate.id_of_registered found' stands).1
    subst same
    obtain rfl := Option.some.inj (found.symm.trans found')
    rw [left] at stands
    cases stands
  refine ⟨absent, fun ch listed => ?_⟩
  rw [inv.consistent.inverts.mem_members, Registry.mem_subscriptionsOf] at listed
  obtain ⟨conn, there, -⟩ := listed
  rw [absent] at there
  cases there

/-- There are no more entries than live tasks. -/
theorem connections_le (inv : Owners n w) (gate : GateInv shared w) :
    w.connections ≤ w.live.card := by
  let ownedBy : Nat → ConnectionId := fun i => ((w.tasks[i]?).bind Task.id).getD ⟨0⟩
  have covered : w.registry.connections.keys ⊆ w.live.image ownedBy := by
    intro id listed
    obtain ⟨conn, there⟩ := Finmap.mem_keys_iff.mp listed
    obtain ⟨i, t, claims, found, stands, -⟩ := inv.owned id conn there
    have given := (gate.id_of_registered found stands).1
    have alive : t.phase ≠ .ended := by
      intro ended
      rw [ended] at stands
      cases stands
    exact Finset.mem_image.mpr ⟨i, mem_live.mpr ⟨t, found, alive⟩, by simp [ownedBy, found, given]⟩
  exact (Finset.card_le_card covered).trans Finset.card_image_le

end Owners

/-- **Slots and entries are conserved.**  In every state the server reaches with at most `2 ^ 64`
registrations, free permits and live tasks add up to `max_connections`; every registry entry
belongs to exactly one live task, which has passed authentication; so there are at most as many
open connections as live tasks, and at most `max_connections` of these; and a task that has ended
has its id in no map of the registry and has given its permit back exactly once. -/
theorem slots_run (shared : Shared σ) (source : σ) (as : List Action) (w : World σ)
    (run : Run (Step shared) (start shared source) as w)
    (joins : as.countP Action.isJoin ≤ 2 ^ 64) :
    w.permits + w.live.card = shared.config.maxConnections ∧
    (∀ id conn, w.registry.connections.lookup id = some conn →
      ∃! i, i ∈ w.live ∧ ∃ (t : Task) (claims : Claims), w.tasks[i]? = some t ∧
        t.phase.registered? = some (id, claims) ∧ t.AuthenticatedAs shared claims ∧
        conn.subject = claims.subject) ∧
    (w.connections ≤ w.live.card ∧ w.live.card ≤ shared.config.maxConnections) ∧
    ∀ (i : Nat) (t : Task), w.tasks[i]? = some t → t.phase = .ended →
      (∀ id, t.id = some id → w.registry.connections.lookup id = none ∧
        ∀ ch, id ∉ w.registry.byChannel.members ch) ∧
      as.countP (Action.releases i) = 1 := by
  have slots := run.invariant (I := fun w => w.permits + w.live.card = shared.config.maxConnections)
    (fun slots step => slots_step slots step) (by simp [start, live])
  obtain ⟨gate, owners⟩ := Owners.of_run run joins
  refine ⟨slots, fun id conn found => ?_, ⟨owners.connections_le gate, by omega⟩, ?_⟩
  · obtain ⟨i, t, claims, there, stands, subject⟩ := owners.owned id conn found
    obtain ⟨given, authenticated⟩ := gate.id_of_registered there stands
    have alive : t.phase ≠ .ended := by
      intro ended
      rw [ended] at stands
      cases stands
    refine ⟨i, ⟨mem_live.mpr ⟨t, there, alive⟩, t, claims, there, stands, authenticated, subject⟩,
      ?_⟩
    rintro j ⟨-, u, claims', there', stands', -⟩
    exact owners.unique j i u t id there' there (gate.id_of_registered there' stands').1 given
  · intro i t found ended
    refine ⟨fun id given => owners.gone gate found given (by simp [ended, Phase.registered?]), ?_⟩
    exact (releases_run run i).1 ⟨t, found, ended⟩

/-- One client comes and goes while another stays. -/
theorem slots_run_two :
    ∃ w, Run (Step demo) (start demo LastValue.new)
        (connecting 0 (Claims.new "alice") 256 ++ (connecting 1 (Claims.new "alice") 256 ++
          departing 1 ⟨2⟩)) w ∧
      w.permits = 9999 ∧ w.connections = 1 ∧ w.connections ≤ w.live.card := by
  have parsed : demo.fromStr authText = .ok (.auth "t") := rfl
  have first := run_connecting demo (start demo LastValue.new) (by decide) parsed rfl (by decide)
  have second := run_connecting demo
    ((start demo LastValue.new).welcome demo (Claims.new "alice") authText) (by decide) parsed rfl
    (by decide)
  have away := run_departing demo
    (((start demo LastValue.new).welcome demo (Claims.new "alice") authText).welcome demo
      (Claims.new "alice") authText) rfl (by decide)
  have run := first.append (second.append away)
  exact ⟨_, run, rfl, rfl, (slots_run demo LastValue.new _ _ run (by decide)).2.2.1.1⟩

end World

end WsFanout
