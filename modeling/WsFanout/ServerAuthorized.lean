import WsFanout.ServerSlots

/-!
# Only authorised, bounded subscriptions

`World.authorised_run`: while ids are issued once, every registered connection holds at most
`max_subscriptions` channels, each of acceptable length and granted to the claims its task was
authenticated with; and every `data` or `snapshot` frame that is enqueued on a connection is of a
channel granted to it.  The authorizer is asked in `handle`, and everything after it (the index,
the fan-out, the snapshots in flight) keeps to what it granted.
-/

namespace WsFanout

open Lib

variable {σ : Type}

/-- The channels a message in progress still speaks of are granted. -/
def Handling.Granted (shared : Shared σ) (claims : Claims) : Handling → Prop
  | .start _ => True
  | .ack added _ => ∀ ch ∈ added, shared.maySubscribe claims ch = true
  | .snapshots rest => ∀ ch ∈ rest, shared.maySubscribe claims ch = true
  | .snapshot ch _ rest => ∀ c ∈ ch :: rest, shared.maySubscribe claims c = true
  | .reply frame => frame.channel? = none
  | .done => True

/-- The same for a task at any phase. -/
def Phase.Granted (shared : Shared σ) : Phase → Prop
  | .session _ claims (.handling h) => h.Granted shared claims
  | _ => True

namespace Handling.Granted

variable {shared : Shared σ} {claims : Claims} {h : Handling}

/-- Handling a message never goes beyond what the authorizer granted. -/
theorem step (granted : h.Granted shared claims) (id : ConnectionId) (source : σ)
    (r : Registry ServerMessage) : (h.step shared id claims source r).2.Granted shared claims := by
  cases h with
  | start text =>
      simp only [Handling.step]
      cases shared.fromStr text with
      | error e => rfl
      | ok message =>
          cases message with
          | auth _ | ping _ | unsubscribe _ => rfl
          | subscribe channels =>
              intro ch isAdded
              exact (shared.mem_allowed.mp (Registry.mem_of_added r id _ _ isAdded)).2.2
  | ack added rejected => exact granted
  | snapshots rest =>
      cases rest with
      | nil => trivial
      | cons ch rest =>
          simp only [Handling.step]
          cases shared.snapshot source ch with
          | none => exact fun c mem => granted c (List.mem_cons_of_mem _ mem)
          | some payload => exact granted
  | snapshot ch payload rest => exact fun c mem => granted c (List.mem_cons_of_mem _ mem)
  | reply frame => trivial
  | done => trivial

/-- A frame it sends that carries a channel's state carries that of a granted channel. -/
theorem frame (granted : h.Granted shared claims) {id : ConnectionId} {op : Op ServerMessage}
    {frame : ServerMessage} {ch : String} (called : h.op? shared id claims = some op)
    (carries : op.frame? = some frame) (about : frame.channel? = some ch) :
    op = .send id frame ∧ shared.maySubscribe claims ch = true := by
  cases h with
  | start text =>
      simp only [Handling.op?] at called
      split at called <;> cases called <;> cases carries
  | ack added rejected =>
      cases called
      cases carries
      cases about
  | snapshot c payload rest =>
      cases called
      cases carries
      cases about
      exact ⟨rfl, granted _ List.mem_cons_self⟩
  | reply f =>
      cases called
      cases carries
      rw [show frame.channel? = none from granted] at about
      cases about
  | snapshots _ | done => cases called

end Handling.Granted

theorem Session.granted_inbound {shared : Shared σ} {message : Inbound} {next : Session}
    (branch : Session.inbound message = some next) (id : ConnectionId) (claims : Claims) :
    (Phase.session id claims next).Granted shared := by
  cases message with
  | text _ | pong | frame | ping _ =>
      cases branch
      trivial
  | binary =>
      cases branch
      rfl
  | close | failed _ | ended => cases branch

/-- What one turn preserves. -/
theorem Turn.granted {shared : Shared σ} {r : Registry ServerMessage} {source : σ} {t t' : Task}
    {e : Effect} (turn : Turn shared r source t e t') (granted : t.phase.Granted shared) :
    t'.phase.Granted shared := by
  cases turn with
  | handle phase going =>
      rw [phase] at granted
      exact Handling.Granted.step granted _ source r
  | inbound message phase branch => exact Session.granted_inbound branch _ _
  | _ => trivial

namespace World

/-- Task `i` stands for the entry of `id` and was authenticated as `claims`. -/
def OwnedBy (shared : Shared σ) (w : World σ) (id : ConnectionId) (claims : Claims) : Prop :=
  ∃ (i : Nat) (t : Task), w.tasks[i]? = some t ∧ t.phase.registered? = some (id, claims) ∧
    t.AuthenticatedAs shared claims

/-- A set of subscriptions within the limits and the grants of `claims`. -/
def Allowed (shared : Shared σ) (claims : Claims) (subscriptions : Finset String) : Prop :=
  subscriptions.card ≤ shared.config.maxSubscriptions ∧
    ∀ ch ∈ subscriptions, shared.maySubscribe claims ch = true ∧
      ch.utf8ByteSize ≤ shared.config.maxChannelLen

/-- The invariant of the grants: no task goes beyond them, and no entry does. -/
structure Grants (shared : Shared σ) (w : World σ) : Prop where
  tasks : ∀ (i : Nat) (t : Task), w.tasks[i]? = some t → t.phase.Granted shared
  entries : ∀ (i : Nat) (t : Task) (id : ConnectionId) (claims : Claims)
    (conn : Connection ServerMessage), w.tasks[i]? = some t →
    t.phase.registered? = some (id, claims) → w.registry.connections.lookup id = some conn →
    Allowed shared claims conn.subscriptions

theorem grants_start (shared : Shared σ) (source : σ) : Grants shared (start shared source) where
  tasks := by simp [start]
  entries := by simp [start]

theorem allowed_empty (shared : Shared σ) (claims : Claims) : Allowed shared claims ∅ :=
  ⟨Nat.zero_le _, by simp⟩

theorem Allowed.subset {shared : Shared σ} {claims : Claims} {subs subs' : Finset String}
    (allowed : Allowed shared claims subs) (fewer : subs' ⊆ subs) : Allowed shared claims subs' :=
  ⟨(Finset.card_le_card fewer).trans allowed.1, fun ch held => allowed.2 ch (fewer held)⟩

/-- A request that passes on only what is allowed leaves an allowed set. -/
theorem Allowed.subscribe {shared : Shared σ} {claims : Claims} {subs : Finset String}
    (allowed : Allowed shared claims subs) (channels : List String) :
    Allowed shared claims (Registry.subscribeLoop shared.config.maxSubscriptions subs
      (shared.allowed claims channels).1).1 := by
  obtain ⟨union, added, bound⟩ := Registry.subscribeLoop_spec shared.config.maxSubscriptions subs
    (shared.allowed claims channels).1
  refine ⟨bound allowed.1, fun ch held => ?_⟩
  rw [union, Finset.mem_union, List.mem_toFinset] at held
  rcases held with old | new
  · exact allowed.2 ch old
  · obtain ⟨-, short, granted⟩ := shared.mem_allowed.mp (added ch new).2
    exact ⟨granted, short⟩

namespace Grants

variable {shared : Shared σ} {w w' : World σ} {a : Action} {n : Nat}

/-- A request for `id` comes from the task that stands for it, and asks for allowed channels. -/
theorem request (gate : GateInv shared w) (owners : Owners n w) (step : Step shared w a w')
    {i : Nat} {t : Task} {id : ConnectionId} {claims : Claims} (found : w.tasks[i]? = some t)
    (stands : t.phase.registered? = some (id, claims)) {channels : List String} {max : Nat}
    (called : a.op? = some (.subscribe id channels max)) :
    max = shared.config.maxSubscriptions ∧
      ∃ requested, channels = (shared.allowed claims requested).1 := by
  cases step with
  | @act j u u' e there turn =>
      obtain ⟨claims', text, requested, phase, rfl, rfl⟩ := turn.requests called
      have registered : u.phase.registered? = some (id, claims') := by rw [phase]; rfl
      have same := owners.unique i j t u id found there (gate.id_of_registered found stands).1
        (gate.id_of_registered there registered).1
      subst same
      obtain rfl := Option.some.inj (found.symm.trans there)
      rw [stands] at registered
      cases registered
      exact ⟨rfl, requested, rfl⟩
  | accept _ | refuse _ | publish _ _ | resync _ _ _ | resyncAll | update _ => cases called

/-- What one step preserves. -/
theorem step (grants : Grants shared w) (gate : GateInv shared w) (owners : Owners n w)
    (step : Step shared w a w') (below : n + [a].countP Action.isJoin ≤ 2 ^ 64) :
    Grants shared w' := by
  refine ⟨fun i t' found' => ?_, fun i t' id claims conn' found' stands' entry' => ?_⟩
  · rcases step.task_cases found' with ⟨t, e, -, old, turn⟩ | ⟨t, old, -, same⟩ | ⟨-, -, rfl⟩
    · exact turn.granted (grants.tasks i t old)
    · rcases same with rfl | ⟨_, e, -, rfl⟩
      · exact grants.tasks i _ old
      · rw [(e.bystander_keeps w.registry t).1]
        exact grants.tasks i t old
    · trivial
  · -- the entry was there before the step, and the task stood for it, unless the set is empty
    have before : ∀ conn, w.registry.connections.lookup id = some conn →
        ∃ t : Task, w.tasks[i]? = some t ∧ t.phase.registered? = some (id, claims) := by
      intro conn entry
      rcases step.task_cases found' with ⟨t, e, rfl, old, turn⟩ | ⟨t, old, -, same⟩ | ⟨-, -, rfl⟩
      · rcases turn.registered_before stands' with stood | ⟨rfl, subject, sendQueue, rfl⟩
        · exact ⟨t, old, stood⟩
        · have fresh := owners.consistent.fresh (by simp [Action.isJoin] at below; omega)
          rw [fresh] at entry
          cases entry
      · rcases same with rfl | ⟨_, e, -, rfl⟩
        · exact ⟨_, old, stands'⟩
        · rw [(e.bystander_keeps w.registry t).1] at stands'
          exact ⟨t, old, stands'⟩
      · cases stands'
    rw [step.registry_eq] at entry'
    cases called : a.op? with
    | none =>
        rw [called] at entry'
        obtain ⟨t, found, stands⟩ := before conn' entry'
        exact grants.entries i t id claims conn' found stands entry'
    | some op =>
        rw [called] at entry'
        rcases w.registry.subscriptions_step op entry' with empty | ⟨conn, entry, change⟩
        · rw [empty]
          exact allowed_empty shared claims
        · obtain ⟨t, found, stands⟩ := before conn entry
          have allowed := grants.entries i t id claims conn found stands entry
          rcases change with fewer | ⟨channels, max, rfl, grown⟩
          · exact allowed.subset fewer
          · obtain ⟨rfl, requested, rfl⟩ := request gate owners step found stands called
            rw [grown]
            exact allowed.subscribe requested

/-- A frame that a step enqueues on `id` and that carries the state of a channel carries that of one
granted to the task that stands for `id`. -/
theorem frames (grants : Grants shared w) (gate : GateInv shared w) (owners : Owners n w)
    (step : Step shared w a w') {id : ConnectionId} {frame : ServerMessage} {ch : String}
    (enqueued : frame ∈ (w'.registry.queueOf id).drop (w.registry.queueOf id).length)
    (about : frame.channel? = some ch) :
    ∃ claims, w'.OwnedBy shared id claims ∧ shared.maySubscribe claims ch = true := by
  have gate' := gate.step step
  rw [step.registry_eq] at enqueued
  cases called : a.op? with
  | none =>
      rw [called] at enqueued
      simp [Registry.after] at enqueued
  | some op =>
      rw [called] at enqueued
      change frame ∈ ((w.registry.step op).1.queueOf id).drop _ at enqueued
      rw [Registry.drop_queueOf_step owners.consistent.inverts] at enqueued
      cases carries : op.frame? with
      | none =>
          rw [carries] at enqueued
          cases enqueued
      | some f =>
          simp only [carries] at enqueued
          split at enqueued
          case isFalse => cases enqueued
          next taken =>
          obtain rfl := List.mem_singleton.mp enqueued
          have wanted := (Bool.and_eq_true _ _ ▸ taken).1
          cases step with
          | @act i t t' e found turn =>
              obtain ⟨id', claims, h, phase, calls⟩ := turn.delivers called carries
              have granted := grants.tasks i t found
              rw [phase] at granted
              obtain ⟨rfl, may⟩ := Handling.Granted.frame granted calls carries about
              obtain rfl : id = id' := of_decide_eq_true wanted
              have stands : t.phase.registered? = some (id, claims) := by rw [phase]; rfl
              rcases turn.registered stands with stands' | rfl
              · have there := Step.act_task found e t'
                exact ⟨claims, ⟨i, t', there, stands', (gate'.id_of_registered there stands').2⟩,
                  may⟩
              · cases called
          | publish channel payload =>
              cases called
              cases carries
              cases about
              have held : ch ∈ w.registry.subscriptionsOf id := of_decide_eq_true wanted
              obtain ⟨conn, entry, holds⟩ := Registry.mem_subscriptionsOf.mp held
              obtain ⟨i, t, claims, found, stands, -⟩ := owners.owned id conn entry
              have authenticated := (gate.id_of_registered found stands).2
              exact ⟨claims, ⟨i, t, found, stands, authenticated⟩,
                ((grants.entries i t id claims conn found stands entry).2 ch holds).1⟩
          | resync _ _ _ | resyncAll =>
              cases called
              cases carries
              cases about
          | accept _ | refuse _ | update _ => cases called

end Grants

/-- An entry stands under one set of claims. -/
theorem OwnedBy.unique {shared : Shared σ} {w : World σ} {n : Nat} {id : ConnectionId}
    {claims claims' : Claims} (gate : GateInv shared w) (owners : Owners n w)
    (left : w.OwnedBy shared id claims) (right : w.OwnedBy shared id claims') :
    claims = claims' := by
  obtain ⟨i, t, foundI, standsI, -⟩ := left
  obtain ⟨j, u, foundJ, standsJ, -⟩ := right
  have same := owners.unique i j t u id foundI foundJ (gate.id_of_registered foundI standsI).1
    (gate.id_of_registered foundJ standsJ).1
  subst same
  obtain rfl := Option.some.inj (foundI.symm.trans foundJ)
  rw [standsI] at standsJ
  cases standsJ
  rfl

/-- The three invariants in every state reached with at most `2 ^ 64` registrations. -/
theorem Grants.of_run {shared : Shared σ} {source : σ} {as : List Action} {w : World σ}
    (run : Run (Step shared) (start shared source) as w)
    (joins : as.countP Action.isJoin ≤ 2 ^ 64) :
    GateInv shared w ∧ Owners (as.countP Action.isJoin) w ∧ Grants shared w := by
  have reached := run.invariant_count
    (I := fun n w => GateInv shared w ∧ Owners n w ∧ Grants shared w) Action.isJoin (2 ^ 64)
    (n := 0)
    (fun below inv step => ⟨inv.1.step step, inv.2.1.step step below,
      inv.2.2.step inv.1 inv.2.1 step below⟩) (by omega)
    ⟨gateInv_start shared source, owners_start shared source, grants_start shared source⟩
  rwa [Nat.zero_add] at reached

/-- **Only authorised, bounded subscriptions exist.**  In every run with at most `2 ^ 64`
registrations, each registered connection was authenticated as some claims, holds at most
`max_subscriptions` channels, and each of them is granted to these claims and at most
`max_channel_len` bytes long; and every `data` or `snapshot` frame that any step of the run enqueues
on a connection is of a channel granted to its claims. -/
theorem authorised_run (shared : Shared σ) (source : σ) (as : List Action) (w : World σ)
    (run : Run (Step shared) (start shared source) as w)
    (joins : as.countP Action.isJoin ≤ 2 ^ 64) :
    (∀ id conn, w.registry.connections.lookup id = some conn →
      (∃ claims, w.OwnedBy shared id claims) ∧
      ∀ claims, w.OwnedBy shared id claims →
        conn.subscriptions.card ≤ shared.config.maxSubscriptions ∧
        ∀ ch ∈ conn.subscriptions, shared.maySubscribe claims ch = true ∧
          ch.utf8ByteSize ≤ shared.config.maxChannelLen) ∧
    ∀ bs a cs u v, as = bs ++ a :: cs → Run (Step shared) (start shared source) bs u →
      Step shared u a v → ∀ id frame ch,
      frame ∈ (v.registry.queueOf id).drop (u.registry.queueOf id).length →
      frame.channel? = some ch →
      (∃ claims, v.OwnedBy shared id claims) ∧
      ∀ claims, v.OwnedBy shared id claims → shared.maySubscribe claims ch = true := by
  refine ⟨fun id conn entry => ?_,
    fun bs a cs u v split before step id frame ch enqueued about => ?_⟩
  · obtain ⟨gate, owners, grants⟩ := Grants.of_run run joins
    obtain ⟨i, t, claims, found, stands, -⟩ := owners.owned id conn entry
    refine ⟨⟨claims, i, t, found, stands, (gate.id_of_registered found stands).2⟩, ?_⟩
    rintro claims' ⟨j, u, found', stands', -⟩
    exact grants.entries j u id claims' conn found' stands' entry
  · have fewer : bs.countP Action.isJoin + [a].countP Action.isJoin ≤ 2 ^ 64 := by
      have total : as.countP Action.isJoin = bs.countP Action.isJoin +
          ([a].countP Action.isJoin + cs.countP Action.isJoin) := by
        rw [split, List.countP_append, ← List.singleton_append, List.countP_append]
      omega
    obtain ⟨gate, owners, grants⟩ := Grants.of_run before (by omega)
    obtain ⟨claims, owned, may⟩ := grants.frames gate owners step enqueued about
    refine ⟨⟨claims, owned⟩, fun claims' owned' => ?_⟩
    rw [OwnedBy.unique (gate.step step) (owners.step step fewer) owned' owned]
    exact may

/-- A client is registered and subscribes to `x`. -/
theorem authorised_run_subscribed :
    ∃ as w conn, Run (Step demo) (start demo LastValue.new) as w ∧
      w.registry.connections.lookup ⟨1⟩ = some conn ∧ conn.subscriptions = {"x"} ∧
      ∃ claims, w.OwnedBy demo ⟨1⟩ claims := by
  have parsed : demo.fromStr authText = .ok (.auth "t") := rfl
  have joined := run_connecting demo (start demo LastValue.new) (by decide) parsed rfl (by decide)
  have going : Handling.start subscribeText ≠ .done := by simp
  have asked : Run (Step demo)
      ((start demo LastValue.new).welcome demo (Claims.new "alice") authText)
      [.act 0 .quiet, .act 0 .quiet, .act 0 _] _ :=
    .cons (.act rfl (.start rfl (by decide))) <|
    .cons (.act rfl (.inbound (.text subscribeText) rfl rfl)) <|
    .cons (.act rfl (.handle rfl going)) <| .nil _
  have run := joined.append asked
  exact ⟨_, _, _, run, rfl, rfl,
    ((authorised_run demo LastValue.new _ _ run (by decide)).1 _ _ rfl).1⟩

end World

end WsFanout
