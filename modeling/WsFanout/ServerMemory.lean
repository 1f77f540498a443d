import Mathlib.Algebra.Order.BigOperators.Group.Finset
import WsFanout.RegistryAccounting
import WsFanout.ServerAcks
import WsFanout.ServerAuthorized

/-!
# The memory of the registry

A client chooses how many channels it asks for, how long their names are and how slowly it reads.
`World.memory_run` puts the limits of a configuration together: whatever the clients do, the
entries, the subscriptions, the index by channel and the queues of the registry stay within bounds
that the configuration alone determines.
-/

namespace WsFanout

open Lib

variable {σ : Type}

namespace World

variable {shared : Shared σ} {w w' : World σ} {a : Action}

/-- Every queue was made with the configured capacity. -/
def Sized (shared : Shared σ) (w : World σ) : Prop :=
  ∀ id conn, w.registry.connections.lookup id = some conn →
    conn.tx.capacity = shared.config.sendQueue

theorem Sized.step (sized : Sized shared w) (step : Step shared w a w') : Sized shared w' := by
  intro id conn' found'
  rw [step.registry_eq] at found'
  cases called : a.op? with
  | none =>
      rw [called] at found'
      exact sized id conn' found'
  | some op =>
      rw [called] at found'
      rcases w.registry.capacity_step op found' with rfl | ⟨conn, found, -, same⟩
      · cases step with
        | act found turn =>
            obtain ⟨claims, -, same, -⟩ := turn.adds called rfl
            exact (Op.add.inj same).2
        | accept _ | refuse _ | publish _ _ | resync _ _ _ | resyncAll | update _ => cases called
      · exact same.trans (sized id conn found)

theorem Sized.of_run {source : σ} {as : List Action}
    (run : Run (Step shared) (start shared source) as w) : Sized shared w :=
  run.invariant (fun sized step => sized.step step) (by simp [Sized, start, Registry.new])

/-- **The memory of the registry is bounded.**  In every state the server reaches with at most
`2 ^ 64` registrations, whatever its clients ask for and however slowly they read: there are at
most `max_connections` entries; all their subscriptions together are at most `max_subscriptions`
for each of these, and so are the channels of the index; no name in it is longer than
`max_channel_len`; and all queues together hold at most `send_queue` frames for each. -/
theorem memory_run (shared : Shared σ) (source : σ) (as : List Action) (w : World σ)
    (run : Run (Step shared) (start shared source) as w)
    (joins : as.countP Action.isJoin ≤ 2 ^ 64) :
    w.registry.connections.keys.card ≤ shared.config.maxConnections ∧
    (∑ id ∈ w.registry.connections.keys, (w.registry.subscriptionsOf id).card) ≤
      shared.config.maxConnections * shared.config.maxSubscriptions ∧
    w.registry.byChannel.keys.card ≤
      shared.config.maxConnections * shared.config.maxSubscriptions ∧
    (∀ ch ∈ w.registry.byChannel.keys, ch.utf8ByteSize ≤ shared.config.maxChannelLen) ∧
    w.registry.queued ≤ shared.config.maxConnections * shared.config.sendQueue := by
  obtain ⟨gate, owners, grants⟩ := Grants.of_run run joins
  have slots := run.invariant (I := fun w => w.permits + w.live.card = shared.config.maxConnections)
    (fun slots step => slots_step slots step) (by simp [start, live])
  have entries : w.registry.connections.keys.card ≤ shared.config.maxConnections := by
    have fewer := owners.connections_le gate
    have same : w.connections = w.registry.connections.keys.card := rfl
    omega
  have covers : ∀ id ch, ch ∈ w.registry.subscriptionsOf id →
      id ∈ w.registry.connections.keys := by
    intro id ch held
    obtain ⟨conn, found, -⟩ := Registry.mem_subscriptionsOf.mp held
    exact Finmap.mem_keys_iff.mpr ⟨conn, found⟩
  have allowed : ∀ id ∈ w.registry.connections.keys,
      ∃ claims, Allowed shared claims (w.registry.subscriptionsOf id) := by
    intro id listed
    obtain ⟨conn, found⟩ := Finmap.mem_keys_iff.mp listed
    obtain ⟨i, t, claims, there, stands, -⟩ := owners.owned id conn found
    rw [Registry.subscriptionsOf_of_lookup found]
    exact ⟨claims, grants.entries i t id claims conn there stands found⟩
  have within : ∀ {f : ConnectionId → Nat} {limit : Nat},
      (∀ id ∈ w.registry.connections.keys, f id ≤ limit) →
      ∑ id ∈ w.registry.connections.keys, f id ≤ shared.config.maxConnections * limit := by
    intro f limit each
    refine (Finset.sum_le_card_nsmul _ _ _ each).trans ?_
    rw [Nat.nsmul_eq_mul]
    exact Nat.mul_le_mul_right limit entries
  have subscriptions := within fun id listed => (allowed id listed).elim fun _ granted => granted.1
  have indexed := owners.consistent.inverts.keys_subset covers
  refine ⟨entries, subscriptions, ?_, fun ch listed => ?_, within fun id listed => ?_⟩
  · exact (Finset.card_le_card indexed).trans (Finset.card_biUnion_le.trans subscriptions)
  · obtain ⟨id, there, held⟩ := Finset.mem_biUnion.mp (indexed listed)
    obtain ⟨claims, granted⟩ := allowed id there
    exact (granted.2 ch held).2
  · obtain ⟨conn, found⟩ := Finmap.mem_keys_iff.mp listed
    rw [Registry.queueOf_of_lookup found, ← Sized.of_run run id conn found]
    exact conn.tx.bounded

/-- One subscriber of `guarded`, with the acknowledgement of its request queued. -/
theorem memory_run_subscribed :
    answered.registry.byChannel.keys = {"x"} ∧ answered.registry.queued = 1 ∧
      answered.registry.queued ≤
        guarded.config.maxConnections * guarded.config.sendQueue := by
  refine ⟨by decide, by decide, ?_⟩
  exact (memory_run guarded LastValue.new _ answered run_answered (by decide)).2.2.2.2

end World

end WsFanout
