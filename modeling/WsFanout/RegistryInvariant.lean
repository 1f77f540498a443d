import WsFanout.RegistryView

/-!
# The registry over whole runs

`Registry.Consistent n r` is the invariant of the registry after `n` calls of `add`: the channel
index inverts the subscription sets, the counter stands at the id the next `add` issues, and every
live id was issued.  The counter is 64 bits wide and wraps, so the ids of the first `2 ^ 64` calls
are distinct and the ones after them are not.
-/

namespace WsFanout

open Lib

variable {F : Type}

namespace ConnectionId

/-- The id that the `n`-th call of `add` issues, counting from zero. -/
def nth (n : Nat) : ConnectionId :=
  ⟨UInt64.ofNat (n + 1)⟩

/-- One of the ids of the first `n` calls. -/
def Issued (n : Nat) (id : ConnectionId) : Prop :=
  ∃ k < n, id = nth k

theorem nth_inj {m n : Nat} (hm : m < 2 ^ 64) (hn : n < 2 ^ 64) (same : nth m = nth n) :
    m = n := by
  have words : UInt64.ofNat (m + 1) = UInt64.ofNat (n + 1) := congrArg ConnectionId.val same
  have values := congrArg UInt64.toNat words
  simp only [UInt64.toNat_ofNat'] at values
  omega

theorem nth_succ (n : Nat) : (nth n).val + 1 = (nth (n + 1)).val := by
  simp [nth, UInt64.ofNat_add]

/-- The next id is not among the issued ones before the counter has gone round. -/
theorem not_issued_nth {n : Nat} (below : n < 2 ^ 64) : ¬ Issued n (nth n) := by
  rintro ⟨k, earlier, same⟩
  have := nth_inj below (by omega) same
  omega

theorem Issued.mono {m n : Nat} {id : ConnectionId} (issued : Issued m id) (le : m ≤ n) :
    Issued n id := by
  obtain ⟨k, earlier, rfl⟩ := issued
  exact ⟨k, by omega, rfl⟩

/-- Before the counter wraps, every issued id is below it. -/
theorem Issued.val_lt {n : Nat} {id : ConnectionId} (issued : Issued n id)
    (below : n + 1 < 2 ^ 64) : id.val < (nth n).val := by
  obtain ⟨k, earlier, rfl⟩ := issued
  rw [UInt64.lt_iff_toNat_lt]
  simp only [nth, UInt64.toNat_ofNat']
  omega

end ConnectionId

namespace Registry

open ConnectionId

/-- The registry's invariant after `n` calls of `add`. -/
structure Consistent (n : Nat) (r : Registry F) : Prop where
  inverts : Index.Inverts r.subscriptionsOf r.byChannel
  nextId : r.nextId = (nth n).val
  issued : ∀ {id conn}, r.connections.lookup id = some conn → Issued n id

namespace Consistent

variable {n : Nat} {r : Registry F}

theorem initial : Consistent 0 (new : Registry F) where
  inverts := Index.Inverts.empty
  nextId := rfl
  issued found := by simp [new] at found

/-- The id the next call of `add` takes is not in use. -/
theorem fresh (inv : Consistent n r) (below : n < 2 ^ 64) :
    r.connections.lookup ⟨r.nextId⟩ = none := by
  rw [inv.nextId]
  by_contra live
  obtain ⟨conn, found⟩ := Option.ne_none_iff_exists'.mp live
  exact not_issued_nth below (inv.issued found)

/-- What one operation preserves. -/
theorem step (inv : Consistent n r) (op : Op F) (below : n + [op].countP Op.isAdd ≤ 2 ^ 64) :
    Consistent (n + [op].countP Op.isAdd) (r.step op).1 := by
  have count : [op].countP Op.isAdd = if op.isAdd then 1 else 0 := by
    cases kind : op.isAdd <;> simp [kind]
  have unused : op.isAdd = true → r.connections.lookup ⟨r.nextId⟩ = none := by
    intro isAdd
    rw [count, if_pos isAdd] at below
    exact inv.fresh (by omega)
  refine ⟨inverts_step inv.inverts op unused, ?_, ?_⟩
  · rw [nextId_step, inv.nextId, count]
    cases op.isAdd with
    | false => rfl
    | true => exact nth_succ n
  · intro id conn found
    rw [lookup_step inv.inverts] at found
    by_cases live : ∃ old, r.connections.lookup id = some old
    · obtain ⟨old, before⟩ := live
      exact (inv.issued before).mono (Nat.le_add_right _ _)
    · -- an entry appears only by the `add` that issues its id
      have absent : r.connections.lookup id = none := by
        by_contra present
        exact live (Option.ne_none_iff_exists'.mp present)
      rw [absent] at found
      cases op with
      | add subject sendQueue =>
          by_cases mine : id = ⟨r.nextId⟩
          · exact ⟨n, by simp [Op.isAdd], by rw [mine, inv.nextId]⟩
          · simp [Op.localTo, mine] at found
      | publish channel frame => simp [Op.localTo, LocalOp.apply] at found
      | broadcast frame => simp [Op.localTo, LocalOp.apply] at found
      | remove i | subscribe i _ _ | unsubscribe i _ | send i _ | recv i | close i =>
          by_cases mine : id = i <;> simp [Op.localTo, mine, LocalOp.apply] at found

/-- What a run preserves, for as long as the ids of its `add` calls are distinct. -/
theorem run (inv : Consistent n r) (ops : List (Op F))
    (below : n + ops.countP Op.isAdd ≤ 2 ^ 64) :
    Consistent (n + ops.countP Op.isAdd) (r.run ops) :=
  (Run.of_foldl (fun r op => (Registry.step r op).1) r ops).invariant_count Op.isAdd (2 ^ 64)
    (fun within inv step => step ▸ inv.step _ within) below inv

/-- Every state reached from the empty registry by at most `2 ^ 64` calls of `add`. -/
theorem of_run (ops : List (Op F)) (below : ops.countP Op.isAdd ≤ 2 ^ 64) :
    Consistent (ops.countP Op.isAdd) (new.run ops) := by
  have reached := initial.run ops (by omega)
  rwa [Nat.zero_add] at reached

/-- The index lists an id under a channel exactly when its connection holds the channel. -/
theorem mem_index_iff (inv : Consistent n r) {ch : String} {id : ConnectionId} :
    (∃ ids, r.byChannel.lookup ch = some ids ∧ id ∈ ids) ↔
      ∃ conn, r.connections.lookup id = some conn ∧ ch ∈ conn.subscriptions := by
  rw [← mem_subscriptionsOf, ← inv.inverts.mem_members]
  unfold Index.members
  cases r.byChannel.lookup ch <;> simp

/-- The subscribers of a channel, counted connection by connection. -/
theorem subscribers_eq (inv : Consistent n r) (ch : String) :
    r.subscribers ch = (r.connections.keys.filter fun id => ch ∈ r.subscriptionsOf id).card := by
  have members : r.byChannel.members ch =
      r.connections.keys.filter fun id => ch ∈ r.subscriptionsOf id := by
    ext id
    rw [inv.inverts.mem_members, Finset.mem_filter, Finmap.mem_keys_iff, mem_subscriptionsOf]
    constructor
    · rintro ⟨conn, found, held⟩
      exact ⟨⟨conn, found⟩, conn, found, held⟩
    · rintro ⟨_, held⟩
      exact held
  rw [← members]
  unfold subscribers Index.members
  cases r.byChannel.lookup ch <;> rfl

end Consistent

/-! ## Runs of `add` alone -/

@[simp] theorem run_nil (r : Registry F) : r.run [] = r := rfl

@[simp] theorem run_cons (r : Registry F) (op : Op F) (ops : List (Op F)) :
    r.run (op :: ops) = (r.step op).1.run ops := rfl

theorem run_append (r : Registry F) (ops ops' : List (Op F)) :
    r.run (ops ++ ops') = (r.run ops).run ops' :=
  List.foldl_append

/-- `n` calls of `add` move the counter by `n`, wrapping, leave the index alone, and overwrite only
the ids they issue. -/
theorem run_adds (r : Registry F) (subject : String) (sendQueue n : Nat) :
    (r.run (List.replicate n (.add subject sendQueue))).nextId = r.nextId + UInt64.ofNat n ∧
    (r.run (List.replicate n (.add subject sendQueue))).byChannel = r.byChannel ∧
    ∀ id, (∀ k < n, id.val ≠ r.nextId + UInt64.ofNat k) →
      (r.run (List.replicate n (.add subject sendQueue))).connections.lookup id =
        r.connections.lookup id := by
  induction n generalizing r with
  | zero => exact ⟨by simp, rfl, fun _ _ => rfl⟩
  | succ n ih =>
      rw [List.replicate_succ, run_cons]
      have moved : (r.step (.add subject sendQueue)).1.nextId = r.nextId + 1 := rfl
      have next : ∀ k, r.nextId + 1 + UInt64.ofNat k = r.nextId + UInt64.ofNat (k + 1) := by
        intro k
        rw [UInt64.ofNat_add, UInt64.add_comm (UInt64.ofNat k), UInt64.add_assoc]
        rfl
      obtain ⟨nextId, byChannel, lookups⟩ := ih (r.step (.add subject sendQueue)).1
      refine ⟨by rw [nextId, moved, next], byChannel, fun id untouched => ?_⟩
      rw [lookups id ?later]
      · change (r.add subject sendQueue).1.connections.lookup id = _
        rw [lookup_add, if_neg]
        rintro rfl
        exact untouched 0 (Nat.succ_pos n) (by simp)
      case later =>
        intro k earlier
        rw [moved, next]
        exact untouched (k + 1) (by omega)

/-- The first id stays in use while the counter goes all the way round behind it. -/
theorem lookup_run_adds_first (subject : String) (sendQueue : Nat) {n : Nat}
    (below : n < 2 ^ 64) :
    ∃ conn, ((new : Registry F).run (List.replicate (n + 1) (.add subject sendQueue))
      ).connections.lookup (nth 0) = some conn := by
  have first : (((new : Registry F).step (.add subject sendQueue)).1).nextId = 2 := rfl
  obtain ⟨-, -, lookups⟩ := run_adds ((new : Registry F).step (.add subject sendQueue)).1
    subject sendQueue n
  rw [List.replicate_succ, run_cons, lookups (nth 0)]
  · exact ⟨_, Finmap.lookup_insert _⟩
  · intro k earlier same
    have values := congrArg UInt64.toNat same
    rw [first] at values
    simp [nth] at values
    omega

/-- **Index agreement over whole runs.**  After any operations with fewer than `2 ^ 64` calls of
`add`, the index and the subscription sets agree, no index entry is empty, the ids are distinct and
the next `add` overwrites nothing, and `subscribers` counts the subscribed connections.  The
counter is above every live id until its last value has been issued. -/
theorem run_index_agreement (ops : List (Op F)) (adds : ops.countP Op.isAdd < 2 ^ 64) :
    (∀ ch id, (∃ ids, (new.run ops).byChannel.lookup ch = some ids ∧ id ∈ ids) ↔
      ∃ conn, (new.run ops).connections.lookup id = some conn ∧ ch ∈ conn.subscriptions) ∧
    (∀ ch ids, (new.run ops).byChannel.lookup ch = some ids → ids ≠ ∅) ∧
    ((new.run ops).connections.entries.keys.Nodup ∧
      (∀ id conn, (new.run ops).connections.lookup id = some conn →
        id ≠ ⟨(new.run ops).nextId⟩ ∧
        (ops.countP Op.isAdd + 1 < 2 ^ 64 → id.val < (new.run ops).nextId)) ∧
      ∀ subject sendQueue id conn, (new.run ops).connections.lookup id = some conn →
        ((new.run ops).add subject sendQueue).1.connections.lookup id = some conn) ∧
    ∀ ch, (new.run ops).subscribers ch =
      ((new.run ops).connections.keys.filter
        fun id => ch ∈ (new.run ops).subscriptionsOf id).card := by
  have inv := Consistent.of_run ops adds.le
  have fresh := inv.fresh adds
  have unused : ∀ id conn, (new.run ops).connections.lookup id = some conn →
      id ≠ ⟨(new.run ops).nextId⟩ := by
    intro id conn found same
    rw [same, fresh] at found
    cases found
  refine ⟨fun ch id => inv.mem_index_iff, fun ch ids found => inv.inverts.nonempty found,
    ⟨Multiset.nodup_keys.mpr (new.run ops).connections.nodupKeys, fun id conn found => ?_, ?_⟩,
    inv.subscribers_eq⟩
  · refine ⟨unused id conn found, fun below => ?_⟩
    rw [inv.nextId]
    exact (inv.issued found).val_lt below
  · intro subject sendQueue id conn found
    rw [lookup_add, if_neg (unused id conn found), found]

/-- Two connections share a channel, one leaves it again and one is removed. -/
theorem run_index_agreement_shared :
    ([.add "a" 1, .add "b" 1, .subscribe ⟨1⟩ ["x", "y", "x"] 2, .subscribe ⟨2⟩ ["x"] 2,
      .unsubscribe ⟨1⟩ ["x", "z"], .remove ⟨2⟩] : List (Op String)).countP Op.isAdd < 2 ^ 64 ∧
    ∀ ch ids, (new.run ([.add "a" 1, .add "b" 1, .subscribe ⟨1⟩ ["x", "y", "x"] 2,
      .subscribe ⟨2⟩ ["x"] 2, .unsubscribe ⟨1⟩ ["x", "z"], .remove ⟨2⟩] : List (Op String))
      ).byChannel.lookup ch = some ids → ids ≠ ∅ :=
  ⟨by decide, (run_index_agreement _ (by decide)).2.1⟩

/-- After `2 ^ 64 - 1` calls of `add` the counter has wrapped to zero while the first connection is
still registered, so its id is not below the counter. -/
theorem run_index_agreement_last_id :
    (List.replicate (2 ^ 64 - 1) (Op.add "a" 1 : Op String)).countP Op.isAdd < 2 ^ 64 ∧
    ∃ id conn, (new.run (List.replicate (2 ^ 64 - 1) (Op.add "a" 1 : Op String))
        ).connections.lookup id = some conn ∧
      ¬ id.val < (new.run (List.replicate (2 ^ 64 - 1) (Op.add "a" 1 : Op String))).nextId := by
  refine ⟨?_, nth 0, ?_⟩
  · rw [List.countP_replicate]
    simp [Op.isAdd]
  · obtain ⟨conn, found⟩ :=
      lookup_run_adds_first (F := String) "a" 1 (n := 2 ^ 64 - 2) (by omega)
    refine ⟨conn, found, ?_⟩
    rw [(run_adds new "a" 1 (2 ^ 64 - 1)).1]
    decide

end Registry

end WsFanout
