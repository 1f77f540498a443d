import WsFanout.RegistryWrap

/-!
# Connections are isolated from each other

A connection's fate is decided by its own operations and by the publishes and broadcasts, in their
order.  `Registry.history` extracts these from a run, from the `add` that issues the connection's
id on; what other connections do, how many there are and how full their queues are is not in it.
`Registry.isolated`: two runs with the same history leave the same connection and handed the same
frames to its receiver, whatever id each run gave it.
-/

namespace WsFanout

open Lib

variable {F : Type}

/-- The operation as the connection `id` sees it once it is registered.  Every later `add` is
another connection's. -/
def Op.seenBy (id : ConnectionId) : Op F → Option (LocalOp F)
  | .add _ _ => none
  | .remove i => if id = i then some .remove else none
  | .subscribe i channels max => if id = i then some (.subscribe channels max) else none
  | .unsubscribe i channels => if id = i then some (.unsubscribe channels) else none
  | .publish channel frame => some (.publish channel frame)
  | .broadcast frame => some (.broadcast frame)
  | .send i frame => if id = i then some (.send frame) else none
  | .recv i => if id = i then some .recv else none
  | .close i => if id = i then some .close else none

/-- The operation is the receiver of `id` taking a frame. -/
def Op.takesFrom (id : ConnectionId) : Op F → Bool
  | .recv i => id = i
  | _ => false

/-- The frame a taking receiver got. -/
def Reply.frames : Reply F → List F
  | .taken (.frame frame) => [frame]
  | _ => []

/-- The frame the receiver gets when the connection sees this. -/
def LocalOp.taken : LocalOp F → Option (Connection F) → List F
  | .recv, some conn => conn.tx.buffer.head?.toList
  | _, _ => []

/-- The frames the receiver gets over a history. -/
def LocalOp.takenOver : Option (Connection F) → List (LocalOp F) → List F
  | _, [] => []
  | entry, seen :: rest => seen.taken entry ++ takenOver (seen.apply entry) rest

theorem LocalOp.apply_none {seen : LocalOp F} (notAdd : ∀ s q, seen ≠ .add s q) :
    seen.apply none = none := by
  cases seen with
  | add s q => exact (notAdd s q rfl).elim
  | _ => rfl

theorem LocalOp.taken_none (seen : LocalOp F) : seen.taken none = [] := by
  cases seen <;> rfl

namespace Registry

/-- What the connection `id` lives through: its own `add`, then everything it sees. -/
def history (id : ConnectionId) : UInt64 → List (Op F) → List (LocalOp F)
  | _, [] => []
  | next, .add subject sendQueue :: ops =>
    if id = ⟨next⟩ then .add subject sendQueue :: ops.filterMap (Op.seenBy id)
    else history id (next + 1) ops
  | next, _ :: ops => history id next ops

/-- The frames the receiver of `id` gets over a run. -/
def takenBy (id : ConnectionId) : Registry F → List (Op F) → List F
  | _, [] => []
  | r, op :: ops =>
    (if op.takesFrom id then (r.step op).2.frames else []) ++ takenBy id (r.step op).1 ops

/-- The receiver gets what the connection's own entry has for it. -/
theorem takenBy_cons (id : ConnectionId) (r : Registry F) (op : Op F) (ops : List (Op F)) :
    takenBy id r (op :: ops) =
      (match op.seenBy id with
        | none => []
        | some seen => seen.taken (r.connections.lookup id)) ++ takenBy id (r.step op).1 ops := by
  rw [takenBy]
  congr 1
  cases op with
  | recv i =>
      rcases eq_or_ne id i with rfl | mine
      · simp only [Op.takesFrom, Op.seenBy, Registry.step, (recv_spec r id).2.2.2]
        cases r.connections.lookup id with
        | none => simp [LocalOp.taken, Reply.frames]
        | some conn =>
            simp only [BoundedQueue.recv]
            cases held : conn.tx.buffer <;> simp [LocalOp.taken, Reply.frames, held]
      · simp [Op.takesFrom, Op.seenBy, mine]
  | add _ _ | publish _ _ | broadcast _ => rfl
  | remove i | subscribe i _ _ | unsubscribe i _ | send i _ | close i =>
      by_cases mine : id = i <;> simp [Op.takesFrom, Op.seenBy, mine, LocalOp.taken]

/-- An operation that is not the connection's own `add` reaches it as `seenBy` says, as long as the
id is not issued again. -/
theorem lookup_step_seenBy {r : Registry F}
    (inverts : Index.Inverts r.subscriptionsOf r.byChannel) (op : Op F) {id : ConnectionId}
    (other : op.isAdd = true → id ≠ ⟨r.nextId⟩) :
    (r.step op).1.connections.lookup id =
      match op.seenBy id with
      | none => r.connections.lookup id
      | some seen => seen.apply (r.connections.lookup id) := by
  rw [lookup_step inverts]
  cases op with
  | add subject sendQueue => simp [Op.localTo, Op.seenBy, other rfl]
  | _ => rfl

/-- From a state in which `id` is issued, its entry and what its receiver gets depend on what it
sees only. -/
theorem run_after_add {n : Nat} {r : Registry F} (inv : Consistent n r) (ops : List (Op F))
    (below : n + ops.countP Op.isAdd ≤ 2 ^ 64) {id : ConnectionId}
    (issued : ConnectionId.Issued n id) :
    (r.run ops).connections.lookup id =
        (ops.filterMap (Op.seenBy id)).foldl (fun entry seen => seen.apply entry)
          (r.connections.lookup id) ∧
      takenBy id r ops =
        LocalOp.takenOver (r.connections.lookup id) (ops.filterMap (Op.seenBy id)) := by
  induction ops generalizing n r with
  | nil => exact ⟨rfl, rfl⟩
  | cons op ops ih =>
      have split : (op :: ops).countP Op.isAdd =
          [op].countP Op.isAdd + ops.countP Op.isAdd := by
        rw [← List.countP_append, List.singleton_append]
      rw [split] at below
      have other : op.isAdd = true → id ≠ ⟨r.nextId⟩ := by
        rintro isAdd rfl
        rw [List.countP_singleton, if_pos isAdd] at below
        rw [inv.nextId] at issued
        exact ConnectionId.not_issued_nth (by omega) issued
      obtain ⟨entry, taken⟩ := ih (inv.step op (by omega)) (by omega)
        (issued.mono (Nat.le_add_right _ _))
      rw [run_cons, entry, takenBy_cons, taken, lookup_step_seenBy inv.inverts op other]
      cases seen : op.seenBy id with
      | none =>
          rw [List.filterMap_cons_none seen]
          exact ⟨rfl, rfl⟩
      | some l =>
          rw [List.filterMap_cons_some seen]
          exact ⟨rfl, rfl⟩

theorem history_cons {id : ConnectionId} {next : UInt64} {op : Op F}
    (other : op.isAdd = true → id ≠ ⟨next⟩) (ops : List (Op F)) :
    history id next (op :: ops) =
      history id (if op.isAdd then next + 1 else next) ops := by
  cases op with
  | add subject sendQueue => simp [history, Op.isAdd, other rfl]
  | _ => rfl

/-- Over a whole run, the entry of `id` and what its receiver gets depend on its history only. -/
theorem run_eq_history {n : Nat} {r : Registry F} (inv : Consistent n r) (ops : List (Op F))
    (below : n + ops.countP Op.isAdd ≤ 2 ^ 64) {id : ConnectionId}
    (absent : r.connections.lookup id = none) :
    (r.run ops).connections.lookup id =
        (history id r.nextId ops).foldl (fun entry seen => seen.apply entry) none ∧
      takenBy id r ops = LocalOp.takenOver none (history id r.nextId ops) := by
  induction ops generalizing n r with
  | nil => exact ⟨absent, rfl⟩
  | cons op ops ih =>
      have split : (op :: ops).countP Op.isAdd =
          [op].countP Op.isAdd + ops.countP Op.isAdd := by
        rw [← List.countP_append, List.singleton_append]
      rw [split] at below
      have inv' := inv.step op (by omega)
      by_cases own : op.isAdd = true ∧ id = ⟨r.nextId⟩
      · -- the `add` that issues the id: from here on the history is what it sees
        obtain ⟨isAdd, rfl⟩ := own
        cases op with
        | add subject sendQueue =>
            obtain ⟨entry, taken⟩ := run_after_add inv' ops (by omega)
              (⟨n, by simp [Op.isAdd], by rw [inv.nextId]⟩ : ConnectionId.Issued _ ⟨r.nextId⟩)
            have joined : (r.step (.add subject sendQueue)).1.connections.lookup ⟨r.nextId⟩ =
                (LocalOp.add subject sendQueue).apply none := by
              change (r.add subject sendQueue).1.connections.lookup ⟨r.nextId⟩ = _
              rw [lookup_add, if_pos rfl]
              rfl
            rw [run_cons, entry, takenBy_cons, taken, joined]
            simp only [history, ↓reduceIte]
            exact ⟨rfl, rfl⟩
        | _ => cases isAdd
      · have other : op.isAdd = true → id ≠ ⟨r.nextId⟩ := fun isAdd same => own ⟨isAdd, same⟩
        have still : (r.step op).1.connections.lookup id = none := by
          rw [lookup_step_seenBy inv.inverts op other, absent]
          cases seen : op.seenBy id with
          | none => rfl
          | some l =>
              refine LocalOp.apply_none fun s q => ?_
              rintro rfl
              cases op with
              | add _ _ | publish _ _ | broadcast _ => cases seen
              | remove i | subscribe i _ _ | unsubscribe i _ | send i _ | recv i | close i =>
                  by_cases mine : id = i <;> simp [Op.seenBy, mine] at seen
        obtain ⟨entry, taken⟩ := ih inv' (by omega) still
        rw [nextId_step] at entry taken
        rw [run_cons, entry, takenBy_cons, taken, history_cons other, absent]
        refine ⟨rfl, ?_⟩
        cases op.seenBy id with
        | none => rfl
        | some l => simp [l.taken_none]

/-- **Connections are isolated.**  Two runs, each with at most `2 ^ 64` calls of `add`, in which a
connection has the same operations of its own and sees the same publishes and broadcasts in the
same order leave it with the same subscriptions, queue and drop streak, and its receiver has taken
the same frames.  The runs may differ in everything else. -/
theorem isolated (ops ops' : List (Op F)) (adds : ops.countP Op.isAdd ≤ 2 ^ 64)
    (adds' : ops'.countP Op.isAdd ≤ 2 ^ 64) (b b' : ConnectionId)
    (same : history b 1 ops = history b' 1 ops') :
    (new.run ops).connections.lookup b = (new.run ops').connections.lookup b' ∧
      takenBy b new ops = takenBy b' new ops' := by
  obtain ⟨entry, taken⟩ :=
    run_eq_history (Consistent.initial (F := F)) ops (by omega) (Finmap.lookup_empty b)
  obtain ⟨entry', taken'⟩ :=
    run_eq_history (Consistent.initial (F := F)) ops' (by omega) (Finmap.lookup_empty b')
  have start : (new : Registry F).nextId = 1 := rfl
  rw [start] at entry taken entry' taken'
  rw [entry, entry', taken, taken', same]
  exact ⟨rfl, rfl⟩

/-- A connection alone, and the same connection beside a full one that is then removed. -/
theorem isolated_beside_full :
    history ⟨1⟩ 1 ([.add "b" 2, .subscribe ⟨1⟩ ["x"] 9, .publish "x" "1", .recv ⟨1⟩,
        .publish "x" "2"] : List (Op String)) =
      history ⟨2⟩ 1 ([.add "a" 0, .add "b" 2, .subscribe ⟨1⟩ ["x"] 9, .subscribe ⟨2⟩ ["x"] 9,
        .publish "x" "1", .send ⟨1⟩ "3", .recv ⟨2⟩, .remove ⟨1⟩,
        .publish "x" "2"] : List (Op String)) ∧
    takenBy ⟨2⟩ new ([.add "a" 0, .add "b" 2, .subscribe ⟨1⟩ ["x"] 9, .subscribe ⟨2⟩ ["x"] 9,
        .publish "x" "1", .send ⟨1⟩ "3", .recv ⟨2⟩, .remove ⟨1⟩,
        .publish "x" "2"] : List (Op String)) = ["1"] :=
  ⟨by decide, (isolated _ [.add "b" 2, .subscribe ⟨1⟩ ["x"] 9, .publish "x" "1", .recv ⟨1⟩,
    .publish "x" "2"] (by decide) (by decide) ⟨2⟩ ⟨1⟩ (by decide)).2⟩

theorem history_crowdOps (n : Nat) :
    history ⟨1⟩ 1 (crowdOps n : List (Op F)) = history ⟨1⟩ 1 joinOps := by
  have others : (List.replicate n (.add "b" 1) ++ [.add "b" 1] : List (Op F)).filterMap
      (Op.seenBy ⟨1⟩) = [] := by
    rw [List.filterMap_eq_nil_iff]
    intro op mem
    rcases List.mem_append.mp mem with repeated | last
    · rw [List.eq_of_mem_replicate repeated]
      rfl
    · rw [List.mem_singleton.mp last]
      rfl
  simp only [crowdOps, joinOps, List.cons_append, List.nil_append, history, ↓reduceIte]
  have own : Op.seenBy ⟨1⟩ (.subscribe ⟨1⟩ ["x"] 1 : Op F) = some (.subscribe ["x"] 1) := rfl
  rw [List.filterMap_cons_some own, List.filterMap_cons_some own, others, List.filterMap_nil]

/-- Once the counter has gone round, another connection's `add` wipes out the first one. -/
theorem isolated_wrapped :
    history ⟨1⟩ 1 (wrapOps : List (Op String)) = history ⟨1⟩ 1 joinOps ∧
      (new.run (wrapOps : List (Op String))).connections.lookup ⟨1⟩ ≠
        (new.run (joinOps : List (Op String))).connections.lookup ⟨1⟩ := by
  refine ⟨history_crowdOps _, ?_⟩
  rw [run_wrapOps.1]
  decide

end Registry

end WsFanout
