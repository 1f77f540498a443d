import WsFanout.RegistryThreads

/-!
# Every interleaving of the registry's calls

`Threads.Sound` is the invariant of the registry at the grain of its lock: the index agrees with the
subscription sets, the ids that calls of `add` have taken and not used yet are unregistered, and
under the read lock the connections a delivering call has yet to visit stay what they were.
`Threads.run_safe` states it for every interleaving.  `Threads.run_alone` is the connection with the
registry whose calls are single steps: a call that nobody interrupts does the same.
-/

namespace WsFanout

open Lib ConnectionId

variable {F : Type}

namespace Call

/-- A call that visits holds the read lock. -/
theorem reads_of_fanOut? {c : Call F} {op : Op F} {rest : Finset ConnectionId}
    (fans : c.fanOut? = some (op, rest)) : c.reads = true := by
  cases c with
  | visiting _ _ _ | tallying _ _ _ _ _ | marking _ _ _ _ _ => rfl
  | adding _ _ _ | totalling _ | activating _ | done => cases fans

theorem fanOut?_visited (d : Delivery F) (rest : Finset ConnectionId) (delivered : Nat)
    (id : ConnectionId) (outcome : Option TrySend) :
    (visited d rest delivered id outcome).fanOut? = some (d.op, rest) := by
  cases outcome with
  | none => rfl
  | some outcome => cases outcome <;> rfl

theorem awaits?_visited (d : Delivery F) (rest : Finset ConnectionId) (delivered : Nat)
    (id : ConnectionId) (outcome : Option TrySend) :
    (visited d rest delivered id outcome).awaits? = none := by
  cases outcome with
  | none => rfl
  | some outcome => cases outcome <;> rfl

theorem ahead_of_fanOut? {c : Call F} {op : Op F} {rest : Finset ConnectionId}
    (fans : c.fanOut? = some (op, rest)) : c.ahead = rest := by
  cases c with
  | visiting _ _ _ | tallying _ _ _ _ _ | marking _ _ _ _ _ =>
      cases fans
      rfl
  | adding _ _ _ | totalling _ | activating _ | done => cases fans

end Call

namespace Registry.Consistent

variable {n : Nat} {r : Registry F}

/-- `add` takes its id. -/
theorem issue (inv : Consistent n r) :
    Consistent (n + 1) { r with nextId := r.nextId + 1 } where
  inverts := inv.inverts
  nextId := by
    change r.nextId + 1 = _
    rw [inv.nextId, nth_succ]
  issued found := (inv.issued found).mono (Nat.le_succ n)

/-- `add` inserts under an id taken before. -/
theorem enter (inv : Consistent n r) {id : ConnectionId} (issued : Issued n id)
    (absent : r.connections.lookup id = none) (subject : String) (sendQueue : Nat) :
    Consistent n (r.enter id subject sendQueue) where
  inverts := by
    have empty : (r.enter id subject sendQueue).subscriptionsOf = r.subscriptionsOf := by
      rw [subscriptionsOf_insert rfl]
      exact Function.update_eq_self_iff.mpr (by simp [subscriptionsOf, absent])
    rw [empty]
    exact inv.inverts
  nextId := inv.nextId
  issued {other conn} found := by
    change (r.connections.insert id _).lookup other = some conn at found
    rw [Finmap.lookup_insert_ite] at found
    split at found
    · next same => exact same ▸ issued
    · exact inv.issued found

/-- A counter moves. -/
theorem counted (inv : Consistent n r) (m : Metrics) : Consistent n { r with metrics := m } where
  inverts := inv.inverts
  nextId := inv.nextId
  issued found := inv.issued found

/-- A queue or a streak changes. -/
theorem alter (inv : Consistent n r) (id : ConnectionId) {f : Connection F → Connection F}
    (kept : ∀ conn, (f conn).subscriptions = conn.subscriptions) : Consistent n (r.alter id f) where
  inverts := by
    rw [subscriptionsOf_alter r id kept]
    exact inv.inverts
  nextId := inv.nextId
  issued {other conn} found := by
    have listed : other ∈ (r.alter id f).connections.keys := Finmap.mem_keys_iff.mpr ⟨conn, found⟩
    rw [keys_alter, Finmap.mem_keys_iff] at listed
    obtain ⟨old, before⟩ := listed
    exact inv.issued before

end Registry.Consistent

namespace Registry

/-- Under the read lock the targets stay what they were. -/
theorem targets_alter (r : Registry F) (id : ConnectionId) (f : Connection F → Connection F)
    (op : Op F) : (r.alter id f).targets op = r.targets op := by
  cases op with
  | broadcast frame => exact keys_alter r id f
  | publish _ _ | send _ _ | add _ _ | remove _ | subscribe _ _ _ | unsubscribe _ _ | recv _
  | close _ => rfl

/-- A receiver's action keeps the targets of every call. -/
theorem targets_step_ofReceiver (r : Registry F) {op : Op F} (receiver : op.ofReceiver = true)
    (other : Op F) : (r.step op).1.targets other = r.targets other := by
  have both : (r.step op).1.connections.keys = r.connections.keys ∧
      (r.step op).1.byChannel = r.byChannel := by
    cases op with
    | recv id => exact ⟨keys_step r (.recv id), (recv_frame r id).1⟩
    | close id => exact ⟨keys_step r (.close id), (close_frame r id).1⟩
    | add _ _ | remove _ | subscribe _ _ _ | unsubscribe _ _ | publish _ _ | broadcast _
    | send _ _ => cases receiver
  cases other with
  | publish channel frame => exact congrArg (Index.members · channel) both.2
  | broadcast frame => exact both.1
  | send _ _ | add _ _ | remove _ | subscribe _ _ _ | unsubscribe _ _ | recv _ | close _ => rfl

/-- Only `add` registers an id. -/
theorem absent_step {r : Registry F} {op : Op F} (notAdd : op.isAdd = false) {id : ConnectionId}
    (absent : r.connections.lookup id = none) : (r.step op).1.connections.lookup id = none := by
  have outside : id ∉ r.connections.keys := by simp [Finmap.mem_keys_iff, absent]
  have after : id ∉ (r.step op).1.connections.keys := by
    rw [keys_step]
    cases op with
    | add _ _ => cases notAdd
    | remove i => exact fun listed => outside (Finset.mem_of_mem_erase listed)
    | subscribe _ _ _ | unsubscribe _ _ | publish _ _ | broadcast _ | send _ _ | recv _
    | close _ => exact outside
  exact Finmap.lookup_eq_none.mpr (mt Finmap.mem_keys.mpr after)

end Registry

namespace Threads

open Registry

/-- The invariant of all interleavings, when `n` ids were taken: the registry is consistent, the ids
that calls of `add` hold are taken, unregistered and different, and what a delivering call has yet
to visit is still among its targets. -/
structure Sound (n : Nat) (s : Threads F) : Prop where
  consistent : s.registry.Consistent n
  waiting : ∀ {k : Nat} {c : Call F} {id}, s.calls[k]? = some c → c.awaits? = some id →
    Issued n id ∧ s.registry.connections.lookup id = none
  apart : ∀ {j k : Nat} {b c : Call F} {id}, s.calls[j]? = some b → s.calls[k]? = some c →
    b.awaits? = some id → c.awaits? = some id → j = k
  held : ∀ {k : Nat} {c : Call F} {op rest}, s.calls[k]? = some c → c.fanOut? = some (op, rest) →
    rest ⊆ s.registry.targets op

namespace Sound

variable {n : Nat} {s t : Threads F}

theorem start : Sound 0 (start : Threads F) where
  consistent := Consistent.initial
  waiting found := by cases found
  apart found := by cases found
  held found := by cases found

/-- While nobody holds the read lock, nobody has a connection left to visit. -/
theorem unvisited (lock : s.Unlocked) {k : Nat} {c : Call F} (found : s.calls[k]? = some c)
    {op : Op F} {rest : Finset ConnectionId} : c.fanOut? ≠ some (op, rest) := by
  intro fans
  have reading := lock c (List.mem_of_getElem? found)
  rw [Call.reads_of_fanOut? fans] at reading
  cases reading

/-- A call moves on without waiting for an id, and visits no more than it had left. -/
theorem advance (inv : Sound n s) {k : Nat} {c : Call F} (c' : Call F)
    (found : s.calls[k]? = some c) (idle : c'.awaits? = none)
    (left : ∀ {op rest'}, c'.fanOut? = some (op, rest') →
      ∃ rest, c.fanOut? = some (op, rest) ∧ rest' ⊆ rest) :
    Sound n { s with calls := s.calls.set k c' } where
  consistent := inv.consistent
  waiting here waits := by
    rcases Tickets.of_set here with ⟨rfl, rfl⟩ | ⟨-, old⟩
    · rw [idle] at waits
      cases waits
    · exact inv.waiting old waits
  apart {i j b d id} here there first second := by
    rcases Tickets.of_set here with ⟨-, rfl⟩ | ⟨-, old⟩
    · rw [idle] at first
      cases first
    · rcases Tickets.of_set there with ⟨-, rfl⟩ | ⟨-, old'⟩
      · rw [idle] at second
        cases second
      · exact inv.apart old old' first second
  held here fans := by
    rcases Tickets.of_set here with ⟨rfl, rfl⟩ | ⟨-, old⟩
    · obtain ⟨rest, before, fewer⟩ := left fans
      exact fewer.trans (inv.held found before)
    · exact inv.held old fans

/-- A call begins that waits for no id. -/
theorem join (inv : Sound n s) {c : Call F} (idle : c.awaits? = none)
    (left : ∀ {op rest}, c.fanOut? = some (op, rest) → rest ⊆ s.registry.targets op) :
    Sound n { s with calls := s.calls ++ [c] } where
  consistent := inv.consistent
  waiting here waits := by
    rcases Tickets.of_concat here with ⟨rfl, rfl⟩ | ⟨-, old⟩
    · rw [idle] at waits
      cases waits
    · exact inv.waiting old waits
  apart {i j b d id} here there first second := by
    rcases Tickets.of_concat here with ⟨rfl, rfl⟩ | ⟨-, old⟩
    · rw [idle] at first
      cases first
    · rcases Tickets.of_concat there with ⟨rfl, rfl⟩ | ⟨-, old'⟩
      · rw [idle] at second
        cases second
      · exact inv.apart old old' first second
  held here fans := by
    rcases Tickets.of_concat here with ⟨rfl, rfl⟩ | ⟨-, old⟩
    · exact left fans
    · exact inv.held old fans

/-- The registry changes under the calls: it registers no id that is waited for, and keeps the
targets of whoever is visiting. -/
theorem moved (inv : Sound n s) {r : Registry F} (consistent : r.Consistent n)
    (absent : ∀ {k : Nat} {c : Call F} {id}, s.calls[k]? = some c → c.awaits? = some id →
      r.connections.lookup id = none)
    (kept : ∀ {k : Nat} {c : Call F} {op rest}, s.calls[k]? = some c → c.fanOut? = some (op, rest) →
      r.targets op = s.registry.targets op) :
    Sound n { s with registry := r } where
  consistent := consistent
  waiting here waits := ⟨(inv.waiting here waits).1, absent here waits⟩
  apart := inv.apart
  held here fans := by
    change _ ⊆ r.targets _
    rw [kept here fans]
    exact inv.held here fans

/-- One connection changes its queue or its streak. -/
theorem altered (inv : Sound n s) (id : ConnectionId) {f : Connection F → Connection F}
    (kept : ∀ conn, (f conn).subscriptions = conn.subscriptions) :
    Sound n { s with registry := s.registry.alter id f } := by
  refine inv.moved (inv.consistent.alter id kept) (fun here waits => ?_)
    fun _ _ => targets_alter s.registry id f _
  rw [lookup_alter, (inv.waiting here waits).2]
  split
  · next same => rw [← same, (inv.waiting here waits).2, Option.map_none]
  · rfl

/-- One step of one call keeps the invariant, as long as the ids have not run out. -/
theorem step {a : Action F} (inv : Sound n s) (step : Step s a t)
    (below : n + [a].countP Action.isIssue ≤ 2 ^ 64) :
    Sound (n + [a].countP Action.isIssue) t := by
  cases step with
  | issue subject sendQueue =>
      have room : n < 2 ^ 64 := below
      have fresh := inv.consistent.fresh room
      have unissued : ¬ Issued n ⟨s.registry.nextId⟩ := by
        rw [inv.consistent.nextId]
        exact not_issued_nth room
      refine ⟨inv.consistent.issue, ?_, ?_, ?_⟩
      · intro k c id here waits
        rcases Tickets.of_concat here with ⟨-, rfl⟩ | ⟨-, old⟩
        · cases waits
          exact ⟨⟨n, Nat.lt_succ_self n, by rw [inv.consistent.nextId]⟩, fresh⟩
        · obtain ⟨issued, absent⟩ := inv.waiting old waits
          exact ⟨issued.mono (Nat.le_succ n), absent⟩
      · intro j k b c id here there first second
        rcases Tickets.of_concat here with ⟨rfl, rfl⟩ | ⟨-, old⟩
        · rcases Tickets.of_concat there with ⟨rfl, -⟩ | ⟨-, old'⟩
          · rfl
          · cases first
            exact absurd (inv.waiting old' second).1 unissued
        · rcases Tickets.of_concat there with ⟨rfl, rfl⟩ | ⟨-, old'⟩
          · cases second
            exact absurd (inv.waiting old first).1 unissued
          · exact inv.apart old old' first second
      · intro k c op rest here fans
        rcases Tickets.of_concat here with ⟨-, rfl⟩ | ⟨-, old⟩
        · cases fans
        · cases op <;> exact inv.held old fans
  | @insert k subject sendQueue id found lock =>
      have moved := inv.advance (.totalling id) found rfl fun fans => by cases fans
      obtain ⟨issued, absent⟩ := inv.waiting found rfl
      refine moved.moved (inv.consistent.enter issued absent subject sendQueue) ?_ ?_
      · intro j c other here waits
        change (s.registry.connections.insert id _).lookup other = none
        rw [Finmap.lookup_insert_ite]
        rcases Tickets.of_set here with ⟨-, rfl⟩ | ⟨differs, old⟩
        · cases waits
        · rw [if_neg]
          · exact (inv.waiting old waits).2
          · rintro rfl
            exact differs (inv.apart old found waits rfl)
      · intro j c op rest here fans
        rcases Tickets.of_set here with ⟨-, rfl⟩ | ⟨-, old⟩
        · cases fans
        · exact absurd fans (unvisited lock old)
  | total found =>
      refine (inv.advance _ found rfl fun fans => by cases fans).moved (inv.consistent.counted _)
        (fun here waits => ?_) fun {_ _ op _} _ _ => by cases op <;> rfl
      rcases Tickets.of_set here with ⟨-, rfl⟩ | ⟨-, old⟩
      · cases waits
      · exact (inv.waiting old waits).2
  | activate found =>
      refine (inv.advance _ found rfl fun fans => by cases fans).moved (inv.consistent.counted _)
        (fun here waits => ?_) fun {_ _ op _} _ _ => by cases op <;> rfl
      rcases Tickets.of_set here with ⟨-, rfl⟩ | ⟨-, old⟩
      · cases waits
      · exact (inv.waiting old waits).2
  | whole op silent notAdd lock =>
      have none : [op].countP Op.isAdd = 0 := by simp [notAdd]
      have consistent := inv.consistent.step op (by rw [none]; exact below)
      rw [none] at consistent
      refine (inv.moved (r := (s.registry.step op).1) consistent ?_ ?_).join rfl
        fun fans => by cases fans
      · exact fun here waits => absent_step notAdd (inv.waiting here waits).2
      · intro k c other rest here fans
        cases receiver : op.ofReceiver with
        | true => exact targets_step_ofReceiver s.registry receiver other
        | false => exact absurd fans (unvisited (lock receiver) here)
  | begin d =>
      refine inv.join rfl fun fans => ?_
      cases fans
      exact Finset.Subset.refl _
  | @visit k d rest delivered id found ahead =>
      have moved := inv.altered id
        (f := fun conn => { conn with tx := (conn.tx.trySend d.frame).1 }) fun _ => rfl
      refine moved.advance _ found (Call.awaits?_visited _ _ _ _ _) fun fans => ?_
      rw [Call.fanOut?_visited] at fans
      cases fans
      exact ⟨rest, rfl, Finset.erase_subset id rest⟩
  | tally found =>
      refine (inv.advance _ found rfl fun fans => ?_).moved (inv.consistent.counted _)
        (fun here waits => ?_) fun {_ _ op _} _ _ => by cases op <;> rfl
      · cases fans
        exact ⟨_, rfl, Finset.Subset.refl _⟩
      · rcases Tickets.of_set here with ⟨-, rfl⟩ | ⟨-, old⟩
        · cases waits
        · exact (inv.waiting old waits).2
  | @mark k d rest delivered id outcome found =>
      have moved := inv.altered id (f := fun conn => { conn with dropped := conn.streak outcome })
        fun _ => rfl
      refine moved.advance (.visiting _ _ _) found rfl fun fans => ?_
      cases fans
      exact ⟨_, rfl, Finset.Subset.refl _⟩
  | finish found => exact inv.advance _ found rfl fun fans => by cases fans

/-- The steps of a run that takes at most `2 ^ 64` ids all start with the invariant. -/
theorem guarded {as : List (Action F)} (run : Run Step Threads.start as s)
    (below : as.countP Action.isIssue ≤ 2 ^ 64) :
    Run (fun s a t => Step s a t ∧ ∃ n, n + [a].countP Action.isIssue ≤ 2 ^ 64 ∧ Sound n s)
      Threads.start as s :=
  run.guarded Action.isIssue (2 ^ 64) (fun within inv step => inv.step step within) (by omega) start

/-- Every run that takes at most `2 ^ 64` ids keeps the invariant. -/
theorem of_run {as : List (Action F)} (run : Run Step Threads.start as s)
    (below : as.countP Action.isIssue ≤ 2 ^ 64) : Sound (as.countP Action.isIssue) s := by
  have reached := run.invariant_count Action.isIssue (2 ^ 64)
    (fun within inv step => inv.step step within) (by omega) start
  rwa [Nat.zero_add] at reached

end Sound

/-- **The registry under every interleaving.**  With at most `2 ^ 64` calls of `add`: the channel
index and the subscription sets agree and no index entry is empty; an `add` inserts where nothing is
registered, however long ago it took its id; and what a delivering call has yet to visit is still
what it would look up. -/
theorem run_safe {as : List (Action F)} {s : Threads F} (run : Run Step start as s)
    (ids : as.countP Action.isIssue ≤ 2 ^ 64) :
    (∀ ch id, (∃ ids, s.registry.byChannel.lookup ch = some ids ∧ id ∈ ids) ↔
      ∃ conn, s.registry.connections.lookup id = some conn ∧ ch ∈ conn.subscriptions) ∧
    (∀ ch ids, s.registry.byChannel.lookup ch = some ids → ids ≠ ∅) ∧
    (∀ k subject sendQueue id t, Step s (.insert k subject sendQueue id) t →
      s.registry.connections.lookup id = none) ∧
    ∀ (k : Nat) (c : Call F) op rest, s.calls[k]? = some c → c.fanOut? = some (op, rest) →
      rest ⊆ s.registry.targets op := by
  have sound := Sound.of_run run ids
  refine ⟨fun ch id => sound.consistent.mem_index_iff,
    fun ch ids found => sound.consistent.inverts.nonempty found, ?_,
    fun k c op rest found fans => sound.held found fans⟩
  intro k subject sendQueue id t step
  cases step with
  | insert found lock => exact (sound.waiting found rfl).2

/-- A publication and a message to the same connection overlap, its queue has room for one of them,
and the connection is removed after both have returned. -/
def overlap : List (Action String) :=
  [.issue 0 "a" 1, .insert 0 "a" 1 ⟨1⟩, .total 0, .activate 0,
    .whole 1 (.subscribe ⟨1⟩ ["ch"] 1) (.subscribed ["ch"] []),
    .begin 2 (.publish "ch" "x") {⟨1⟩}, .begin 3 (.send ⟨1⟩ "y") {⟨1⟩},
    .visit 3 (.send ⟨1⟩ "y") ⟨1⟩ (some .ok), .visit 2 (.publish "ch" "x") ⟨1⟩ (some .full),
    .tally 2 .full, .tally 3 .ok, .mark 3 ⟨1⟩ .ok, .mark 2 ⟨1⟩ .full, .finish 2 0, .finish 3 1,
    .whole 4 (.remove ⟨1⟩) .unit]

theorem overlap_computed : ∃ s, overlap.foldlM exec start = some s :=
  Option.isSome_iff_exists.mp (by decide)

/-- The overlap is an interleaving, and leaves no index entry behind. -/
theorem run_safe_overlap :
    ∃ s, Run Step start overlap s ∧ overlap.countP Action.isIssue ≤ 2 ^ 64 ∧
      ∀ ch ids, s.registry.byChannel.lookup ch = some ids → ids ≠ ∅ := by
  obtain ⟨s, computed⟩ := overlap_computed
  have run := Run.of_foldlM step_of_exec computed
  exact ⟨s, run, by decide, (run_safe run (by decide)).2.1⟩

/-! ## A call that nobody interrupts -/

theorem push_of_none {r : Registry F} {id : ConnectionId}
    (absent : r.connections.lookup id = none) (frame : F) : r.push id frame = r := by
  simp [push, alter, absent]

/-- A closed queue is left as it was. -/
theorem push_of_closed {r : Registry F} {id : ConnectionId} {conn : Connection F} {frame : F}
    (found : r.connections.lookup id = some conn) (closed : (conn.tx.trySend frame).2 = .closed) :
    r.push id frame = (r.deliver id conn frame).1 := by
  rw [← deliver_eq_steps found, closed]
  refine Registry.ext (Finmap.ext_lookup fun other => ?_) rfl rfl rfl
  change _ = (((r.push id frame).tally .closed).alter id _).connections.lookup other
  rw [lookup_alter]
  split
  · next same =>
      rw [same]
      exact Option.map_id'.symm
  · rfl

/-- One turn of a fan-out loop is the three steps of its delivery. -/
theorem deliverTo_eq_steps {r : Registry F} {id : ConnectionId} {conn : Connection F} {frame : F}
    {outcome : TrySend} (found : r.connections.lookup id = some conn)
    (met : (conn.tx.trySend frame).2 = outcome) (delivered : Nat) :
    deliverTo frame (r, delivered) id =
      (((r.push id frame).tally outcome).mark id outcome,
        if outcome = .ok then delivered + 1 else delivered) := by
  have taken : conn.tx.accepts = true ↔ outcome = .ok := by
    rw [← met, BoundedQueue.trySend_snd, BoundedQueue.accepts]
    cases conn.tx.isOpen <;> simp
  have whole := deliver_eq_steps found frame
  rw [met] at whole
  simp only [deliverTo, found, whole, deliver_eq found, taken]

/-- The same where the queue is closed. -/
theorem deliverTo_of_closed {r : Registry F} {id : ConnectionId} {conn : Connection F} {frame : F}
    (found : r.connections.lookup id = some conn) (closed : (conn.tx.trySend frame).2 = .closed)
    (delivered : Nat) : deliverTo frame (r, delivered) id = (r.push id frame, delivered) := by
  have same := push_of_closed found closed
  rw [← deliver_eq_steps found, closed] at same
  rw [deliverTo_eq_steps found closed, ← same]
  rfl

/-- The two steps after an attempt that met an open queue. -/
theorem settled {r : Registry F} {calls : List (Call F)} {k : Nat} {d : Delivery F}
    {rest : Finset ConnectionId} {delivered : Nat} {id : ConnectionId} {outcome : TrySend}
    (found : calls[k]? = some (.tallying d rest delivered id outcome)) :
    Run Step { registry := r, calls := calls } [.tally k outcome, .mark k id outcome]
      { registry := (r.tally outcome).mark id outcome
        calls := calls.set k
          (.visiting d rest (if outcome = .ok then delivered + 1 else delivered)) } := by
  have counted := Step.tally (s := { registry := r, calls := calls }) found
  have streak := Step.mark (s := { registry := r.tally outcome
                                   calls := calls.set k
                                     (.marking d rest delivered id outcome) })
    (Tickets.set_self found)
  rw [List.set_set] at streak
  exact .cons counted (.single streak)

/-- An attempt that meets an open queue, with the two steps after it. -/
theorem attempted {s : Threads F} {k : Nat} {d : Delivery F} {rest : Finset ConnectionId}
    {delivered : Nat} {id : ConnectionId} {outcome : TrySend}
    (found : s.calls[k]? = some (.visiting d rest delivered)) (ahead : id ∈ rest)
    (met : s.registry.pushed? id d.frame = some outcome) (opened : outcome ≠ .closed) :
    Run Step s [.visit k d.op id (some outcome), .tally k outcome, .mark k id outcome]
      { registry := ((s.registry.push id d.frame).tally outcome).mark id outcome
        calls := s.calls.set k
          (.visiting d (rest.erase id)
            (if outcome = .ok then delivered + 1 else delivered)) } := by
  have first := Step.visit found ahead
  have counting : Call.visited d (rest.erase id) delivered id (some outcome) =
      .tallying d (rest.erase id) delivered id outcome := by
    cases outcome with
    | ok | full => rfl
    | closed => exact absurd rfl opened
  rw [met, counting] at first
  have placed : (s.calls.set k (.tallying d (rest.erase id) delivered id outcome))[k]? =
      some (.tallying d (rest.erase id) delivered id outcome) := Tickets.set_self found
  have after := settled (r := s.registry.push id d.frame) placed
  rw [List.set_set] at after
  exact .cons first after

/-- One turn of a fan-out loop, its steps taken one after the other. -/
theorem turn {s : Threads F} {k : Nat} {d : Delivery F} {rest : Finset ConnectionId}
    {delivered : Nat} {id : ConnectionId}
    (found : s.calls[k]? = some (.visiting d rest delivered)) (ahead : id ∈ rest) :
    ∃ as, (∀ a ∈ as, a.call = k) ∧ Run Step s as
      { registry := (deliverTo d.frame (s.registry, delivered) id).1
        calls := s.calls.set k
          (.visiting d (rest.erase id) (deliverTo d.frame (s.registry, delivered) id).2) } := by
  have first := Step.visit found ahead
  cases registered : s.registry.connections.lookup id with
  | none =>
      rw [deliverTo_of_none registered]
      have missed : s.registry.pushed? id d.frame = none := by simp [pushed?, registered]
      rw [missed, push_of_none registered] at first
      exact ⟨_, by simp [Action.call], .single first⟩
  | some conn =>
      have met : s.registry.pushed? id d.frame = some (conn.tx.trySend d.frame).2 := by
        simp [pushed?, registered]
      cases outcome : (conn.tx.trySend d.frame).2 with
      | closed =>
          rw [met, outcome] at first
          rw [deliverTo_of_closed registered outcome]
          exact ⟨_, by simp [Action.call], .single first⟩
      | ok | full =>
          rw [outcome] at met
          rw [deliverTo_eq_steps registered outcome]
          exact ⟨_, by simp [Action.call], attempted found ahead met (by simp)⟩

/-- The whole loop. -/
theorem visits {s : Threads F} {k : Nat} {d : Delivery F} {rest : Finset ConnectionId}
    {delivered : Nat} (found : s.calls[k]? = some (.visiting d rest delivered)) :
    ∃ as, (∀ a ∈ as, a.call = k) ∧ Run Step s as
      { registry := (rest.val.foldl (deliverTo d.frame) (s.registry, delivered)).1
        calls := s.calls.set k
          (.visiting d ∅ (rest.val.foldl (deliverTo d.frame) (s.registry, delivered)).2) } := by
  induction rest using Finset.induction_on generalizing s delivered with
  | empty =>
      have same := Tickets.set_same found
      refine ⟨[], by simp, ?_⟩
      change Run Step s [] { s with calls := s.calls.set k (.visiting d ∅ delivered) }
      rw [same]
      exact .nil s
  | insert id rest fresh ih =>
      rw [Finset.insert_val_of_notMem fresh, Multiset.foldl_cons]
      obtain ⟨first, own, before⟩ := turn found (Finset.mem_insert_self id rest)
      rw [Finset.erase_insert fresh] at before
      obtain ⟨later, owned, after⟩ := ih (s := ⟨_, s.calls.set k _⟩) (Tickets.set_self found)
      rw [List.set_set] at after
      refine ⟨first ++ later, ?_, before.append after⟩
      intro a taken
      exact (List.mem_append.mp taken).elim (own a) (owned a)

/-- The four steps of `add`. -/
theorem added (s : Threads F) (subject : String) (sendQueue : Nat) (lock : s.Unlocked) :
    ∃ as, (∀ a ∈ as, a.call = s.calls.length) ∧ Run Step s as
      { registry := (s.registry.add subject sendQueue).1
        calls := s.calls ++ [.done] } := by
  have replaced : ∀ c c' : Call F, (s.calls ++ [c]).set s.calls.length c' = s.calls ++ [c'] :=
    fun c c' => by simp
  have last : ∀ c : Call F, (s.calls ++ [c])[s.calls.length]? = some c := fun c =>
    List.getElem?_concat_length
  have unread : ∀ c ∈ s.calls ++ [.adding subject sendQueue ⟨s.registry.nextId⟩],
      c.reads = false := by
    intro c member
    rcases List.mem_append.mp member with old | new
    · exact lock c old
    · rw [List.mem_singleton.mp new]
      rfl
  have inserted : ∀ r : Registry F,
      Step ⟨r, s.calls ++ [.adding subject sendQueue ⟨s.registry.nextId⟩]⟩
        (.insert s.calls.length subject sendQueue ⟨s.registry.nextId⟩)
        ⟨r.enter ⟨s.registry.nextId⟩ subject sendQueue,
          s.calls ++ [.totalling ⟨s.registry.nextId⟩]⟩ := by
    intro r
    have step := Step.insert (s := ⟨r, _⟩) (last _) unread
    rwa [replaced] at step
  have totalled : ∀ r : Registry F,
      Step ⟨r, s.calls ++ [.totalling ⟨s.registry.nextId⟩]⟩ (.total s.calls.length)
        ⟨{ r with
            metrics := { r.metrics with connectionsTotal := r.metrics.connectionsTotal + 1 } },
          s.calls ++ [.activating ⟨s.registry.nextId⟩]⟩ := by
    intro r
    have step := Step.total (s := ⟨r, _⟩) (last (.totalling ⟨s.registry.nextId⟩))
    rwa [replaced] at step
  have activated : ∀ r : Registry F,
      Step ⟨r, s.calls ++ [.activating ⟨s.registry.nextId⟩]⟩ (.activate s.calls.length)
        ⟨{ r with
            metrics := { r.metrics with connectionsActive := r.metrics.connectionsActive + 1 } },
          s.calls ++ [.done]⟩ := by
    intro r
    have step := Step.activate (s := ⟨r, _⟩) (last (.activating ⟨s.registry.nextId⟩))
    rwa [replaced] at step
  exact ⟨_, by simp [Action.call], .cons (.issue subject sendQueue)
    (.cons (inserted _) (.cons (totalled _) (.single (activated _))))⟩

/-- **A call alone.**  While nobody holds the read lock, the steps of one call that nobody
interrupts do what the call does in one step, and it returns the same count. -/
theorem run_alone (s : Threads F) (op : Op F) (lock : s.Unlocked) :
    ∃ as, (∀ a ∈ as, a.call = s.calls.length) ∧
      (op.frame?.isSome → .finish s.calls.length (s.registry.returned op) ∈ as) ∧
      Run Step s as
        { registry := (s.registry.step op).1
          calls := s.calls ++ [.done] } := by
  cases carries : op.frame? with
  | some frame =>
      obtain ⟨left, count⟩ := step_eq_fanOut s.registry carries
      let d : Delivery F := ⟨op, frame, carries⟩
      have started := Step.begin (s := s) d
      obtain ⟨as, own, loop⟩ := visits (s := ⟨s.registry, s.calls ++ [_]⟩)
        (List.getElem?_concat_length (l := s.calls)
          (a := .visiting d (s.registry.targets op) 0))
      rw [List.set_append_right _ _ (Nat.le_refl _), Nat.sub_self, List.set_cons_zero,
        ← fanOut, ← left, ← count] at loop
      have ended := Step.finish (s := ⟨(s.registry.step op).1,
        s.calls ++ [.visiting d ∅ (s.registry.returned op)]⟩) List.getElem?_concat_length
      rw [List.set_append_right _ _ (Nat.le_refl _), Nat.sub_self, List.set_cons_zero] at ended
      refine ⟨_, ?_, fun _ => ?_, .cons started (loop.append (.single ended))⟩
      · intro a taken
        simp only [List.mem_cons, List.mem_append, List.not_mem_nil, or_false] at taken
        rcases taken with rfl | inner | rfl
        · rfl
        · exact own a inner
        · rfl
      · simp
  | none =>
      cases kind : op.isAdd with
      | false =>
          exact ⟨_, by simp [Action.call], by simp, .single (.whole op carries kind fun _ => lock)⟩
      | true =>
          cases op with
          | add subject sendQueue =>
              obtain ⟨as, own, run⟩ := added s subject sendQueue lock
              exact ⟨as, own, by simp, run⟩
          | remove _ | subscribe _ _ _ | unsubscribe _ _ | publish _ _ | broadcast _ | send _ _
          | recv _ | close _ => cases kind

/-- **One call after the other.**  Whatever operations the registry goes through as single steps,
calls made one after the other can leave the same registry. -/
theorem run_sequential (ops : List (Op F)) :
    ∃ as, Run Step start as
      { registry := Registry.new.run ops
        calls := List.replicate ops.length .done } := by
  induction ops using List.reverseRecOn with
  | nil => exact ⟨[], .nil _⟩
  | append_singleton ops op ih =>
      obtain ⟨before, run⟩ := ih
      have lock : Unlocked
          (⟨Registry.new.run ops, List.replicate ops.length .done⟩ : Threads F) := by
        intro c member
        rw [(List.mem_replicate.mp member).2]
        rfl
      obtain ⟨last, -, -, alone⟩ := run_alone _ op lock
      refine ⟨before ++ last, run.append ?_⟩
      rw [run_append, List.length_append, List.length_singleton, List.replicate_succ']
      exact alone

end Threads

end WsFanout
