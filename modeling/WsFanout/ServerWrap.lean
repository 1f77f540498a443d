import WsFanout.ServerAuthorized

/-!
# Ids issued twice

A client registers as the first connection and stays.  Others come and go until the id counter has
gone round; the next one is registered under the first id, while the first task is still alive.
Two live tasks then stand for one entry, and the index still lists that entry under the first
client's channel.  The results about entries are therefore stated for at most `2 ^ 64`
registrations.
-/

namespace WsFanout

open Lib

/-- Another client presents its token. -/
def bobText : String :=
  "\x7b\"type\":\"auth\",\"token\":\"u\"\x7d"

/-- The small server with a second client, which may not subscribe to anything. -/
def guarded : Shared LastValue :=
  { demo with
    fromStr := fun text => if text = bobText then .ok (.auth "u") else demo.fromStr text
    validate := fun token =>
      if token = "u" then .ok (Claims.new "bob") else StaticToken.validate "t" "alice" token
    maySubscribe := fun claims _ => claims.subject = "alice" }

theorem Task.detach_of_not_attached {t : Task} {id : ConnectionId}
    (apart : t.id = some id → t.rx ≠ .attached) (buffer : List ServerMessage) :
    t.detach id buffer = t := by
  unfold detach
  rw [if_neg]
  rintro ⟨given, attached⟩
  exact apart given attached

/-- Removing a connection without subscriptions leaves the index alone. -/
theorem Registry.byChannel_remove_of_empty {F : Type} {r : Registry F} {id : ConnectionId}
    {conn : Connection F} (found : r.connections.lookup id = some conn)
    (empty : conn.subscriptions = ∅) : (r.remove id).byChannel = r.byChannel := by
  simp [Registry.remove, found, empty]

/-- The frame a step delivers, if it delivers one. -/
def Action.frame? (a : Action) : Option ServerMessage :=
  a.op?.bind Op.frame?

namespace World

/-- The first client subscribes to `x` and is still being answered. -/
theorem run_first :
    ∃ as w, Run (Step guarded) (start guarded LastValue.new) as w ∧
      w.registry.nextId = 2 ∧ w.registry.byChannel.members "x" = {⟨1⟩} ∧ 0 < w.permits ∧
      ∃ t, w.tasks = [t] ∧ t.id = some ⟨1⟩ ∧
        t.phase.registered? = some (⟨1⟩, Claims.new "alice") := by
  have parsed : guarded.fromStr authText = .ok (.auth "t") := rfl
  have joined := run_connecting guarded (start guarded LastValue.new) (by decide) parsed rfl
    (by decide)
  have going : Handling.start subscribeText ≠ .done := by simp
  have asked : Run (Step guarded)
      ((start guarded LastValue.new).welcome guarded (Claims.new "alice") authText)
      [.act 0 .quiet, .act 0 .quiet, .act 0 _] _ :=
    .cons (.act rfl (.start rfl (by decide))) <|
    .cons (.act rfl (.inbound (.text subscribeText) rfl rfl)) <|
    .cons (.act rfl (.handle rfl going)) <| .nil _
  exact ⟨_, _, joined.append asked, rfl, rfl, by decide, _, rfl, rfl, rfl⟩

/-- Nothing is delivered while a client connects. -/
theorem frame?_connecting (i : Nat) (claims : Claims) (sendQueue : Nat) :
    ∀ a ∈ connecting i claims sendQueue, a.frame? = none := by
  simp [connecting, Action.frame?, Action.op?, Effect.op?, Op.frame?]

/-- Nor while it leaves. -/
theorem frame?_departing (i : Nat) (id : ConnectionId) :
    ∀ a ∈ departing i id, a.frame? = none := by
  simp [departing, Action.frame?, Action.op?, Effect.op?, Op.frame?]

/-- A client without subscriptions comes and goes: only the counter moves. -/
theorem run_visit (w : World LastValue) (free : 0 < w.permits)
    (apart : ∀ t ∈ w.tasks, t.id = some ⟨w.registry.nextId⟩ → t.rx ≠ .attached) :
    ∃ as w' t, Run (Step guarded) w as w' ∧ (∀ a ∈ as, a.frame? = none) ∧
      w'.registry.nextId = w.registry.nextId + 1 ∧
      w'.registry.byChannel = w.registry.byChannel ∧ w'.permits = w.permits ∧
      w'.tasks = w.tasks ++ [t] ∧ t.rx = .absent := by
  have parsed : guarded.fromStr bobText = .ok (.auth "u") := rfl
  have came := run_connecting guarded w free parsed rfl (by decide)
  have kept : ∀ buffer, w.tasks.map (Task.detach ⟨w.registry.nextId⟩ buffer) = w.tasks := by
    intro buffer
    refine (List.map_congr_left fun t mem => ?_).trans (List.map_id _)
    exact Task.detach_of_not_attached (apart t mem) buffer
  have split : (w.welcome guarded (Claims.new "bob") bobText).tasks =
      w.tasks ++ [registeredTask ⟨w.registry.nextId⟩ (Claims.new "bob") bobText] := by
    rw [welcome, kept]
  have went := run_departing guarded _ split (by decide)
  refine ⟨_, _, departedTask ⟨w.registry.nextId⟩ (Claims.new "bob") bobText, came.append went,
    ?_, ?_, ?_, ?_, ?_, rfl⟩
  · intro a listed
    rcases List.mem_append.mp listed with came | went
    · exact frame?_connecting _ _ _ a came
    · exact frame?_departing _ _ a went
  · simp [farewell, welcome, Registry.nextId_step, Op.isAdd]
  · have entry := w.registry.lookup_add "bob" guarded.config.sendQueue ⟨w.registry.nextId⟩
    rw [if_pos rfl] at entry
    have closed := (w.registry.add "bob" guarded.config.sendQueue).1.lookup_close
      ⟨w.registry.nextId⟩ ⟨w.registry.nextId⟩
    rw [if_pos rfl, entry, Option.map_some] at closed
    have index := Registry.byChannel_remove_of_empty closed rfl
    rw [(Registry.close_frame _ _).1, Registry.byChannel_add] at index
    exact index
  · change w.permits - 1 + 1 = w.permits
    omega
  · exact congrArg (· ++ _) (kept _)

/-- `n` clients come and go, none of them under the first id. -/
theorem run_visits (n : Nat) (w : World LastValue) (free : 0 < w.permits)
    (apart : ∀ t ∈ w.tasks, t.rx = .attached → t.id = some ⟨1⟩)
    (unwrapped : ∀ k < n, w.registry.nextId + UInt64.ofNat k ≠ 1) :
    ∃ as w' more, Run (Step guarded) w as w' ∧ (∀ a ∈ as, a.frame? = none) ∧
      w'.registry.nextId = w.registry.nextId + UInt64.ofNat n ∧
      w'.registry.byChannel = w.registry.byChannel ∧ w'.permits = w.permits ∧
      w'.tasks = w.tasks ++ more := by
  induction n generalizing w with
  | zero => exact ⟨[], w, [], .nil w, by simp, by simp, rfl, rfl, (List.append_nil _).symm⟩
  | succ n ih =>
      have first : w.registry.nextId ≠ 1 := by simpa using unwrapped 0 (Nat.succ_pos n)
      obtain ⟨as, u, t, visit, silent, nextId, byChannel, permits, tasks, dropped⟩ :=
        run_visit w free (by
          intro t mem given attached
          rw [apart t mem attached] at given
          exact first (congrArg ConnectionId.val (Option.some.inj given)).symm)
      have next : ∀ k, u.registry.nextId + UInt64.ofNat k =
          w.registry.nextId + UInt64.ofNat (k + 1) := by
        intro k
        rw [nextId, UInt64.ofNat_add, UInt64.add_comm (UInt64.ofNat k), UInt64.add_assoc]
        rfl
      obtain ⟨bs, v, more, visits, silent', nextId', byChannel', permits', tasks'⟩ :=
        ih u (by omega) (by
          intro s mem attached
          rw [tasks] at mem
          rcases List.mem_append.mp mem with old | new
          · exact apart s old attached
          · rw [List.mem_singleton.mp new, dropped] at attached
            cases attached)
        (fun k less => by
          rw [next]
          exact unwrapped (k + 1) (by omega))
      exact ⟨as ++ bs, v, t :: more, visit.append visits,
        fun a listed => (List.mem_append.mp listed).elim (silent a) (silent' a),
        by rw [nextId', next],
        byChannel'.trans byChannel, permits'.trans permits, by simp [tasks', tasks]⟩

/-- The counter goes round behind the first client: another one registers under its id, and nothing
was delivered in the meantime. -/
theorem run_crowd (u : World LastValue) (t : Task) (only : u.tasks = [t])
    (given : t.id = some ⟨1⟩) (second : u.registry.nextId = 2) (free : 0 < u.permits) :
    ∃ bs v, Run (Step guarded) u bs v ∧ (∀ a ∈ bs, a.frame? = none) ∧
      v.registry.connections.lookup ⟨1⟩ =
        some { subject := "bob", subscriptions := ∅, tx := BoundedQueue.new 256, dropped := 0 } ∧
      v.registry.byChannel = u.registry.byChannel ∧
      ∃ t' i, v.tasks[0]? = some t' ∧ t'.phase = t.phase ∧
        0 < i ∧ v.tasks[i]? = some (registeredTask ⟨1⟩ (Claims.new "bob") bobText) := by
  obtain ⟨bs, v, more, visits, silent, nextId, byChannel, permits, tasks⟩ :=
    run_visits (2 ^ 64 - 1) u free
    (by
      intro s mem _
      rw [only] at mem
      rw [List.mem_singleton.mp mem]
      exact given)
    (by
      intro k less same
      have values := congrArg UInt64.toNat same
      rw [second] at values
      simp at values
      omega)
  have first : v.registry.nextId = 1 := by
    rw [nextId, second]
    decide
  have parsed : guarded.fromStr bobText = .ok (.auth "u") := rfl
  have came := run_connecting guarded v (by omega) parsed rfl (by decide)
  refine ⟨_, _, visits.append came, ?_, ?_, ?_,
    t.detach ⟨v.registry.nextId⟩ (v.registry.queueOf ⟨v.registry.nextId⟩), v.tasks.length,
    ?_, ?_, ?_, ?_⟩
  · intro a listed
    rcases List.mem_append.mp listed with visit | joining
    · exact silent a visit
    · exact frame?_connecting _ _ _ a joining
  · have entry := v.registry.lookup_add "bob" guarded.config.sendQueue ⟨1⟩
    rw [if_pos (by rw [first])] at entry
    exact entry
  · exact (v.registry.byChannel_add "bob" guarded.config.sendQueue).trans byChannel
  · simp [welcome, tasks, only]
  · exact Task.detach_phase _ _ _
  · simp [tasks, only]
  · simp [welcome, first]

/-- A live task stands for the first id, and so does the task of a client that has just registered
under it. -/
theorem run_wrapped :
    ∃ as w, Run (Step guarded) (start guarded LastValue.new) as w ∧
      w.registry.connections.lookup ⟨1⟩ =
        some { subject := "bob", subscriptions := ∅, tx := BoundedQueue.new 256, dropped := 0 } ∧
      w.registry.byChannel.members "x" = {⟨1⟩} ∧
      ∃ t i, w.tasks[0]? = some t ∧ t.phase.registered? = some (⟨1⟩, Claims.new "alice") ∧
        0 < i ∧ w.tasks[i]? = some (registeredTask ⟨1⟩ (Claims.new "bob") bobText) := by
  obtain ⟨as, u, begun, second, members, free, t, tasks, given, stands⟩ := run_first
  obtain ⟨bs, v, crowd, -, entry, byChannel, t', i, first, phase, later, last⟩ :=
    run_crowd u t tasks given second free
  refine ⟨_, v, begun.append crowd, entry, ?_, t', i, first, ?_, later, last⟩
  · rw [byChannel]
    exact members
  · rw [phase]
    exact stands

/-- Two live tasks stand for one entry. -/
theorem slots_run_wrapped :
    ¬ ∀ as w, Run (Step guarded) (start guarded LastValue.new) as w →
      ∀ id conn, w.registry.connections.lookup id = some conn →
        ∃! i, i ∈ w.live ∧ ∃ (t : Task) (claims : Claims), w.tasks[i]? = some t ∧
          t.phase.registered? = some (id, claims) := by
  intro unique
  obtain ⟨as, w, run, entry, -, t, i, foundA, standsA, later, foundB⟩ := run_wrapped
  obtain ⟨owner, -, only⟩ := unique as w run ⟨1⟩ _ entry
  have aliveA : t.phase ≠ .ended := by
    intro ended
    rw [ended] at standsA
    cases standsA
  have alice := only 0 ⟨mem_live.mpr ⟨t, foundA, aliveA⟩, t, _, foundA, standsA⟩
  have bob := only i ⟨mem_live.mpr ⟨_, foundB, by simp [registeredTask]⟩, _, _, foundB, rfl⟩
  omega

/-- A frame of the first client's channel is enqueued for a client that may not have it. -/
theorem authorised_run_wrapped :
    ∃ as w v, Run (Step guarded) (start guarded LastValue.new) as w ∧
      Step guarded w (.publish "x" ⟨"1"⟩) v ∧
      (∃ conn, v.registry.connections.lookup ⟨1⟩ = some conn ∧ conn.subject = "bob") ∧
      v.OwnedBy guarded ⟨1⟩ (Claims.new "bob") ∧
      .data "x" ⟨"1"⟩ ∈ (v.registry.queueOf ⟨1⟩).drop (w.registry.queueOf ⟨1⟩).length ∧
      guarded.maySubscribe (Claims.new "bob") "x" = false := by
  obtain ⟨as, w, run, entry, members, -, i, -, -, -, found⟩ := run_wrapped
  have joined : w.registry.Joined ⟨1⟩ := ⟨_, entry, rfl⟩
  have kept : w.registry.dropsFor ⟨1⟩ (.publish "x" (.data "x" ⟨"1"⟩)) = false := by
    simp [Registry.dropsFor, entry, BoundedQueue.isFull, BoundedQueue.new]
  obtain ⟨-, queue⟩ := joined.publish "x" (.data "x" ⟨"1"⟩) kept
  rw [if_pos (by simp [members])] at queue
  have after := (w.registry.deliver_spec (.publish "x" (.data "x" ⟨"1"⟩)) rfl ⟨1⟩).1
  rw [entry, if_pos (by simp [Registry.reaches, members])] at after
  refine ⟨as, w, _, run, .publish "x" ⟨"1"⟩, ⟨_, after, rfl⟩,
    ⟨i, _, found, rfl, bobText, "u", [], rfl, rfl, rfl⟩, ?_, by decide⟩
  change _ ∈ ((w.registry.publish "x" (.data "x" ⟨"1"⟩)).1.queueOf ⟨1⟩).drop _
  rw [queue, List.drop_left]
  exact List.mem_singleton_self _

end World

end WsFanout
