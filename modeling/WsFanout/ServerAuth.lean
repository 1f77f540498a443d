import WsFanout.ServerRun

/-!
# Authentication gates what the client sees

`World.gated_run`: whatever the clients send and whatever other threads do, the text frames on a
socket are none, or one refusal, or one acknowledgement of the validated token followed by frames
that say nothing of authentication; and a connection is in the registry only when its
acknowledgement has been written.

A task writes the refusal and the acknowledgement straight to its socket.  Everything else comes
out of its queue, so the invariant also says that no queue holds either of them.
-/

namespace WsFanout

open Lib

variable {σ : Type}

namespace Task

/-- The first message on the socket carried a token that validates as `claims`. -/
def AuthenticatedAs (shared : Shared σ) (t : Task) (claims : Claims) : Prop :=
  ∃ text token later, t.received = .text text :: later ∧
    shared.fromStr text = .ok (.auth token) ∧ shared.validate token = .ok claims

/-- The acknowledgement came first, and nothing after it spoke of authentication. -/
def Acknowledged (shared : Shared σ) (t : Task) (claims : Claims) : Prop :=
  t.AuthenticatedAs shared claims ∧ ∃ later, t.texts = .authenticated claims.subject :: later ∧
    ∀ frame ∈ later, frame.speaksOfAuth = false

/-- What a client may have seen. -/
def Gated (shared : Shared σ) (t : Task) : Prop :=
  t.texts = [] ∨ (∃ message, t.texts = [.error .unauthenticated message]) ∨
    ∃ claims, t.Acknowledged shared claims

end Task

/-- No frame that speaks of authentication is on its way to the socket or to the queue. -/
def Handling.Plain : Handling → Prop
  | .reply frame => frame.speaksOfAuth = false
  | _ => True

def Session.Plain : Session → Prop
  | .writing message => ∀ frame, message.text? = some frame → frame.speaksOfAuth = false
  | .handling h => h.Plain
  | _ => True

def Receiver.Plain : Receiver → Prop
  | .detached buffer => ∀ frame ∈ buffer, frame.speaksOfAuth = false
  | _ => True

/-- What a task has received and written at each phase. -/
def Task.AtPhase (shared : Shared σ) (t : Task) : Phase → Prop
  | .handshake => t.texts = [] ∧ t.received = [] ∧ t.id = none
  | .authenticating => t.texts = [] ∧ t.received = [] ∧ t.id = none
  | .refusing _ => t.texts = []
  | .closing _ => t.texts = [] ∨ ∃ message, t.texts = [.error .unauthenticated message]
  | .acking claims => t.texts = [] ∧ t.AuthenticatedAs shared claims ∧ t.id = none
  | .joining claims =>
    t.texts = [.authenticated claims.subject] ∧ t.AuthenticatedAs shared claims ∧ t.id = none
  | .session id claims stage => t.Acknowledged shared claims ∧ t.id = some id ∧ stage.Plain
  | .leaving id claims => t.Acknowledged shared claims ∧ t.id = some id
  | .unregistering id claims => t.Acknowledged shared claims ∧ t.id = some id
  | .releasing => t.Gated shared
  | .ended => t.Gated shared

/-- The invariant of one task. -/
structure Task.GateInv (shared : Shared σ) (t : Task) : Prop where
  phase : t.AtPhase shared t.phase
  rx : t.rx.Plain

/-- At every phase the client has seen what it may. -/
theorem Task.GateInv.gated {shared : Shared σ} {t : Task} (inv : t.GateInv shared) :
    t.Gated shared := by
  have atPhase := inv.phase
  cases stands : t.phase <;> rw [stands] at atPhase
  case handshake | authenticating | acking => exact .inl atPhase.1
  case refusing => exact .inl atPhase
  case closing => exact atPhase.imp_right .inl
  case joining claims => exact .inr (.inr ⟨claims, atPhase.2.1, [], atPhase.1, by simp⟩)
  case session | leaving | unregistering => exact .inr (.inr ⟨_, atPhase.1⟩)
  case releasing | ended => exact atPhase

/-! ## One turn -/

/-- Only a first message that is `auth` with a valid token is accepted. -/
theorem authenticate_ok {shared : Shared σ} {first : Option Inbound} {claims : Claims}
    (accepted : authenticate shared first = .ok claims) :
    ∃ text token, first = some (.text text) ∧ shared.fromStr text = .ok (.auth token) ∧
      shared.validate token = .ok claims := by
  cases first with
  | none => cases accepted
  | some message =>
      cases message with
      | text text =>
          simp only [authenticate] at accepted
          split at accepted
          · next token parsed =>
              refine ⟨text, token, rfl, parsed, ?_⟩
              cases valid : shared.validate token with
              | error e => simp [valid, Except.mapError] at accepted
              | ok c => simpa [valid, Except.mapError] using accepted
          · cases accepted
      | binary | ping _ | pong | close | frame | failed _ | ended => cases accepted

/-- More messages and more frames leave an acknowledged client acknowledged. -/
theorem Task.Acknowledged.extend {shared : Shared σ} {t t' : Task} {claims : Claims}
    (ack : t.Acknowledged shared claims) (messages : List Inbound) (frames : List ServerMessage)
    (received : t'.received = t.received ++ messages) (texts : t'.texts = t.texts ++ frames)
    (plain : ∀ frame ∈ frames, frame.speaksOfAuth = false) : t'.Acknowledged shared claims := by
  obtain ⟨⟨text, token, more, first, parsed, valid⟩, later, acked, ordinary⟩ := ack
  refine ⟨⟨text, token, more ++ messages, by simp [received, first], parsed, valid⟩,
    later ++ frames, by simp [texts, acked], ?_⟩
  intro frame mem
  rcases List.mem_append.mp mem with old | new
  · exact ordinary frame old
  · exact plain frame new

/-- The frames of `handle` say nothing of authentication. -/
theorem Handling.Plain.step {h : Handling} (plain : h.Plain) (shared : Shared σ)
    (id : ConnectionId) (claims : Claims) (source : σ) (r : Registry ServerMessage) :
    (h.step shared id claims source r).2.Plain ∧
      ∀ op ∈ h.op? shared id claims, ∀ frame, op.frame? = some frame →
        frame.speaksOfAuth = false := by
  cases h with
  | start text =>
      simp only [Handling.step, Handling.op?]
      cases shared.fromStr text with
      | error e => exact ⟨rfl, by simp⟩
      | ok message =>
          cases message with
          | auth _ | ping _ => exact ⟨rfl, by simp⟩
          | subscribe _ | unsubscribe _ =>
              refine ⟨by simp [Handling.Plain, ServerMessage.speaksOfAuth], ?_⟩
              rintro op ⟨⟩ frame carries
              cases carries
  | snapshots rest =>
      refine ⟨?_, by simp [Handling.op?]⟩
      cases rest with
      | nil => trivial
      | cons ch rest =>
          simp only [Handling.step]
          cases shared.snapshot source ch <;> trivial
  | ack _ _ | snapshot _ _ _ =>
      refine ⟨trivial, ?_⟩
      rintro op ⟨⟩ frame ⟨⟩
      rfl
  | reply frame =>
      refine ⟨trivial, ?_⟩
      rintro op ⟨⟩ frame ⟨⟩
      exact plain
  | done => exact ⟨trivial, by simp [Handling.op?]⟩

theorem Session.plain_inbound {message : Inbound} {next : Session}
    (branch : Session.inbound message = some next) : next.Plain := by
  cases message with
  | text _ | pong | frame =>
      cases branch
      trivial
  | binary =>
      cases branch
      rfl
  | ping _ =>
      cases branch
      rintro _ ⟨⟩
  | close | failed _ | ended => cases branch

/-- The text frames after a write that succeeded or may have. -/
theorem Task.texts_write (t : Task) (phase : Phase) (messages : List Outbound) :
    ({ t with phase := phase, written := t.written ++ messages } : Task).texts =
      t.texts ++ messages.filterMap Outbound.text? :=
  List.filterMap_append

theorem Session.Plain.attempted {message : Outbound} (plain : (Session.writing message).Plain)
    (reached : Bool) :
    ∀ frame ∈ (attempted message reached).filterMap Outbound.text?,
      frame.speaksOfAuth = false := by
  intro frame mem
  obtain ⟨m, written, isText⟩ := List.mem_filterMap.mp mem
  cases reached with
  | false => cases written
  | true =>
      obtain rfl := List.mem_singleton.mp written
      exact plain frame isText

/-- What one turn preserves. -/
theorem Task.GateInv.turn {shared : Shared σ} {r : Registry ServerMessage} {source : σ}
    {t t' : Task} {e : Effect} (inv : t.GateInv shared)
    (queues : ∀ id, ∀ frame ∈ r.queueOf id, frame.speaksOfAuth = false)
    (turn : Turn shared r source t e t') : t'.GateInv shared := by
  obtain ⟨atPhase, rx⟩ := inv
  cases turn with
  | upgraded phase =>
      rw [phase] at atPhase
      exact ⟨atPhase, rx⟩
  | notUpgraded phase =>
      rw [phase] at atPhase
      exact ⟨.inl atPhase.1, rx⟩
  | authorised first phase accepted =>
      rw [phase] at atPhase
      obtain ⟨text, token, rfl, parsed, valid⟩ := authenticate_ok accepted
      exact ⟨⟨atPhase.1, ⟨text, token, [], by simp [atPhase.2.1], parsed, valid⟩, atPhase.2.2⟩, rx⟩
  | refused first phase rejected =>
      rw [phase] at atPhase
      exact ⟨atPhase.1, rx⟩
  | validatorPanic text token phase parsed =>
      rw [phase] at atPhase
      exact ⟨.inl atPhase.1, rx⟩
  | refuse reached phase =>
      rw [phase] at atPhase
      refine ⟨?_, rx⟩
      change _ ∨ _
      rw [Task.texts_write, show t.texts = [] from atPhase, List.nil_append]
      cases reached with
      | false => exact .inl rfl
      | true => exact .inr ⟨_, rfl⟩
  | closed phase =>
      rw [phase] at atPhase
      exact ⟨atPhase.imp_right .inl, rx⟩
  | acknowledge phase =>
      rw [phase] at atPhase
      refine ⟨⟨?_, atPhase.2⟩, rx⟩
      rw [Task.texts_write, atPhase.1]
      rfl
  | @notAcknowledged claims reached phase =>
      rw [phase] at atPhase
      refine ⟨?_, rx⟩
      cases reached with
      | false =>
          refine .inl ?_
          rw [Task.texts_write, atPhase.1]
          rfl
      | true =>
          refine .inr (.inr ⟨claims, atPhase.2.1, [], ?_, by simp⟩)
          rw [Task.texts_write, atPhase.1]
          rfl
  | @channelPanic claims phase capacity =>
      rw [phase] at atPhase
      exact ⟨.inr (.inr ⟨claims, atPhase.2.1, [], atPhase.1, by simp⟩), rx⟩
  | join phase capacity =>
      rw [phase] at atPhase
      exact ⟨⟨⟨atPhase.2.1, [], atPhase.1, by simp⟩, rfl, trivial⟩, trivial⟩
  | timerPanic phase period =>
      rw [phase] at atPhase
      exact ⟨⟨atPhase.1, atPhase.2.1⟩, rx⟩
  | start phase period =>
      rw [phase] at atPhase
      exact ⟨⟨atPhase.1, atPhase.2.1, trivial⟩, rx⟩
  | recv phase attached taken =>
      rw [phase] at atPhase
      refine ⟨⟨atPhase.1, atPhase.2.1, ?_⟩, rx⟩
      rintro _ ⟨⟩
      exact queues _ _ (Registry.mem_queueOf_of_taken taken)
  | drain phase held =>
      rw [phase] at atPhase
      rw [held] at rx
      refine ⟨⟨atPhase.1, atPhase.2.1, ?_⟩, ?_⟩
      · rintro _ ⟨⟩
        exact rx _ List.mem_cons_self
      · exact fun frame mem => rx frame (List.mem_cons_of_mem _ mem)
  | drained phase held =>
      rw [phase] at atPhase
      exact ⟨⟨atPhase.1, atPhase.2.1⟩, rx⟩
  | inbound message phase branch =>
      rw [phase] at atPhase
      exact ⟨⟨atPhase.1.extend [message] [] rfl (List.append_nil _).symm (by simp),
        atPhase.2.1, Session.plain_inbound branch⟩, rx⟩
  | inboundEnd message phase branch =>
      rw [phase] at atPhase
      exact ⟨⟨atPhase.1.extend [message] [] rfl (List.append_nil _).symm (by simp),
        atPhase.2.1⟩, rx⟩
  | tick phase =>
      rw [phase] at atPhase
      refine ⟨⟨atPhase.1, atPhase.2.1, ?_⟩, rx⟩
      rintro _ ⟨⟩
  | timeout phase =>
      rw [phase] at atPhase
      exact ⟨⟨atPhase.1, atPhase.2.1, trivial⟩, rx⟩
  | write phase =>
      rw [phase] at atPhase
      refine ⟨⟨atPhase.1.extend [] _ (List.append_nil _).symm (Task.texts_write _ _ _) ?_,
        atPhase.2.1, trivial⟩, rx⟩
      exact Session.Plain.attempted atPhase.2.2 true
  | notWritten reached phase =>
      rw [phase] at atPhase
      refine ⟨⟨atPhase.1.extend [] _ (List.append_nil _).symm (Task.texts_write _ _ _) ?_,
        atPhase.2.1⟩, rx⟩
      exact Session.Plain.attempted atPhase.2.2 reached
  | @handle id claims h phase going =>
      rw [phase] at atPhase
      obtain ⟨plain, -⟩ := Handling.Plain.step atPhase.2.2 shared id claims source r
      exact ⟨⟨atPhase.1, atPhase.2.1, plain⟩, rx⟩
  | handlePanic phase calls =>
      rw [phase] at atPhase
      exact ⟨⟨atPhase.1, atPhase.2.1⟩, rx⟩
  | handled phase =>
      rw [phase] at atPhase
      exact ⟨⟨atPhase.1, atPhase.2.1, trivial⟩, rx⟩
  | fastEnough phase drops =>
      rw [phase] at atPhase
      exact ⟨⟨atPhase.1, atPhase.2.1, trivial⟩, rx⟩
  | tooSlow phase drops =>
      rw [phase] at atPhase
      exact ⟨⟨atPhase.1, atPhase.2.1, trivial⟩, rx⟩
  | sinkClosed phase =>
      rw [phase] at atPhase
      exact ⟨⟨atPhase.1, atPhase.2.1⟩, rx⟩
  | dropReceiver phase =>
      rw [phase] at atPhase
      exact ⟨atPhase, trivial⟩
  | unregister phase =>
      rw [phase] at atPhase
      exact ⟨.inr (.inr ⟨_, atPhase.1⟩), rx⟩
  | release phase =>
      rw [phase] at atPhase
      exact ⟨atPhase, rx⟩

/-- A task keeps the id it was given. -/
theorem Task.GateInv.id_kept {shared : Shared σ} {r : Registry ServerMessage} {source : σ}
    {t t' : Task} {e : Effect} (inv : t.GateInv shared) (turn : Turn shared r source t e t')
    {id : ConnectionId} (given : t.id = some id) : t'.id = some id := by
  cases turn with
  | join phase capacity =>
      have atPhase := inv.phase
      rw [phase] at atPhase
      rw [atPhase.2.2] at given
      cases given
  | _ => exact given

/-- Losing its entry leaves a task's invariant alone. -/
theorem Task.GateInv.bystander {shared : Shared σ} {r : Registry ServerMessage} {t : Task}
    (inv : t.GateInv shared)
    (queues : ∀ id, ∀ frame ∈ r.queueOf id, frame.speaksOfAuth = false) (e : Effect) :
    (e.bystander r t).GateInv shared := by
  have detached : ∀ id, (t.detach id (r.queueOf id)).GateInv shared := by
    intro id
    unfold Task.detach
    split
    · exact ⟨inv.phase, queues id⟩
    · exact inv
  cases e with
  | join _ _ | unregister _ => exact detached _
  | quiet | call _ | release | timeout => exact inv

namespace World

/-- The invariant of the server: every task is gated, no queue holds a frame that speaks of
authentication, and every entry belongs to a task that has written its acknowledgement. -/
structure GateInv (shared : Shared σ) (w : World σ) : Prop where
  tasks : ∀ (i : Nat) (t : Task), w.tasks[i]? = some t → t.GateInv shared
  queues : ∀ id, ∀ frame ∈ w.registry.queueOf id, frame.speaksOfAuth = false
  entries : ∀ id conn, w.registry.connections.lookup id = some conn →
    ∃ (i : Nat) (t : Task), w.tasks[i]? = some t ∧ t.id = some id ∧
      ∃ later, t.texts = .authenticated conn.subject :: later

theorem gateInv_start (shared : Shared σ) (source : σ) : GateInv shared (start shared source) where
  tasks := by simp [start]
  queues := by simp [start, Registry.queueOf, Registry.new]
  entries := by simp [start, Registry.new]

namespace GateInv

variable {shared : Shared σ} {w w' : World σ} {a : Action}

/-- The frames a step puts on queues say nothing of authentication. -/
theorem frames (inv : GateInv shared w) (step : Step shared w a w') {op : Op ServerMessage}
    {frame : ServerMessage} (called : a.op? = some op) (carries : op.frame? = some frame) :
    frame.speaksOfAuth = false := by
  cases step with
  | act found turn =>
      obtain ⟨id, claims, h, phase, calls⟩ := turn.delivers called carries
      have atPhase := (inv.tasks _ _ found).phase
      rw [phase] at atPhase
      exact (Handling.Plain.step atPhase.2.2 shared id claims w.source w.registry).2 op calls frame
        carries
  | publish _ _ | resync _ _ _ | resyncAll =>
      cases called
      cases carries
      rfl
  | accept _ | refuse _ | update _ => cases called

/-- A task that has an id keeps it, and what it has written. -/
theorem task_kept (inv : GateInv shared w) (step : Step shared w a w') {i : Nat} {t : Task}
    {id : ConnectionId} (found : w.tasks[i]? = some t) (given : t.id = some id) :
    ∃ t', w'.tasks[i]? = some t' ∧ t'.id = some id ∧ ∃ more, t'.texts = t.texts ++ more := by
  obtain ⟨t', found', ⟨e, -, turn⟩ | ⟨-, -, sameId, -, texts⟩⟩ := step.turn_cases found
  · exact ⟨t', found', (inv.tasks i _ found).id_kept turn given, turn.texts_grow⟩
  · exact ⟨t', found', sameId.trans given, [], by rw [texts, List.append_nil]⟩

/-- The task that registers has written its acknowledgement. -/
theorem joined (inv : GateInv shared w) (step : Step shared w a w') {subject : String}
    {sendQueue : Nat} (called : a.op? = some (.add subject sendQueue)) :
    ∃ (i : Nat) (t : Task), w'.tasks[i]? = some t ∧ t.id = some ⟨w.registry.nextId⟩ ∧
      ∃ later, t.texts = .authenticated subject :: later := by
  cases step with
  | @act i t t' e found turn =>
      obtain ⟨claims, phase, same, -, rfl⟩ := turn.adds called rfl
      cases same
      have atPhase := (inv.tasks i t found).phase
      rw [phase] at atPhase
      exact ⟨i, _, Step.act_task found _ _, rfl, [], atPhase.1⟩
  | accept _ | refuse _ | publish _ _ | resync _ _ _ | resyncAll | update _ => cases called

/-- What one step preserves. -/
theorem step (inv : GateInv shared w) (step : Step shared w a w') : GateInv shared w' := by
  refine ⟨fun i t' found' => ?_, fun id frame mem => ?_, fun id conn' found' => ?_⟩
  · rcases step.task_cases found' with ⟨t, e, -, old, turn⟩ | ⟨t, old, -, same⟩ | ⟨-, -, rfl⟩
    · exact (inv.tasks i t old).turn inv.queues turn
    · rcases same with rfl | ⟨_, e, -, rfl⟩
      · exact inv.tasks i _ old
      · exact (inv.tasks i t old).bystander inv.queues e
    · exact ⟨⟨rfl, rfl, rfl⟩, trivial⟩
  · rw [step.registry_eq] at mem
    cases called : a.op? with
    | none =>
        rw [called] at mem
        exact inv.queues id frame mem
    | some op =>
        rw [called] at mem
        rcases w.registry.mem_queueOf_step op mem with old | new
        · exact inv.queues id frame old
        · exact inv.frames step called new
  · have older : ∀ conn, w.registry.connections.lookup id = some conn →
        conn'.subject = conn.subject → ∃ (i : Nat) (t : Task), w'.tasks[i]? = some t ∧
          t.id = some id ∧ ∃ later, t.texts = .authenticated conn'.subject :: later := by
      intro conn found same
      obtain ⟨i, t, there, given, later, acked⟩ := inv.entries id conn found
      obtain ⟨t', there', given', more, texts⟩ := inv.task_kept step there given
      exact ⟨i, t', there', given', later ++ more, by rw [texts, acked, same]; rfl⟩
    rw [step.registry_eq] at found'
    cases called : a.op? with
    | none =>
        rw [called] at found'
        exact older conn' found' rfl
    | some op =>
        rw [called] at found'
        rcases w.registry.entry_step op found' with ⟨sendQueue, rfl, rfl, -⟩ | ⟨conn, old, same, -⟩
        · exact inv.joined step called
        · exact older conn old same

end GateInv

/-- **Authentication gates everything the client sees.**  In every state the server reaches, the
text frames on each socket are none, or one refusal, or an acknowledgement of the claims that
`validate` returned for the token of the client's first message, followed by frames that say nothing
of authentication; and every registered connection is that of a task whose acknowledgement has been
written. -/
theorem gated_run (shared : Shared σ) (source : σ) (as : List Action) (w : World σ)
    (run : Run (Step shared) (start shared source) as w) :
    (∀ (i : Nat) (t : Task), w.tasks[i]? = some t → t.Gated shared) ∧
    ∀ id conn, w.registry.connections.lookup id = some conn →
      ∃ (i : Nat) (t : Task), w.tasks[i]? = some t ∧ t.id = some id ∧
        ∃ later, t.texts = .authenticated conn.subject :: later := by
  have inv := run.invariant (fun inv step => inv.step step) (gateInv_start shared source)
  exact ⟨fun i t found => (inv.tasks i t found).gated, inv.entries⟩

/-- One client is registered, and everyone is told to resync. -/
theorem gated_run_joined :
    ∃ w, Run (Step demo) (start demo LastValue.new)
        (connecting 0 (Claims.new "alice") 256 ++ [.resyncAll]) w ∧
      w.registry.queueOf ⟨1⟩ = [.resync []] ∧
      ∀ (i : Nat) (t : Task), w.tasks[i]? = some t → t.Gated demo := by
  have parsed : demo.fromStr authText = .ok (.auth "t") := rfl
  have joined := run_connecting demo (start demo LastValue.new) (by decide) parsed rfl (by decide)
  have run := joined.append (.single .resyncAll)
  exact ⟨_, run, rfl, (gated_run demo LastValue.new _ _ run).1⟩

end World

end WsFanout
