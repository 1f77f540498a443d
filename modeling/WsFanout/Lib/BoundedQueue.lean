import Mathlib.Data.List.Basic

/-!
# A bounded first-in first-out queue with a receiver that may close

The multi-producer channel of an asynchronous runtime, seen from its non-blocking side: a sender
tries to push, the one receiver takes from the front, and a dropped receiver closes the queue and
discards what it still held.  The bound on the contents is a field of the structure, so no
operation can build a queue that holds more than its capacity.
-/

namespace WsFanout.Lib

/-- A queue of capacity `capacity` whose receiver is open or gone. -/
structure BoundedQueue (α : Type) where
  buffer : List α
  capacity : Nat
  isOpen : Bool
  bounded : buffer.length ≤ capacity
  deriving DecidableEq

/-- Outcome of a non-blocking push. -/
inductive TrySend where
  | ok
  | full
  | closed
  deriving DecidableEq, Repr

namespace BoundedQueue

variable {α : Type}

/-- An empty open queue. -/
def new (capacity : Nat) : BoundedQueue α where
  buffer := []
  capacity := capacity
  isOpen := true
  bounded := Nat.zero_le _

/-- A push would be taken: the receiver is there and the buffer has room. -/
def accepts (q : BoundedQueue α) : Bool :=
  q.isOpen && decide (q.buffer.length < q.capacity)

/-- A push would be dropped: the receiver is there and the buffer has no room. -/
def isFull (q : BoundedQueue α) : Bool :=
  q.isOpen && decide (q.capacity ≤ q.buffer.length)

/-- Push without waiting.  A closed queue is reported before a full one. -/
def trySend (q : BoundedQueue α) (x : α) : BoundedQueue α × TrySend :=
  if q.isOpen = false then (q, .closed)
  else if room : q.buffer.length < q.capacity then
    ({ q with
        buffer := q.buffer ++ [x]
        bounded := by simpa [Nat.succ_le_iff] using room }, .ok)
  else (q, .full)

/-- Take the oldest element, if there is one. -/
def recv (q : BoundedQueue α) : BoundedQueue α × Option α :=
  ({ q with
      buffer := q.buffer.tail
      bounded := Nat.le_trans (by simp) q.bounded }, q.buffer.head?)

/-- The receiver is dropped: what the queue held is discarded. -/
def close (q : BoundedQueue α) : BoundedQueue α :=
  { q with
    buffer := []
    isOpen := false
    bounded := Nat.zero_le _ }

@[ext] theorem ext {p q : BoundedQueue α} (buffer : p.buffer = q.buffer)
    (capacity : p.capacity = q.capacity) (isOpen : p.isOpen = q.isOpen) : p = q := by
  cases p
  cases q
  cases buffer
  cases capacity
  cases isOpen
  rfl

theorem accepts_iff {q : BoundedQueue α} :
    q.accepts = true ↔ q.isOpen = true ∧ q.buffer.length < q.capacity := by
  simp [accepts]

/-- An open queue that is not full takes the next element. -/
theorem accepts_of_not_isFull {q : BoundedQueue α} (opened : q.isOpen = true)
    (room : q.isFull = false) : q.accepts = true := by
  simp only [isFull, opened, Bool.true_and, decide_eq_false_iff_not, Nat.not_le] at room
  exact accepts_iff.mpr ⟨opened, room⟩

theorem trySend_snd (q : BoundedQueue α) (x : α) :
    (q.trySend x).2 =
      if q.isOpen = false then .closed else if q.accepts then .ok else .full := by
  unfold trySend accepts
  cases q.isOpen with
  | false => rfl
  | true => by_cases room : q.buffer.length < q.capacity <;> simp [room]

@[simp] theorem buffer_trySend (q : BoundedQueue α) (x : α) :
    (q.trySend x).1.buffer = if q.accepts then q.buffer ++ [x] else q.buffer := by
  unfold trySend accepts
  cases q.isOpen with
  | false => rfl
  | true => by_cases room : q.buffer.length < q.capacity <;> simp [room]

@[simp] theorem capacity_trySend (q : BoundedQueue α) (x : α) :
    (q.trySend x).1.capacity = q.capacity := by
  unfold trySend
  split
  · rfl
  · split <;> rfl

@[simp] theorem isOpen_trySend (q : BoundedQueue α) (x : α) :
    (q.trySend x).1.isOpen = q.isOpen := by
  unfold trySend
  split
  · rfl
  · split <;> rfl

/-- A push that is not taken leaves the queue as it was. -/
theorem trySend_of_not_accepts {q : BoundedQueue α} (x : α) (refused : q.accepts = false) :
    (q.trySend x).1 = q := by
  ext1 <;> simp [refused]

/-- How many more elements the queue takes. -/
def room (q : BoundedQueue α) : Nat :=
  if q.isOpen then q.capacity - q.buffer.length else 0

theorem accepts_iff_room {q : BoundedQueue α} : q.accepts = true ↔ 0 < q.room := by
  rw [accepts_iff, room]
  cases q.isOpen with
  | false => simp
  | true =>
      simp only [true_and, ↓reduceIte]
      omega

/-- A push takes one place, if there is one. -/
theorem room_trySend (q : BoundedQueue α) (x : α) : (q.trySend x).1.room = q.room - 1 := by
  rw [room, room, isOpen_trySend, capacity_trySend, buffer_trySend, accepts]
  cases q.isOpen with
  | false => rfl
  | true =>
      by_cases free : q.buffer.length < q.capacity
      · simp [free]
        omega
      · simp [free]
        omega

@[simp] theorem buffer_new (capacity : Nat) : (new capacity : BoundedQueue α).buffer = [] := rfl

end BoundedQueue

end WsFanout.Lib
