import WsFanout.RegistryInvariant

/-!
# The id counter gone round

`2 ^ 64 + 1` calls of `add` issue the first id twice.  `wrapOps` is such a run: the first
connection subscribes to a channel and stays, and the last `add` overwrites its entry.  The channel
index still lists the id, so it no longer inverts the subscription sets.  The results about whole
runs are therefore stated for at most `2 ^ 64` calls, and this run shows that the bound is exact.
-/

namespace WsFanout

open Lib ConnectionId

variable {F : Type}

namespace Registry

/-- Connection `1` subscribes to `x`. -/
def joinOps : List (Op F) :=
  [.add "a" 1, .subscribe ⟨1⟩ ["x"] 1]

/-- Connection `1` subscribes to `x`; then `n + 1` more connections join. -/
def crowdOps (n : Nat) : List (Op F) :=
  joinOps ++ (List.replicate n (.add "b" 1) ++ [.add "b" 1])

/-- The crowd that makes the counter go round and issue the first id once more. -/
def wrapOps : List (Op F) :=
  crowdOps (2 ^ 64 - 1)

theorem run_crowdOps (n : Nat) :
    new.run (crowdOps n : List (Op F)) =
      (((new.run joinOps).run (List.replicate n (.add "b" 1))).add "b" 1).1 := by
  rw [crowdOps, run_append, run_append]
  rfl

/-- The counter is back at the first id just before the last `add`. -/
theorem nextId_before_wrap :
    ((new.run (joinOps : List (Op F))).run
      (List.replicate (2 ^ 64 - 1) (.add "b" 1))).nextId = 1 := by
  rw [(run_adds _ "b" 1 (2 ^ 64 - 1)).1]
  change (2 : UInt64) + UInt64.ofNat (2 ^ 64 - 1) = 1
  decide

/-- The last connection has the first one's id, no subscription, and a place in the index. -/
theorem run_wrapOps :
    (new.run (wrapOps : List (Op F))).connections.lookup ⟨1⟩ =
        some { subject := "b", subscriptions := ∅, tx := BoundedQueue.new 1, dropped := 0 } ∧
      (new.run (wrapOps : List (Op F))).byChannel.members "x" = {⟨1⟩} := by
  rw [wrapOps, run_crowdOps]
  refine ⟨?_, ?_⟩
  · rw [lookup_add, nextId_before_wrap, if_pos rfl]
  · rw [byChannel_add, (run_adds _ "b" 1 (2 ^ 64 - 1)).2.1]
    rfl

end Registry

end WsFanout
