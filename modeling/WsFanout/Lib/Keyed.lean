import Mathlib.Data.Finmap
import Mathlib.Data.Finset.Card

/-!
# Finite maps read and updated key by key

What Mathlib's `Finmap` has no lemma for: the lookup of an insertion and of an erasure as one
conditional, the values of a map under a function, and a fold over a finite set of keys whose body
touches one key at a time.  A set has no order, so such a fold is only defined for a body whose
calls commute (`RightCommutative`); `Finset.foldl_induction` is its induction rule.
-/

universe u v w

namespace Finmap

variable {α : Type u} {β : Type v} {γ : Type w} [DecidableEq α]

theorem lookup_insert_ite (m : Finmap fun _ : α => β) (k a : α) (b : β) :
    (m.insert k b).lookup a = if a = k then some b else m.lookup a := by
  rcases eq_or_ne a k with rfl | same
  · simp
  · rw [if_neg same, lookup_insert_of_ne m same]

theorem lookup_erase_ite (m : Finmap fun _ : α => β) (k a : α) :
    (m.erase k).lookup a = if a = k then none else m.lookup a := by
  rcases eq_or_ne a k with rfl | same
  · simp
  · rw [if_neg same, lookup_erase_ne same]

/-- Without an entry for `k`, nothing is found under `k`. -/
theorem lookup_of_absent {m : Finmap fun _ : α => β} {k : α} (absent : m.lookup k = none)
    (a : α) : m.lookup a = if a = k then none else m.lookup a := by
  split
  · next same => rw [same, absent]
  · rfl

theorem insert_lookup_self {m : Finmap fun _ : α => β} {k : α} {b : β}
    (found : m.lookup k = some b) : m.insert k b = m := by
  refine ext_lookup fun a => ?_
  rw [lookup_insert_ite]
  split
  · next same => rw [same, found]
  · rfl

theorem mem_keys_iff {m : Finmap fun _ : α => β} {k : α} :
    k ∈ m.keys ↔ ∃ b, m.lookup k = some b := by
  rw [mem_keys, mem_iff]

omit [DecidableEq α] in
theorem nodupKeys_map (f : β → γ) (m : Finmap fun _ : α => β) :
    (m.entries.map fun e => (⟨e.1, f e.2⟩ : Sigma fun _ : α => γ)).NodupKeys := by
  rw [← Multiset.nodup_keys]
  have same : (m.entries.map fun e => (⟨e.1, f e.2⟩ : Sigma fun _ : α => γ)).keys =
      m.entries.keys := by
    simp [Multiset.keys, Multiset.map_map]
  rw [same]
  exact Multiset.nodup_keys.mpr m.nodupKeys

/-- The map with a function applied to every value. -/
def mapVals (f : β → γ) (m : Finmap fun _ : α => β) : Finmap fun _ : α => γ :=
  ⟨m.entries.map fun e => ⟨e.1, f e.2⟩, nodupKeys_map f m⟩

@[simp] theorem lookup_mapVals (f : β → γ) (m : Finmap fun _ : α => β) (a : α) :
    (m.mapVals f).lookup a = (m.lookup a).map f := by
  refine Option.ext fun c => ?_
  rw [lookup_eq_some_iff, Option.map_eq_some_iff]
  simp only [mapVals, Multiset.mem_map]
  constructor
  · rintro ⟨⟨k, b⟩, member, eq⟩
    cases eq
    exact ⟨b, lookup_eq_some_iff.mpr member, rfl⟩
  · rintro ⟨b, found, rfl⟩
    exact ⟨⟨a, b⟩, lookup_eq_some_iff.mp found, rfl⟩

@[simp] theorem keys_mapVals (f : β → γ) (m : Finmap fun _ : α => β) :
    (m.mapVals f).keys = m.keys := by
  ext a
  simp [mem_keys_iff]

end Finmap

/-- A commutative fold over a finite set may visit any key last. -/
theorem Finset.foldl_insert {α : Type u} {δ : Type v} [DecidableEq α] (f : δ → α → δ)
    [RightCommutative f] {s : Finset α} {a : α} (fresh : a ∉ s) (init : δ) :
    (insert a s).val.foldl f init = f (s.val.foldl f init) a := by
  rw [Finset.insert_val_of_notMem fresh, ← Multiset.singleton_add, add_comm, Multiset.foldl_add]
  rfl

/-- Induction for a commutative fold over a finite set: what holds before any key was visited and
is kept by visiting a key not visited yet holds of the result, indexed by the visited set. -/
theorem Finset.foldl_induction {α : Type u} {δ : Type v} [DecidableEq α] (f : δ → α → δ)
    [RightCommutative f] {P : Finset α → δ → Prop} (s : Finset α) (init : δ) (empty : P ∅ init)
    (visit : ∀ (done : Finset α) (acc : δ) (a : α), a ∉ done → P done acc →
      P (insert a done) (f acc a)) :
    P s (s.val.foldl f init) := by
  induction s using Finset.induction_on with
  | empty => exact empty
  | insert a s fresh ih =>
      rw [Finset.foldl_insert f fresh]
      exact visit s _ a fresh ih
