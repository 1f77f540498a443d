import WsFanout.Lib.Keyed

/-!
# An inverted index kept in step with a family of sets

Every key `k` of a type `K` has a finite set `sets k : Finset C`.  The index answers the converse
question, which keys have `c` in their set, with one map lookup.  `Index.link` and `Index.unlink`
update it one element at a time; an entry that becomes empty is deleted, so the index holds no
trace of an element that no key has.

`Inverts sets m` says that `m` is the index of `sets`.  The three rules show what a loop of links
or unlinks for one key does to it: the index follows the change of that key's set.
-/

namespace WsFanout.Lib

universe u v

/-- For each element the keys that have it. -/
abbrev Index (C : Type u) (K : Type v) := Finmap fun _ : C => Finset K

namespace Index

variable {C : Type u} {K : Type v} [DecidableEq C] [DecidableEq K]

/-- The keys the index lists for `c`. -/
def members (m : Index C K) (c : C) : Finset K :=
  (m.lookup c).getD ∅

/-- List `k` under `c`, creating the entry if there is none. -/
def link (k : K) (m : Index C K) (c : C) : Index C K :=
  m.insert c (insert k ((m.lookup c).getD ∅))

/-- Take `k` out of the entry of `c`, and the entry out of the index once it is empty. -/
def unlink (k : K) (m : Index C K) (c : C) : Index C K :=
  match m.lookup c with
  | none => m
  | some set => if set.erase k = ∅ then m.erase c else m.insert c (set.erase k)

/-- What `unlink` leaves of the entry it visits. -/
def shrink (k : K) : Option (Finset K) → Option (Finset K)
  | none => none
  | some set => if set.erase k = ∅ then none else some (set.erase k)

theorem lookup_link (k : K) (m : Index C K) (c d : C) :
    (link k m c).lookup d = if d = c then some (insert k (m.members c)) else m.lookup d :=
  Finmap.lookup_insert_ite m c d _

theorem lookup_unlink (k : K) (m : Index C K) (c d : C) :
    (unlink k m c).lookup d = if d = c then shrink k (m.lookup c) else m.lookup d := by
  unfold unlink
  cases found : m.lookup c with
  | none =>
      rcases eq_or_ne d c with rfl | same
      · simp [shrink, found]
      · simp [same]
  | some set =>
      by_cases last : set.erase k = ∅
      · simp only [last, ↓reduceIte, shrink, Finmap.lookup_erase_ite]
      · simp only [last, ↓reduceIte, shrink, Finmap.lookup_insert_ite]

instance unlink_rightCommutative (k : K) : RightCommutative (unlink (C := C) k) where
  right_comm m a b := by
    refine Finmap.ext_lookup fun c => ?_
    simp only [lookup_unlink]
    by_cases hab : a = b
    · rw [hab]
    · by_cases ha : c = a <;> by_cases hb : c = b <;> simp_all

omit [DecidableEq C] in
theorem mem_shrink {k j : K} {entry : Option (Finset K)} :
    j ∈ (shrink k entry).getD ∅ ↔ j ≠ k ∧ j ∈ entry.getD ∅ := by
  cases entry with
  | none => simp [shrink]
  | some set =>
      by_cases last : set.erase k = ∅
      · have gone : j ∉ set.erase k := by simp [last]
        simp only [shrink, last, ↓reduceIte, Option.getD_none, Finset.notMem_empty,
          Option.getD_some, false_iff]
        simpa [Finset.mem_erase] using gone
      · simp [shrink, last, Finset.mem_erase]

theorem shrink_ne_empty {k : K} {entry : Option (Finset K)} {set : Finset K}
    (kept : shrink k entry = some set) : set ≠ ∅ := by
  cases entry with
  | none => cases kept
  | some old =>
      simp only [shrink] at kept
      split at kept
      · cases kept
      · cases kept
        assumption

@[simp] theorem mem_members_link {k j : K} {m : Index C K} {c d : C} :
    j ∈ (link k m c).members d ↔ (d = c ∧ j = k) ∨ j ∈ m.members d := by
  unfold members
  rw [lookup_link]
  rcases eq_or_ne d c with rfl | same
  · simp [members]
  · simp [same]

@[simp] theorem mem_members_unlink {k j : K} {m : Index C K} {c d : C} :
    j ∈ (unlink k m c).members d ↔ ¬(d = c ∧ j = k) ∧ j ∈ m.members d := by
  unfold members
  rw [lookup_unlink]
  rcases eq_or_ne d c with rfl | same
  · simp [mem_shrink]
  · simp [same]

theorem mem_members_foldl_link {k j : K} {m : Index C K} {cs : List C} {d : C} :
    j ∈ (cs.foldl (link k) m).members d ↔ (d ∈ cs ∧ j = k) ∨ j ∈ m.members d := by
  induction cs generalizing m with
  | nil => simp
  | cons c cs ih =>
      rw [List.foldl_cons, ih, mem_members_link, List.mem_cons]
      tauto

/-- The entries after a loop of links for one key. -/
theorem lookup_foldl_link {k : K} {m : Index C K} {cs : List C} (d : C) :
    (cs.foldl (link k) m).lookup d =
      if d ∈ cs then some (insert k (m.members d)) else m.lookup d := by
  induction cs generalizing m with
  | nil => simp
  | cons c cs ih =>
      rw [List.foldl_cons, ih, lookup_link]
      by_cases later : d ∈ cs
      · rw [if_pos later, if_pos (List.mem_cons_of_mem c later)]
        refine congrArg some ?_
        ext j
        simp only [Finset.mem_insert, mem_members_link]
        tauto
      · rw [if_neg later]
        rcases eq_or_ne d c with rfl | other
        · simp
        · simp [other, later]

theorem mem_members_foldl_unlink {k j : K} {m : Index C K} {cs : List C} {d : C} :
    j ∈ (cs.foldl (unlink k) m).members d ↔ ¬(d ∈ cs ∧ j = k) ∧ j ∈ m.members d := by
  induction cs generalizing m with
  | nil => simp
  | cons c cs ih =>
      rw [List.foldl_cons, ih, mem_members_unlink, List.mem_cons]
      tauto

theorem mem_members_foldl_unlink_finset {k j : K} {m : Index C K} {cs : Finset C} {d : C} :
    j ∈ (cs.val.foldl (unlink k) m).members d ↔ ¬(d ∈ cs ∧ j = k) ∧ j ∈ m.members d := by
  refine cs.foldl_induction (unlink k)
    (P := fun done acc => j ∈ acc.members d ↔ ¬(d ∈ done ∧ j = k) ∧ j ∈ m.members d) m
    (by simp) ?_
  intro done acc c _ ih
  rw [mem_members_unlink, ih, Finset.mem_insert]
  tauto

/-- `m` is the index of the family `sets`, and holds no empty entry. -/
structure Inverts (sets : K → Finset C) (m : Index C K) : Prop where
  mem_members : ∀ c k, k ∈ m.members c ↔ c ∈ sets k
  nonempty : ∀ {c set}, m.lookup c = some set → set ≠ ∅

namespace Inverts

variable {sets : K → Finset C} {m : Index C K}

omit [DecidableEq K] in
theorem empty : Inverts (fun _ => (∅ : Finset C)) (∅ : Index C K) where
  mem_members := by simp [members]
  nonempty found := by simp at found

omit [DecidableEq K] in
/-- Two families with the same sets have the same index. -/
theorem congr (inverts : Inverts sets m) {sets' : K → Finset C} (same : ∀ k, sets' k = sets k) :
    Inverts sets' m := by
  rwa [funext same]

/-- A family has one index. -/
theorem unique {m' : Index C K} (left : Inverts sets m) (right : Inverts sets m') : m = m' := by
  have members : ∀ c, m.members c = m'.members c := by
    intro c
    ext k
    rw [left.mem_members, right.mem_members]
  -- an entry that is there is not empty, so the members say whether it is there
  have entry : ∀ {m : Index C K}, Inverts sets m → ∀ c,
      m.lookup c = if m.members c = ∅ then none else some (m.members c) := by
    intro m inverts c
    cases found : m.lookup c with
    | none => simp [Index.members, found]
    | some set => simp [Index.members, found, inverts.nonempty found]
  refine Finmap.ext_lookup fun c => ?_
  rw [entry left, entry right, members]

omit [DecidableEq K] in
/-- The index lists no more elements than the sets have. -/
theorem keys_subset (inverts : Inverts sets m) {ks : Finset K}
    (covers : ∀ k c, c ∈ sets k → k ∈ ks) : m.keys ⊆ ks.biUnion sets := by
  intro c listed
  obtain ⟨set, found⟩ := Finmap.mem_keys_iff.mp listed
  obtain ⟨k, mem⟩ := Finset.nonempty_iff_ne_empty.mpr (inverts.nonempty found)
  have held : c ∈ sets k := by
    rw [← inverts.mem_members]
    simpa [members, found] using mem
  exact Finset.mem_biUnion.mpr ⟨k, covers k c held, held⟩

theorem link (inverts : Inverts sets m) (k : K) (c : C) :
    Inverts (Function.update sets k (insert c (sets k))) (link k m c) where
  mem_members d j := by
    rw [mem_members_link, inverts.mem_members]
    rcases eq_or_ne j k with rfl | same
    · simp
    · simp [same]
  nonempty {d set} found := by
    rw [lookup_link] at found
    split at found
    · cases found
      exact Finset.insert_ne_empty _ _
    · exact inverts.nonempty found

theorem unlink (inverts : Inverts sets m) (k : K) (c : C) :
    Inverts (Function.update sets k ((sets k).erase c)) (unlink k m c) where
  mem_members d j := by
    rw [mem_members_unlink, inverts.mem_members]
    rcases eq_or_ne j k with rfl | same
    · simp
    · simp [same]
  nonempty {d set} found := by
    rw [lookup_unlink] at found
    split at found
    · exact shrink_ne_empty found
    · exact inverts.nonempty found

/-- A loop of links for one key adds the listed elements to its set. -/
theorem link_list (inverts : Inverts sets m) (k : K) (cs : List C) :
    Inverts (Function.update sets k (sets k ∪ cs.toFinset)) (cs.foldl (Index.link k) m) := by
  induction cs generalizing sets m with
  | nil => simpa using inverts
  | cons c cs ih =>
      refine (ih (inverts.link k c)).congr fun j => ?_
      rcases eq_or_ne j k with rfl | same
      · simp
      · simp [same]

/-- A loop of unlinks for one key takes the listed elements out of its set. -/
theorem unlink_list (inverts : Inverts sets m) (k : K) (cs : List C) :
    Inverts (Function.update sets k (sets k \ cs.toFinset)) (cs.foldl (Index.unlink k) m) := by
  induction cs generalizing sets m with
  | nil => simpa using inverts
  | cons c cs ih =>
      refine (ih (inverts.unlink k c)).congr fun j => ?_
      rcases eq_or_ne j k with rfl | same
      · ext d
        simp only [Function.update_self, Finset.mem_sdiff, List.toFinset_cons, Finset.mem_insert,
          Finset.mem_erase]
        tauto
      · simp [same]

/-- The same loop over a set, in whatever order. -/
theorem unlink_finset (inverts : Inverts sets m) (k : K) (cs : Finset C) :
    Inverts (Function.update sets k (sets k \ cs)) (cs.val.foldl (Index.unlink k) m) := by
  refine cs.foldl_induction (Index.unlink k)
    (P := fun done acc => Inverts (Function.update sets k (sets k \ done)) acc) m
    (by simpa using inverts) ?_
  intro done acc c _ ih
  refine (ih.unlink k c).congr fun j => ?_
  rcases eq_or_ne j k with rfl | same
  · ext d
    simp only [Function.update_self, Finset.mem_sdiff, Finset.mem_insert, Finset.mem_erase]
    tauto
  · simp [same]

end Inverts

end Index

end WsFanout.Lib
