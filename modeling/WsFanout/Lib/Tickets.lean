import Mathlib.Algebra.GroupWithZero.Nat
import Mathlib.Data.Finset.Card
import Mathlib.Data.List.Basic

/-!
# A list as a table of numbered entries

A table that only grows at its end: an entry is named by its place, its ticket, and is replaced
where it stands.  What is found under a ticket after each of the two updates, how many entries have
a property, and what a weight of the entries adds up to.
-/

namespace WsFanout.Lib.Tickets

universe u

variable {α : Type u} {table : List α} {ticket other : Nat} {old new found : α}

/-- What is found after one entry was replaced. -/
theorem of_set (here : (table.set ticket new)[other]? = some found) :
    (other = ticket ∧ found = new) ∨ (other ≠ ticket ∧ table[other]? = some found) := by
  rw [List.getElem?_set] at here
  split at here
  · next same =>
      split at here
      · cases here
        exact .inl ⟨same.symm, rfl⟩
      · cases here
  · next differs => exact .inr ⟨fun same => differs same.symm, here⟩

/-- What is found after one entry was added. -/
theorem of_concat (here : (table ++ [new])[other]? = some found) :
    (other = table.length ∧ found = new) ∨ (other < table.length ∧ table[other]? = some found) := by
  rcases Nat.lt_trichotomy other table.length with before | same | after
  · rw [List.getElem?_append_left before] at here
    exact .inr ⟨before, here⟩
  · subst same
    rw [List.getElem?_concat_length] at here
    cases here
    exact .inl ⟨rfl, rfl⟩
  · rw [List.getElem?_eq_none (by simp; omega)] at here
    cases here

theorem lt_length (here : table[ticket]? = some found) : ticket < table.length :=
  (List.getElem?_eq_some_iff.mp here).1

theorem set_self (here : table[ticket]? = some old) :
    (table.set ticket new)[ticket]? = some new :=
  List.getElem?_set_self (lt_length here)

/-- Replacing one entry leaves the others. -/
theorem set_old (here : table[other]? = some found) (differs : other ≠ ticket) :
    (table.set ticket new)[other]? = some found := by
  rw [List.getElem?_set_ne differs.symm]
  exact here

theorem set_same (here : table[ticket]? = some old) : table.set ticket old = table := by
  obtain ⟨within, rfl⟩ := List.getElem?_eq_some_iff.mp here
  exact List.set_getElem_self within

/-- An entry that was there stays where it was when one is added. -/
theorem concat_old (here : table[ticket]? = some old) : (table ++ [new])[ticket]? = some old := by
  rw [List.getElem?_append_left (lt_length here)]
  exact here

/-- The entries with a property, after one was replaced. -/
theorem countP_set (p : α → Bool) (new : α) (here : table[ticket]? = some old) :
    (table.set ticket new).countP p + (if p old then 1 else 0) =
      table.countP p + if p new then 1 else 0 := by
  induction table generalizing ticket with
  | nil => cases here
  | cons first rest ih =>
      cases ticket with
      | zero =>
          cases here
          simp only [List.set_cons_zero, List.countP_cons]
          omega
      | succ ticket =>
          have tail := ih here
          simp only [List.set_cons_succ, List.countP_cons]
          omega

/-- The weights of the entries, after one was replaced. -/
theorem sum_set (weight : α → Nat) (new : α) (here : table[ticket]? = some old) :
    ((table.set ticket new).map weight).sum + weight old =
      (table.map weight).sum + weight new := by
  induction table generalizing ticket with
  | nil => cases here
  | cons first rest ih =>
      cases ticket with
      | zero =>
          cases here
          simp only [List.set_cons_zero, List.map_cons, List.sum_cons]
          omega
      | succ ticket =>
          have tail := ih here
          simp only [List.set_cons_succ, List.map_cons, List.sum_cons]
          omega

/-- Entries that hold different members of a set are no more than the set has members. -/
theorem countP_le_card {β : Type u} [DecidableEq β] {held : α → Option β} {s : Finset β}
    (apart : ∀ {i j : Nat} {a b x}, table[i]? = some a → table[j]? = some b → held a = some x →
      held b = some x → i = j)
    (within : ∀ {a x}, a ∈ table → held a = some x → x ∈ s) :
    table.countP (fun a => (held a).isSome) ≤ s.card := by
  induction table generalizing s with
  | nil => exact Nat.zero_le _
  | cons first rest ih =>
      have shifted : ∀ {i j : Nat} {a b x}, rest[i]? = some a → rest[j]? = some b →
          held a = some x → held b = some x → i = j := fun here there first second =>
        Nat.succ.inj (apart (i := _ + 1) (j := _ + 1) here there first second)
      rw [List.countP_cons]
      cases holds : held first with
      | none =>
          rw [Option.isSome_none, if_neg Bool.false_ne_true]
          exact ih shifted fun member => within (List.mem_cons_of_mem _ member)
      | some x =>
          have listed := within List.mem_cons_self holds
          have fewer : rest.countP (fun a => (held a).isSome) ≤ (s.erase x).card := by
            refine ih shifted fun {a y} member holds' => ?_
            refine Finset.mem_erase.mpr ⟨?_, within (List.mem_cons_of_mem _ member) holds'⟩
            rintro rfl
            obtain ⟨i, found⟩ := List.mem_iff_getElem?.mp member
            cases apart (i := 0) (j := i + 1) rfl found holds holds'
          rw [Option.isSome_some, if_pos rfl]
          rw [Finset.card_erase_of_mem listed] at fewer
          have some := Finset.card_pos.mpr ⟨x, listed⟩
          omega

end WsFanout.Lib.Tickets
