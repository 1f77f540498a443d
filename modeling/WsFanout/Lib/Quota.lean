import Mathlib.Data.Finset.Card

/-!
# A set that grows up to a quota

A holder asks for elements one after the other.  An element it holds already costs nothing, a new
one is granted while the holder has fewer than `bound`, and later requests see the earlier grants.
`granted` says in one formula which elements are granted: the first new ones, in the order they were
first asked for, as many as there is room for.

* `granted_cons`: the formula follows the requests one by one.
* `granted_append`: two lists of requests are granted like one.
* `mem_granted`: an element is granted exactly when few enough new ones were asked for before it.
-/

namespace WsFanout.Lib

universe u

variable {α : Type u} [DecidableEq α]

/-- The elements of `wanted` granted to a holder of `held`, in order and each once. -/
def granted (bound : Nat) (held : Finset α) (wanted : List α) : List α :=
  (wanted.filter (· ∉ held)).eraseDups.take (bound - held.card)

@[simp] theorem granted_nil (bound : Nat) (held : Finset α) : granted bound held [] = [] := by
  simp [granted]

/-- Nothing is granted to a holder that has its quota. -/
theorem granted_of_full {bound : Nat} {held : Finset α} (full : bound ≤ held.card)
    (wanted : List α) : granted bound held wanted = [] := by
  rw [granted, Nat.sub_eq_zero_of_le full, List.take_zero]

theorem granted_cons_of_mem (bound : Nat) {held : Finset α} {a : α} (mem : a ∈ held)
    (wanted : List α) : granted bound held (a :: wanted) = granted bound held wanted := by
  rw [granted, List.filter_cons_of_neg (by simpa using mem), granted]

/-- A new element is granted while there is room, and is held from then on. -/
theorem granted_cons_of_notMem {bound : Nat} {held : Finset α} {a : α} (new : a ∉ held)
    (room : held.card < bound) (wanted : List α) :
    granted bound held (a :: wanted) = a :: granted bound (insert a held) wanted := by
  obtain ⟨k, rest⟩ : ∃ k, bound - held.card = k + 1 := ⟨bound - held.card - 1, by omega⟩
  have later : bound - (insert a held).card = k := by
    rw [Finset.card_insert_of_notMem new]
    omega
  rw [granted, List.filter_cons_of_pos (by simpa using new), List.eraseDups_cons, rest,
    List.take_succ_cons, granted, later, List.filter_filter]
  refine congrArg (fun l => a :: (List.eraseDups l).take k) (List.filter_congr fun b _ => ?_)
  by_cases same : b = a <;> simp [same]

/-- One request after the other. -/
theorem granted_cons (bound : Nat) (held : Finset α) (a : α) (wanted : List α) :
    granted bound held (a :: wanted) =
      if a ∈ held then granted bound held wanted
      else if bound ≤ held.card then []
      else a :: granted bound (insert a held) wanted := by
  by_cases mem : a ∈ held
  · rw [if_pos mem, granted_cons_of_mem bound mem]
  · rw [if_neg mem]
    by_cases full : bound ≤ held.card
    · rw [if_pos full, granted_of_full full]
    · rw [if_neg full, granted_cons_of_notMem mem (by omega)]

/-- The later of two lists of requests sees what the earlier was granted. -/
theorem granted_append (bound : Nat) (held : Finset α) (xs ys : List α) :
    granted bound held (xs ++ ys) =
      granted bound held xs ++ granted bound (held ∪ (granted bound held xs).toFinset) ys := by
  induction xs generalizing held with
  | nil => simp
  | cons a xs ih =>
      rw [List.cons_append, granted_cons, granted_cons]
      by_cases mem : a ∈ held
      · rw [if_pos mem, if_pos mem]
        exact ih held
      · rw [if_neg mem, if_neg mem]
        by_cases full : bound ≤ held.card
        · rw [if_pos full, if_pos full, List.toFinset_nil, Finset.union_empty,
            granted_of_full full, List.nil_append]
        · rw [if_neg full, if_neg full, ih, List.cons_append, List.toFinset_cons,
            Finset.union_insert, Finset.insert_union]

/-- What is granted was asked for and not held, and comes after fewer new elements than there was
room for. -/
theorem mem_granted {bound : Nat} {held : Finset α} {wanted : List α} {a : α} :
    a ∈ granted bound held wanted ↔
      a ∈ wanted ∧ a ∉ held ∧
        held.card + ((wanted.takeWhile (· ≠ a)).filter (· ∉ held)).toFinset.card < bound := by
  induction wanted generalizing held with
  | nil => simp
  | cons b wanted ih =>
      rw [granted_cons]
      by_cases mem : b ∈ held
      · rw [if_pos mem, ih]
        rcases eq_or_ne b a with rfl | other
        · simp [mem]
        · simp [mem, other, other.symm]
      · rw [if_neg mem]
        by_cases full : bound ≤ held.card
        · rw [if_pos full]
          constructor
          · intro none
            cases none
          · intro few
            omega
        · rw [if_neg full]
          rcases eq_or_ne b a with rfl | other
          · simp [mem]
            omega
          · -- `b` is new, and counts once among what comes before `a`
            have before : (((b :: wanted).takeWhile (· ≠ a)).filter (· ∉ held)).toFinset =
                insert b ((wanted.takeWhile (· ≠ a)).filter (· ∉ insert b held)).toFinset := by
              ext c
              rcases eq_or_ne c b with rfl | different
              · simp [other, mem]
              · simp [other, mem, different]
            have apart : b ∉ ((wanted.takeWhile (· ≠ a)).filter (· ∉ insert b held)).toFinset := by
              simp
            rw [before, Finset.card_insert_of_notMem apart, List.mem_cons, ih,
              Finset.card_insert_of_notMem mem, Finset.mem_insert, List.mem_cons]
            constructor
            · intro found
              rcases found with same | ⟨asked, fresh, few⟩
              · exact absurd same.symm other
              · exact ⟨.inr asked, fun old => fresh (.inr old), by omega⟩
            · intro found
              obtain ⟨asked, fresh, few⟩ := found
              rcases asked with same | asked
              · exact absurd same.symm other
              · refine .inr ⟨asked, fun old => ?_, by omega⟩
                rcases old with same | old
                · exact other same.symm
                · exact fresh old

theorem nodup_granted (bound : Nat) (held : Finset α) (wanted : List α) :
    (granted bound held wanted).Nodup := by
  induction wanted generalizing held with
  | nil => simp
  | cons a wanted ih =>
      rw [granted_cons]
      by_cases mem : a ∈ held
      · rw [if_pos mem]
        exact ih held
      · rw [if_neg mem]
        by_cases full : bound ≤ held.card
        · rw [if_pos full]
          exact List.nodup_nil
        · rw [if_neg full]
          refine List.nodup_cons.mpr ⟨fun again => ?_, ih (insert a held)⟩
          exact (mem_granted.mp again).2.1 (Finset.mem_insert_self a held)

end WsFanout.Lib
