import Mathlib.Tactic

/-!
This module contains queues that several users share. An element stands next to the key of the user it is
for, a user only sees the elements with their own key.
-/

namespace Shared

variable {κ α : Type} [DecidableEq κ]

def seenBy (key : κ) (queue : List (κ × α)) : List α :=
  queue.filterMap fun x => if x.1 = key then some x.2 else none

@[simp]
theorem seenBy_nil (key : κ) : seenBy key ([] : List (κ × α)) = [] := by
  rfl

@[simp]
theorem seenBy_append (key : κ) (queue queue' : List (κ × α))
    : seenBy key (queue ++ queue') = seenBy key queue ++ seenBy key queue' := by
  unfold seenBy
  rw [List.filterMap_append]

theorem seenBy_cons (key : κ) (x : κ × α) (queue : List (κ × α))
    : seenBy key (x :: queue) = if x.1 = key then x.2 :: seenBy key queue else seenBy key queue := by
  unfold seenBy
  rw [List.filterMap_cons]
  by_cases hx : x.1 = key
  . simp [hx]
  . simp [hx]

@[simp]
theorem seenBy_cons_self (key : κ) (x : α) (queue : List (κ × α))
    : seenBy key ((key, x) :: queue) = x :: seenBy key queue := by
  rw [seenBy_cons, if_pos rfl]

theorem seenBy_cons_of_ne {key key' : κ} (h : key' ≠ key) (x : α) (queue : List (κ × α))
    : seenBy key ((key', x) :: queue) = seenBy key queue := by
  rw [seenBy_cons, if_neg h]

theorem seenBy_map_self (key : κ) (xs : List α)
    : seenBy key (xs.map fun x => (key, x)) = xs := by
  induction xs with
  | nil => rfl
  | cons x xs ih => rw [List.map_cons, seenBy_cons_self, ih]

theorem seenBy_map_of_ne {key key' : κ} (h : key' ≠ key) (xs : List α)
    : seenBy key (xs.map fun x => (key', x)) = [] := by
  induction xs with
  | nil => rfl
  | cons x xs ih => rw [List.map_cons, seenBy_cons_of_ne h, ih]

theorem seenBy_eraseIdx_self {key : κ} {queue : List (κ × α)} {i : Nat} {x : α}
    (h : queue[i]? = some (key, x))
    : ∃ j, (seenBy key queue)[j]? = some x ∧
        seenBy key (queue.eraseIdx i) = (seenBy key queue).eraseIdx j := by
  rcases List.getElem?_eq_some_iff.mp h with ⟨hi, hget⟩
  have hqueue : queue = queue.take i ++ (key, x) :: queue.drop (i + 1) := by
    rw [← hget, List.getElem_cons_drop, List.take_append_drop]
  have hseen : seenBy key queue
      = seenBy key (queue.take i) ++ x :: seenBy key (queue.drop (i + 1)) := by
    rw [← seenBy_cons_self, ← seenBy_append, ← hqueue]
  refine ⟨(seenBy key (queue.take i)).length, ?_, ?_⟩
  . rw [hseen]
    simp
  . rw [List.eraseIdx_eq_take_drop_succ, seenBy_append, hseen]
    rw [List.eraseIdx_append_of_length_le (Nat.le_refl _)]
    simp

theorem seenBy_eraseIdx_of_ne {key key' : κ} (hne : key' ≠ key) {queue : List (κ × α)} {i : Nat} {x : α}
    (h : queue[i]? = some (key', x))
    : seenBy key (queue.eraseIdx i) = seenBy key queue := by
  rcases List.getElem?_eq_some_iff.mp h with ⟨hi, hget⟩
  have hqueue : queue = queue.take i ++ (key', x) :: queue.drop (i + 1) := by
    rw [← hget, List.getElem_cons_drop, List.take_append_drop]
  rw [List.eraseIdx_eq_take_drop_succ, seenBy_append]
  nth_rewrite 3 [hqueue]
  rw [seenBy_append, seenBy_cons_of_ne hne]

end Shared
