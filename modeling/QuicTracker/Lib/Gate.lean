import Mathlib.Data.List.Basic

/-!
This module contains a gate: what is put in front of it waits until the gate is released, afterwards it
passes at once. A gate does not forget what has waited, every further release lets it pass again.
-/

structure Gate (α : Type) where
  waiting : List α := []
  released : Bool := false
  out : List α := []

namespace Gate

variable {α : Type}

inductive Event (α : Type) where
  | put (a : α)
  | release

def step (g : Gate α) (e : Event α) : Gate α :=
  match e with
  | .put a =>
    if g.released then { g with out := g.out ++ [a] } else { g with waiting := g.waiting ++ [a] }
  | .release => { g with released := true, out := g.out ++ g.waiting }

def run (g : Gate α) (es : List (Event α)) : Gate α := es.foldl step g

@[simp]
theorem run_cons (g : Gate α) (e : Event α) (es : List (Event α))
    : run g (e :: es) = run (step g e) es := by
  rfl

theorem run_append (g : Gate α) (es fs : List (Event α)) : run g (es ++ fs) = run (run g es) fs := by
  unfold run
  rw [List.foldl_append]

def Event.put? (e : Event α) : Option α :=
  match e with
  | .put a => some a
  | .release => none

def arrivals (es : List (Event α)) : List α := es.filterMap Event.put?

@[simp]
theorem arrivals_put (a : α) (es : List (Event α)) : arrivals (.put a :: es) = a :: arrivals es := by
  rfl

@[simp]
theorem arrivals_release (es : List (Event α)) : arrivals (.release :: es) = arrivals es := by
  rfl

theorem arrivals_append (es fs : List (Event α))
    : arrivals (es ++ fs) = arrivals es ++ arrivals fs := by
  unfold arrivals
  rw [List.filterMap_append]

theorem step_put_of_released {g : Gate α} (hg : g.released = true) (a : α)
    : step g (.put a) = { g with out := g.out ++ [a] } := by
  simp [step, hg]

theorem step_put_of_not_released {g : Gate α} (hg : g.released = false) (a : α)
    : step g (.put a) = { g with waiting := g.waiting ++ [a] } := by
  simp [step, hg]

theorem run_of_not_released (g : Gate α) {es : List (Event α)} (hg : g.released = false)
    (hes : .release ∉ es)
    : run g es = { g with waiting := g.waiting ++ arrivals es } := by
  induction es generalizing g with
  | nil => simp [run, arrivals]
  | cons e es ih =>
    cases e with
    | put a =>
      rw [run_cons, step_put_of_not_released hg, ih _ (by exact hg) (by simpa using hes)]
      simp
    | release => simp at hes

theorem out_of_released (g : Gate α) {es : List (Event α)} (hg : g.released = true)
    (h : .release ∉ es ∨ g.waiting = [])
    : (run g es).out = g.out ++ arrivals es := by
  induction es generalizing g with
  | nil => simp [run, arrivals]
  | cons e es ih =>
    cases e with
    | put a =>
      rw [run_cons, step_put_of_released hg, ih _ (by exact hg) (by simpa using h)]
      simp
    | release =>
      have hwaiting : g.waiting = [] := by simpa using h
      rw [run_cons, ih _ (by rfl) (.inr (by exact hwaiting))]
      simp [step, hwaiting]

theorem le_length_out (g : Gate α) (es : List (Event α)) (hg : g.released = true)
    : g.out.length + (arrivals es).length ≤ (run g es).out.length := by
  induction es generalizing g with
  | nil => simp [run, arrivals]
  | cons e es ih =>
    cases e with
    | put a =>
      have := ih { g with out := g.out ++ [a] } hg
      rw [run_cons, step_put_of_released hg]
      simp at this ⊢
      omega
    | release =>
      have := ih (step g .release) rfl
      rw [run_cons]
      simp [step] at this ⊢
      omega

theorem le_length_out_of_release (g : Gate α) {es : List (Event α)} (hg : g.released = true)
    (hes : .release ∈ es)
    : g.out.length + g.waiting.length + (arrivals es).length ≤ (run g es).out.length := by
  induction es generalizing g with
  | nil => simp at hes
  | cons e es ih =>
    cases e with
    | put a =>
      have := ih { g with out := g.out ++ [a] } hg (by simpa using hes)
      rw [run_cons, step_put_of_released hg]
      simp at this ⊢
      omega
    | release =>
      have := le_length_out (step g .release) es rfl
      rw [run_cons]
      simp [step] at this ⊢
      omega

theorem out_of_released_iff (g : Gate α) {es : List (Event α)} (hg : g.released = true)
    : (run g es).out = g.out ++ arrivals es ↔ .release ∉ es ∨ g.waiting = [] := by
  constructor
  . intro h
    by_cases hes : .release ∈ es
    . have := le_length_out_of_release g hg hes
      rw [h, List.length_append] at this
      exact .inr (List.length_eq_zero_iff.mp (by omega))
    . exact .inl hes
  . exact out_of_released g hg

theorem out_of_not_released {es : List (Event α)} (hes : .release ∉ es)
    : (run ({} : Gate α) es).out = [] := by
  rw [run_of_not_released _ rfl hes]

/-- The first release lets everything pass that has waited until then. -/
theorem out_eq_arrivals_iff (before after : List (Event α)) (hbefore : .release ∉ before)
    : (run ({} : Gate α) (before ++ .release :: after)).out = arrivals (before ++ .release :: after) ↔
        .release ∉ after ∨ arrivals before = [] := by
  rw [run_append, run_of_not_released _ rfl hbefore, run_cons, arrivals_append, arrivals_release]
  exact out_of_released_iff (step _ .release) rfl

end Gate
