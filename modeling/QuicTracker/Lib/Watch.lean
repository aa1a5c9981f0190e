import Mathlib.Tactic

/-!
This module contains loops that handle one input after the other until a step leaves the loop. A step that
fails is `none`.
-/

namespace Watch

variable {σ ι : Type} (step : σ → ι → Option (ForInStep σ))

/-- The loop waits for the next input at `yield`, and was left at `done`. -/
def scan (s : σ) (is : List ι) : Option (ForInStep σ) :=
  (ForInStep.yield s).bindList (fun i s => step s i) is

def watch (s : σ) (is : List ι) : Option σ := (scan step s is).map ForInStep.run

@[simp]
theorem scan_nil (s : σ) : scan step s [] = some (.yield s) := by
  rfl

theorem scan_cons (s : σ) (i : ι) (is : List ι)
    : scan step s (i :: is) = (step s i).bind (fun r => r.bind (fun s' => scan step s' is)) := by
  unfold scan
  rw [ForInStep.bindList_cons, ForInStep.bind_yield]
  simp only [ForInStep.bind_yield_bindList]
  rfl

theorem scan_cons_yield {s s' : σ} {i : ι} (h : step s i = some (.yield s')) (is : List ι)
    : scan step s (i :: is) = scan step s' is := by
  rw [scan_cons, h]
  rfl

theorem scan_cons_done {s s' : σ} {i : ι} (h : step s i = some (.done s')) (is : List ι)
    : scan step s (i :: is) = some (.done s') := by
  rw [scan_cons, h]
  rfl

theorem scan_append (s : σ) (is is' : List ι)
    : scan step s (is ++ is') = (scan step s is).bind (fun r => r.bind (fun s' => scan step s' is')) := by
  unfold scan
  rw [ForInStep.bindList_append]
  simp only [ForInStep.bind_yield_bindList]
  rfl

/-- A loop in the body of a loop. Leaving the inner one leaves both. -/
theorem scan_flatMap {κ : Type} (view : κ → List ι) (s : σ) (ks : List κ)
    : scan (fun s k => scan step s (view k)) s ks = scan step s (ks.flatMap view) := by
  induction ks generalizing s with
  | nil => rfl
  | cons k ks ih =>
    rw [List.flatMap_cons]
    rw [scan_cons, scan_append]
    simp only [ih]

theorem watch_search {decides : ι → Option (σ → σ)}
    (hskip : ∀ s i, decides i = none → step s i = some (.yield s))
    (hdone : ∀ s i f, decides i = some f → step s i = some (.done (f s))) (s : σ) (is : List ι)
    : watch step s is = some ((is.findSome? decides).elim s (fun f => f s)) := by
  unfold watch
  induction is with
  | nil => rfl
  | cons i is ih =>
    cases hi : decides i with
    | none =>
      rw [scan_cons_yield step (hskip s i hi)]
      rw [List.findSome?_cons_of_isNone (by rw [hi]; rfl)]
      exact ih
    | some f =>
      rw [scan_cons_done step (hdone s i f hi)]
      rw [List.findSome?_cons, hi]
      rfl

/-- The invariant holds until the loop is left, and the step that leaves it makes `left` true. -/
theorem scan_rule {inv left : List ι → σ → Prop}
    (hyield : ∀ hist s i s', inv hist s → step s i = some (.yield s') → inv (hist ++ [i]) s')
    (hdone : ∀ hist s i s', inv hist s → step s i = some (.done s') → left (hist ++ [i]) s')
    {hist : List ι} {s : σ} {is : List ι} (hs : inv hist s) {r : ForInStep σ} (hscan : scan step s is = some r)
    : (∃ s', r = .yield s' ∧ inv (hist ++ is) s') ∨
      ∃ s' seen rest, r = .done s' ∧ is = seen ++ rest ∧ left (hist ++ seen) s' := by
  induction is generalizing hist s with
  | nil =>
    injection hscan with hscan
    refine Or.inl ⟨s, hscan.symm, ?_⟩
    simpa using hs
  | cons i is ih =>
    rcases hstep : step s i with _ | ⟨s1⟩ | ⟨s1⟩
    . rw [scan_cons, hstep] at hscan
      contradiction
    . rw [scan_cons_done step hstep] at hscan
      injection hscan with hscan
      refine Or.inr ⟨s1, [i], is, hscan.symm, rfl, ?_⟩
      exact hdone hist s i s1 hs hstep
    . rw [scan_cons_yield step hstep] at hscan
      rcases ih (hyield hist s i s1 hs hstep) hscan with ⟨s', hr, hinv⟩ | ⟨s', seen, rest, hr, his, hleft⟩
      . refine Or.inl ⟨s', hr, ?_⟩
        simpa using hinv
      . refine Or.inr ⟨s', i :: seen, rest, hr, by rw [his]; rfl, ?_⟩
        simpa using hleft

theorem invariant_of_scan {inv : σ → Prop}
    (hstep : ∀ s i s', inv s → step s i = some (.yield s') → inv s') {s s' : σ} {is : List ι} (hs : inv s)
    (h : scan step s is = some (.yield s'))
    : inv s' := by
  induction is generalizing s with
  | nil =>
    injection h with h
    injection h with h
    rw [← h]
    exact hs
  | cons i is ih =>
    rcases hi : step s i with _ | ⟨s1⟩ | ⟨s1⟩
    . rw [scan_cons, hi] at h
      contradiction
    . rw [scan_cons_done step hi] at h
      injection h with h
      contradiction
    . rw [scan_cons_yield step hi] at h
      exact ih (hstep s i s1 hs hi) h

end Watch
