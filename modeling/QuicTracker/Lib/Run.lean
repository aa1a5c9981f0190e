import Mathlib.Tactic

/-!
This module contains runs of a deterministic machine whose steps can fail, and the induction that
lifts an invariant from one step to a whole run. The invariant may depend on the inputs so far.
-/

namespace Run

variable {σ ι : Type} (step : σ → ι → Option σ)

def run (s : σ) (is : List ι) : Option σ := is.foldlM step s

/-- Every step of the run starts in a state that allows its input. -/
def Guarded (ok : σ → ι → Prop) (s : σ) (is : List ι) : Prop :=
  match is with
  | [] => True
  | i :: is => ok s i ∧ ∀ s', step s i = some s' → Guarded ok s' is

instance Guarded.decidable (ok : σ → ι → Prop) [∀ s i, Decidable (ok s i)] (s : σ) (is : List ι) :
    Decidable (Guarded step ok s is) :=
  match is with
  | [] => isTrue trivial
  | i :: is =>
    have : Decidable (∀ s', step s i = some s' → Guarded step ok s' is) :=
      match h : step s i with
      | none => isTrue (by simp)
      | some s' =>
        have := Guarded.decidable ok s' is
        decidable_of_iff (Guarded step ok s' is) (by simp)
    inferInstanceAs (Decidable (_ ∧ _))

instance outcomeDecidable (r : Option σ) (p : σ → Prop) [DecidablePred p] :
    Decidable (∃ s, r = some s ∧ p s) :=
  match r with
  | none => isFalse (by simp)
  | some s => decidable_of_iff (p s) (by simp)

instance everyOutcomeDecidable (r : Option σ) (p : σ → Prop) [DecidablePred p] :
    Decidable (∀ s, r = some s → p s) :=
  match r with
  | none => isTrue (by simp)
  | some s => decidable_of_iff (p s) (by simp)

@[simp]
theorem run_nil (s : σ) : run step s [] = some s := by
  rfl

theorem run_cons (s : σ) (i : ι) (is : List ι)
    : run step s (i :: is) = (step s i).bind (fun s' => run step s' is) := by
  rfl

theorem run_append (s : σ) (is is' : List ι)
    : run step s (is ++ is') = (run step s is).bind (fun s' => run step s' is') := by
  unfold run
  rw [List.foldlM_append]
  rfl

theorem Guarded.append {ok : σ → ι → Prop} {s : σ} {is is' : List ι} (h : Guarded step ok s (is ++ is'))
    : Guarded step ok s is ∧ ∀ s', run step s is = some s' → Guarded step ok s' is' := by
  induction is generalizing s with
  | nil =>
    refine ⟨trivial, ?_⟩
    intro s' hs'
    injection hs' with hs'
    rw [← hs']
    exact h
  | cons i is ih =>
    refine ⟨⟨h.1, fun s₁ hs₁ => (ih (h.2 s₁ hs₁)).1⟩, ?_⟩
    intro s' hs'
    rw [run_cons] at hs'
    rcases Option.bind_eq_some_iff.mp hs' with ⟨s₁, hs₁, hs'⟩
    exact (ih (h.2 s₁ hs₁)).2 s' hs'

theorem Guarded.take {ok : σ → ι → Prop} {s : σ} {is : List ι} (h : Guarded step ok s is) (n : Nat)
    : Guarded step ok s (is.take n) := by
  induction is generalizing s n with
  | nil => simpa using h
  | cons i is ih =>
    cases n with
    | zero => simp [Guarded]
    | succ n =>
      rw [List.take_succ_cons]
      refine ⟨h.1, ?_⟩
      intro s' hs'
      apply ih
      exact h.2 s' hs'

theorem Guarded.mono {ok ok' : σ → ι → Prop} {s : σ} {is : List ι} (h : Guarded step ok s is)
    (himp : ∀ s i, i ∈ is → ok s i → ok' s i)
    : Guarded step ok' s is := by
  induction is generalizing s with
  | nil => trivial
  | cons i is ih =>
    refine ⟨himp s i (by simp) h.1, ?_⟩
    intro s' hs'
    apply ih
    . exact h.2 s' hs'
    . intro s j hj
      apply himp
      simp [hj]

theorem Guarded.of_forall {ok : σ → ι → Prop} {is : List ι} (h : ∀ i ∈ is, ∀ s, ok s i) (s : σ)
    : Guarded step ok s is := by
  induction is generalizing s with
  | nil => trivial
  | cons i is ih =>
    refine ⟨h i (by simp) s, ?_⟩
    intro s' _
    apply ih
    intro j hj
    apply h
    simp [hj]

theorem run_of_step {ok : σ → ι → Prop} {inv : List ι → σ → Prop}
    (hstep : ∀ hist s i, inv hist s → ok s i → ∃ s', step s i = some s' ∧ inv (hist ++ [i]) s')
    (hist : List ι) (s : σ) (is : List ι) (hs : inv hist s) (hok : Guarded step ok s is)
    : ∃ s', run step s is = some s' ∧ inv (hist ++ is) s' := by
  induction is generalizing hist s with
  | nil => exact ⟨s, rfl, by simpa using hs⟩
  | cons i is ih =>
    rcases hstep hist s i hs hok.1 with ⟨s1, hs1, hinv⟩
    rcases ih (hist ++ [i]) s1 hinv (hok.2 s1 hs1) with ⟨s2, hs2, hinv2⟩
    refine ⟨s2, ?_, by simpa using hinv2⟩
    rw [run_cons]
    rw [hs1]
    exact hs2

theorem Guarded.and {ok ok' : σ → ι → Prop} {s : σ} {is : List ι} (h : Guarded step ok s is)
    (h' : Guarded step ok' s is)
    : Guarded step (fun s i => ok s i ∧ ok' s i) s is := by
  induction is generalizing s with
  | nil => trivial
  | cons i is ih =>
    refine ⟨⟨h.1, h'.1⟩, ?_⟩
    intro s' hs'
    apply ih
    . exact h.2 s' hs'
    . exact h'.2 s' hs'

theorem inv_of_run {ok : σ → ι → Prop} {inv : List ι → σ → Prop}
    (hstep : ∀ hist s i s', inv hist s → ok s i → step s i = some s' → inv (hist ++ [i]) s')
    (hist : List ι) (s : σ) (is : List ι) (hs : inv hist s) (hok : Guarded step ok s is) {s' : σ}
    (hrun : run step s is = some s')
    : inv (hist ++ is) s' := by
  induction is generalizing hist s with
  | nil =>
    injection hrun with hrun
    rw [← hrun]
    simpa using hs
  | cons i is ih =>
    rw [run_cons] at hrun
    rcases Option.bind_eq_some_iff.mp hrun with ⟨s1, hs1, hrun⟩
    have hinv := hstep hist s i s1 hs hok.1 hs1
    simpa using ih (hist ++ [i]) s1 hinv (hok.2 s1 hs1) hrun

theorem guarded_of_inv {ok : σ → ι → Prop} {inv : List ι → σ → Prop}
    (hstep : ∀ hist s i s', inv hist s → step s i = some s' → inv (hist ++ [i]) s' → ok s i)
    (hist : List ι) (s : σ) (is : List ι) {s' : σ} (hrun : run step s is = some s')
    (hinv : ∀ n s', run step s (is.take n) = some s' → inv (hist ++ is.take n) s')
    : Guarded step ok s is := by
  induction is generalizing hist s with
  | nil => trivial
  | cons i is ih =>
    rw [run_cons] at hrun
    rcases Option.bind_eq_some_iff.mp hrun with ⟨s1, hs1, hrun⟩
    have hnext (n : Nat) : run step s ((i :: is).take (n + 1)) = run step s1 (is.take n) := by
      rw [List.take_succ_cons, run_cons, hs1, Option.bind_some]
    have hs := hinv 0 s rfl
    have hs1' := hinv 1 s1 (by rw [hnext]; rfl)
    refine ⟨hstep hist s i s1 (by simpa using hs) hs1 (by simpa using hs1'), ?_⟩
    intro s2 hs2
    rw [hs1] at hs2
    injection hs2 with hs2
    rw [← hs2]
    apply ih (hist ++ [i]) s1 hrun
    intro n s3 hs3
    have hs3' := hinv (n + 1) s3 (by rw [hnext, hs3])
    simpa using hs3'

theorem invariant_of_run {kind : ι → Prop} {inv : σ → Prop}
    (hstep : ∀ s i s', kind i → inv s → step s i = some s' → inv s') {s s' : σ} {is : List ι}
    (hkind : ∀ i ∈ is, kind i) (hs : inv s) (hrun : run step s is = some s')
    : inv s' := by
  induction is generalizing s with
  | nil =>
    injection hrun with hrun
    rw [← hrun]
    exact hs
  | cons i is ih =>
    rw [run_cons] at hrun
    rcases Option.bind_eq_some_iff.mp hrun with ⟨s1, hs1, hrun⟩
    rw [List.forall_mem_cons] at hkind
    exact ih hkind.2 (hstep s i s1 hkind.1 hs hs1) hrun

/-- One part of the state moves as another machine does, on inputs of its own that show the same. -/
theorem run_projects {σ' ι' ρ : Type} (step' : σ' → ι' → Option σ') {ok : σ → ι → Prop}
    {inv : List ι → σ → Prop} (part : σ → σ') (shown : ι → List ρ) (shown' : ι' → List ρ)
    (hinv : ∀ hist s i s', inv hist s → ok s i → step s i = some s' → inv (hist ++ [i]) s')
    (hstep : ∀ hist s i s', inv hist s → ok s i → step s i = some s' →
      ∃ is', run step' (part s) is' = some (part s') ∧ is'.flatMap shown' = shown i)
    (hist : List ι) (s : σ) (is : List ι) (hs : inv hist s) (hok : Guarded step ok s is) {s' : σ}
    (hrun : run step s is = some s')
    : ∃ is', run step' (part s) is' = some (part s') ∧ is'.flatMap shown' = is.flatMap shown := by
  induction is generalizing hist s with
  | nil =>
    injection hrun with hrun
    rw [← hrun]
    exact ⟨[], rfl, rfl⟩
  | cons i is ih =>
    rw [run_cons] at hrun
    rcases Option.bind_eq_some_iff.mp hrun with ⟨s1, hs1, hrun⟩
    rcases hstep hist s i s1 hs hok.1 hs1 with ⟨first, hfirst, hshown⟩
    rcases ih (hist ++ [i]) s1 (hinv hist s i s1 hs hok.1 hs1) (hok.2 s1 hs1) hrun
      with ⟨rest, hrest, hshown'⟩
    refine ⟨first ++ rest, ?_, ?_⟩
    . rw [run_append, hfirst, Option.bind_some, hrest]
    . rw [List.flatMap_append, List.flatMap_cons, hshown, hshown']

theorem run_total (f : σ → ι → σ) (s : σ) (is : List ι)
    : run (fun s i => some (f s i)) s is = some (is.foldl f s) := by
  induction is generalizing s with
  | nil => rfl
  | cons i is ih =>
    rw [run_cons]
    exact ih (f s i)

end Run
