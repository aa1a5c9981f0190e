import Mathlib.Data.Set.Card

/-!
This module contains a run-length code for sets of numbers. The numbers are listed downwards as blocks
of consecutive ones, a block stores how many numbers follow its largest one and how far it lies below
the previous block. The writer and the reader may disagree on the `bias` that a stored gap leaves out.
-/

namespace GapRuns

structure Block where
  gap : Nat
  block : Nat
  deriving DecidableEq, Repr

/-- The numbers of `blocks` when the block before them ends at `low`. -/
def Reads (bias : Nat) (low : Int) (blocks : List Block) (n : Int) : Prop :=
  match blocks with
  | [] => False
  | b :: blocks =>
    (low - b.gap - bias - b.block ≤ n ∧ n ≤ low - b.gap - bias) ∨
      Reads bias (low - b.gap - bias - b.block) blocks n

instance Reads.decidable (bias : Nat) (low : Int) (blocks : List Block) (n : Int) :
    Decidable (Reads bias low blocks n) :=
  match blocks with
  | [] => inferInstanceAs (Decidable False)
  | b :: blocks =>
    have := Reads.decidable bias (low - b.gap - bias - b.block) blocks n
    inferInstanceAs (Decidable (_ ∨ _))

def encode (bias previous : Nat) (b : Block) (numbers : List Nat) : List Block :=
  match numbers with
  | [] => [b]
  | n :: numbers =>
    if previous - n = 1 then
      encode bias n { b with block := b.block + 1 } numbers
    else
      b :: encode bias n ⟨previous - n - bias, 0⟩ numbers

/-- Every new block moves what follows down by `step`. -/
def shifted (step previous shift : Nat) (numbers : List Nat) : List Int :=
  match numbers with
  | [] => []
  | n :: numbers =>
    let shift := if previous - n = 1 then shift else shift + step
    (n - shift) :: shifted step n shift numbers

theorem reads_cons (bias : Nat) (low : Int) (b : Block) (blocks : List Block) (n : Int)
    : Reads bias low (b :: blocks) n ↔
        (low - b.gap - bias - b.block ≤ n ∧ n ≤ low - b.gap - bias) ∨
          Reads bias (low - b.gap - bias - b.block) blocks n := by
  rfl

theorem reads_encode {write read : Nat} (hwrite : write ≤ 2) (hle : write ≤ read)
    (previous shift : Nat) (b : Block) (low : Int) (numbers : List Nat)
    (hdesc : (previous :: numbers).Pairwise (· > ·))
    (hlow : low - b.gap - read = previous + b.block - shift) (n : Int)
    : Reads read low (encode write previous b numbers) n ↔
        (previous - shift ≤ n ∧ n ≤ previous + b.block - shift) ∨
          n ∈ shifted (read - write) previous shift numbers := by
  induction numbers generalizing previous shift b low with
  | nil =>
    simp only [encode, Reads, shifted, List.not_mem_nil, or_false]
    omega
  | cons m numbers ih =>
    rw [List.pairwise_cons] at hdesc
    have hm : previous > m := hdesc.1 m (by simp)
    unfold encode shifted
    split
    . next hnext =>
      have htail := ih m shift { b with block := b.block + 1 } low hdesc.2 (by dsimp; omega)
      have hrun : (m - shift ≤ n ∧ n ≤ m + (b.block + 1 : Nat) - shift) ↔
          (previous - shift ≤ n ∧ n ≤ previous + b.block - shift) ∨ n = m - shift := by
        omega
      rw [htail]
      rw [hrun]
      simp only [List.mem_cons, or_assoc]
    . next hbreak =>
      have htail := ih m (shift + (read - write)) ⟨previous - m - write, 0⟩
        (low - b.gap - read - b.block) hdesc.2 (by dsimp; omega)
      have hblock : (low - b.gap - read - b.block ≤ n ∧ n ≤ low - b.gap - read) ↔
          (previous - shift ≤ n ∧ n ≤ previous + b.block - shift) := by
        omega
      have hfirst : (m - (shift + (read - write) : Nat) ≤ n ∧
          n ≤ m + (0 : Nat) - (shift + (read - write) : Nat)) ↔
          n = m - (shift + (read - write) : Nat) := by
        omega
      rw [reads_cons]
      rw [htail]
      rw [hblock]
      rw [hfirst]
      rw [List.mem_cons]

theorem mem_shifted_zero (previous shift : Nat) (numbers : List Nat) (n : Int)
    : n ∈ shifted 0 previous shift numbers ↔ ∃ m ∈ numbers, n = m - shift := by
  induction numbers generalizing previous shift with
  | nil => simp [shifted]
  | cons m numbers ih =>
    simp only [shifted, Nat.add_zero, ite_self, List.mem_cons, ih]
    simp

theorem encode_bound (bias previous : Nat) (b : Block) (numbers : List Nat)
    (hdesc : (previous :: numbers).Pairwise (· > ·)) {c : Block}
    (h : c ∈ encode bias previous b numbers)
    : c.gap ≤ max b.gap previous ∧ c.block ≤ b.block + previous := by
  induction numbers generalizing previous b with
  | nil =>
    simp only [encode, List.mem_singleton] at h
    subst h
    omega
  | cons m numbers ih =>
    rw [List.pairwise_cons] at hdesc
    have hm : previous > m := hdesc.1 m (by simp)
    unfold encode at h
    split at h
    . have hc := ih m _ hdesc.2 h
      dsimp at hc
      omega
    . rw [List.mem_cons] at h
      cases h with
      | inl h =>
        subst h
        omega
      | inr h =>
        have hc := ih m _ hdesc.2 h
        dsimp at hc
        omega

theorem length_encode_le (bias previous : Nat) (b : Block) (numbers : List Nat)
    (hdesc : (previous :: numbers).Pairwise (· > ·))
    : (encode bias previous b numbers).length ≤ previous + 1 := by
  induction numbers generalizing previous b with
  | nil => simp [encode]
  | cons m numbers ih =>
    rw [List.pairwise_cons] at hdesc
    have hm : previous > m := hdesc.1 m (by simp)
    unfold encode
    split
    . have := ih m { b with block := b.block + 1 } hdesc.2
      omega
    . have := ih m ⟨previous - m - bias, 0⟩ hdesc.2
      rw [List.length_cons]
      omega

def span (bias : Nat) (blocks : List Block) : Nat :=
  (blocks.map fun b => b.gap + bias + b.block).sum

theorem span_cons (bias : Nat) (b : Block) (blocks : List Block)
    : span bias (b :: blocks) = b.gap + bias + b.block + span bias blocks := by
  unfold span
  rw [List.map_cons]
  rw [List.sum_cons]

theorem span_le {bias : Nat} {low : Int} (hlow : 0 ≤ low) (blocks : List Block)
    (h : ∀ n, Reads bias low blocks n → 0 ≤ n)
    : (span bias blocks : Int) ≤ low := by
  induction blocks generalizing low with
  | nil =>
    simp only [span, List.map_nil, List.sum_nil]
    omega
  | cons b blocks ih =>
    have hend : 0 ≤ low - b.gap - bias - b.block := by
      apply h
      rw [reads_cons]
      omega
    have htail := ih hend (fun n hn => h n ((reads_cons ..).mpr (Or.inr hn)))
    rw [span_cons]
    omega

theorem Reads.le {bias : Nat} {low n : Int} {blocks : List Block} (h : Reads bias low blocks n)
    : n ≤ low := by
  induction blocks generalizing low with
  | nil => exact h.elim
  | cons b blocks ih =>
    rw [reads_cons] at h
    cases h with
    | inl h => omega
    | inr h =>
      have := ih h
      omega

/-- The runs of `s` that lie completely above `r`, counted by their smallest numbers. -/
noncomputable def breaksAbove (s : Set Nat) (r : Nat) : Nat :=
  {x | x ∈ s ∧ r < x ∧ ∀ y ∈ s, y + 1 ≠ x}.ncard

theorem breaksAbove_eq_zero {s : Set Nat} {r : Nat} (h : ∀ x ∈ s, r < x → ∃ y ∈ s, y + 1 = x)
    : breaksAbove s r = 0 := by
  have hempty : {x | x ∈ s ∧ r < x ∧ ∀ y ∈ s, y + 1 ≠ x} = ∅ := by
    apply Set.eq_empty_of_forall_notMem
    intro x hx
    rcases h x hx.1 hx.2.1 with ⟨y, hy, heq⟩
    exact hx.2.2 y hy heq
  unfold breaksAbove
  rw [hempty]
  apply Set.ncard_empty

theorem breaksAbove_top {p : Nat} {numbers : List Nat} (hdesc : (p :: numbers).Pairwise (· > ·))
    : breaksAbove {x | x ∈ p :: numbers} p = 0 := by
  apply breaksAbove_eq_zero
  intro x hx hlt
  rcases List.mem_cons.mp hx with heq | hmem
  . omega
  . have := (List.pairwise_cons.mp hdesc).1 x hmem
    omega

theorem breaksAbove_cons {p m r : Nat} {numbers : List Nat}
    (hdesc : (p :: m :: numbers).Pairwise (· > ·)) (hr : r ∈ m :: numbers)
    : breaksAbove {x | x ∈ p :: m :: numbers} r
        = breaksAbove {x | x ∈ m :: numbers} r + if p - m = 1 then 0 else 1 := by
  rw [List.pairwise_cons] at hdesc
  have hlt : ∀ x ∈ m :: numbers, x < p := hdesc.1
  have hle : ∀ x ∈ m :: numbers, x ≤ m := by
    intro x hx
    rw [List.mem_cons] at hx
    cases hx with
    | inl hx => omega
    | inr hx => exact Nat.le_of_lt ((List.pairwise_cons.mp hdesc.2).1 x hx)
  have hm := hlt m (by simp)
  unfold breaksAbove
  simp only [Set.mem_ofPred_eq]
  split
  . next hnext =>
    congr 1
    apply Set.ext
    intro x
    simp only [Set.mem_ofPred_eq, List.forall_mem_cons]
    apply Iff.intro
    . intro hx
      rcases List.mem_cons.mp hx.1 with heq | hmem
      . have := hx.2.2.2.1
        omega
      . exact ⟨hmem, hx.2.1, hx.2.2.2⟩
    . intro hx
      have := hlt x hx.1
      exact ⟨List.mem_cons_of_mem p hx.1, hx.2.1, by omega, hx.2.2⟩
  . next hbreak =>
    have hnot : p ∉ {x | x ∈ m :: numbers ∧ r < x ∧ ∀ y ∈ m :: numbers, y + 1 ≠ x} := by
      intro hp
      have := hlt p hp.1
      omega
    have hfinite : {x | x ∈ m :: numbers ∧ r < x ∧ ∀ y ∈ m :: numbers, y + 1 ≠ x}.Finite := by
      apply Set.Finite.subset (List.finite_toSet (m :: numbers))
      intro x hx
      exact hx.1
    rw [← Set.ncard_insert_of_notMem hnot hfinite]
    congr 1
    apply Set.ext
    intro x
    simp only [Set.mem_ofPred_eq, Set.mem_insert_iff, List.forall_mem_cons]
    apply Iff.intro
    . intro hx
      rcases List.mem_cons.mp hx.1 with heq | hmem
      . exact Or.inl heq
      . exact Or.inr ⟨hmem, hx.2.1, hx.2.2.2⟩
    . intro hx
      cases hx with
      | inl heq =>
        have := hlt r hr
        refine ⟨by simp [heq], by omega, by omega, by omega, ?_⟩
        intro y hy
        have := hle y (List.mem_cons_of_mem m hy)
        omega
      | inr hx =>
        have := hlt x hx.1
        exact ⟨List.mem_cons_of_mem p hx.1, hx.2.1, by omega, hx.2.2⟩

theorem mem_shifted_one (previous shift : Nat) (numbers : List Nat)
    (hdesc : (previous :: numbers).Pairwise (· > ·)) (n : Int)
    : n ∈ shifted 1 previous shift numbers ↔
        ∃ r ∈ numbers, n = r - (shift + breaksAbove {x | x ∈ previous :: numbers} r : Nat) := by
  induction numbers generalizing previous shift with
  | nil => simp [shifted]
  | cons m numbers ih =>
    have htail := (List.pairwise_cons.mp hdesc).2
    have htop := breaksAbove_top htail
    have hbreaks : ∀ r ∈ m :: numbers, shift + breaksAbove {x | x ∈ previous :: m :: numbers} r
        = (if previous - m = 1 then shift else shift + 1) + breaksAbove {x | x ∈ m :: numbers} r := by
      intro r hr
      rw [breaksAbove_cons hdesc hr]
      split <;> omega
    unfold shifted
    dsimp only
    rw [List.mem_cons]
    rw [ih _ _ htail]
    apply Iff.intro
    . intro h
      cases h with
      | inl h =>
        refine ⟨m, by simp, ?_⟩
        rw [hbreaks m (by simp)]
        rw [htop]
        exact h
      | inr h =>
        rcases h with ⟨r, hr, h⟩
        refine ⟨r, List.mem_cons_of_mem m hr, ?_⟩
        rw [hbreaks r (List.mem_cons_of_mem m hr)]
        exact h
    . intro h
      rcases h with ⟨r, hr, h⟩
      rw [hbreaks r hr] at h
      rcases List.mem_cons.mp hr with heq | hmem
      . rw [heq] at h
        rw [htop] at h
        exact Or.inl h
      . exact Or.inr ⟨r, hmem, h⟩

theorem finite_breaks {s : Set Nat} (hs : s.Finite) (r : Nat)
    : {x | x ∈ s ∧ r < x ∧ ∀ y ∈ s, y + 1 ≠ x}.Finite := by
  apply Set.Finite.subset hs
  intro x hx
  exact hx.1

theorem breaksAbove_le {s : Set Nat} (hs : s.Finite) {m n : Nat} (h : m ≤ n)
    : breaksAbove s n ≤ breaksAbove s m := by
  apply Set.ncard_le_ncard
  . intro x hx
    exact ⟨hx.1, Nat.lt_of_le_of_lt h hx.2.1, hx.2.2⟩
  . apply finite_breaks hs

theorem breaksAbove_succ {s : Set Nat} {n : Nat} (h : n + 1 ∈ s → n ∈ s)
    : breaksAbove s n = breaksAbove s (n + 1) := by
  unfold breaksAbove
  congr 1
  apply Set.ext
  intro x
  simp only [Set.mem_ofPred_eq]
  apply and_congr_right
  intro hx
  apply and_congr_left
  intro hbreak
  have hne : x ≠ n + 1 := by
    intro heq
    rw [heq] at hx
    exact hbreak n (h hx) heq.symm
  omega

theorem breaksAbove_succ_of_break {s : Set Nat} (hs : s.Finite) {n : Nat} (hn : n ∉ s)
    (hnext : n + 1 ∈ s)
    : breaksAbove s n = breaksAbove s (n + 1) + 1 := by
  have hnot : n + 1 ∉ {x | x ∈ s ∧ n + 1 < x ∧ ∀ y ∈ s, y + 1 ≠ x} := by
    intro h
    exact Nat.lt_irrefl _ h.2.1
  unfold breaksAbove
  rw [← Set.ncard_insert_of_notMem hnot (finite_breaks hs _)]
  congr 1
  apply Set.ext
  intro x
  simp only [Set.mem_ofPred_eq, Set.mem_insert_iff]
  apply Iff.intro
  . intro hx
    cases Nat.lt_or_ge (n + 1) x with
    | inl hlt => exact Or.inr ⟨hx.1, hlt, hx.2.2⟩
    | inr hge => exact Or.inl (by omega)
  . intro hx
    cases hx with
    | inl heq =>
      refine ⟨by rw [heq]; exact hnext, by omega, ?_⟩
      intro y hy hsucc
      have : y = n := by omega
      exact hn (this ▸ hy)
    | inr hx => exact ⟨hx.1, by omega, hx.2.2⟩

theorem breaksAbove_image {s : Set Nat} {f : Nat → Nat} (hmono : StrictMonoOn f s)
    (hnext : ∀ x ∈ s, ∀ y ∈ s, f y + 1 = f x ↔ y + 1 = x) {n : Nat} (hn : n ∈ s)
    : breaksAbove (f '' s) (f n) = breaksAbove s n := by
  have hset : {x | x ∈ f '' s ∧ f n < x ∧ ∀ y ∈ f '' s, y + 1 ≠ x}
      = f '' {x | x ∈ s ∧ n < x ∧ ∀ y ∈ s, y + 1 ≠ x} := by
    apply Set.ext
    intro x
    apply Iff.intro
    . intro hx
      rcases hx.1 with ⟨m, hm, heq⟩
      have hlt := hx.2.1
      rw [← heq] at hlt
      refine ⟨m, ⟨hm, (hmono.lt_iff_lt hn hm).mp hlt, ?_⟩, heq⟩
      intro y hy hsucc
      apply hx.2.2 (f y) ⟨y, hy, rfl⟩
      rw [← heq]
      exact (hnext m hm y hy).mpr hsucc
    . intro hx
      rcases hx with ⟨m, hm, heq⟩
      rw [← heq]
      refine ⟨⟨m, hm.1, rfl⟩, (hmono.lt_iff_lt hn hm.1).mpr hm.2.1, ?_⟩
      intro y hy hsucc
      rcases hy with ⟨k, hk, hfk⟩
      rw [← hfk] at hsucc
      exact hm.2.2 k hk ((hnext m hm.1 k hk).mp hsucc)
  unfold breaksAbove
  rw [hset]
  apply Set.InjOn.ncard_image
  apply hmono.injOn.mono
  intro x hx
  exact hx.1

theorem lowered_strictMonoOn {s : Set Nat} (hs : s.Finite) (hle : ∀ r ∈ s, breaksAbove s r ≤ r)
    : StrictMonoOn (fun r => r - breaksAbove s r) s := by
  intro x hx y hy hlt
  have := breaksAbove_le hs (Nat.le_of_lt hlt)
  have := hle x hx
  dsimp only
  omega

theorem breaksAbove_of_succ {s : Set Nat} {x y : Nat} (hy : y ∈ s) (h : y + 1 = x)
    : breaksAbove s y = breaksAbove s x := by
  rw [← h]
  apply breaksAbove_succ
  intro _
  exact hy

theorem lowered_next {s : Set Nat} (hs : s.Finite) (hle : ∀ r ∈ s, breaksAbove s r ≤ r)
    : ∀ x ∈ s, ∀ y ∈ s, y - breaksAbove s y + 1 = x - breaksAbove s x ↔ y + 1 = x := by
  intro x hx y hy
  have hlex := hle x hx
  have hley := hle y hy
  apply Iff.intro
  . intro h
    have hlt : y < x := by
      rw [← (lowered_strictMonoOn hs hle).lt_iff_lt hy hx]
      omega
    have := breaksAbove_le hs (Nat.le_of_lt hlt)
    omega
  . intro h
    have := breaksAbove_of_succ hy h
    omega

/-- At least two numbers are missing between two runs. -/
def WideGaps (s : Set Nat) : Prop := ∀ n ∈ s, n + 2 ∈ s → n + 1 ∈ s

theorem wideGaps_lowered {s : Set Nat} (hs : s.Finite) (hle : ∀ r ∈ s, breaksAbove s r ≤ r)
    : WideGaps ((fun r => r - breaksAbove s r) '' s) := by
  intro n hn hnn
  rcases hn with ⟨y, hy, hyn⟩
  rcases hnn with ⟨x, hx, hxn⟩
  dsimp only at hyn hxn
  have hlex := hle x hx
  have hley := hle y hy
  have hlt : y < x := by
    rw [← (lowered_strictMonoOn hs hle).lt_iff_lt hy hx]
    omega
  have hanti := breaksAbove_le hs (Nat.le_of_lt hlt)
  by_cases hsucc : y + 1 = x
  . have := breaksAbove_of_succ hy hsucc
    omega
  . have htwo : y + 1 + 1 = x := by omega
    have hbreaks : breaksAbove s y = breaksAbove s x := by omega
    have hle' := breaksAbove_le hs (Nat.le_succ y)
    have hmid : y + 1 ∈ s := by
      apply Classical.byContradiction
      intro hnot
      rw [← htwo] at hx
      have := breaksAbove_succ_of_break hs hnot hx
      rw [htwo] at this
      have : breaksAbove s (y + 1) ≤ breaksAbove s y := hle'
      omega
    have := breaksAbove_of_succ hmid htwo
    refine ⟨y + 1, hmid, ?_⟩
    dsimp only
    omega

/-- The missing numbers pay for the breaks, by induction on the distance to `n`. -/
theorem breaksAbove_add_le {t : Set Nat} (ht : t.Finite) (hwide : WideGaps t) {n : Nat} (hn : n ∈ t)
    (d : Nat)
    : 2 * breaksAbove t n ≤ 2 * breaksAbove t (n + d + 1) + d ∧
      (n + d ∉ t → n + d + 1 ∉ t → 2 * breaksAbove t n + 1 ≤ 2 * breaksAbove t (n + d + 1) + d) := by
  induction d with
  | zero =>
    rw [Nat.add_zero n]
    rw [breaksAbove_of_succ hn rfl]
    exact ⟨by omega, fun hnot => absurd hn hnot⟩
  | succ d ih =>
    rw [← Nat.add_assoc n d 1]
    by_cases hbreak : n + d + 1 ∉ t ∧ n + d + 1 + 1 ∈ t
    . have := breaksAbove_succ_of_break ht hbreak.1 hbreak.2
      have hbelow : n + d ∉ t := by
        intro hin
        exact hbreak.1 (hwide _ hin hbreak.2)
      have := ih.2 hbelow hbreak.1
      exact ⟨by omega, fun _ hnot => absurd hbreak.2 hnot⟩
    . have hsame : breaksAbove t (n + d + 1) = breaksAbove t (n + d + 1 + 1) := by
        apply breaksAbove_succ
        intro hin
        apply Classical.byContradiction
        intro hnot
        exact hbreak ⟨hnot, hin⟩
      have := ih.1
      exact ⟨by omega, fun _ _ => by omega⟩

theorem breaksAbove_lt {t : Set Nat} (ht : t.Finite) (hwide : WideGaps t) {m n : Nat} (hn : n ∈ t)
    (h : n < m)
    : 2 * breaksAbove t n + 1 ≤ 2 * breaksAbove t m + (m - n) := by
  have := (breaksAbove_add_le ht hwide hn (m - n - 1)).1
  have hm : n + (m - n - 1) + 1 = m := by omega
  rw [hm] at this
  omega

theorem raised_strictMonoOn {t : Set Nat} (ht : t.Finite) (hwide : WideGaps t)
    : StrictMonoOn (fun n => n + breaksAbove t n) t := by
  intro x hx y hy hlt
  have := breaksAbove_lt ht hwide hx hlt
  have := breaksAbove_le ht (Nat.le_of_lt hlt)
  dsimp only
  omega

theorem raised_next {t : Set Nat} (ht : t.Finite) (hwide : WideGaps t)
    : ∀ x ∈ t, ∀ y ∈ t, y + breaksAbove t y + 1 = x + breaksAbove t x ↔ y + 1 = x := by
  intro x hx y hy
  apply Iff.intro
  . intro h
    have hlt : y < x := by
      rw [← (raised_strictMonoOn ht hwide).lt_iff_lt hy hx]
      omega
    have := breaksAbove_lt ht hwide hy hlt
    have := breaksAbove_le ht (Nat.le_of_lt hlt)
    omega
  . intro h
    have := breaksAbove_of_succ hy h
    omega

theorem mem_raised_of_single_run {t : Set Nat}
    (h : ∀ n ∈ t, ∀ x ∈ t, n < x → ∃ y ∈ t, y + 1 = x) (r : Nat)
    : (∃ n ∈ t, n + breaksAbove t n = r) ↔ r ∈ t := by
  apply Iff.intro
  . intro hr
    rcases hr with ⟨n, hn, heq⟩
    rw [breaksAbove_eq_zero (h n hn)] at heq
    rw [← heq]
    exact hn
  . intro hr
    refine ⟨r, hr, ?_⟩
    rw [breaksAbove_eq_zero (h r hr)]
    rfl

theorem eq_image_lowered {s t : Set Nat}
    (h : ∀ n : Int, (∃ m ∈ t, n = (m : Int)) ↔ ∃ r ∈ s, n = r - (breaksAbove s r : Int))
    : (∀ r ∈ s, breaksAbove s r ≤ r) ∧ t = (fun r => r - breaksAbove s r) '' s := by
  have hle : ∀ r ∈ s, breaksAbove s r ≤ r := by
    intro r hr
    rcases (h _).mpr ⟨r, hr, rfl⟩ with ⟨m, _, hm⟩
    omega
  refine ⟨hle, ?_⟩
  apply Set.ext
  intro n
  apply Iff.intro
  . intro hn
    rcases (h n).mp ⟨n, hn, rfl⟩ with ⟨r, hr, heq⟩
    refine ⟨r, hr, ?_⟩
    dsimp only
    omega
  . intro hn
    rcases hn with ⟨r, hr, heq⟩
    dsimp only at heq
    rcases (h _).mpr ⟨r, hr, rfl⟩ with ⟨m, hm, hmr⟩
    have := hle r hr
    have : n = m := by omega
    rw [this]
    exact hm

theorem eq_image_raised_of_lowered {s : Set Nat} (hs : s.Finite)
    (hle : ∀ r ∈ s, breaksAbove s r ≤ r) {t : Set Nat}
    (himage : t = (fun r => r - breaksAbove s r) '' s)
    : s = (fun n => n + breaksAbove t n) '' t := by
  have hbreaks : ∀ r ∈ s, r - breaksAbove s r + breaksAbove t (r - breaksAbove s r) = r := by
    intro r hr
    have hsame : breaksAbove t (r - breaksAbove s r) = breaksAbove s r := by
      rw [himage]
      exact breaksAbove_image (lowered_strictMonoOn hs hle) (lowered_next hs hle) hr
    have := hle r hr
    omega
  apply Set.ext
  intro r
  apply Iff.intro
  . intro hr
    refine ⟨r - breaksAbove s r, ?_, hbreaks r hr⟩
    rw [himage]
    exact ⟨r, hr, rfl⟩
  . intro hr
    rcases hr with ⟨n, hn, heq⟩
    rw [himage] at hn
    rcases hn with ⟨m, hm, hmn⟩
    dsimp only at heq hmn
    rw [← hmn] at heq
    rw [hbreaks m hm] at heq
    rw [← heq]
    exact hm

theorem lowered_of_raised {t : Set Nat} (ht : t.Finite) (hwide : WideGaps t) {s : Set Nat}
    (himage : s = (fun n => n + breaksAbove t n) '' t) (n : Int)
    : (∃ m ∈ t, n = (m : Int)) ↔ ∃ r ∈ s, n = r - (breaksAbove s r : Int) := by
  have hbreaks : ∀ m ∈ t, breaksAbove s (m + breaksAbove t m) = breaksAbove t m := by
    intro m hm
    rw [himage]
    exact breaksAbove_image (raised_strictMonoOn ht hwide) (raised_next ht hwide) hm
  apply Iff.intro
  . intro hn
    rcases hn with ⟨m, hm, heq⟩
    refine ⟨m + breaksAbove t m, by rw [himage]; exact ⟨m, hm, rfl⟩, ?_⟩
    rw [hbreaks m hm]
    omega
  . intro hn
    rcases hn with ⟨r, hr, heq⟩
    rw [himage] at hr
    rcases hr with ⟨m, hm, hmr⟩
    refine ⟨m, hm, ?_⟩
    rw [← hmr] at heq
    dsimp only at heq
    rw [hbreaks m hm] at heq
    omega

theorem lowered_iff_raised {s t : Set Nat} (hs : s.Finite) (ht : t.Finite)
    : (∀ n : Int, (∃ m ∈ t, n = (m : Int)) ↔ ∃ r ∈ s, n = r - (breaksAbove s r : Int)) ↔
        WideGaps t ∧ s = (fun n => n + breaksAbove t n) '' t := by
  apply Iff.intro
  . intro h
    rcases eq_image_lowered h with ⟨hle, himage⟩
    refine ⟨?_, eq_image_raised_of_lowered hs hle himage⟩
    rw [himage]
    apply wideGaps_lowered hs hle
  . intro h
    exact lowered_of_raised ht h.1 h.2

end GapRuns
