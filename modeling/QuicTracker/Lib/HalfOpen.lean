import Mathlib.Tactic
import Mathlib.Order.MinMax

/-!
This module contains half open intervals over a linear order and ordered lists of them, as a
representation of a set. The lists may contain empty and even inverted intervals: they describe no
element, but they keep their place in the order.
-/

structure HalfOpen (α : Type u) where
  start : α
  stop : α
  deriving DecidableEq, Repr

namespace HalfOpen

variable {α : Type u} [LinearOrder α]

def Mem (i : HalfOpen α) (x : α) : Prop := i.start ≤ x ∧ x < i.stop

instance (i : HalfOpen α) (x : α) : Decidable (i.Mem x) := inferInstanceAs (Decidable (_ ∧ _))

def top (i : HalfOpen α) : α := max i.start i.stop

def merge (i j : HalfOpen α) : HalfOpen α := ⟨min i.start j.start, max i.stop j.stop⟩

def Covers (l : List (HalfOpen α)) (x : α) : Prop := ∃ i ∈ l, i.Mem x

def Ordered (l : List (HalfOpen α)) : Prop := l.Pairwise (fun i j => i.top ≤ j.start)

def Proper (l : List (HalfOpen α)) : Prop := ∀ i ∈ l, i.start < i.stop

def coalesce (touch : HalfOpen α → HalfOpen α → Bool) (l : List (HalfOpen α)) :
    List (HalfOpen α) :=
  match l with
  | [] => []
  | n :: l => go n l
where
  go (p : HalfOpen α) (l : List (HalfOpen α)) : List (HalfOpen α) :=
    match l with
    | [] => [p]
    | n :: l => if touch p n then go (p.merge n) l else p :: go n l

theorem start_le_top (i : HalfOpen α) : i.start ≤ i.top := by
  apply le_max_left

theorem stop_le_top (i : HalfOpen α) : i.stop ≤ i.top := by
  apply le_max_right

@[simp]
theorem covers_nil (x : α) : ¬ Covers ([] : List (HalfOpen α)) x := by
  simp [Covers]

@[simp]
theorem covers_cons (i : HalfOpen α) (l : List (HalfOpen α)) (x : α)
    : Covers (i :: l) x ↔ i.Mem x ∨ Covers l x := by
  simp [Covers]

@[simp]
theorem covers_append (l r : List (HalfOpen α)) (x : α)
    : Covers (l ++ r) x ↔ Covers l x ∨ Covers r x := by
  simp only [Covers, List.mem_append]
  constructor
  . rintro ⟨i, hi | hi, hx⟩
    . exact Or.inl ⟨i, hi, hx⟩
    . exact Or.inr ⟨i, hi, hx⟩
  . rintro (⟨i, hi, hx⟩ | ⟨i, hi, hx⟩)
    . exact ⟨i, Or.inl hi, hx⟩
    . exact ⟨i, Or.inr hi, hx⟩

theorem covers_flatMap (cut : HalfOpen α → List (HalfOpen α)) (l : List (HalfOpen α)) (x : α)
    : Covers (l.flatMap cut) x ↔ ∃ i ∈ l, Covers (cut i) x := by
  induction l with
  | nil => simp
  | cons i l ih =>
    rw [List.flatMap_cons]
    rw [covers_append]
    rw [ih]
    simp

@[simp]
theorem ordered_nil : Ordered ([] : List (HalfOpen α)) := by
  simp [Ordered]

theorem ordered_cons {i : HalfOpen α} {l : List (HalfOpen α)}
    : Ordered (i :: l) ↔ (∀ j ∈ l, i.top ≤ j.start) ∧ Ordered l := by
  simp [Ordered]

theorem Ordered.concat {l : List (HalfOpen α)} (i : HalfOpen α) (hl : Ordered l)
    (hi : ∀ j ∈ l, j.top ≤ i.start)
    : Ordered (l ++ [i]) := by
  unfold Ordered
  rw [List.pairwise_append]
  refine ⟨hl, by simp, ?_⟩
  simpa using hi

theorem Ordered.not_covers_of_lt {i : HalfOpen α} {l : List (HalfOpen α)} {x : α}
    (hl : Ordered (i :: l)) (hx : x < i.start)
    : ¬ Covers (i :: l) x := by
  rintro ⟨j, hj, hle, -⟩
  rw [List.mem_cons] at hj
  cases hj with
  | inl heq =>
    rw [heq] at hle
    exact absurd hle (not_le.mpr hx)
  | inr hmem =>
    have hij := (ordered_cons.mp hl).1 j hmem
    have : i.start ≤ x := le_trans (le_trans i.start_le_top hij) hle
    exact absurd this (not_le.mpr hx)

theorem Ordered.flatMap {cut : HalfOpen α → List (HalfOpen α)} {l : List (HalfOpen α)}
    (hl : Ordered l) (hcut : ∀ i ∈ l, Ordered (cut i))
    (hin : ∀ i ∈ l, ∀ j ∈ cut i, i.start ≤ j.start ∧ j.top ≤ i.top)
    : Ordered (l.flatMap cut) := by
  induction l with
  | nil => simp
  | cons i l ih =>
    rw [ordered_cons] at hl
    rw [List.flatMap_cons]
    unfold Ordered
    rw [List.pairwise_append]
    refine ⟨hcut i (by simp), ?_, ?_⟩
    . apply ih hl.2
      . intro j hj
        exact hcut j (by simp [hj])
      . intro j hj
        exact hin j (by simp [hj])
    . intro j hj k hk
      rw [List.mem_flatMap] at hk
      rcases hk with ⟨i', hi', hk⟩
      calc j.top ≤ i.top := (hin i (by simp) j hj).2
        _ ≤ i'.start := hl.1 i' hi'
        _ ≤ k.start := (hin i' (by simp [hi']) k hk).1

theorem mem_merge_left {i j : HalfOpen α} {x : α} (h : i.Mem x) : (i.merge j).Mem x := by
  refine ⟨le_trans (min_le_left _ _) h.1, lt_of_lt_of_le h.2 (le_max_left _ _)⟩

theorem mem_merge_right {i j : HalfOpen α} {x : α} (h : j.Mem x) : (i.merge j).Mem x := by
  refine ⟨le_trans (min_le_right _ _) h.1, lt_of_lt_of_le h.2 (le_max_right _ _)⟩

theorem start_merge_of_le {i j : HalfOpen α} (h : i.top ≤ j.start)
    : (i.merge j).start = i.start := by
  apply min_eq_left
  apply le_trans i.start_le_top h

theorem top_merge_le {i j : HalfOpen α} (h : i.top ≤ j.start) : (i.merge j).top ≤ j.top := by
  have hi : i.top ≤ j.top := le_trans h j.start_le_top
  unfold top
  apply max_le
  . rw [start_merge_of_le h]
    apply le_trans i.start_le_top hi
  . apply max_le
    . apply le_trans i.stop_le_top hi
    . apply j.stop_le_top

namespace coalesce

variable (touch : HalfOpen α → HalfOpen α → Bool)

theorem go_start_le (p : HalfOpen α) (l : List (HalfOpen α)) (hl : Ordered (p :: l))
    : ∀ i ∈ go touch p l, p.start ≤ i.start := by
  induction l generalizing p with
  | nil => simp [go]
  | cons n l ih =>
    rw [ordered_cons, ordered_cons] at hl
    have hpn : p.top ≤ n.start := hl.1 n (by simp)
    unfold go
    split
    . intro i hi
      rw [← start_merge_of_le hpn]
      refine ih (p.merge n) ?_ i hi
      rw [ordered_cons]
      refine ⟨?_, hl.2.2⟩
      intro j hj
      apply le_trans (top_merge_le hpn) (hl.2.1 j hj)
    . intro i hi
      rw [List.mem_cons] at hi
      cases hi with
      | inl heq => rw [heq]
      | inr hmem =>
        have := ih n (ordered_cons.mpr hl.2) i hmem
        apply le_trans (le_trans p.start_le_top hpn) this

theorem go_ordered (p : HalfOpen α) (l : List (HalfOpen α)) (hl : Ordered (p :: l))
    : Ordered (go touch p l) := by
  induction l generalizing p with
  | nil => simp [go, Ordered]
  | cons n l ih =>
    rw [ordered_cons, ordered_cons] at hl
    have hpn : p.top ≤ n.start := hl.1 n (by simp)
    unfold go
    split
    . apply ih
      rw [ordered_cons]
      refine ⟨?_, hl.2.2⟩
      intro j hj
      apply le_trans (top_merge_le hpn) (hl.2.1 j hj)
    . rw [ordered_cons]
      refine ⟨?_, ih n (ordered_cons.mpr hl.2)⟩
      intro j hj
      apply le_trans hpn (go_start_le touch n l (ordered_cons.mpr hl.2) j hj)

theorem go_covers (p : HalfOpen α) (l : List (HalfOpen α)) (x : α) (h : Covers (p :: l) x)
    : Covers (go touch p l) x := by
  induction l generalizing p with
  | nil => exact h
  | cons n l ih =>
    rw [covers_cons, covers_cons] at h
    unfold go
    split
    . apply ih
      rw [covers_cons]
      rcases h with h | h | h
      . exact Or.inl (mem_merge_left h)
      . exact Or.inl (mem_merge_right h)
      . exact Or.inr h
    . rw [covers_cons]
      rcases h with h | h
      . exact Or.inl h
      . exact Or.inr (ih n ((covers_cons _ _ _).mpr h))

theorem go_bound (b : α) (p : HalfOpen α) (l : List (HalfOpen α))
    (h : ∀ i ∈ p :: l, i.top ≤ b)
    : ∀ i ∈ go touch p l, i.top ≤ b := by
  induction l generalizing p with
  | nil => simpa [go] using h
  | cons n l ih =>
    have hp : p.top ≤ b := h p (by simp)
    have hn : n.top ≤ b := h n (by simp)
    unfold go
    split
    . apply ih
      intro i hi
      rw [List.mem_cons] at hi
      cases hi with
      | inl heq =>
        rw [heq]
        apply max_le
        . apply le_trans (min_le_left _ _) (le_trans p.start_le_top hp)
        . apply max_le (le_trans p.stop_le_top hp) (le_trans n.stop_le_top hn)
      | inr hmem => exact h i (by simp [hmem])
    . intro i hi
      rw [List.mem_cons] at hi
      cases hi with
      | inl heq => rw [heq]; exact hp
      | inr hmem =>
        refine ih n ?_ i hmem
        intro j hj
        exact h j (by simp [List.mem_cons.mp hj])

def Adjacent : Prop :=
  ∀ p n : HalfOpen α, p.start < p.stop → n.start < n.stop → p.stop ≤ n.start → touch p n →
    n.start ≤ p.stop

theorem go_exact (htouch : Adjacent touch) (p : HalfOpen α) (l : List (HalfOpen α))
    (hl : Ordered (p :: l)) (hproper : Proper (p :: l))
    : Proper (go touch p l) ∧ ∀ x, Covers (go touch p l) x → Covers (p :: l) x := by
  induction l generalizing p with
  | nil => exact ⟨hproper, fun x h => h⟩
  | cons n l ih =>
    have hord := hl
    rw [ordered_cons, ordered_cons] at hl
    have hpn : p.top ≤ n.start := hl.1 n (by simp)
    have hp : p.start < p.stop := hproper p (by simp)
    have hn : n.start < n.stop := hproper n (by simp)
    have hle : p.stop ≤ n.start := le_trans p.stop_le_top hpn
    unfold go
    split
    . next htn =>
      have hmerge : Ordered (p.merge n :: l) := by
        rw [ordered_cons]
        refine ⟨?_, hl.2.2⟩
        intro j hj
        apply le_trans (top_merge_le hpn) (hl.2.1 j hj)
      have hmergep : Proper (p.merge n :: l) := by
        intro i hi
        rw [List.mem_cons] at hi
        cases hi with
        | inl heq =>
          rw [heq]
          apply lt_of_le_of_lt (min_le_left _ _) (lt_of_lt_of_le hp (le_max_left _ _))
        | inr hmem => exact hproper i (by simp [hmem])
      refine ⟨(ih _ hmerge hmergep).1, ?_⟩
      intro x hx
      have := (ih _ hmerge hmergep).2 x hx
      rw [covers_cons] at this
      rw [covers_cons, covers_cons]
      rcases this with ⟨hlo, hhi⟩ | hx
      . rw [start_merge_of_le hpn] at hlo
        -- The stop of the first is the start of the second, so no element falls between them.
        by_cases hxp : x < p.stop
        . exact Or.inl ⟨hlo, hxp⟩
        . refine Or.inr (Or.inl ⟨?_, ?_⟩)
          . apply le_trans (htouch p n hp hn hle htn) (not_lt.mp hxp)
          . cases lt_max_iff.mp hhi with
            | inl h => exact absurd h hxp
            | inr h => exact h
      . exact Or.inr (Or.inr hx)
    . have hnl := ih n (ordered_cons.mpr hl.2) (fun i hi => hproper i (by simp [List.mem_cons.mp hi]))
      constructor
      . intro i hi
        rw [List.mem_cons] at hi
        cases hi with
        | inl heq => rw [heq]; exact hp
        | inr hmem => exact hnl.1 i hmem
      . intro x hx
        rw [covers_cons] at hx ⊢
        cases hx with
        | inl h => exact Or.inl h
        | inr h => exact Or.inr (hnl.2 x h)

end coalesce

theorem Ordered.coalesce {l : List (HalfOpen α)} (touch : HalfOpen α → HalfOpen α → Bool)
    (hl : Ordered l)
    : Ordered (coalesce touch l) := by
  cases l with
  | nil => simp [HalfOpen.coalesce]
  | cons n l => exact coalesce.go_ordered touch n l hl

theorem Covers.coalesce {l : List (HalfOpen α)} (touch : HalfOpen α → HalfOpen α → Bool) {x : α}
    (h : Covers l x)
    : Covers (coalesce touch l) x := by
  cases l with
  | nil => exact h
  | cons n l => exact coalesce.go_covers touch n l x h

theorem coalesce_bound {l : List (HalfOpen α)} (touch : HalfOpen α → HalfOpen α → Bool) (b : α)
    (h : ∀ i ∈ l, i.top ≤ b)
    : ∀ i ∈ coalesce touch l, i.top ≤ b := by
  cases l with
  | nil => simp [coalesce]
  | cons n l => exact coalesce.go_bound touch b n l h

theorem Proper.coalesce {l : List (HalfOpen α)} {touch : HalfOpen α → HalfOpen α → Bool}
    (htouch : coalesce.Adjacent touch) (hl : Ordered l) (hproper : Proper l)
    : Proper (coalesce touch l) := by
  cases l with
  | nil => exact hproper
  | cons n l => exact (coalesce.go_exact touch htouch n l hl hproper).1

theorem covers_of_covers_coalesce {l : List (HalfOpen α)} {touch : HalfOpen α → HalfOpen α → Bool}
    {x : α} (htouch : coalesce.Adjacent touch) (hl : Ordered l) (hproper : Proper l)
    (h : Covers (coalesce touch l) x)
    : Covers l x := by
  cases l with
  | nil => exact h
  | cons n l => exact (coalesce.go_exact touch htouch n l hl hproper).2 x h

/-- No interval is empty, and between two of them lies an element of neither. -/
structure Normal (l : List (HalfOpen α)) : Prop where
  proper : Proper l
  apart : l.Pairwise (fun i j => i.stop < j.start)

theorem normal_cons {i : HalfOpen α} {l : List (HalfOpen α)}
    : Normal (i :: l) ↔ i.start < i.stop ∧ (∀ j ∈ l, i.stop < j.start) ∧ Normal l := by
  constructor
  . intro h
    have hapart := List.pairwise_cons.mp h.apart
    refine ⟨h.proper i List.mem_cons_self, hapart.1, ?_, hapart.2⟩
    intro j hj
    exact h.proper j (List.mem_cons_of_mem i hj)
  . rintro ⟨hi, hapart, hl⟩
    refine ⟨?_, List.pairwise_cons.mpr ⟨hapart, hl.apart⟩⟩
    intro j hj
    cases List.mem_cons.mp hj with
    | inl heq =>
      rw [heq]
      exact hi
    | inr hmem => exact hl.proper j hmem

theorem normal_nil : Normal ([] : List (HalfOpen α)) := by
  exact ⟨by simp [Proper], by simp⟩

theorem top_of_proper {i : HalfOpen α} (h : i.start < i.stop) : i.top = i.stop := by
  exact max_eq_right (le_of_lt h)

theorem Normal.ordered {l : List (HalfOpen α)} (h : Normal l) : Ordered l := by
  refine h.apart.imp_of_mem ?_
  intro i j hi _ hlt
  rw [top_of_proper (h.proper i hi)]
  exact le_of_lt hlt

namespace coalesce

variable (touch : HalfOpen α → HalfOpen α → Bool)

def Separates : Prop :=
  ∀ p n : HalfOpen α, p.start < p.stop → n.start < n.stop → p.stop ≤ n.start → touch p n = false →
    p.stop < n.start

theorem go_normal (htouch : Adjacent touch) (hsep : Separates touch) (p : HalfOpen α)
    (l : List (HalfOpen α)) (hl : Ordered (p :: l)) (hproper : Proper (p :: l))
    : Normal (go touch p l) := by
  refine ⟨(go_exact touch htouch p l hl hproper).1, ?_⟩
  induction l generalizing p with
  | nil => simp [go]
  | cons n l ih =>
    have hord := ordered_cons.mp hl
    have hpn : p.top ≤ n.start := hord.1 n List.mem_cons_self
    have hp : p.start < p.stop := hproper p List.mem_cons_self
    have hn : n.start < n.stop := hproper n (by simp)
    unfold go
    split
    . apply ih
      . rw [ordered_cons]
        refine ⟨?_, (ordered_cons.mp hord.2).2⟩
        intro j hj
        exact le_trans (top_merge_le hpn) ((ordered_cons.mp hord.2).1 j hj)
      . intro i hi
        cases List.mem_cons.mp hi with
        | inl heq =>
          rw [heq]
          exact lt_of_le_of_lt (min_le_left _ _) (lt_of_lt_of_le hp (le_max_left _ _))
        | inr hmem => exact hproper i (by simp [hmem])
    . next hnot =>
      rw [List.pairwise_cons]
      refine ⟨?_, ih n hord.2 (fun i hi => hproper i (List.mem_cons_of_mem p hi))⟩
      intro j hj
      have hlt := hsep p n hp hn (le_trans p.stop_le_top hpn) (by simpa using hnot)
      exact lt_of_lt_of_le hlt (go_start_le touch n l hord.2 j hj)

end coalesce

theorem coalesce_cons {touch : HalfOpen α → HalfOpen α → Bool} {i : HalfOpen α} {l : List (HalfOpen α)}
    (h : ∀ j ∈ l, touch i j = false)
    : coalesce touch (i :: l) = i :: coalesce touch l := by
  cases l with
  | nil => rfl
  | cons n l =>
    have hn := h n List.mem_cons_self
    change coalesce.go touch i (n :: l) = i :: coalesce.go touch n l
    simp [coalesce.go, hn]

theorem coalesce_eq_self {touch : HalfOpen α → HalfOpen α → Bool} {l : List (HalfOpen α)}
    (h : l.Pairwise (fun i j => touch i j = false))
    : coalesce touch l = l := by
  induction l with
  | nil => rfl
  | cons i l ih =>
    rw [List.pairwise_cons] at h
    rw [coalesce_cons h.1]
    rw [ih h.2]

/-- The list in normal form that describes the elements of `T`. -/
structure Represents (l : List (HalfOpen α)) (T : α → Prop) : Prop where
  normal : Normal l
  covers : ∀ x, Covers l x ↔ T x

theorem represents_congr {l : List (HalfOpen α)} {T T' : α → Prop} (h : ∀ x, T x ↔ T' x)
    : Represents l T ↔ Represents l T' := by
  have heq : T = T' := by
    funext x
    exact propext (h x)
  rw [heq]

theorem represents_cons {i : HalfOpen α} {l : List (HalfOpen α)} {T : α → Prop} (hi : i.start < i.stop)
    (hT : ∀ x, T x → i.stop < x)
    : Represents (i :: l) (fun x => i.Mem x ∨ T x) ↔ Represents l T := by
  constructor
  . intro h
    rcases normal_cons.mp h.normal with ⟨_, hapart, hl⟩
    refine ⟨hl, ?_⟩
    intro x
    have hx := h.covers x
    rw [covers_cons] at hx
    constructor
    . intro hcovers
      rcases hx.mp (Or.inr hcovers) with hmem | hTx
      . -- an element of `i` is not behind `i`
        rcases hcovers with ⟨j, hj, hjx⟩
        exact absurd (lt_of_lt_of_le (hapart j hj) hjx.1) (not_lt.mpr (le_of_lt hmem.2))
      . exact hTx
    . intro hTx
      rcases hx.mpr (Or.inr hTx) with hmem | hcovers
      . exact absurd (hT x hTx) (not_lt.mpr (le_of_lt hmem.2))
      . exact hcovers
  . intro h
    refine ⟨normal_cons.mpr ⟨hi, ?_, h.normal⟩, ?_⟩
    . intro j hj
      apply hT
      rw [← h.covers]
      exact ⟨j, hj, le_refl _, h.normal.proper j hj⟩
    . intro x
      rw [covers_cons, h.covers]

theorem represents_coalesce_go {touch : HalfOpen α → HalfOpen α → Bool} {p : HalfOpen α}
    {l : List (HalfOpen α)} (htouch : coalesce.Adjacent touch) (hsep : coalesce.Separates touch)
    (hp : p.start < p.stop) (hl : Normal l) (hle : ∀ m ∈ l, p.stop ≤ m.start)
    : Represents (coalesce.go touch p l) (fun x => p.Mem x ∨ Covers l x) := by
  have hordered : Ordered (p :: l) := by
    rw [ordered_cons]
    refine ⟨?_, hl.ordered⟩
    intro m hm
    rw [top_of_proper hp]
    exact hle m hm
  have hproper : Proper (p :: l) := by
    intro i hi
    cases List.mem_cons.mp hi with
    | inl heq =>
      rw [heq]
      exact hp
    | inr hmem => exact hl.proper i hmem
  refine ⟨coalesce.go_normal touch htouch hsep p l hordered hproper, ?_⟩
  intro x
  rw [← covers_cons]
  constructor
  . exact (coalesce.go_exact touch htouch p l hordered hproper).2 x
  . exact coalesce.go_covers touch p l x

end HalfOpen
