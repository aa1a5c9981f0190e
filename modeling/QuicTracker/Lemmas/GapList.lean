import QuicTracker.Lemmas.ByteInterval
import QuicTracker.Lib.Run

/-!
This module contains what `Fill` and `Add` make of a list of intervals in normal form: when the list they
leave is in normal form again and describes the set that it should.
-/

namespace QuicTracker

open HalfOpen

namespace ByteInterval

theorem overlap_separates : coalesce.Separates overlap := by
  intro p n hp hn hle htouch
  have hiff := overlap_iff p n
  rw [htouch] at hiff
  simp only [Bool.false_eq_true, false_iff] at hiff
  omega

theorem overlap_eq_false {p n : ByteInterval} (hstart : p.start < n.start) (hlo : p.stop < n.start)
    (hhi : p.stop < n.stop)
    : overlap p n = false := by
  rw [← Bool.not_eq_true]
  rw [overlap_iff]
  omega

end ByteInterval

namespace ByteIntervalList

open ByteInterval

section Cut

variable {b n : ByteInterval}

theorem cut_before (hn : n.start < n.stop) (hb : b.start < b.stop) (h : n.stop < b.start)
    : cut b n = [n] := by
  unfold cut
  rw [if_neg]
  rw [overlap_iff]
  omega

theorem cut_of_overlap (h : b.overlap n = true)
    : cut b n = n.exclude b := by
  unfold cut
  rw [if_pos h]

theorem cut_middle (hlo : b.start ≤ n.stop) (hhi : n.stop < b.stop)
    : cut b n = [⟨n.start, b.start⟩] := by
  rw [cut_of_overlap]
  . unfold exclude
    rw [if_neg (by omega)]
    rw [if_neg (by omega)]
    rw [if_pos hhi]
  . rw [overlap_iff]
    omega

theorem cut_end (h : n.stop = b.stop)
    : cut b n = [] := by
  rw [cut_of_overlap]
  . unfold exclude
    rw [if_neg (by omega)]
    rw [if_neg (by omega)]
    rw [if_neg (by omega)]
  . rw [overlap_iff]
    omega

theorem cut_inside (hlo : n.start < b.start) (hhi : b.stop < n.stop)
    : cut b n = [⟨n.start, b.start - 1⟩, ⟨b.stop + 1, n.stop⟩] := by
  rw [cut_of_overlap]
  . unfold exclude
    rw [if_pos ⟨hlo, hhi⟩]
  . rw [overlap_iff]
    omega

end Cut

def cutAfter (b n : ByteInterval) : ByteIntervalList :=
  if b.stop < n.stop then [⟨max b.stop n.start, n.stop⟩] else []

theorem cut_after {b n : ByteInterval} (hb : b.start < b.stop) (hlo : b.start ≤ n.start) (hhi : b.stop ≤ n.stop)
    : cut b n = cutAfter b n := by
  unfold cutAfter
  by_cases hstop : b.stop < n.stop
  . rw [if_pos hstop]
    unfold cut
    by_cases hover : b.overlap n = true
    . have hle : n.start ≤ b.stop := by
        rw [overlap_iff] at hover
        omega
      rw [if_pos hover]
      unfold exclude
      rw [if_neg (by omega)]
      rw [if_pos ⟨hlo, hstop⟩]
      rw [max_eq_left hle]
    . have hlt : b.stop < n.start := by
        rw [overlap_iff] at hover
        omega
      rw [if_neg hover]
      rw [max_eq_right (le_of_lt hlt)]
  . rw [if_neg hstop]
    exact cut_end (by omega)

theorem mem_cutAfter {b n j : ByteInterval} (h : j ∈ cutAfter b n)
    : b.stop < n.stop ∧ j = ⟨max b.stop n.start, n.stop⟩ := by
  unfold cutAfter at h
  split at h
  . next hlt => exact ⟨hlt, List.mem_singleton.mp h⟩
  . contradiction

section After

variable {l : ByteIntervalList} {b : ByteInterval}

theorem covers_cutAfter (n : ByteInterval) (hlo : b.start ≤ n.start) (x : Nat)
    : Covers (cutAfter b n) x ↔ n.Mem x ∧ ¬ b.Mem x := by
  unfold cutAfter HalfOpen.Mem
  split
  . simp only [Covers, List.mem_singleton, exists_eq_left, HalfOpen.Mem]
    omega
  . simp only [covers_nil, false_iff]
    omega

theorem covers_flatMap_cutAfter (hlo : ∀ n ∈ l, b.start ≤ n.start) (x : Nat)
    : Covers (l.flatMap (cutAfter b)) x ↔ Covers l x ∧ ¬ b.Mem x := by
  rw [covers_flatMap]
  constructor
  . rintro ⟨n, hn, hx⟩
    rw [covers_cutAfter n (hlo n hn)] at hx
    exact ⟨⟨n, hn, hx.1⟩, hx.2⟩
  . rintro ⟨⟨n, hn, hx⟩, hb⟩
    refine ⟨n, hn, ?_⟩
    rw [covers_cutAfter n (hlo n hn)]
    exact ⟨hx, hb⟩

theorem flatMap_cutAfter_normal (hl : Normal l) : Normal (l.flatMap (cutAfter b)) := by
  induction l with
  | nil => exact normal_nil
  | cons n l ih =>
    have hcons := normal_cons.mp hl
    rw [List.flatMap_cons]
    unfold cutAfter
    split
    . next hlt =>
      rw [List.singleton_append]
      rw [normal_cons]
      refine ⟨max_lt hlt hcons.1, ?_, ih hcons.2.2⟩
      intro j hj
      rcases List.mem_flatMap.mp hj with ⟨n', hn', hj⟩
      rw [(mem_cutAfter hj).2]
      exact lt_of_lt_of_le (hcons.2.1 n' hn') (le_max_right _ _)
    . exact ih hcons.2.2

end After

theorem pairwise_overlap_of_normal {l : ByteIntervalList} (hl : Normal l)
    : l.Pairwise (fun i j => overlap i j = false) := by
  refine hl.apart.imp_of_mem ?_
  intro i j hi hj hlt
  have hi' := hl.proper i hi
  have hj' := hl.proper j hj
  exact overlap_eq_false (by omega) hlt (by omega)

section Fill

variable {l : ByteIntervalList} {b n : ByteInterval} (hb : b.start < b.stop)

include hb

theorem flatMap_cut_after (hlo : ∀ n ∈ l, b.start ≤ n.start)
    (hhi : ∀ n ∈ l, b.stop ≤ n.stop)
    : l.flatMap (cut b) = l.flatMap (cutAfter b) := by
  apply List.flatMap_congr
  intro n hn
  exact cut_after hb (hlo n hn) (hhi n hn)

theorem lt_of_mem_cut {m j : ByteInterval} (hm : m.start < m.stop) (hn : n.stop < b.start)
    (hlt : n.stop < m.start) (hj : j ∈ cut b m)
    : n.stop < j.start ∧ n.stop < j.stop := by
  rcases mem_cut b m j hj with ⟨-, rfl⟩ | ⟨h1, h2, rfl | rfl⟩ | ⟨hover, h1, h2, rfl⟩ | ⟨hover, h1, rfl⟩
  . omega
  . dsimp
    omega
  . dsimp
    omega
  . dsimp
    omega
  . dsimp
    omega

theorem fill_cons_before (hl : Normal (n :: l)) (hn : n.stop < b.start)
    : fill (n :: l) b = n :: fill l b := by
  rw [normal_cons] at hl
  unfold fill ensureConsistency
  rw [List.flatMap_cons]
  rw [cut_before hl.1 hb hn]
  rw [List.singleton_append]
  apply coalesce_cons
  intro j hj
  rcases List.mem_flatMap.mp hj with ⟨m, hm, hj⟩
  have hlt := lt_of_mem_cut hb (hl.2.2.proper m hm) hn (hl.2.1 m hm) hj
  exact overlap_eq_false (by omega) hlt.1 hlt.2

theorem go_cut {p : ByteInterval} (hl : Normal l) (hlo : ∀ n ∈ l, b.start ≤ n.start)
    (hp : p.stop = b.start) (hstart : p.start < b.stop) (hle : ∀ n ∈ l, p.start ≤ n.start)
    : coalesce.go overlap p (l.flatMap (cut b)) = p :: l.flatMap (cutAfter b) := by
  induction l with
  | nil => rfl
  | cons n l ih =>
    have hcons := normal_cons.mp hl
    have hn := hlo n List.mem_cons_self
    have hpn := hle n List.mem_cons_self
    have hrest := ih hcons.2.2 (fun m hm => hlo m (List.mem_cons_of_mem n hm))
      (fun m hm => hle m (List.mem_cons_of_mem n hm))
    rw [List.flatMap_cons, List.flatMap_cons]
    rcases Nat.lt_trichotomy n.stop b.stop with hlt | heq | hgt
    . have hover : overlap p ⟨n.start, b.start⟩ = true := by
        rw [overlap_iff]
        dsimp
        omega
      have hmerge : p.merge ⟨n.start, b.start⟩ = p := by
        unfold HalfOpen.merge
        dsimp
        rw [min_eq_left hpn, ← hp, max_self]
      rw [cut_middle (by omega) hlt]
      rw [List.singleton_append]
      rw [coalesce.go]
      rw [if_pos hover]
      rw [hmerge, hrest]
      simp [cutAfter, Nat.not_lt.mpr (le_of_lt hlt)]
    . rw [cut_end heq]
      rw [List.nil_append]
      rw [hrest]
      simp [cutAfter, heq]
    . -- the intervals from here on end behind `b`, nothing is merged any more
      have hnormal : Normal (cutAfter b n ++ l.flatMap (cutAfter b)) := by
        rw [← List.flatMap_cons]
        exact flatMap_cutAfter_normal hl
      have hafter : l.flatMap (cut b) = l.flatMap (cutAfter b) := by
        apply flatMap_cut_after hb
        . intro m hm
          exact hlo m (List.mem_cons_of_mem n hm)
        . intro m hm
          have hnm := hcons.2.1 m hm
          have hm' := hcons.2.2.proper m hm
          omega
      rw [cut_after hb hn (le_of_lt hgt)]
      rw [hafter]
      change coalesce overlap (p :: _) = _
      rw [coalesce_cons]
      . rw [coalesce_eq_self (pairwise_overlap_of_normal hnormal)]
      . intro j hj
        rw [← List.flatMap_cons] at hj
        rcases List.mem_flatMap.mp hj with ⟨m, hm, hj⟩
        rcases mem_cutAfter hj with ⟨hstop, rfl⟩
        have := le_max_left b.stop m.start
        exact overlap_eq_false (by dsimp; omega) (by dsimp; omega) (by dsimp; omega)

theorem fill_cons_middle (hl : Normal (n :: l)) (hlo : b.start ≤ n.stop) (hhi : n.stop < b.stop)
    : fill (n :: l) b = ⟨n.start, b.start⟩ :: l.flatMap (cutAfter b) := by
  rw [normal_cons] at hl
  unfold fill ensureConsistency
  rw [List.flatMap_cons]
  rw [cut_middle hlo hhi]
  rw [List.singleton_append]
  apply go_cut hb hl.2.2
  . intro m hm
    have hnm := hl.2.1 m hm
    omega
  . rfl
  . dsimp
    omega
  . intro m hm
    have hnm := hl.2.1 m hm
    dsimp
    omega

theorem fill_after (hl : Normal l) (hlo : ∀ n ∈ l, b.start ≤ n.start) (hhi : ∀ n ∈ l, b.stop ≤ n.stop)
    : fill l b = l.flatMap (cutAfter b) := by
  unfold fill ensureConsistency
  rw [flatMap_cut_after hb hlo hhi]
  exact coalesce_eq_self (pairwise_overlap_of_normal (flatMap_cutAfter_normal hl))

theorem not_covers_fill_of_loses (hl : Normal (n :: l)) (hlose : Loses b n)
    : ¬ Covers (fill (n :: l) b) (b.start - 1) := by
  have hcons := normal_cons.mp hl
  have hbehind : ∀ m ∈ l, b.stop < m.start := by
    intro m hm
    exact lt_of_le_of_lt hlose.2 (hcons.2.1 m hm)
  have hcut : l.flatMap (cut b) = l.flatMap (cutAfter b) := by
    apply flatMap_cut_after hb
    . intro m hm
      have hm' := hbehind m hm
      omega
    . intro m hm
      have hm' := hbehind m hm
      have hproper := hcons.2.2.proper m hm
      omega
  have hnormal : Normal (l.flatMap (cutAfter b)) := flatMap_cutAfter_normal hcons.2.2
  have hrest : ∀ j ∈ l.flatMap (cutAfter b), n.stop < j.start ∧ n.stop < j.stop := by
    intro j hj
    rcases List.mem_flatMap.mp hj with ⟨m, hm, hj'⟩
    rcases mem_cutAfter hj' with ⟨hstop, rfl⟩
    have hnm := hcons.2.1 m hm
    have hproper := hcons.2.2.proper m hm
    have hmax := le_max_right b.stop m.start
    dsimp
    omega
  have hcovers : ¬ Covers (l.flatMap (cutAfter b)) (b.start - 1) := by
    rintro ⟨j, hj, hx⟩
    have hj' := hrest j hj
    have hx' := hx.1
    have hstop := hlose.2
    omega
  unfold Loses at hlose
  unfold fill ensureConsistency
  rw [List.flatMap_cons]
  rw [hcut]
  by_cases hstop : b.stop < n.stop
  . rw [cut_inside hlose.1 hstop]
    rw [List.cons_append, List.singleton_append]
    rw [coalesce_cons, coalesce_cons, coalesce_eq_self (pairwise_overlap_of_normal hnormal)]
    . rw [covers_cons, covers_cons]
      simp only [HalfOpen.Mem]
      rintro (hx | hx | hx)
      . omega
      . omega
      . exact hcovers hx
    . intro j hj
      have hj' := hrest j hj
      exact overlap_eq_false (by dsimp; omega) hj'.1 hj'.2
    . intro j hj
      cases List.mem_cons.mp hj with
      | inl heq =>
        rw [heq]
        exact overlap_eq_false (by dsimp; omega) (by dsimp; omega) (by dsimp; omega)
      | inr hmem =>
        have hj' := hrest j hmem
        exact overlap_eq_false (by dsimp; omega) (by dsimp; omega) (by dsimp; omega)
  . rw [cut_end (by omega)]
    rw [List.nil_append]
    rw [coalesce_eq_self (pairwise_overlap_of_normal hnormal)]
    exact hcovers

end Fill

/-- The list describes what it did without the offsets of `b`, and it is in normal form. -/
def FillsExactly (l : ByteIntervalList) (b : ByteInterval) : Prop :=
  Represents (fill l b) (fun x => Covers l x ∧ ¬ b.Mem x)

def Fillable (l : ByteIntervalList) (b : ByteInterval) : Prop :=
  (∀ n ∈ l, ¬ Loses b n) ∧
  ∀ n ∈ l, b.start ≤ n.start → n.stop < b.stop → ∃ p ∈ l, p.start < b.start ∧ b.start ≤ p.stop

instance (l : ByteIntervalList) (b : ByteInterval) : Decidable (Fillable l b) :=
  inferInstanceAs (Decidable (_ ∧ _))

theorem fillable_cons_middle {l : ByteIntervalList} {b n : ByteInterval} (hl : Normal (n :: l))
    (hlo : b.start ≤ n.stop) (hhi : n.stop < b.stop)
    : Fillable (n :: l) b ↔ n.start < b.start := by
  have hcons := normal_cons.mp hl
  constructor
  . intro h
    by_contra hstart
    rcases h.2 n List.mem_cons_self (not_lt.mp hstart) hhi with ⟨p, hp, hlt, _⟩
    cases List.mem_cons.mp hp with
    | inl heq =>
      rw [heq] at hlt
      exact hstart hlt
    | inr hmem =>
      have hlt' := hcons.2.1 p hmem
      omega
  . intro hstart
    refine ⟨?_, fun _ _ _ _ => ⟨n, List.mem_cons_self, hstart, hlo⟩⟩
    intro m hm hlose
    unfold Loses at hlose
    cases List.mem_cons.mp hm with
    | inl heq =>
      rw [heq] at hlose
      omega
    | inr hmem =>
      have hlt := hcons.2.1 m hmem
      omega

section Exact

variable {l : ByteIntervalList} {b n : ByteInterval} (hb : b.start < b.stop)

include hb

theorem fillsExactly_cons_before (hl : Normal (n :: l)) (hn : n.stop < b.start)
    : FillsExactly (n :: l) b ↔ FillsExactly l b := by
  have hcons := normal_cons.mp hl
  unfold FillsExactly
  rw [fill_cons_before hb hl hn]
  refine Iff.trans (represents_congr ?_) (represents_cons hcons.1 ?_)
  . intro x
    have hmem : n.Mem x → ¬ b.Mem x := by
      intro hx hbx
      have hlo := hbx.1
      have hhi := hx.2
      omega
    rw [covers_cons]
    tauto
  . rintro x ⟨⟨m, hm, hx⟩, _⟩
    exact lt_of_lt_of_le (hcons.2.1 m hm) hx.1

theorem fillable_cons_before (hn : n.stop < b.start) (hproper : n.start < n.stop)
    : Fillable (n :: l) b ↔ Fillable l b := by
  unfold Fillable Loses
  simp only [List.forall_mem_cons, List.exists_mem_cons_iff]
  constructor
  . rintro ⟨⟨_, hlose⟩, _, hmiddle⟩
    refine ⟨hlose, ?_⟩
    intro m hm hlo hhi
    rcases hmiddle m hm hlo hhi with hp | hp
    . omega
    . exact hp
  . rintro ⟨hlose, hmiddle⟩
    refine ⟨⟨by omega, hlose⟩, by omega, ?_⟩
    intro m hm hlo hhi
    exact Or.inr (hmiddle m hm hlo hhi)

theorem fillsExactly_cons_middle (hl : Normal (n :: l)) (hlo : b.start ≤ n.stop) (hhi : n.stop < b.stop)
    : FillsExactly (n :: l) b ↔ n.start < b.start := by
  have hcons := normal_cons.mp hl
  have hbehind : ∀ m ∈ l, b.start ≤ m.start := by
    intro m hm
    have hlt := hcons.2.1 m hm
    omega
  unfold FillsExactly
  rw [fill_cons_middle hb hl hlo hhi]
  constructor
  . intro h
    exact (normal_cons.mp h.normal).1
  . intro hstart
    refine ⟨normal_cons.mpr ⟨hstart, ?_, flatMap_cutAfter_normal hcons.2.2⟩, ?_⟩
    . intro j hj
      rcases List.mem_flatMap.mp hj with ⟨m, hm, hj⟩
      rw [(mem_cutAfter hj).2]
      exact lt_of_lt_of_le hb (le_max_left _ _)
    . intro x
      rw [covers_cons, covers_cons, covers_flatMap_cutAfter hbehind]
      simp only [HalfOpen.Mem]
      have hpiece : n.start ≤ x ∧ x < b.start ↔ (n.start ≤ x ∧ x < n.stop) ∧ ¬ (b.start ≤ x ∧ x < b.stop) := by
        omega
      rw [hpiece]
      tauto

theorem fillsExactly_after (hl : Normal l) (hlo : ∀ n ∈ l, b.start ≤ n.start)
    (hhi : ∀ n ∈ l, b.stop ≤ n.stop)
    : FillsExactly l b := by
  unfold FillsExactly
  rw [fill_after hb hl hlo hhi]
  exact ⟨flatMap_cutAfter_normal hl, covers_flatMap_cutAfter hlo⟩

end Exact

theorem fillsExactly_iff (l : ByteIntervalList) (b : ByteInterval) (hl : Normal l) (hb : b.start < b.stop)
    : FillsExactly l b ↔ Fillable l b := by
  induction l with
  | nil =>
    refine iff_of_true (fillsExactly_after hb hl (by simp) (by simp)) ?_
    exact ⟨by simp, by simp⟩
  | cons n l ih =>
    have hcons := normal_cons.mp hl
    by_cases hbefore : n.stop < b.start
    . rw [fillsExactly_cons_before hb hl hbefore]
      rw [fillable_cons_before hb hbefore hcons.1]
      exact ih hcons.2.2
    . by_cases hmiddle : n.stop < b.stop
      . rw [fillsExactly_cons_middle hb hl (by omega) hmiddle]
        rw [fillable_cons_middle hl (by omega) hmiddle]
      . by_cases hlose : n.start < b.start
        . have hloses : Loses b n := ⟨hlose, by omega⟩
          apply iff_of_false
          . intro h
            apply not_covers_fill_of_loses hb hl hloses
            rw [h.covers]
            refine ⟨⟨n, List.mem_cons_self, by omega, by omega⟩, ?_⟩
            rintro ⟨hlo, _⟩
            omega
          . intro h
            exact h.1 n List.mem_cons_self hloses
        . -- `b` ends before all the intervals do
          have hlo : ∀ m ∈ n :: l, b.start ≤ m.start ∧ b.stop ≤ m.stop := by
            intro m hm
            cases List.mem_cons.mp hm with
            | inl heq =>
              rw [heq]
              omega
            | inr hmem =>
              have hlt := hcons.2.1 m hmem
              have hm' := hcons.2.2.proper m hmem
              omega
          apply iff_of_true
          . exact fillsExactly_after hb hl (fun m hm => (hlo m hm).1) (fun m hm => (hlo m hm).2)
          . refine ⟨?_, ?_⟩
            . intro m hm h
              have hm' := hlo m hm
              have hlt := h.1
              omega
            . intro m hm _ hlt
              have hm' := hlo m hm
              omega

theorem fillsExactly_two_gaps
    : Normal ([⟨0, 4⟩, ⟨6, 8⟩] : ByteIntervalList) ∧ fill [⟨0, 4⟩, ⟨6, 8⟩] ⟨2, 10⟩ = [⟨0, 2⟩] ∧
      FillsExactly [⟨0, 4⟩, ⟨6, 8⟩] ⟨2, 10⟩ := by
  have hl : Normal ([⟨0, 4⟩, ⟨6, 8⟩] : ByteIntervalList) := by
    simp [normal_cons, normal_nil]
  refine ⟨hl, by decide, ?_⟩
  apply (fillsExactly_iff [⟨0, 4⟩, ⟨6, 8⟩] ⟨2, 10⟩ hl (by decide)).mpr
  decide

/-- The offsets 2 and 5 are not in the range that is filled. -/
theorem not_fillsExactly
    : Normal ([⟨0, 10⟩] : ByteIntervalList) ∧ fill [⟨0, 10⟩] ⟨3, 5⟩ = [⟨0, 2⟩, ⟨6, 10⟩] ∧
      ¬ FillsExactly [⟨0, 10⟩] ⟨3, 5⟩ := by
  refine ⟨by simp [normal_cons, normal_nil], by decide, ?_⟩
  intro h
  have hfill : fill [⟨0, 10⟩] ⟨3, 5⟩ = [⟨0, 2⟩, ⟨6, 10⟩] := by decide
  have hx := h.covers 2
  rw [hfill] at hx
  simp [HalfOpen.Mem] at hx

def Meets (b n : ByteInterval) : Prop := n.start < b.stop ∧ b.start ≤ n.stop

def MeetsAtMostOne (l : ByteIntervalList) (b : ByteInterval) : Prop :=
  ∀ m ∈ l, Meets b m → ∀ n ∈ l, Meets b n → m = n

instance (b n : ByteInterval) : Decidable (Meets b n) := inferInstanceAs (Decidable (_ ∧ _))

instance (l : ByteIntervalList) (b : ByteInterval) : Decidable (MeetsAtMostOne l b) :=
  inferInstanceAs (Decidable (∀ m ∈ l, _ → ∀ n ∈ l, _ → m = n))

def AddsExactly (l : ByteIntervalList) (b : ByteInterval) : Prop :=
  Represents (add l b) (fun x => Covers l x ∨ b.Mem x)

theorem mem_insert {l : ByteIntervalList} {b j : ByteInterval} (h : j ∈ insert l b) : j = b ∨ j ∈ l := by
  induction l with
  | nil => simpa [insert] using h
  | cons n l ih =>
    unfold insert at h
    split at h
    . simpa using h
    . cases List.mem_cons.mp h with
      | inl heq => simp [heq]
      | inr hmem =>
        cases ih hmem with
        | inl heq => exact Or.inl heq
        | inr hin => exact Or.inr (List.mem_cons_of_mem n hin)

theorem insert_of_le {l : ByteIntervalList} {b : ByteInterval} (hle : ∀ m ∈ l, b.stop ≤ m.start)
    : insert l b = b :: l := by
  cases l with
  | nil => rfl
  | cons m l => simp [insert, isBefore, hle m List.mem_cons_self]

theorem insert_cons {l : ByteIntervalList} {b n : ByteInterval} (h : n.start < b.stop)
    : insert (n :: l) b = n :: insert l b := by
  simp [insert, isBefore, h]

theorem meetsAtMostOne_cons_before {l : ByteIntervalList} {b n : ByteInterval} (hn : n.stop < b.start)
    : MeetsAtMostOne (n :: l) b ↔ MeetsAtMostOne l b := by
  have hnot : ¬ Meets b n := by
    rintro ⟨_, hle⟩
    omega
  unfold MeetsAtMostOne
  simp only [List.forall_mem_cons, hnot, false_implies, true_and]

theorem not_addsExactly_cons_meets {l : ByteIntervalList} {b n m : ByteInterval}
    (hl : Normal (n :: m :: l)) (hn : Meets b n) (hm : m.start < b.stop)
    : ¬ AddsExactly (n :: m :: l) b := by
  have hcons := normal_cons.mp hl
  have hnm := hcons.2.1 m List.mem_cons_self
  have hmm := (normal_cons.mp hcons.2.2).1
  have hlo := hn.1
  have hhi := hn.2
  have hover : overlap n m = false := overlap_eq_false (by omega) hnm (by omega)
  have hadd : add (n :: m :: l) b = n :: coalesce.go overlap m (insert l b) := by
    unfold add ensureConsistency
    rw [insert_cons hlo, insert_cons hm]
    change coalesce.go overlap n (m :: insert l b) = _
    rw [coalesce.go]
    simp [hover]
  intro h
  unfold AddsExactly at h
  rw [hadd] at h
  have hbehind := (normal_cons.mp h.normal).2.1
  have hstop : Covers (n :: coalesce.go overlap m (insert l b)) n.stop := by
    rw [h.covers]
    exact Or.inr ⟨hhi, by omega⟩
  rw [covers_cons] at hstop
  rcases hstop with hmem | ⟨j, hj, hjx⟩
  . exact absurd hmem.2 (lt_irrefl _)
  . exact absurd hjx.1 (not_le.mpr (hbehind j hj))

section Add

variable {l : ByteIntervalList} {b n : ByteInterval} (hb : b.start < b.stop)

include hb

theorem addsExactly_of_isBefore (hl : Normal (n :: l)) (hn : b.stop ≤ n.start)
    : AddsExactly (n :: l) b := by
  have hle : ∀ m ∈ n :: l, b.stop ≤ m.start := by
    intro m hm
    cases List.mem_cons.mp hm with
    | inl heq =>
      rw [heq]
      exact hn
    | inr hmem =>
      have hcons := normal_cons.mp hl
      have hlt := hcons.2.1 m hmem
      omega
  unfold AddsExactly add ensureConsistency
  rw [insert_of_le hle]
  apply (represents_congr fun x => or_comm).mp
  exact represents_coalesce_go overlap_adjacent overlap_separates hb hl hle

theorem add_cons_before (hl : Normal (n :: l)) (hn : n.stop < b.start)
    : add (n :: l) b = n :: add l b := by
  have hcons := normal_cons.mp hl
  unfold add ensureConsistency
  rw [insert_cons (by omega)]
  apply coalesce_cons
  intro j hj
  cases mem_insert hj with
  | inl heq =>
    rw [heq]
    exact overlap_eq_false (by omega) hn (by omega)
  | inr hmem =>
    have hlt := hcons.2.1 j hmem
    have hj' := hcons.2.2.proper j hmem
    exact overlap_eq_false (by omega) hlt (by omega)

theorem addsExactly_cons_before (hl : Normal (n :: l)) (hn : n.stop < b.start)
    : AddsExactly (n :: l) b ↔ AddsExactly l b := by
  have hcons := normal_cons.mp hl
  unfold AddsExactly
  rw [add_cons_before hb hl hn]
  refine Iff.trans (represents_congr ?_) (represents_cons hcons.1 ?_)
  . intro x
    rw [covers_cons]
    exact or_assoc
  . rintro x (⟨m, hm, hx⟩ | hx)
    . exact lt_of_lt_of_le (hcons.2.1 m hm) hx.1
    . exact lt_of_lt_of_le hn hx.1

theorem addsExactly_cons_meets (hl : Normal (n :: l)) (hn : Meets b n) (hle : ∀ m ∈ l, b.stop ≤ m.start)
    : AddsExactly (n :: l) b := by
  have hcons := normal_cons.mp hl
  have hlo := hn.1
  have hhi := hn.2
  have hover : overlap n b = true := by
    rw [overlap_iff]
    omega
  have hmerge : n.merge b = ⟨min n.start b.start, max n.stop b.stop⟩ := rfl
  have hgo : Represents (coalesce.go overlap (n.merge b) l) (fun x => (n.merge b).Mem x ∨ Covers l x) := by
    apply represents_coalesce_go overlap_adjacent overlap_separates _ hcons.2.2
    . intro m hm
      have hnm := hcons.2.1 m hm
      have hbm := hle m hm
      exact max_le (le_of_lt hnm) hbm
    . rw [hmerge]
      dsimp
      omega
  unfold AddsExactly add ensureConsistency
  rw [insert_cons hlo, insert_of_le hle]
  change Represents (coalesce.go overlap n (b :: l)) _
  rw [coalesce.go]
  rw [if_pos hover]
  refine (represents_congr ?_).mp hgo
  intro x
  have hunion : (n.merge b).Mem x ↔ n.Mem x ∨ b.Mem x := by
    rw [hmerge]
    simp only [HalfOpen.Mem]
    omega
  rw [covers_cons, hunion]
  tauto

theorem addsExactly_iff (hl : Normal l) : AddsExactly l b ↔ MeetsAtMostOne l b := by
  induction l with
  | nil =>
    refine iff_of_true ?_ (by simp [MeetsAtMostOne])
    refine ⟨?_, ?_⟩
    . simp [add, insert, ensureConsistency, coalesce, coalesce.go, normal_cons, normal_nil, hb]
    . intro x
      simp [add, insert, ensureConsistency, coalesce, coalesce.go]
  | cons n l ih =>
    have hcons := normal_cons.mp hl
    by_cases hbefore : n.stop < b.start
    . rw [addsExactly_cons_before hb hl hbefore]
      rw [meetsAtMostOne_cons_before hbefore]
      exact ih hcons.2.2
    . by_cases hbehind : b.stop ≤ n.start
      . refine iff_of_true (addsExactly_of_isBefore hb hl hbehind) ?_
        intro m hm hmeets
        have hlt := hmeets.1
        cases List.mem_cons.mp hm with
        | inl heq =>
          rw [heq] at hlt
          omega
        | inr hmem =>
          have hnm := hcons.2.1 m hmem
          omega
      . have hmeets : Meets b n := ⟨by omega, by omega⟩
        by_cases hnext : ∃ m l', l = m :: l' ∧ m.start < b.stop
        . rcases hnext with ⟨m, l', rfl, hm⟩
          apply iff_of_false
          . exact not_addsExactly_cons_meets hl hmeets hm
          . intro h
            have hnm := hcons.2.1 m List.mem_cons_self
            have hmm := hcons.2.2.proper m List.mem_cons_self
            have heq := h n List.mem_cons_self hmeets m (by simp) ⟨hm, by omega⟩
            rw [heq] at hnm
            omega
        . have hle : ∀ m ∈ l, b.stop ≤ m.start := by
            intro m hm
            cases l with
            | nil => contradiction
            | cons k l =>
              have hk : b.stop ≤ k.start := by
                by_contra hlt
                exact hnext ⟨k, l, rfl, not_le.mp hlt⟩
              cases List.mem_cons.mp hm with
              | inl heq =>
                rw [heq]
                exact hk
              | inr hmem =>
                have hk' := normal_cons.mp hcons.2.2
                have hkm := hk'.2.1 m hmem
                omega
          refine iff_of_true (addsExactly_cons_meets hb hl hmeets hle) ?_
          have honly : ∀ m ∈ n :: l, Meets b m → m = n := by
            intro m hm hm'
            cases List.mem_cons.mp hm with
            | inl heq => exact heq
            | inr hmem =>
              have hlt := hm'.1
              have hge := hle m hmem
              omega
          intro m hm hm' k hk hk'
          rw [honly m hm hm', honly k hk hk']

end Add

def KeepsNormal (bs : List ByteInterval) : Prop :=
  ∀ n, Represents ((bs.take n).foldl add []) (Covers (bs.take n))

theorem covers_concat (bs : List ByteInterval) (b : ByteInterval) (x : Nat)
    : Covers bs x ∨ b.Mem x ↔ Covers (bs ++ [b]) x := by
  simp

theorem keepsNormal_iff (bs : List ByteInterval) (hbs : ∀ b ∈ bs, b.start < b.stop)
    : KeepsNormal bs ↔ Run.Guarded (fun l b => some (add l b)) MeetsAtMostOne [] bs := by
  constructor
  . intro h
    have hstep : ∀ hist l b l', Represents l (Covers hist) → some (add l b) = some l' →
        Represents l' (Covers (hist ++ [b])) → b.start < b.stop → MeetsAtMostOne l b := by
      intro hist l b l' hl hadd hl' hb
      injection hadd with hadd
      rw [← hadd] at hl'
      rw [← addsExactly_iff hb hl.normal]
      refine (represents_congr ?_).mp hl'
      intro x
      rw [hl.covers, covers_concat]
    have hguarded := Run.guarded_of_inv _ hstep [] [] bs (Run.run_total add [] bs) (by
      intro n l hrun
      rw [Run.run_total] at hrun
      injection hrun with hrun
      rw [← hrun, List.nil_append]
      exact h n)
    apply hguarded.mono
    intro l b hb hmeets
    exact hmeets (hbs b hb)
  . intro h n
    have hstep : ∀ hist l b l', Represents l (Covers hist) → MeetsAtMostOne l b ∧ b.start < b.stop →
        some (add l b) = some l' → Represents l' (Covers (hist ++ [b])) := by
      intro hist l b l' hl hb hadd
      injection hadd with hadd
      rw [← hadd]
      refine (represents_congr ?_).mp ((addsExactly_iff hb.2 hl.normal).mpr hb.1)
      intro x
      rw [hl.covers, covers_concat]
    have hok := (h.take _ n).and _ (Run.Guarded.of_forall (fun l b => some (add l b))
      (fun b hb (_ : ByteIntervalList) => hbs b (List.mem_of_mem_take hb)) [])
    have hrun := Run.run_total add [] (bs.take n)
    have hinv := Run.inv_of_run _ hstep [] [] (bs.take n) ⟨normal_nil, by simp⟩ hok hrun
    simpa using hinv

theorem keepsNormal_sample : KeepsNormal [⟨1, 2⟩, ⟨4, 5⟩, ⟨2, 4⟩, ⟨6, 8⟩] := by
  apply (keepsNormal_iff [⟨1, 2⟩, ⟨4, 5⟩, ⟨2, 4⟩, ⟨6, 8⟩] (by decide)).mpr
  decide

/-- The last interval spans the two before it, and only one of them is merged with it. -/
theorem not_keepsNormal
    : (∀ b ∈ ([⟨2, 3⟩, ⟨5, 6⟩, ⟨0, 10⟩] : List ByteInterval), b.start < b.stop) ∧
      [⟨2, 3⟩, ⟨5, 6⟩, ⟨0, 10⟩].foldl add [] = [⟨2, 3⟩, ⟨0, 10⟩] ∧
      ¬ KeepsNormal [⟨2, 3⟩, ⟨5, 6⟩, ⟨0, 10⟩] := by
  refine ⟨by decide, by decide, ?_⟩
  intro h
  have hlist : [⟨2, 3⟩, ⟨5, 6⟩, ⟨0, 10⟩].foldl add [] = [⟨2, 3⟩, ⟨0, 10⟩] := by decide
  have hnormal := (h 3).normal
  rw [List.take_of_length_le (by simp), hlist] at hnormal
  have hapart := (normal_cons.mp hnormal).2.1 ⟨0, 10⟩ (by simp)
  contradiction

end ByteIntervalList

end QuicTracker
