import QuicTracker.Impl.Streams

/-!
This module contains what the operations on the list of gaps do to the set of offsets it describes.
-/

namespace QuicTracker

open HalfOpen

namespace ByteInterval

theorem overlap_iff (b o : ByteInterval)
    : b.overlap o = true ↔
        (o.start ≤ b.stop ∧ b.stop ≤ o.stop) ∨ (b.start ≤ o.stop ∧ o.stop ≤ b.stop) ∨
        (b.start ≤ o.start ∧ o.stop ≤ b.stop) ∨ (o.start ≤ b.start ∧ b.stop ≤ o.stop) := by
  unfold overlap
  simp only [Bool.or_eq_true, Bool.and_eq_true, decide_eq_true_eq, ge_iff_le, or_assoc]

theorem overlap_adjacent : coalesce.Adjacent overlap := by
  intro p n hp hn hle htouch
  rw [overlap_iff] at htouch
  omega

end ByteInterval

namespace ByteIntervalList

open ByteInterval

/-- The offsets of `n` outside of `b` that `exclude` drops. -/
def Loses (b n : ByteInterval) : Prop := n.start < b.start ∧ b.stop ≤ n.stop

instance (b n : ByteInterval) : Decidable (Loses b n) := inferInstanceAs (Decidable (_ ∧ _))

/-- The call of `exclude` leaves an interval without an offset behind. -/
def Sticks (b n : ByteInterval) : Prop :=
  (b.start ≤ n.start ∧ n.stop < b.stop) ∨
  (b.start = n.start + 1 ∧ b.stop < n.stop) ∨
  (n.start < b.start ∧ b.stop + 1 = n.stop)

instance (b n : ByteInterval) : Decidable (Sticks b n) := inferInstanceAs (Decidable (_ ∨ _))

theorem mem_cut (b n j : ByteInterval) (h : j ∈ cut b n)
    : (b.overlap n = false ∧ j = n) ∨
      (n.start < b.start ∧ b.stop < n.stop ∧ (j = ⟨n.start, b.start - 1⟩ ∨ j = ⟨b.stop + 1, n.stop⟩)) ∨
      (b.overlap n = true ∧ b.start ≤ n.start ∧ b.stop < n.stop ∧ j = ⟨b.stop, n.stop⟩) ∨
      (b.overlap n = true ∧ n.stop < b.stop ∧ j = ⟨n.start, b.start⟩) := by
  unfold cut at h
  split at h
  . next hover =>
    unfold exclude at h
    split at h
    . next hin =>
      simp only [List.mem_cons, List.not_mem_nil, or_false] at h
      exact Or.inr (Or.inl ⟨hin.1, hin.2, h⟩)
    . split at h
      . simp only [List.mem_singleton] at h
        simp_all
      . split at h
        . simp only [List.mem_singleton] at h
          simp_all
        . simp at h
  . simp_all

theorem cut_within (b n : ByteInterval) (hb : b.start ≤ b.stop)
    : ∀ j ∈ cut b n, n.start ≤ j.start ∧ j.top ≤ n.top := by
  intro j hj
  unfold HalfOpen.top
  rcases mem_cut b n j hj with ⟨-, rfl⟩ | ⟨h1, h2, rfl | rfl⟩ | ⟨hover, h1, h2, rfl⟩ | ⟨hover, h1, rfl⟩
  . omega
  . dsimp
    omega
  . dsimp
    omega
  . rw [overlap_iff] at hover
    dsimp
    omega
  . rw [overlap_iff] at hover
    dsimp
    omega

theorem cut_ordered (b n : ByteInterval) (hb : b.start ≤ b.stop) : Ordered (cut b n) := by
  unfold cut exclude Ordered
  split
  . split
    . simp [HalfOpen.top]
      omega
    . split
      . simp
      . split
        . simp
        . simp
  . simp

theorem covers_cut (b n : ByteInterval) (x : Nat) (hn : n.Mem x) (hb : ¬ b.Mem x)
    (hlose : ¬ Loses b n)
    : Covers (cut b n) x := by
  unfold HalfOpen.Mem at hn hb
  unfold Loses at hlose
  unfold cut
  split
  . next hover =>
    unfold exclude
    split
    . omega
    . split
      . rw [covers_cons]
        left
        simp only [HalfOpen.Mem]
        omega
      . split
        . rw [covers_cons]
          left
          simp only [HalfOpen.Mem]
          omega
        . omega
  . rw [covers_cons]
    exact Or.inl hn

theorem cut_proper (b n : ByteInterval) (hn : n.start < n.stop) (hstick : ¬ Sticks b n)
    : ∀ j ∈ cut b n, j.start < j.stop := by
  intro j hj
  unfold Sticks at hstick
  rcases mem_cut b n j hj with ⟨-, rfl⟩ | ⟨h1, h2, rfl | rfl⟩ | ⟨hover, h1, h2, rfl⟩ | ⟨hover, h1, rfl⟩
  . exact hn
  . dsimp
    omega
  . dsimp
    omega
  . exact h2
  . dsimp
    omega

theorem mem_of_mem_cut (b n j : ByteInterval) (x : Nat) (hb : b.start ≤ b.stop)
    (hn : n.start < n.stop) (hj : j ∈ cut b n) (hx : j.Mem x)
    : n.Mem x ∧ ¬ b.Mem x := by
  unfold HalfOpen.Mem at hx ⊢
  rcases mem_cut b n j hj with ⟨hover, rfl⟩ | ⟨h1, h2, rfl | rfl⟩ | ⟨hover, h1, h2, rfl⟩ | ⟨hover, h1, rfl⟩
  . have := overlap_iff b j
    simp only [hover, Bool.false_eq_true, false_iff] at this
    omega
  . dsimp at hx
    omega
  . dsimp at hx
    omega
  . rw [overlap_iff] at hover
    dsimp at hx
    omega
  . rw [overlap_iff] at hover
    dsimp at hx
    omega

theorem insert_eq_concat (l : ByteIntervalList) (b : ByteInterval) (hb : b.start < b.stop)
    (hl : ∀ j ∈ l, j.top ≤ b.start)
    : insert l b = l ++ [b] := by
  induction l with
  | nil => rfl
  | cons n l ih =>
    have hn : n.top ≤ b.start := hl n (by simp)
    have hlt : n.start < b.stop := by
      have := n.start_le_top
      omega
    unfold insert
    rw [ih]
    . simp [isBefore, hlt]
    . intro j hj
      apply hl
      simp [hj]

theorem proper_concat {l : ByteIntervalList} {b : ByteInterval} (hb : b.start < b.stop)
    (hproper : Proper l)
    : Proper (l ++ [b]) := by
  intro j hj
  rw [List.mem_append] at hj
  cases hj with
  | inl hj => exact hproper j hj
  | inr hj =>
    simp only [List.mem_singleton] at hj
    rw [hj]
    exact hb

section Add

variable {l : ByteIntervalList} {b : ByteInterval} (hb : b.start < b.stop)
  (htop : ∀ j ∈ l, j.top ≤ b.start)

include hb htop

theorem add_ordered (hl : Ordered l) : Ordered (add l b) := by
  unfold add
  rw [insert_eq_concat l b hb htop]
  apply Ordered.coalesce
  exact hl.concat b htop

theorem add_bound : ∀ j ∈ add l b, j.top ≤ b.stop := by
  unfold add
  rw [insert_eq_concat l b hb htop]
  apply coalesce_bound
  intro j hj
  rw [List.mem_append] at hj
  cases hj with
  | inl hj =>
    have := htop j hj
    omega
  | inr hj =>
    simp only [List.mem_singleton] at hj
    rw [hj]
    simp [HalfOpen.top, Nat.le_of_lt hb]

theorem covers_add {x : Nat} (h : Covers l x ∨ b.Mem x) : Covers (add l b) x := by
  unfold add
  rw [insert_eq_concat l b hb htop]
  apply Covers.coalesce
  rw [covers_append, covers_cons]
  cases h with
  | inl h => exact Or.inl h
  | inr h => exact Or.inr (Or.inl h)

theorem add_proper (hl : Ordered l) (hproper : Proper l) : Proper (add l b) := by
  unfold add
  rw [insert_eq_concat l b hb htop]
  apply Proper.coalesce overlap_adjacent
  . exact hl.concat b htop
  . apply proper_concat hb hproper

theorem covers_of_covers_add {x : Nat} (hl : Ordered l) (hproper : Proper l)
    (h : Covers (add l b) x)
    : Covers l x ∨ b.Mem x := by
  unfold add at h
  rw [insert_eq_concat l b hb htop] at h
  have := covers_of_covers_coalesce overlap_adjacent (hl.concat b htop)
    (proper_concat hb hproper) h
  simpa using this

end Add

theorem covers_fill {l : ByteIntervalList} {b : ByteInterval} {x : Nat} (h : Covers l x)
    (hx : ¬ b.Mem x) (hlose : ∀ n ∈ l, ¬ Loses b n)
    : Covers (fill l b) x := by
  apply Covers.coalesce
  rw [covers_flatMap]
  rcases h with ⟨n, hn, hmem⟩
  exact ⟨n, hn, covers_cut b n x hmem hx (hlose n hn)⟩

theorem flatMap_cut_proper {l : ByteIntervalList} {b : ByteInterval} (hproper : Proper l)
    (hstick : ∀ n ∈ l, ¬ Sticks b n)
    : Proper (l.flatMap (cut b)) := by
  intro j hj
  rw [List.mem_flatMap] at hj
  rcases hj with ⟨n, hn, hj⟩
  apply cut_proper b n (hproper n hn) (hstick n hn) j hj

section Fill

variable {l : ByteIntervalList} {b : ByteInterval} (hb : b.start ≤ b.stop)

include hb

theorem flatMap_cut_ordered (hl : Ordered l) : Ordered (l.flatMap (cut b)) := by
  apply hl.flatMap
  . intro n hn
    apply cut_ordered b n hb
  . intro n hn
    apply cut_within b n hb

theorem fill_ordered (hl : Ordered l) : Ordered (fill l b) := by
  apply Ordered.coalesce
  apply flatMap_cut_ordered hb hl

theorem fill_bound (m : Nat) (hl : ∀ j ∈ l, j.top ≤ m) : ∀ j ∈ fill l b, j.top ≤ m := by
  apply coalesce_bound
  intro j hj
  rw [List.mem_flatMap] at hj
  rcases hj with ⟨n, hn, hj⟩
  have := (cut_within b n hb j hj).2
  have := hl n hn
  omega

theorem fill_proper (hl : Ordered l) (hproper : Proper l) (hstick : ∀ n ∈ l, ¬ Sticks b n)
    : Proper (fill l b) := by
  apply Proper.coalesce overlap_adjacent
  . apply flatMap_cut_ordered hb hl
  . apply flatMap_cut_proper hproper hstick

theorem covers_of_covers_fill {x : Nat} (hl : Ordered l) (hproper : Proper l)
    (hstick : ∀ n ∈ l, ¬ Sticks b n) (h : Covers (fill l b) x)
    : Covers l x ∧ ¬ b.Mem x := by
  have := covers_of_covers_coalesce overlap_adjacent (flatMap_cut_ordered hb hl)
    (flatMap_cut_proper hproper hstick) h
  rw [covers_flatMap] at this
  rcases this with ⟨n, hn, j, hj, hx⟩
  have := mem_of_mem_cut b n j x hb (hproper n hn) hj hx
  exact ⟨⟨n, hn, this.1⟩, this.2⟩

end Fill

end ByteIntervalList

end QuicTracker
