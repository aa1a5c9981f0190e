import Mathlib.Algebra.Order.Floor.Semifield
import Mathlib.Data.Rat.Floor
import Mathlib.Tactic

/-!
This module contains weighted means of natural numbers that are computed with a rounding after every operation
and cut off at the point. The rounding is arbitrary as long as it keeps the values of a given precision.
-/

namespace Rounding

/-- The numbers with a mantissa of `p` bits and an exponent of at least `-q` are not changed. -/
def Exact (round : ℚ → ℚ) (p q : ℕ) : Prop :=
  ∀ m e : ℕ, m < 2 ^ p → e ≤ q → round (m / 2 ^ e) = m / 2 ^ e

theorem exact_id (p q : ℕ) : Exact id p q := by
  intro m e _ _
  rfl

def mean (round : ℚ → ℚ) (c d : ℚ) (a b : ℕ) : ℕ :=
  ⌊round (round (c * round a) + round (d * round b))⌋₊

section

variable {round : ℚ → ℚ} {p q : ℕ}

theorem Exact.nat (h : Exact round p q) {n : ℕ} (hn : n < 2 ^ p) : round n = n := by
  have hround := h n 0 hn (Nat.zero_le q)
  rw [pow_zero, div_one] at hround
  exact hround

theorem Exact.mul (h : Exact round p q) {n v k : ℕ} (hn : n < 2 ^ p) (hv : v * n < 2 ^ p)
    (hk : k ≤ q)
    : round ((v : ℚ) / 2 ^ k * round n) = (v * n : ℕ) / 2 ^ k := by
  rw [h.nat hn]
  have heq : (v : ℚ) / 2 ^ k * n = (v * n : ℕ) / 2 ^ k := by
    push_cast
    ring
  rw [heq]
  exact h (v * n) k hv hk

theorem mean_eq (h : Exact round p q) {v w k a b : ℕ} (ha : a < 2 ^ p) (hb : b < 2 ^ p)
    (hsum : v * a + w * b < 2 ^ p) (hk : k ≤ q)
    : mean round (v / 2 ^ k) (w / 2 ^ k) a b = (v * a + w * b) / 2 ^ k := by
  unfold mean
  rw [h.mul ha (by omega) hk, h.mul hb (by omega) hk]
  have hadd : ((v * a : ℕ) : ℚ) / 2 ^ k + (w * b : ℕ) / 2 ^ k = (v * a + w * b : ℕ) / 2 ^ k := by
    push_cast
    ring
  rw [hadd, h _ k hsum hk]
  have hpow : (2 ^ k : ℚ) = ((2 ^ k : ℕ) : ℚ) := by
    push_cast
    rfl
  rw [hpow, Nat.floor_div_eq_div]

end

theorem le_mean {v w k a b low : ℕ} (hvw : v + w = 2 ^ k) (ha : low ≤ a) (hb : low ≤ b)
    : low ≤ (v * a + w * b) / 2 ^ k := by
  rw [Nat.le_div_iff_mul_le (by positivity)]
  calc low * 2 ^ k
    _ = v * low + w * low := by rw [← hvw]; ring
    _ ≤ v * a + w * b := Nat.add_le_add (Nat.mul_le_mul_left v ha) (Nat.mul_le_mul_left w hb)

theorem sum_le {v w k a b high : ℕ} (hvw : v + w = 2 ^ k) (ha : a ≤ high) (hb : b ≤ high)
    : v * a + w * b ≤ high * 2 ^ k := by
  calc v * a + w * b
    _ ≤ v * high + w * high := Nat.add_le_add (Nat.mul_le_mul_left v ha) (Nat.mul_le_mul_left w hb)
    _ = high * 2 ^ k := by rw [← hvw]; ring

theorem mean_le {v w k a b high : ℕ} (hvw : v + w = 2 ^ k) (ha : a ≤ high) (hb : b ≤ high)
    : (v * a + w * b) / 2 ^ k ≤ high := by
  apply Nat.div_le_of_le_mul
  rw [Nat.mul_comm (2 ^ k)]
  exact sum_le hvw ha hb

end Rounding
