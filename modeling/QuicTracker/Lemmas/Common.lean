import QuicTracker.Lemmas.Varint

/-!
This module contains the arithmetic of packet number truncation.
-/

namespace QuicTracker

open ByteReader

theorem u64_of_lt {n : Nat} (h : n < 2 ^ 64) : u64 n = n := by
  unfold u64
  apply Nat.mod_eq_of_lt h

theorem u64Sub_of_le {a b : Nat} (h : b ≤ a) (ha : a < 2 ^ 64) : u64Sub a b = a - b := by
  unfold u64Sub u64
  omega

theorem beNat_replicate_append (n : Nat) (bs : List UInt8)
    : beNat (List.replicate n 0 ++ bs) = beNat bs := by
  induction n with
  | zero => simp
  | succ n ih =>
    rw [List.replicate_succ]
    rw [List.cons_append]
    rw [beNat_zero_cons]
    rw [ih]

theorem and_mask (x j : Nat) (h : x < 2 ^ (w + j)) : x &&& ((2 ^ w - 1) <<< j) = (x >>> j) <<< j := by
  apply Nat.eq_of_testBit_eq
  intro i
  simp only [Nat.testBit_and, Nat.testBit_shiftLeft, Nat.testBit_shiftRight,
    Nat.testBit_two_pow_sub_one]
  by_cases hij : j ≤ i
  . have : j + (i - j) = i := by omega
    simp only [ge_iff_le, hij, decide_true, Bool.true_and, this]
    by_cases hiw : i - j < w
    . simp [hiw]
    . have : x < 2 ^ i := Nat.lt_of_lt_of_le h (Nat.pow_le_pow_right (by omega) (by omega))
      rw [Nat.testBit_lt_two_pow this]
      simp
  . simp [hij]

namespace TruncatedPN

def WellFormed (t : TruncatedPN) : Prop := 1 ≤ t.length ∧ t.length ≤ 4 ∧ t.value < 256 ^ t.length

theorem length_encode_of_le {t : TruncatedPN} (h1 : 1 ≤ t.length) (h4 : t.length ≤ 4)
    : t.encode.length = t.length := by
  rcases t with ⟨value, length⟩
  dsimp only at h1 h4 ⊢
  have hlength : length = 1 ∨ length = 2 ∨ length = 3 ∨ length = 4 := by omega
  rcases hlength with rfl | rfl | rfl | rfl
  . rfl
  . apply length_beBytes
  . apply (List.length_drop).trans
    rw [length_beBytes]
  . apply length_beBytes

theorem encode_eq (t : TruncatedPN) (h : t.WellFormed) : t.encode = beBytes t.length t.value := by
  rcases t with ⟨value, length⟩
  rcases h with ⟨h1, h4, hlt⟩
  dsimp at h1 h4 hlt
  have : length = 1 ∨ length = 2 ∨ length = 3 ∨ length = 4 := by omega
  rcases this with rfl | rfl | rfl | rfl
  . simp [encode, beBytes]
  . have : value % 2 ^ 16 = value := Nat.mod_eq_of_lt hlt
    simp only [encode, uint16ToBEBytes]
    rw [this]
  . simp [encode, uint24ToBEBytes, beBytes]
  . simp [encode, uint32ToBEBytes]

theorem join_eq (t : TruncatedPN) (h : t.WellFormed) (p : Nat) (hp : p < 2 ^ 64)
    : t.join p = p / 256 ^ t.length * 256 ^ t.length + t.value := by
  rcases t with ⟨value, length⟩
  rcases h with ⟨h1, h4, hlt⟩
  dsimp at h1 h4 hlt ⊢
  have hpow : 256 ^ length = 2 ^ (length * 8) := by
    rw [Nat.mul_comm]
    rw [Nat.pow_mul]
  have hmask : u64 (0xFFFFFFFFFFFFFFFF <<< (length * 8))
      = (2 ^ (64 - length * 8) - 1) <<< (length * 8) := by
    have : length = 1 ∨ length = 2 ∨ length = 3 ∨ length = 4 := by omega
    rcases this with rfl | rfl | rfl | rfl
    all_goals rfl
  unfold join
  dsimp only
  rw [hmask]
  rw [and_mask]
  . rw [hpow] at hlt ⊢
    rw [← Nat.shiftLeft_add_eq_or_of_lt hlt]
    rw [Nat.shiftLeft_eq, Nat.shiftRight_eq_div_pow]
  . have : 64 - length * 8 + length * 8 = 64 := by omega
    rw [this]
    assumption

end TruncatedPN

theorem readTruncatedPN_encode (t : TruncatedPN) (h : t.WellFormed) (rest : List UInt8)
    : readTruncatedPN (t.encode ++ rest) t.length = (t, rest) := by
  unfold readTruncatedPN
  rw [t.encode_eq h]
  rw [readInto_append]
  . dsimp only
    rw [beNat_replicate_append]
    rw [beNat_beBytes_of_lt h.2.2]
  . apply length_beBytes

namespace PacketNumber

/-- The bytes that hold the distance to the largest acknowledged packet number. -/
def bytesKept (distance : Nat) : Nat :=
  if distance < 2 ^ 8 then 1
  else if distance < 2 ^ 16 then 2
  else if distance < 2 ^ 24 then 3
  else 4

theorem bytesKept_cases (n : Nat)
    : (n < 2 ^ 8 ∧ bytesKept n = 1) ∨ (2 ^ 8 ≤ n ∧ n < 2 ^ 16 ∧ bytesKept n = 2) ∨
      (2 ^ 16 ≤ n ∧ n < 2 ^ 24 ∧ bytesKept n = 3) ∨ (2 ^ 24 ≤ n ∧ bytesKept n = 4) := by
  unfold bytesKept
  split
  . omega
  . split
    . omega
    . split
      . omega
      . omega

theorem log2_eq_bytesKept (n : Nat) (h0 : 0 < n) (h : n < 2 ^ 32) : n.log2 / 8 + 1 = bytesKept n := by
  have hlog (k : Nat) : n.log2 < k ↔ n < 2 ^ k := Nat.log2_lt (by omega)
  have h8 := hlog 8
  have h16 := hlog 16
  have h24 := hlog 24
  have h32 := hlog 32
  have hcases := bytesKept_cases n
  omega

theorem bytesKept_le (n : Nat) : 1 ≤ bytesKept n ∧ bytesKept n ≤ 4 := by
  have hcases := bytesKept_cases n
  omega

theorem lt_bytesKept {n : Nat} (h : n < 2 ^ 32) : n < 256 ^ bytesKept n := by
  rcases bytesKept_cases n with ⟨hn, hk⟩ | ⟨_, hn, hk⟩ | ⟨_, hn, hk⟩ | ⟨_, hk⟩
  . rw [hk]
    omega
  . rw [hk]
    omega
  . rw [hk]
    omega
  . rw [hk]
    omega

theorem and_low_bytes (p k : Nat) (h1 : 1 ≤ k) (h4 : k ≤ 4)
    : (p % 2 ^ 32) &&& (0xFFFFFFFF >>> (8 * (4 - k))) = p % 256 ^ k := by
  have hmask : 0xFFFFFFFF >>> (8 * (4 - k)) = 2 ^ (8 * k) - 1 := by
    have : k = 1 ∨ k = 2 ∨ k = 3 ∨ k = 4 := by omega
    rcases this with rfl | rfl | rfl | rfl
    all_goals rfl
  rw [hmask]
  rw [Nat.and_two_pow_sub_one_eq_mod]
  rw [Nat.mod_mod_of_dvd]
  . rw [Nat.pow_mul]
  . apply Nat.pow_dvd_pow
    omega

section Truncate

variable (log2 : Nat → Nat) (hlog : ∀ n, 0 < n → n < 2 ^ 32 → log2 n = n.log2)

include hlog

theorem truncate_eq (p la : Nat) (hla : la ≤ p) (hp : p < 2 ^ 64)
    (hdist : p - la + 1 < 2 ^ 32)
    : truncate log2 p la =
        some ⟨p % 256 ^ bytesKept (p - la + 1), bytesKept (p - la + 1)⟩ := by
  have hle := bytesKept_le (p - la + 1)
  unfold truncate
  rw [if_neg (by omega)]
  rw [u64Sub_of_le hla hp]
  rw [u64_of_lt (by omega)]
  rw [hlog _ (by omega) hdist]
  rw [log2_eq_bytesKept _ (by omega) hdist]
  dsimp only
  rw [if_neg (by omega)]
  rw [and_low_bytes _ _ hle.1 hle.2]

end Truncate

/-- The number `p` truncated by a sender that knows of `la` is `p` again for a receiver that has seen `l`. -/
def Survives (log2 : Nat → Nat) (p la l : Nat) : Prop :=
  ∃ t, truncate log2 p la = some t ∧
    ∀ rest, ∃ t', readTruncatedPN (t.encode ++ rest) t.length = (t', rest) ∧ t'.join l = p

theorem survives_iff_high_bytes_eq (log2 : Nat → Nat)
    (hlog : ∀ n, 0 < n → n < 2 ^ 32 → log2 n = n.log2) (p la l : Nat)
    (hp : p < 2 ^ 64) (hla : la ≤ l) (hl : l < p) (hdist : p - la < 2 ^ 31)
    : Survives log2 p la l ↔
        p / 256 ^ bytesKept (p - la + 1) = l / 256 ^ bytesKept (p - la + 1) := by
  have hle := bytesKept_le (p - la + 1)
  have htrunc := truncate_eq log2 hlog p la (by omega) hp (by omega)
  generalize bytesKept (p - la + 1) = k at hle htrunc ⊢
  have hpos : 0 < 256 ^ k := Nat.pow_pos (by omega)
  have hwf : TruncatedPN.WellFormed ⟨p % 256 ^ k, k⟩ := ⟨hle.1, hle.2, Nat.mod_lt _ hpos⟩
  have hjoin := TruncatedPN.join_eq _ hwf l (by omega)
  dsimp only at hjoin
  have hdiv : p / 256 ^ k * 256 ^ k + p % 256 ^ k = p := Nat.div_add_mod' p (256 ^ k)
  constructor
  . rintro ⟨t, ht, hread⟩
    rw [htrunc] at ht
    injection ht with ht
    subst ht
    rcases hread [] with ⟨t', hread, hp'⟩
    rw [readTruncatedPN_encode _ hwf] at hread
    injection hread with hread
    subst hread
    rw [hjoin] at hp'
    apply Nat.eq_of_mul_eq_mul_right hpos
    omega
  . intro heq
    refine ⟨_, htrunc, ?_⟩
    intro rest
    refine ⟨_, readTruncatedPN_encode _ hwf rest, ?_⟩
    rw [hjoin]
    rw [← heq]
    exact hdiv

theorem survives_iff_high_bytes_eq_300
    : Survives Nat.log2 300 256 290 ↔
        300 / 256 ^ bytesKept (300 - 256 + 1) = 290 / 256 ^ bytesKept (300 - 256 + 1) := by
  apply survives_iff_high_bytes_eq
  . intros
    rfl
  . decide
  . decide
  . decide
  . decide

theorem not_survives_256 : ¬ Survives Nat.log2 256 255 255 := by
  rintro ⟨t, ht, hread⟩
  have : t = ⟨0, 1⟩ := by
    have htrunc : truncate Nat.log2 256 255 = some ⟨0, 1⟩ := by decide
    rw [htrunc] at ht
    injection ht with ht
    rw [ht]
  subst this
  rcases hread [] with ⟨t', hread, hjoin⟩
  have hzero : t' = ⟨0, 1⟩ := by
    have : readTruncatedPN [0] 1 = (⟨0, 1⟩, []) := by decide
    apply congrArg Prod.fst (hread.symm.trans this)
  rw [hzero] at hjoin
  exact absurd hjoin (by decide)

theorem truncate_length {log2 : Nat → Nat} {p la : Nat} {t : TruncatedPN}
    (h : truncate log2 p la = some t)
    : 1 ≤ t.length ∧ t.length ≤ 4 := by
  unfold truncate at h
  split at h
  . contradiction
  . dsimp only at h
    split at h
    . contradiction
    . injection h with h
      rw [← h]
      dsimp only
      omega

theorem truncate_eq_none (log2 : Nat → Nat) (hlog : ∀ n, 2 ^ 32 ≤ n → 32 ≤ log2 n) (p la : Nat)
    (hla : la ≤ p) (hp : p < 2 ^ 62) (hdist : 2 ^ 32 ≤ p - la + 1)
    : truncate log2 p la = none := by
  have := hlog _ hdist
  unfold truncate
  rw [if_neg (by omega)]
  rw [u64Sub_of_le hla (by omega)]
  rw [u64_of_lt (by omega)]
  dsimp only
  rw [if_pos (by omega)]

theorem truncate_injective (log2 : Nat → Nat)
    (hlog : ∀ n, 0 < n → n < 2 ^ 32 → log2 n = n.log2) (p q la : Nat)
    (hp : la ≤ p) (hpd : p - la + 1 < 2 ^ 32) (hp64 : p < 2 ^ 64)
    (hq : la ≤ q) (hqd : q - la + 1 < 2 ^ 32) (hq64 : q < 2 ^ 64)
    (heq : truncate log2 p la = truncate log2 q la)
    : p = q := by
  rw [truncate_eq log2 hlog p la hp hp64 hpd] at heq
  rw [truncate_eq log2 hlog q la hq hq64 hqd] at heq
  injection heq with heq
  injection heq with hvalue hkept
  have hpk := lt_bytesKept hpd
  have hqk := lt_bytesKept hqd
  rw [← hkept] at hvalue hqk
  -- Both lie in one window of `256 ^ bytesKept` numbers from `la` on.
  have hmod : p - la ≡ q - la [MOD 256 ^ bytesKept (p - la + 1)] := by
    apply Nat.ModEq.add_right_cancel' la
    rw [Nat.sub_add_cancel hp, Nat.sub_add_cancel hq]
    exact hvalue
  have := Nat.ModEq.eq_of_lt_of_lt hmod (by omega) (by omega)
  omega

theorem truncate_unambiguous (log2 : Nat → Nat)
    (hexact : ∀ n, 0 < n → n < 2 ^ 33 → log2 n = n.log2) (habove : ∀ n, 2 ^ 33 ≤ n → 32 ≤ log2 n)
    (la : Nat) (hla : la < 2 ^ 62)
    : (∀ p, la ≤ p → p < 2 ^ 62 →
        (truncate log2 p la = none ↔ 2 ^ 32 ≤ p - la + 1) ∧
        ∀ t, truncate log2 p la = some t →
          1 ≤ t.length ∧ t.length ≤ 4 ∧ t.value = p % 2 ^ (8 * t.length) ∧
            p - la + 1 < 2 ^ (8 * t.length)) ∧
      ∀ p q, la ≤ p → p ≤ la + 2 ^ 32 - 2 → la ≤ q → q ≤ la + 2 ^ 32 - 2 → p ≠ q →
        truncate log2 p la ≠ truncate log2 q la := by
  have hlow : ∀ n, 0 < n → n < 2 ^ 32 → log2 n = n.log2 := by
    intro n h0 h
    apply hexact n h0 (by omega)
  have hhigh : ∀ n, 2 ^ 32 ≤ n → 32 ≤ log2 n := by
    intro n h
    by_cases hn : n < 2 ^ 33
    . rw [hexact n (by omega) hn]
      rw [Nat.le_log2 (by omega)]
      exact h
    . apply habove n (by omega)
  constructor
  . intro p hp hp62
    by_cases hdist : p - la + 1 < 2 ^ 32
    . have hle := bytesKept_le (p - la + 1)
      rw [truncate_eq log2 hlow p la hp (by omega) hdist]
      constructor
      . simp only [reduceCtorEq, false_iff]
        omega
      . intro t ht
        injection ht with ht
        subst ht
        dsimp only
        rw [Nat.pow_mul]
        exact ⟨hle.1, hle.2, rfl, lt_bytesKept hdist⟩
    . rw [truncate_eq_none log2 hhigh p la hp hp62 (by omega)]
      simp only [true_iff, reduceCtorEq, false_implies, implies_true, and_true]
      omega
  . intro p q hp hpd hq hqd hne heq
    apply hne
    apply truncate_injective log2 hlow p q la hp (by omega) (by omega) hq (by omega) (by omega) heq

theorem truncate_unambiguous_300
    : truncate Nat.log2 300 200 ≠ truncate Nat.log2 556 200 ∧ truncate Nat.log2 300 200 ≠ none := by
  have h := truncate_unambiguous Nat.log2 (fun _ _ _ => rfl)
    (fun n hn => (Nat.le_log2 (by omega)).mpr (by omega)) 200 (by decide)
  constructor
  . apply h.2 300 556 (by decide) (by decide) (by decide) (by decide) (by decide)
  . intro hnone
    exact absurd ((h.1 300 (by decide) (by decide)).1.mp hnone) (by decide)

end PacketNumber

end QuicTracker
