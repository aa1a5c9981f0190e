import QuicTracker.Impl.Common

/-!
This module contains the round trip of the variable length integers, and what the reader does with
any other bytes.
-/

namespace QuicTracker

open ByteReader

def varIntBytes (i : Nat) : List UInt8 := (encodeVarInt i).getD []

theorem encodeVarInt_of_lt {i : Nat} (h : i < 2 ^ 62) : encodeVarInt i = some (varIntBytes i) := by
  unfold varIntBytes encodeVarInt maxVarInt8
  split
  . rfl
  . split
    . rfl
    . split
      . rfl
      . rw [if_pos (by omega)]
        rfl

theorem varIntBytes_of_lt_64 {i : Nat} (h : i < 64) : varIntBytes i = [UInt8.ofNat i] := by
  unfold varIntBytes encodeVarInt maxVarInt1
  rw [if_pos (by omega)]
  rfl

namespace readVarIntValue

theorem tag_one {n : Nat} (h : n < 64)
    : (UInt8.ofNat n &&& 0xc0) >>> 6 = 0 ∧ (UInt8.ofNat n &&& 63).toNat = n := by
  have : ∀ n : Fin 64, (UInt8.ofNat n &&& 0xc0) >>> 6 = 0 ∧
      (UInt8.ofNat n &&& 63).toNat = n := by decide +kernel
  exact this ⟨n, h⟩

theorem tag_two {n : Nat} (h : n < 64)
    : ((UInt8.ofNat n ||| 0x40) &&& 0xc0) >>> 6 = 1 ∧
      ((UInt8.ofNat n ||| 0x40) &&& 63).toNat = n := by
  have : ∀ n : Fin 64, ((UInt8.ofNat n ||| 0x40) &&& 0xc0) >>> 6 = 1 ∧
      ((UInt8.ofNat n ||| 0x40) &&& 63).toNat = n := by decide +kernel
  exact this ⟨n, h⟩

theorem tag_four {n : Nat} (h : n < 64)
    : ((UInt8.ofNat n ||| 0x80) &&& 0xc0) >>> 6 = 2 ∧
      ((UInt8.ofNat n ||| 0x80) &&& 63).toNat = n := by
  have : ∀ n : Fin 64, ((UInt8.ofNat n ||| 0x80) &&& 0xc0) >>> 6 = 2 ∧
      ((UInt8.ofNat n ||| 0x80) &&& 63).toNat = n := by decide +kernel
  exact this ⟨n, h⟩

theorem tag_eight {n : Nat} (h : n < 64)
    : ((UInt8.ofNat n ||| 0xc0) &&& 0xc0) >>> 6 = 3 ∧
      ((UInt8.ofNat n ||| 0xc0) &&& 63).toNat = n := by
  have : ∀ n : Fin 64, ((UInt8.ofNat n ||| 0xc0) &&& 0xc0) >>> 6 = 3 ∧
      ((UInt8.ofNat n ||| 0xc0) &&& 63).toNat = n := by decide +kernel
  exact this ⟨n, h⟩

end readVarIntValue

theorem readVarIntValue_append {i : Nat} {bs : List UInt8} (h : encodeVarInt i = some bs)
    (rest : List UInt8)
    : readVarIntValue (bs ++ rest) = (some i, rest) := by
  unfold encodeVarInt maxVarInt1 maxVarInt2 maxVarInt4 maxVarInt8 at h
  split at h
  . next hle =>
    have htag := readVarIntValue.tag_one (n := i) (by omega)
    injection h with h
    rw [← h]
    simp only [List.cons_append, List.nil_append, readVarIntValue, UInt8.reduceSub, htag]
    rfl
  . split at h
    . next hle =>
      have htag := readVarIntValue.tag_two (n := i >>> 8) (by omega)
      injection h with h
      rw [← h]
      simp only [List.cons_append, List.nil_append, readVarIntValue, UInt8.reduceSub, htag]
      simp [Nat.shiftLeft_eq, Nat.shiftRight_eq_div_pow]
      omega
    . split at h
      . next hle =>
        have htag := readVarIntValue.tag_four (n := i >>> 24) (by omega)
        injection h with h
        rw [← h]
        simp only [List.cons_append, List.nil_append, readVarIntValue, UInt8.reduceSub, htag]
        simp [Nat.shiftLeft_eq, Nat.shiftRight_eq_div_pow]
        omega
      . split at h
        . next hle =>
          have htag := readVarIntValue.tag_eight (n := i >>> 56) (by omega)
          injection h with h
          rw [← h]
          simp only [List.cons_append, List.nil_append, readVarIntValue, UInt8.reduceSub, htag]
          simp [Nat.shiftLeft_eq, Nat.shiftRight_eq_div_pow]
          omega
        . contradiction

theorem readVarIntValue_varIntBytes {i : Nat} (h : i < 2 ^ 62) (rest : List UInt8)
    : readVarIntValue (varIntBytes i ++ rest) = (some i, rest) := by
  apply readVarIntValue_append
  apply encodeVarInt_of_lt
  assumption

/-- The bytes are a complete integer on the wire, not necessarily the shortest one. -/
def IsVarInt (bytes : List UInt8) (i : Nat) : Prop :=
  ∀ rest, readVarIntValue (bytes ++ rest) = (some i, rest)

theorem IsVarInt.readVarInt {bytes : List UInt8} {i : Nat} (h : IsVarInt bytes i)
    (rest : List UInt8)
    : readVarInt (bytes ++ rest) = (some ⟨i, bytes.length⟩, rest) := by
  unfold QuicTracker.readVarInt
  rw [h rest]
  simp

theorem isVarInt_varIntBytes {i : Nat} (h : i < 2 ^ 62) : IsVarInt (varIntBytes i) i := by
  intro rest
  apply readVarIntValue_varIntBytes h

theorem varIntLen_of_lt {i : Nat} (h : i < 2 ^ 62) : varIntLen i = some (varIntBytes i).length := by
  unfold varIntLen varIntBytes encodeVarInt maxVarInt8
  split
  . rfl
  . split
    . rfl
    . split
      . rfl
      . rw [if_pos (by omega)]
        rw [if_pos (by omega)]
        rfl

theorem length_varIntBytes {i : Nat} (h : i < 2 ^ 62)
    : (varIntBytes i).length
        = if i < 2 ^ 6 then 1 else if i < 2 ^ 14 then 2 else if i < 2 ^ 30 then 4 else 8 := by
  have hlen := varIntLen_of_lt h
  unfold varIntLen maxVarInt1 maxVarInt2 maxVarInt4 maxVarInt8 at hlen
  grind

theorem length_varIntBytes_le_eight {i : Nat} (h : i < 2 ^ 62) : (varIntBytes i).length ≤ 8 := by
  rw [length_varIntBytes h]
  grind

theorem lt_of_varIntLen {i n : Nat} (h : varIntLen i = some n) : i < 2 ^ 62 := by
  unfold varIntLen maxVarInt1 maxVarInt2 maxVarInt4 maxVarInt8 at h
  split at h
  . omega
  . split at h
    . omega
    . split at h
      . omega
      . split at h
        . omega
        . contradiction

theorem newVarInt_of_lt {i : Nat} (h : i < 2 ^ 62)
    : newVarInt i = some ⟨i, (varIntBytes i).length⟩ := by
  unfold newVarInt
  rw [varIntLen_of_lt h]
  rfl

theorem lt_of_newVarInt {i : Nat} {v : VarInt} (h : newVarInt i = some v) : i < 2 ^ 62 := by
  unfold newVarInt at h
  cases hlen : varIntLen i with
  | none => simp [hlen] at h
  | some n => apply lt_of_varIntLen hlen

theorem eq_of_newVarInt {i : Nat} {v : VarInt} (h : newVarInt i = some v)
    : v = ⟨i, (varIntBytes i).length⟩ := by
  rw [newVarInt_of_lt (lt_of_newVarInt h)] at h
  injection h with h
  exact h.symm

/-- One, two, four or eight bytes. The first two bits of them say how many. -/
def VarIntForm (bytes : List UInt8) (i : Nat) : Prop :=
  ∃ k < 4, bytes.length = 2 ^ k ∧ i < 2 ^ (8 * 2 ^ k - 2) ∧
    beNat bytes = k * 2 ^ (8 * 2 ^ k - 2) + i

theorem varInt_tag (b : UInt8)
    : ((b &&& 0xc0) >>> 6).toNat = b.toNat / 64 ∧ (b &&& (0xff - 0xc0)).toNat = b.toNat % 64 := by
  revert b
  apply forall_byte
  decide +kernel

theorem length_eq_four {l : List UInt8} (h : l.length = 4) : ∃ a b c d, l = [a, b, c, d] := by
  have hfront : (l.take 2).length = 2 := by simp [h]
  have hback : (l.drop 2).length = 2 := by simp [h]
  rcases List.length_eq_two.mp hfront with ⟨a, b, hfront⟩
  rcases List.length_eq_two.mp hback with ⟨c, d, hback⟩
  refine ⟨a, b, c, d, ?_⟩
  rw [← List.take_append_drop 2 l, hfront, hback]
  rfl

theorem length_eq_eight {l : List UInt8} (h : l.length = 8)
    : ∃ a b c d e f g i, l = [a, b, c, d, e, f, g, i] := by
  have hfront : (l.take 4).length = 4 := by simp [h]
  have hback : (l.drop 4).length = 4 := by simp [h]
  rcases length_eq_four hfront with ⟨a, b, c, d, hfront⟩
  rcases length_eq_four hback with ⟨e, f, g, i, hback⟩
  refine ⟨a, b, c, d, e, f, g, i, ?_⟩
  rw [← List.take_append_drop 4 l, hfront, hback]
  rfl

theorem VarIntForm.isVarInt {bytes : List UInt8} {i : Nat} (h : VarIntForm bytes i)
    : IsVarInt bytes i := by
  rcases h with ⟨k, hk, hlen, hi, hvalue⟩
  intro rest
  have hk : k = 0 ∨ k = 1 ∨ k = 2 ∨ k = 3 := by omega
  rcases hk with rfl | rfl | rfl | rfl
  . rcases List.length_eq_one_iff.mp hlen with ⟨b1, rfl⟩
    have htag := varInt_tag b1
    simp [beNat] at hvalue hi
    have : b1.toNat / 64 = 0 := by omega
    simp only [List.cons_append, List.nil_append, readVarIntValue, htag, this]
    simp
    omega
  . rcases List.length_eq_two.mp hlen with ⟨b1, b2, rfl⟩
    have htag := varInt_tag b1
    have := b2.toNat_lt
    simp [beNat] at hvalue hi
    have : b1.toNat / 64 = 1 := by omega
    simp only [List.cons_append, List.nil_append, readVarIntValue, htag, this]
    simp [Nat.shiftLeft_eq]
    omega
  . rcases length_eq_four hlen with ⟨b1, b2, b3, b4, rfl⟩
    have htag := varInt_tag b1
    have := b2.toNat_lt
    have := b3.toNat_lt
    have := b4.toNat_lt
    simp [beNat] at hvalue hi
    have : b1.toNat / 64 = 2 := by omega
    simp only [List.cons_append, List.nil_append, readVarIntValue, htag, this]
    simp [Nat.shiftLeft_eq]
    omega
  . rcases length_eq_eight hlen with ⟨b1, b2, b3, b4, b5, b6, b7, b8, rfl⟩
    have htag := varInt_tag b1
    have := b2.toNat_lt
    have := b3.toNat_lt
    have := b4.toNat_lt
    have := b5.toNat_lt
    have := b6.toNat_lt
    have := b7.toNat_lt
    have := b8.toNat_lt
    simp [beNat] at hvalue hi
    have : b1.toNat / 64 = 3 := by omega
    simp only [List.cons_append, List.nil_append, readVarIntValue, htag, this]
    simp [Nat.shiftLeft_eq]
    omega

theorem varInt_len_eq (b : UInt8) (k : Nat)
    : 1 <<< ((b &&& 0xc0) >>> 6).toNat = 2 ^ k ↔ b.toNat / 64 = k := by
  rw [(varInt_tag b).1]
  rw [Nat.shiftLeft_eq]
  rw [Nat.one_mul]
  apply Nat.pow_right_inj
  decide

theorem exists_varIntForm {b : List UInt8} {i : Nat} {rest : List UInt8}
    (h : readVarIntValue b = (some i, rest))
    : ∃ bytes, b = bytes ++ rest ∧ VarIntForm bytes i := by
  revert h
  fun_cases readVarIntValue b with
  | case1 => simp
  | case2 b1 b len v h1 =>
    have hv : v = b1.toNat % 64 := (varInt_tag b1).2
    have htag : b1.toNat / 64 = 0 := (varInt_len_eq b1 0).mp h1
    intro h
    injection h with hi hrest
    injection hi with hi
    refine ⟨[b1], by simp [hrest], 0, by omega, rfl, ?_⟩
    simp [beNat]
    omega
  | case3 => simp
  | case4 b1 len v h1 b2 b h2 =>
    have hv : v = b1.toNat % 64 := (varInt_tag b1).2
    have htag : b1.toNat / 64 = 1 := (varInt_len_eq b1 1).mp h2
    have := b2.toNat_lt
    intro h
    injection h with hi hrest
    injection hi with hi
    refine ⟨[b1, b2], by simp [hrest], 1, by omega, rfl, ?_⟩
    rw [Nat.shiftLeft_eq] at hi
    simp [beNat]
    omega
  | case5 b1 len v h1 b2 h2 b3 b4 b h4 =>
    have hv : v = b1.toNat % 64 := (varInt_tag b1).2
    have htag : b1.toNat / 64 = 2 := (varInt_len_eq b1 2).mp h4
    have := b2.toNat_lt
    have := b3.toNat_lt
    have := b4.toNat_lt
    intro h
    injection h with hi hrest
    injection hi with hi
    refine ⟨[b1, b2, b3, b4], by simp [hrest], 2, by omega, rfl, ?_⟩
    simp only [Nat.shiftLeft_eq] at hi
    simp [beNat]
    omega
  | case6 b1 len v h1 b2 h2 b3 b4 h4 b5 b6 b7 b8 b =>
    have hv : v = b1.toNat % 64 := (varInt_tag b1).2
    have htag : b1.toNat / 64 = 3 := by
      have h1 := mt (varInt_len_eq b1 0).mpr h1
      have h2 := mt (varInt_len_eq b1 1).mpr h2
      have h4 := mt (varInt_len_eq b1 2).mpr h4
      have := b1.toNat_lt
      omega
    have := b2.toNat_lt
    have := b3.toNat_lt
    have := b4.toNat_lt
    have := b5.toNat_lt
    have := b6.toNat_lt
    have := b7.toNat_lt
    have := b8.toNat_lt
    intro h
    injection h with hi hrest
    injection hi with hi
    refine ⟨[b1, b2, b3, b4, b5, b6, b7, b8], by simp [hrest], 3, by omega, rfl, ?_⟩
    simp only [Nat.shiftLeft_eq] at hi
    simp [beNat]
    omega
  | case7 => simp
  | case8 => simp

theorem readVarIntValue_eq_none {b rest : List UInt8} (h : readVarIntValue b = (none, rest))
    : rest = [] := by
  revert h
  fun_cases readVarIntValue b with
  | case1 => simp
  | case2 => simp
  | case3 => simp
  | case4 => simp
  | case5 => simp
  | case6 => simp
  | case7 => simp
  | case8 => simp

theorem readVarIntValue_cases (b : List UInt8)
    : readVarIntValue b = (none, []) ∨ ∃ bytes i rest, b = bytes ++ rest ∧ IsVarInt bytes i := by
  cases h : readVarIntValue b with
  | mk value rest =>
    cases value with
    | none =>
      left
      rw [readVarIntValue_eq_none h]
    | some i =>
      right
      rcases exists_varIntForm h with ⟨bytes, hb, hform⟩
      exact ⟨bytes, i, rest, hb, hform.isVarInt⟩

theorem VarIntForm.lt {bytes : List UInt8} {i : Nat} (h : VarIntForm bytes i) : i < 2 ^ 62 := by
  rcases h with ⟨k, hk, -, hi, -⟩
  have hpow : 2 ^ k ≤ 2 ^ 3 := Nat.pow_le_pow_right (by decide) (by omega)
  apply Nat.lt_of_lt_of_le hi
  apply Nat.pow_le_pow_right
  . decide
  . omega

theorem readVarIntValue_lt {b : List UInt8} {i : Nat} (h : (readVarIntValue b).1 = some i)
    : i < 2 ^ 62 := by
  rcases exists_varIntForm (Prod.ext h rfl) with ⟨bytes, -, hform⟩
  exact hform.lt

/-- The number of bytes the first two bits ask for, and there is always a first byte to be read. -/
def announced (b : List UInt8) : Nat :=
  match b with
  | [] => 1
  | firstByte :: _ => 2 ^ (firstByte.toNat / 64)

theorem varInt_bits {n k : Nat} (h : n + 1 = 2 ^ k) : 2 ^ (8 * 2 ^ k - 2) = 64 * 256 ^ n := by
  have hbits : 8 * 2 ^ k - 2 = 6 + 8 * n := by omega
  rw [hbits]
  rw [Nat.pow_add]
  rw [Nat.pow_mul]

theorem VarIntForm.announced_append {bytes : List UInt8} {i : Nat} (h : VarIntForm bytes i)
    (rest : List UInt8)
    : announced (bytes ++ rest) = bytes.length := by
  rcases h with ⟨k, hk, hlen, hi, hvalue⟩
  cases bytes with
  | nil =>
    have := Nat.two_pow_pos k
    rw [List.length_nil] at hlen
    omega
  | cons b bs =>
    have hlt := beNat_lt bs
    rw [List.length_cons] at hlen
    rw [varInt_bits hlen] at hi hvalue
    rw [beNat_cons] at hvalue
    have hlo : k * 64 < b.toNat + 1 := by
      apply Nat.lt_of_mul_lt_mul_right (a := 256 ^ bs.length)
      rw [Nat.add_mul]
      rw [Nat.mul_assoc]
      omega
    have hhi : b.toNat < (k + 1) * 64 := by
      apply Nat.lt_of_mul_lt_mul_right (a := 256 ^ bs.length)
      rw [Nat.mul_assoc]
      rw [Nat.add_mul]
      omega
    have htag : b.toNat / 64 = k := by omega
    calc announced (b :: (bs ++ rest))
        = 2 ^ (b.toNat / 64) := rfl
      _ = bs.length + 1 := by rw [htag, hlen]

theorem varIntForm_of_length {bytes : List UInt8} (h : bytes.length = announced bytes)
    : ∃ i, VarIntForm bytes i := by
  cases bytes with
  | nil => contradiction
  | cons b bs =>
    have hlt := beNat_lt bs
    have := b.toNat_lt
    have hbits := varInt_bits h
    refine ⟨b.toNat % 64 * 256 ^ bs.length + beNat bs, b.toNat / 64, by omega, h, ?_, ?_⟩
    . rw [hbits]
      have hle : (b.toNat % 64 + 1) * 256 ^ bs.length ≤ 64 * 256 ^ bs.length :=
        Nat.mul_le_mul_right _ (by omega)
      rw [Nat.add_mul] at hle
      omega
    . rw [hbits]
      rw [beNat_cons]
      rw [← Nat.add_assoc]
      rw [← Nat.mul_assoc]
      rw [← Nat.add_mul]
      rw [Nat.div_add_mod']

theorem VarIntForm.length_varIntBytes_le {bytes : List UInt8} {i : Nat} (h : VarIntForm bytes i)
    : (varIntBytes i).length ≤ bytes.length := by
  have hmin := varIntLen_of_lt h.lt
  rcases h with ⟨k, hk, hlen, hi, -⟩
  rw [hlen]
  unfold varIntLen maxVarInt1 maxVarInt2 maxVarInt4 maxVarInt8 at hmin
  have hk : k = 0 ∨ k = 1 ∨ k = 2 ∨ k = 3 := by omega
  rcases hk with rfl | rfl | rfl | rfl
  all_goals
    norm_num at hi ⊢
    grind

/-- Either the bytes run out, or as many are read as were announced. -/
def ReadAsAnnounced (b : List UInt8) : Prop :=
  match readVarInt b with
  | (none, _) => b.length < announced b
  | (some v, rest) =>
    announced b ≤ b.length ∧ rest = b.drop (announced b) ∧ announced b ∈ [1, 2, 4, 8] ∧
      v.length = announced b ∧ v.value < 2 ^ 62 ∧
      ∃ bytes, encodeVarInt v.value = some bytes ∧ bytes.length ≤ v.length

theorem announced_take (b : List UInt8) : announced (b.take (announced b)) = announced b := by
  cases b with
  | nil => rfl
  | cons firstByte b =>
    have hpos : announced (firstByte :: b) = announced (firstByte :: b) - 1 + 1 :=
      (Nat.sub_add_cancel (Nat.two_pow_pos _)).symm
    rw [hpos]
    rw [List.take_succ_cons]
    rw [← hpos]
    rfl

theorem VarIntForm.length_mem {bytes : List UInt8} {i : Nat} (h : VarIntForm bytes i)
    : bytes.length ∈ [1, 2, 4, 8] := by
  rcases h with ⟨k, hk, hlen, -⟩
  have hk : k = 0 ∨ k = 1 ∨ k = 2 ∨ k = 3 := by omega
  rcases hk with rfl | rfl | rfl | rfl
  all_goals simp [hlen]

theorem VarIntForm.readAsAnnounced {bytes : List UInt8} {i : Nat} (h : VarIntForm bytes i)
    (rest : List UInt8)
    : ReadAsAnnounced (bytes ++ rest) := by
  unfold ReadAsAnnounced
  rw [h.isVarInt.readVarInt rest]
  dsimp only
  rw [h.announced_append rest]
  refine ⟨by simp, by simp, h.length_mem, rfl, h.lt, ?_⟩
  exact ⟨_, encodeVarInt_of_lt h.lt, h.length_varIntBytes_le⟩

theorem readAsAnnounced (b : List UInt8) : ReadAsAnnounced b := by
  by_cases hle : announced b ≤ b.length
  . have hlen : (b.take (announced b)).length = announced (b.take (announced b)) := by
      rw [announced_take]
      rw [List.length_take]
      omega
    rcases varIntForm_of_length hlen with ⟨i, hform⟩
    rw [← List.take_append_drop (announced b) b]
    apply hform.readAsAnnounced
  . cases h : readVarIntValue b with
    | mk value rest =>
      cases value with
      | none =>
        unfold ReadAsAnnounced readVarInt
        rw [h]
        dsimp only
        omega
      | some i =>
        rcases exists_varIntForm h with ⟨bytes, hb, hform⟩
        rw [hb]
        apply hform.readAsAnnounced

theorem readVarInt_exact
    : (∀ i < 2 ^ 62, ∀ rest, ∃ v bytes, newVarInt i = some v ∧ v.encode = some bytes ∧
        readVarInt (bytes ++ rest) = (some v, rest)) ∧
      ∀ b, ReadAsAnnounced b := by
  constructor
  . intro i hi rest
    refine ⟨_, _, newVarInt_of_lt hi, encodeVarInt_of_lt hi, ?_⟩
    apply (isVarInt_varIntBytes hi).readVarInt
  . exact readAsAnnounced

end QuicTracker
