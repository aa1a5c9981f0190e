import Mathlib.Tactic

/-!
This module models reading from an in-memory byte buffer the way Go's `bytes.Reader` and
`encoding/binary` do it. A reader is the list of bytes that are still unread, an error is `none`.
-/

namespace ByteReader

def readByte (bs : List UInt8) : Option UInt8 × List UInt8 :=
  match bs with
  | [] => (none, [])
  | b :: bs => (some b, bs)

def readInto (n : Nat) (bs : List UInt8) : List UInt8 × List UInt8 :=
  -- The target is a fresh slice of `n` zero bytes, a short read leaves its tail at zero.
  (bs.take n ++ List.replicate (n - bs.length) 0, bs.drop n)

def readFull (n : Nat) (bs : List UInt8) : Option (List UInt8) × List UInt8 :=
  if n ≤ bs.length then
    (some (bs.take n), bs.drop n)
  else
    -- `binary.Read` has consumed what was left and stores nothing.
    (none, [])

def beNat (bs : List UInt8) : Nat :=
  bs.foldl (fun acc b => acc * 256 + b.toNat) 0

def beBytes (w : Nat) (n : Nat) : List UInt8 :=
  match w with
  | 0 => []
  | w + 1 => beBytes w (n / 256) ++ [UInt8.ofNat n]

def leNat (bs : List UInt8) : Nat :=
  match bs with
  | [] => 0
  | b :: bs => b.toNat + 256 * leNat bs

def leBytes (w : Nat) (n : Nat) : List UInt8 :=
  match w with
  | 0 => []
  | w + 1 => UInt8.ofNat n :: leBytes w (n / 256)

theorem forall_byte {P : UInt8 → Prop} (h : ∀ n : Fin 256, P (UInt8.ofNat n)) : ∀ b, P b := by
  intro b
  have hb := h ⟨b.toNat, b.toNat_lt⟩
  rw [UInt8.ofNat_toNat] at hb
  exact hb

@[simp]
theorem readByte_cons (b : UInt8) (bs : List UInt8) : readByte (b :: bs) = (some b, bs) := by
  rfl

@[simp]
theorem readByte_nil : readByte [] = (none, []) := by
  rfl

theorem readInto_append {n : Nat} (data rest : List UInt8) (h : data.length = n)
    : readInto n (data ++ rest) = (data, rest) := by
  unfold readInto
  subst h
  simp

@[simp]
theorem readInto_snd (n : Nat) (bs : List UInt8) : (readInto n bs).2 = bs.drop n := by
  rfl

@[simp]
theorem length_readInto_fst (n : Nat) (bs : List UInt8) : (readInto n bs).1.length = n := by
  unfold readInto
  simp only [List.length_append, List.length_take, List.length_replicate]
  omega

theorem readFull_append {n : Nat} (data rest : List UInt8) (h : data.length = n)
    : readFull n (data ++ rest) = (some data, rest) := by
  unfold readFull
  subst h
  simp

theorem readFull_of_lt {n : Nat} {bs : List UInt8} (h : bs.length < n)
    : readFull n bs = (none, []) := by
  unfold readFull
  have : ¬ (n ≤ bs.length) := by omega
  simp [this]

@[simp]
theorem length_beBytes (w n : Nat) : (beBytes w n).length = w := by
  induction w generalizing n with
  | zero => rfl
  | succ w ih => simp [beBytes, ih]

theorem beNat_concat (bs : List UInt8) (b : UInt8) : beNat (bs ++ [b]) = beNat bs * 256 + b.toNat := by
  simp [beNat]

theorem beNat_zero_cons (bs : List UInt8) : beNat (0 :: bs) = beNat bs := by
  simp [beNat]

theorem beNat_cons (b : UInt8) (bs : List UInt8)
    : beNat (b :: bs) = b.toNat * 256 ^ bs.length + beNat bs := by
  induction bs using List.reverseRecOn with
  | nil => simp [beNat]
  | append_singleton bs c ih =>
    rw [← List.cons_append]
    rw [beNat_concat, beNat_concat]
    rw [ih]
    rw [List.length_append, List.length_singleton]
    rw [Nat.pow_succ]
    ring

theorem beNat_lt (bs : List UInt8) : beNat bs < 256 ^ bs.length := by
  induction bs with
  | nil => simp [beNat]
  | cons b bs ih =>
    have := b.toNat_lt
    rw [beNat_cons]
    rw [List.length_cons]
    rw [Nat.pow_succ]
    nlinarith

theorem beNat_beBytes (w n : Nat) : beNat (beBytes w n) = n % 256 ^ w := by
  induction w generalizing n with
  | zero => simp [beBytes, beNat, Nat.mod_one]
  | succ w ih =>
    simp only [beBytes]
    rw [beNat_concat]
    rw [ih]
    rw [UInt8.toNat_ofNat']
    rw [Nat.pow_succ' (n := w)]
    rw [Nat.mod_mul]
    omega

theorem beNat_beBytes_of_lt {w n : Nat} (h : n < 256 ^ w) : beNat (beBytes w n) = n := by
  rw [beNat_beBytes]
  apply Nat.mod_eq_of_lt h

@[simp]
theorem length_leBytes (w n : Nat) : (leBytes w n).length = w := by
  induction w generalizing n with
  | zero => rfl
  | succ w ih => simp [leBytes, ih]

theorem leNat_append (bs cs : List UInt8) : leNat (bs ++ cs) = leNat bs + 256 ^ bs.length * leNat cs := by
  induction bs with
  | nil => simp [leNat]
  | cons b bs ih =>
    rw [List.cons_append]
    simp only [leNat]
    rw [ih]
    rw [List.length_cons, Nat.pow_succ]
    ring

theorem leNat_lt (bs : List UInt8) : leNat bs < 256 ^ bs.length := by
  induction bs with
  | nil => simp [leNat]
  | cons b bs ih =>
    have := b.toNat_lt
    simp only [leNat]
    rw [List.length_cons, Nat.pow_succ]
    omega

theorem take_leBytes {v w : Nat} (h : v ≤ w) (n : Nat) : (leBytes w n).take v = leBytes v n := by
  induction v generalizing w n with
  | zero => rfl
  | succ v ih =>
    cases w with
    | zero => omega
    | succ w =>
      simp only [leBytes]
      rw [List.take_succ_cons, ih (by omega)]

theorem leNat_leBytes {w n : Nat} (h : n < 256 ^ w) : leNat (leBytes w n) = n := by
  induction w generalizing n with
  | zero =>
    have : n = 0 := by simpa using h
    simp [leBytes, leNat, this]
  | succ w ih =>
    rw [Nat.pow_succ] at h
    simp only [leBytes, leNat]
    rw [ih (by omega)]
    rw [UInt8.toNat_ofNat']
    omega

end ByteReader
