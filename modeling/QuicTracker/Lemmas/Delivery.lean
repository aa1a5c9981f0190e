import QuicTracker.Lemmas.Reassembly

/-!
This module contains what a stream tells its reader about one content: the bytes that it delivered and
where the content ends.
-/

namespace QuicTracker

/-- A slice of `d`, and the last one where it has the FIN bit. -/
def StreamFrame.LastOf (d : List UInt8) (f : StreamFrame) : Prop :=
  f.SliceOf d ∧ (f.finBit → f.offset + f.length = d.length)

instance (d : List UInt8) (f : StreamFrame) : Decidable (f.LastOf d) :=
  inferInstanceAs (Decidable (_ ∧ _))

namespace Stream

/-- What was submitted to `ReadChan` is the start of `d`, and a final size is the one of `d`. -/
def Conveys (d : List UInt8) (s : Stream) : Prop :=
  s.readChan.flatten = d.take s.readOffset ∧ s.readOffset ≤ d.length ∧
    (s.readCloseOffset = maxUint64 ∨ s.readCloseOffset = d.length)

instance (d : List UInt8) (s : Stream) : Decidable (s.Conveys d) :=
  inferInstanceAs (Decidable (_ ∧ _))

theorem Conveys.length_readChan {d : List UInt8} {s : Stream} (h : s.Conveys d)
    : s.readChan.flatten.length = s.readOffset := by
  rw [h.1, List.length_take]
  exact Nat.min_eq_left h.2.1

/-- What the stream knows about `d` and its end after the frames `fs`. -/
structure Carried (d : List UInt8) (fs : List StreamFrame) (stream : Stream) : Prop where
  delivered : stream.Delivered d fs
  live : stream.Live fs
  fin : (∃ f ∈ fs, f.finBit) → stream.readCloseOffset = d.length
  noFin : ¬ (∃ f ∈ fs, f.finBit) → stream.readCloseOffset = maxUint64

section Carried

variable {d : List UInt8} {fs : List StreamFrame} {stream : Stream}

theorem Carried.readCloseOffset (h : stream.Carried d fs)
    : stream.readCloseOffset = maxUint64 ∨ stream.readCloseOffset = d.length := by
  by_cases hfin : ∃ f ∈ fs, f.finBit
  . exact Or.inr (h.fin hfin)
  . exact Or.inl (h.noFin hfin)

theorem Carried.conveys (h : stream.Carried d fs) : stream.Conveys d := by
  have hle := h.delivered.shape.readOffset_le
  have hmax := h.delivered.maxReadReceived_le
  exact ⟨h.delivered.readChan, by omega, h.readCloseOffset⟩

theorem Carried.new (d : List UInt8) : newStream.Carried d [] := by
  constructor
  . exact Delivered.new d
  . exact Live.new
  . simp
  . intro _
    rfl

theorem Carried.noteFin (hd : d.length < 2 ^ 62) (h : stream.Carried d fs) {f : StreamFrame}
    (hf : f.LastOf d)
    : (stream.noteFin f).readCloseOffset = if f.finBit then d.length else stream.readCloseOffset := by
  unfold Stream.noteFin
  by_cases hfin : f.finBit
  . have hsize := hf.2 hfin
    have hwrap : u64 (f.offset + f.length) = d.length := by
      unfold u64
      omega
    rw [if_pos hfin, if_pos hfin, hwrap]
    cases h.readCloseOffset with
    | inl hold => simp [hold]
    | inr hold => simp [hold]
  . rw [if_neg hfin, if_neg hfin]

theorem Carried.step (hd : d.length < 2 ^ 62) (h : stream.Carried d fs) {f : StreamFrame}
    (hf : f.LastOf d) (hclean : stream.FillsFromStart f) (hkeep : stream.KeepsUp f)
    : ∃ stream', stream.addToRead f = some stream' ∧ stream'.Carried d (fs ++ [f]) := by
  rcases h.delivered.step hd hf.1 hclean with ⟨stream', heq, hdelivered⟩
  rcases h.live.step (hf.1.fits hd) hkeep with ⟨stream'', heq', hlive⟩
  rw [heq] at heq'
  injection heq' with heq'
  rw [← heq'] at hlive
  have hclose := (addToRead_noted heq).readCloseOffset
  rw [h.noteFin hd hf] at hclose
  refine ⟨stream', heq, hdelivered, hlive, ?_, ?_⟩
  . rintro ⟨g, hg, hfin⟩
    rw [hclose]
    split
    . rfl
    . next hnot =>
      apply h.fin
      rw [List.mem_append, List.mem_singleton] at hg
      cases hg with
      | inl hg => exact ⟨g, hg, hfin⟩
      | inr hg =>
        rw [hg] at hfin
        contradiction
  . intro hnot
    rw [hclose, if_neg]
    . apply h.noFin
      rintro ⟨g, hg, hfin⟩
      exact hnot ⟨g, by simp [hg], hfin⟩
    . intro hfin
      exact hnot ⟨f, by simp, hfin⟩

end Carried

end Stream

end QuicTracker
