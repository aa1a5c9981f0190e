import QuicTracker.Lemmas.ByteInterval
import QuicTracker.Lib.Run

/-!
This module says what one call of `addToRead` does and which invariant every stream keeps.
-/

namespace QuicTracker

open HalfOpen

theorem length_copyAt (dst src : List UInt8) (pos : Nat) (h : pos ≤ dst.length)
    : (copyAt dst pos src).length = dst.length := by
  unfold copyAt
  simp only [List.length_append, List.length_take, List.length_drop]
  omega

theorem getElem?_copyAt (dst src : List UInt8) (pos x : Nat) (h : pos + src.length ≤ dst.length)
    : (copyAt dst pos src)[x]? = if pos ≤ x ∧ x < pos + src.length then src[x - pos]? else dst[x]? := by
  have htake : src.take (dst.length - pos) = src := by
    rw [List.take_of_length_le]
    omega
  unfold copyAt
  rw [htake]
  rw [List.append_assoc]
  by_cases hlo : x < pos
  . rw [List.getElem?_append_left]
    . rw [List.getElem?_take_of_lt hlo]
      have : ¬ (pos ≤ x ∧ x < pos + src.length) := by omega
      simp [this]
    . simp only [List.length_take]
      omega
  . have hlen : (dst.take pos).length = pos := by
      simp only [List.length_take]
      omega
    rw [List.getElem?_append_right]
    . rw [hlen]
      by_cases hhi : x < pos + src.length
      . rw [List.getElem?_append_left]
        . simp [hhi, Nat.le_of_not_lt hlo]
        . omega
      . rw [List.getElem?_append_right]
        . rw [List.getElem?_drop]
          have : pos + src.length + (x - pos - src.length) = x := by omega
          simp [this, hhi]
        . omega
    . omega

structure StreamFrame.Fits (f : StreamFrame) : Prop where
  length_eq : f.length = f.streamData.length
  offset_lt : f.offset < 2 ^ 62
  length_lt : f.length < 2 ^ 62

namespace Stream

structure Shape (s : Stream) : Prop where
  length_readData : s.readData.length = s.maxReadReceived
  readOffset_le : s.readOffset ≤ s.maxReadReceived
  gaps_top_le : ∀ g ∈ s.gaps, g.top ≤ s.maxReadReceived
  gaps_ordered : Ordered s.gaps
  length_readChan : s.readChan.flatten.length = s.readOffset

/-- One constructor per branch of `addToRead`, without the conversions and the wrapping. -/
inductive Added (s : Stream) (f : StreamFrame) (s' : Stream) : Prop where
  | append
    (hoff : f.offset = s.readOffset) (hmax : f.offset = s.maxReadReceived)
    (readOffset : s'.readOffset = f.offset + f.length)
    (maxReadReceived : s'.maxReadReceived = f.offset + f.length)
    (readData : s'.readData = s.readData ++ f.streamData)
    (readChan : s'.readChan.flatten = s.readChan.flatten ++ f.streamData)
    (gaps : s'.gaps = s.gaps)
  | extend
    (hnext : ¬ (f.offset = s.readOffset ∧ f.offset = s.maxReadReceived))
    (hmax : s.maxReadReceived < f.offset + f.length)
    (readOffset : s'.readOffset = s.readOffset)
    (maxReadReceived : s'.maxReadReceived = f.offset + f.length)
    (readData : s'.readData =
      copyAt (copyAt (List.replicate (f.offset + f.length) 0) 0 s.readData) f.offset f.streamData)
    (readChan : s'.readChan.flatten = s.readChan.flatten)
    (gaps : s'.gaps =
      if s.maxReadReceived < f.offset then s.gaps.add ⟨s.maxReadReceived, f.offset⟩ else s.gaps)
  | fill
    (hnext : ¬ (f.offset = s.readOffset ∧ f.offset = s.maxReadReceived))
    (hmax : f.offset + f.length ≤ s.maxReadReceived)
    (readOffset : s'.readOffset = max s.readOffset (firstGap s'.gaps s.maxReadReceived))
    (maxReadReceived : s'.maxReadReceived = s.maxReadReceived)
    (readData : s'.readData = copyAt s.readData f.offset f.streamData)
    (readChan : s'.readChan.flatten =
      s.readChan.flatten ++ (s'.readData.take s'.readOffset).drop s.readOffset)
    (gaps : s'.gaps = s.gaps.fill ⟨f.offset, f.offset + f.length⟩)

theorem noteFin_eq (s : Stream) (f : StreamFrame)
    : ∃ c, s.noteFin f = { s with readCloseOffset := c } := by
  unfold noteFin
  split
  . split
    . exact ⟨_, rfl⟩
    . exact ⟨_, rfl⟩
  . exact ⟨_, rfl⟩

theorem noteClosed_eq (s : Stream) : ∃ c, s.noteClosed = { s with readClosed := c } := by
  unfold noteClosed
  split
  . exact ⟨_, rfl⟩
  . exact ⟨_, rfl⟩

theorem firstGap_le (gaps : ByteIntervalList) (m : Nat) (h : ∀ g ∈ gaps, g.top ≤ m)
    : firstGap gaps m ≤ m := by
  unfold firstGap
  split
  . next front rest =>
    have hfront := h front (by simp)
    have := front.start_le_top
    omega
  . omega

theorem append_added {s : Stream} {f : StreamFrame} (hf : f.Fits)
    (hoff : f.offset = s.readOffset) (hmax : f.offset = s.maxReadReceived)
    : Added s f (s.append f) := by
  have hlt := hf.offset_lt
  have hlen := hf.length_lt
  have hwrap : u64 (s.readOffset + f.length) = f.offset + f.length := by
    unfold u64
    omega
  apply Added.append hoff hmax
  . simp [Stream.append, hwrap]
  . simp [Stream.append, hwrap]
  . simp [Stream.append]
  . simp [Stream.append]
  . simp [Stream.append]

theorem extend_added {s : Stream} {f : StreamFrame} (hf : f.Fits)
    (hnext : ¬ (f.offset = s.readOffset ∧ f.offset = s.maxReadReceived))
    (hmax : s.maxReadReceived < f.offset + f.length)
    : ∃ s', s.extend f = some s' ∧ Added s f s' := by
  have hlt := hf.offset_lt
  have hlen := hf.length_lt
  have hsize : f.offset + f.streamData.length < 2 ^ 63 := by
    rw [← hf.length_eq]
    omega
  have hwrap : u64 (f.offset + f.length) = f.offset + f.length := by
    unfold u64
    omega
  unfold Stream.extend
  dsimp only
  rw [if_pos hsize]
  refine ⟨_, rfl, ?_⟩
  apply Added.extend hnext hmax
  . rfl
  . exact hwrap
  . rw [hf.length_eq]
  . rfl
  . rfl

theorem fillIn_added {s : Stream} {f : StreamFrame} (hs : s.Shape) (hf : f.Fits)
    (hnext : ¬ (f.offset = s.readOffset ∧ f.offset = s.maxReadReceived))
    (hmax : f.offset + f.length ≤ s.maxReadReceived)
    : ∃ s', s.fillIn f = some s' ∧ Added s f s' := by
  have hlt := hf.offset_lt
  have hlen := hf.length_lt
  have hwrap : u64 (f.offset + f.length) = f.offset + f.length := by
    unfold u64
    omega
  have hoff : f.offset ≤ s.readData.length := by
    rw [hs.length_readData]
    omega
  have hcopy : (copyAt s.readData f.offset f.streamData).length = s.maxReadReceived := by
    rw [length_copyAt _ _ _ hoff]
    exact hs.length_readData
  have hgap : firstGap (s.gaps.fill ⟨f.offset, f.offset + f.length⟩) s.maxReadReceived
      ≤ s.maxReadReceived := by
    apply firstGap_le
    apply ByteIntervalList.fill_bound
    . dsimp
      omega
    . exact hs.gaps_top_le
  unfold Stream.fillIn
  simp only [hwrap, hoff, hcopy, hgap, ↓reduceIte]
  split
  . next hdeliver =>
    refine ⟨_, rfl, ?_⟩
    apply Added.fill hnext hmax
    . dsimp
      omega
    . rfl
    . rfl
    . simp
    . rfl
  . next hdeliver =>
    refine ⟨_, rfl, ?_⟩
    apply Added.fill hnext hmax
    . dsimp
      omega
    . rfl
    . rfl
    . simp
    . rfl

theorem noteFin_shape {s : Stream} (f : StreamFrame) (hs : s.Shape) : (s.noteFin f).Shape := by
  rcases noteFin_eq s f with ⟨c, hfin⟩
  rw [hfin]
  exact ⟨hs.length_readData, hs.readOffset_le, hs.gaps_top_le, hs.gaps_ordered, hs.length_readChan⟩

theorem Added.noteClosed {s s' : Stream} {f : StreamFrame} (h : Added (s.noteFin f) f s')
    : Added s f s'.noteClosed := by
  rcases noteFin_eq s f with ⟨c, hfin⟩
  rcases noteClosed_eq s' with ⟨b, hclosed⟩
  rw [hfin] at h
  rw [hclosed]
  cases h with
  | append h1 h2 h3 h4 h5 h6 h7 => exact Added.append h1 h2 h3 h4 h5 h6 h7
  | extend h1 h2 h3 h4 h5 h6 h7 => exact Added.extend h1 h2 h3 h4 h5 h6 h7
  | fill h1 h2 h3 h4 h5 h6 h7 => exact Added.fill h1 h2 h3 h4 h5 h6 h7

theorem addToRead_added {s : Stream} {f : StreamFrame} (hs : s.Shape) (hf : f.Fits)
    : ∃ s', s.addToRead f = some s' ∧ Added s f s' := by
  have hlt := hf.offset_lt
  have hlen := hf.length_lt
  have hwrap : u64 (f.offset + f.length) = f.offset + f.length := by
    unfold u64
    omega
  unfold addToRead
  dsimp only
  rw [hwrap]
  split
  . next hnext =>
    refine ⟨_, rfl, ?_⟩
    apply Added.noteClosed
    apply append_added hf hnext.1 hnext.2
  . next hnext =>
    split
    . next hmax =>
      rcases extend_added hf hnext hmax with ⟨s2, heq, hadd⟩
      rw [heq]
      exact ⟨_, rfl, hadd.noteClosed⟩
    . next hmax =>
      rcases fillIn_added (noteFin_shape f hs) hf hnext (by omega) with ⟨s2, heq, hadd⟩
      rw [heq]
      exact ⟨_, rfl, hadd.noteClosed⟩

/-- What `addToRead` does to the channel and to the end of the stream, in each of its branches. -/
structure Noted (s : Stream) (f : StreamFrame) (s' : Stream) : Prop where
  readChan : s.readChan <+: s'.readChan
  readCloseOffset : s'.readCloseOffset = (s.noteFin f).readCloseOffset
  readClosed : s'.readClosed ↔ s.readClosed ∨ s'.readOffset = s'.readCloseOffset
  next : f.offset = s.readOffset → f.offset = s.maxReadReceived →
    s'.readChan = s.readChan ++ [f.streamData]

theorem extend_eq {s s' : Stream} {f : StreamFrame} (h : s.extend f = some s')
    : s'.readChan = s.readChan ∧ s'.readCloseOffset = s.readCloseOffset ∧
        s'.readClosed = s.readClosed := by
  unfold Stream.extend at h
  dsimp only at h
  split at h
  . injection h with h
    rw [← h]
    exact ⟨rfl, rfl, rfl⟩
  . contradiction

theorem fillIn_eq {s s' : Stream} {f : StreamFrame} (h : s.fillIn f = some s')
    : s.readChan <+: s'.readChan ∧ s'.readCloseOffset = s.readCloseOffset ∧
        s'.readClosed = s.readClosed := by
  unfold fillIn at h
  dsimp only at h
  split at h
  . split at h
    . split at h
      . injection h with h
        rw [← h]
        exact ⟨List.prefix_append _ _, rfl, rfl⟩
      . contradiction
    . injection h with h
      rw [← h]
      exact ⟨List.prefix_refl _, rfl, rfl⟩
  . contradiction

theorem noteClosed_readClosed (s : Stream)
    : s.noteClosed.readClosed ↔ s.readClosed ∨ s.readOffset = s.readCloseOffset := by
  unfold noteClosed
  split
  . next h => simp [h]
  . next h => simp [h]

theorem Noted.of_placed {s t : Stream} {f : StreamFrame} (readChan : s.readChan <+: t.readChan)
    (readCloseOffset : t.readCloseOffset = (s.noteFin f).readCloseOffset)
    (readClosed : t.readClosed = s.readClosed)
    (next : f.offset = s.readOffset → f.offset = s.maxReadReceived →
      t.readChan = s.readChan ++ [f.streamData])
    : Noted s f t.noteClosed := by
  have hiff := noteClosed_readClosed t
  rcases noteClosed_eq t with ⟨c, hc⟩
  rw [hc] at hiff ⊢
  rw [readClosed] at hiff
  exact ⟨readChan, readCloseOffset, hiff, next⟩

theorem addToRead_noted {s s' : Stream} {f : StreamFrame} (h : s.addToRead f = some s')
    : Noted s f s' := by
  unfold addToRead at h
  rcases noteFin_eq s f with ⟨c, hfin⟩
  dsimp only at h
  split at h
  . injection h with h
    rw [← h]
    apply Noted.of_placed
    . rw [hfin]
      exact List.prefix_append _ _
    . rfl
    . rw [hfin]
      rfl
    . intro _ _
      rw [hfin]
      rfl
  . next hnext =>
    have hnot : ∀ t : Stream, f.offset = s.readOffset → f.offset = s.maxReadReceived →
        t.readChan = s.readChan ++ [f.streamData] := by
      intro t hoff hmax
      rw [hfin] at hnext
      exact absurd ⟨hoff, hmax⟩ hnext
    split at h
    . rcases Option.bind_eq_some_iff.mp h with ⟨t, ht, hclosed⟩
      injection hclosed with hclosed
      have hext := extend_eq ht
      rw [← hclosed]
      apply Noted.of_placed _ hext.2.1 _ (hnot t)
      . rw [hext.1, hfin]
      . rw [hext.2.2, hfin]
    . rcases Option.bind_eq_some_iff.mp h with ⟨t, ht, hclosed⟩
      injection hclosed with hclosed
      have hfill := fillIn_eq ht
      rw [← hclosed]
      apply Noted.of_placed _ hfill.2.1 _ (hnot t)
      . rw [hfin] at hfill
        exact hfill.1
      . rw [hfill.2.2, hfin]

theorem Noted.readOffset_le {s s' : Stream} {f : StreamFrame} (h : Noted s f s') (hs : s.Shape)
    (hs' : s'.Shape)
    : s.readOffset ≤ s'.readOffset := by
  rcases h.readChan with ⟨chunks, hchunks⟩
  rw [← hs.length_readChan, ← hs'.length_readChan, ← hchunks, List.flatten_append,
    List.length_append]
  omega

theorem length_extended (dst : List UInt8) (f : StreamFrame)
    : (copyAt (copyAt (List.replicate (f.offset + f.length) 0) 0 dst) f.offset f.streamData).length
        = f.offset + f.length := by
  rw [length_copyAt]
  . rw [length_copyAt]
    . simp
    . omega
  . rw [length_copyAt]
    . simp
    . omega

theorem Added.shape {s s' : Stream} {f : StreamFrame} (hs : s.Shape) (hf : f.Fits)
    (h : Added s f s')
    : s'.Shape := by
  have hlen := hs.length_readData
  have hle := hs.readOffset_le
  cases h with
  | append hoff hmax readOffset maxReadReceived readData readChan gaps =>
    constructor
    . rw [readData, List.length_append, ← hf.length_eq]
      omega
    . omega
    . rw [gaps]
      intro g hg
      have := hs.gaps_top_le g hg
      omega
    . rw [gaps]
      exact hs.gaps_ordered
    . rw [readChan, List.length_append, hs.length_readChan, ← hf.length_eq]
      omega
  | extend hnext hmax readOffset maxReadReceived readData readChan gaps =>
    constructor
    . rw [readData, length_extended]
      omega
    . omega
    . rw [gaps]
      split
      . next hgap =>
        intro g hg
        have := ByteIntervalList.add_bound (b := ⟨s.maxReadReceived, f.offset⟩) hgap hs.gaps_top_le g hg
        dsimp at this
        omega
      . intro g hg
        have := hs.gaps_top_le g hg
        omega
    . rw [gaps]
      split
      . next hgap => exact ByteIntervalList.add_ordered hgap hs.gaps_top_le hs.gaps_ordered
      . exact hs.gaps_ordered
    . rw [readChan, hs.length_readChan]
      omega
  | fill hnext hmax readOffset maxReadReceived readData readChan gaps =>
    have hb : f.offset ≤ f.offset + f.length := by omega
    have hbound : ∀ g ∈ s'.gaps, g.top ≤ s.maxReadReceived := by
      rw [gaps]
      apply ByteIntervalList.fill_bound hb s.maxReadReceived hs.gaps_top_le
    have hfirst := firstGap_le s'.gaps s.maxReadReceived hbound
    have hdata : s'.readData.length = s.maxReadReceived := by
      rw [readData, length_copyAt]
      . exact hlen
      . omega
    constructor
    . omega
    . omega
    . rw [maxReadReceived]
      exact hbound
    . rw [gaps]
      apply ByteIntervalList.fill_ordered hb hs.gaps_ordered
    . rw [readChan, List.length_append, hs.length_readChan, List.length_drop, List.length_take]
      omega

theorem shape_newStream : newStream.Shape := by
  constructor
  . rfl
  . simp [newStream]
  . simp [newStream]
  . simp [newStream]
  . rfl

theorem Shape.step {s : Stream} {f : StreamFrame} (hs : s.Shape) (hf : f.Fits)
    : ∃ s', s.addToRead f = some s' ∧ s'.Shape ∧ s.readOffset ≤ s'.readOffset := by
  rcases addToRead_added hs hf with ⟨s', heq, hadd⟩
  have hs' := hadd.shape hs hf
  exact ⟨s', heq, hs', (addToRead_noted heq).readOffset_le hs hs'⟩

theorem run_shape (fs : List StreamFrame) (hfs : ∀ f ∈ fs, f.Fits)
    : ∃ s, Run.run addToRead newStream fs = some s ∧ s.Shape := by
  have hstep : ∀ (_ : List StreamFrame) (s : Stream) (f : StreamFrame), s.Shape → f.Fits →
      ∃ s', s.addToRead f = some s' ∧ s'.Shape := by
    intro _ s f hs hf
    rcases hs.step hf with ⟨s', heq, hs', _⟩
    exact ⟨s', heq, hs'⟩
  apply Run.run_of_step addToRead hstep [] newStream fs shape_newStream
  apply Run.Guarded.of_forall
  intro f hf _
  exact hfs f hf

theorem addToRead_safe (fs : List StreamFrame) (hfs : ∀ f ∈ fs, f.Fits)
    : ∃ s, Run.run addToRead newStream fs = some s ∧
        s.readData.length = s.maxReadReceived ∧ s.readOffset ≤ s.maxReadReceived ∧
        (∀ g ∈ s.gaps, g.start ≤ s.maxReadReceived ∧ g.stop ≤ s.maxReadReceived) ∧
        s.readChan.flatten.length = s.readOffset ∧
        ∀ f, f.Fits → ∃ s', s.addToRead f = some s' ∧ s.readOffset ≤ s'.readOffset := by
  rcases run_shape fs hfs with ⟨s, hrun, hs⟩
  refine ⟨s, hrun, hs.length_readData, hs.readOffset_le, ?_, hs.length_readChan, ?_⟩
  . intro g hg
    have hle := hs.gaps_top_le g hg
    exact ⟨le_trans g.start_le_top hle, le_trans g.stop_le_top hle⟩
  . intro f hf
    rcases hs.step hf with ⟨s', heq, _, hle⟩
    exact ⟨s', heq, hle⟩

/-- The second frame contradicts the first one, and its end is not the end of the stream. -/
theorem addToRead_safe_sample
    : ∃ s, Run.run addToRead newStream
          [⟨true, true, true, 0, 4, 2, [1, 2]⟩, ⟨true, true, true, 0, 3, 2, [7, 8]⟩] = some s ∧
        s.readData.length = s.maxReadReceived := by
  rcases addToRead_safe [⟨true, true, true, 0, 4, 2, [1, 2]⟩, ⟨true, true, true, 0, 3, 2, [7, 8]⟩] (by
    intro f hf
    simp only [List.mem_cons, List.not_mem_nil, or_false] at hf
    rcases hf with rfl | rfl
    . exact ⟨rfl, by decide, by decide⟩
    . exact ⟨rfl, by decide, by decide⟩) with ⟨s, hrun, hlength, _⟩
  exact ⟨s, hrun, hlength⟩

end Stream

structure StreamFrame.EndsAt (n : Nat) (f : StreamFrame) : Prop where
  length_eq : f.length = f.streamData.length
  le : f.offset + f.length ≤ n
  fin : f.finBit = true → f.offset + f.length = n

theorem StreamFrame.EndsAt.fits {n : Nat} (hn : n < 2 ^ 62) {f : StreamFrame} (h : f.EndsAt n) : f.Fits := by
  have hle := h.le
  exact ⟨h.length_eq, by omega, by omega⟩

namespace Stream

def FinReceived (fs : List StreamFrame) : Prop := ∃ f ∈ fs, f.finBit = true

theorem finReceived_concat (fs : List StreamFrame) (f : StreamFrame)
    : FinReceived (fs ++ [f]) ↔ FinReceived fs ∨ f.finBit = true := by
  simp only [FinReceived, List.mem_append, List.mem_singleton]
  constructor
  . rintro ⟨g, hg | rfl, hfin⟩
    . exact Or.inl ⟨g, hg, hfin⟩
    . exact Or.inr hfin
  . rintro (⟨g, hg, hfin⟩ | hfin)
    . exact ⟨g, Or.inl hg, hfin⟩
    . exact ⟨f, Or.inr rfl, hfin⟩

/-- What the stream knows about its final size `n` after the frames `fs`. -/
structure Closing (n : Nat) (fs : List StreamFrame) (s : Stream) : Prop where
  shape : s.Shape
  maxReadReceived_le : s.maxReadReceived ≤ n
  readCloseOffset : FinReceived fs → s.readCloseOffset = n
  readCloseOffset_unknown : ¬ FinReceived fs → s.readCloseOffset = maxUint64
  readClosed : s.readClosed = true ↔ FinReceived fs ∧ s.readOffset = n

theorem Added.maxReadReceived_le {s s' : Stream} {f : StreamFrame} {n : Nat} (h : Added s f s')
    (hs : s.maxReadReceived ≤ n) (hf : f.offset + f.length ≤ n)
    : s'.maxReadReceived ≤ n := by
  cases h with
  | append => omega
  | extend => omega
  | fill => omega

section Close

variable {n : Nat} {fs : List StreamFrame} {s : Stream} {f : StreamFrame} (hn : n < 2 ^ 62)
  (hs : Closing n fs s) (hf : f.EndsAt n)

include hn hs hf

theorem Closing.noteFin (hfin : FinReceived (fs ++ [f])) : (s.noteFin f).readCloseOffset = n := by
  have hwrap : u64 (f.offset + f.length) = f.offset + f.length := by
    have hle := hf.le
    unfold u64
    omega
  rw [finReceived_concat] at hfin
  unfold Stream.noteFin
  split
  . next hbit =>
    have hend := hf.fin hbit
    rw [hwrap, hend]
    split
    . next hother =>
      -- An end that is known is the same one.
      by_cases hknown : FinReceived fs
      . exact hs.readCloseOffset hknown
      . exact absurd (hs.readCloseOffset_unknown hknown) hother.1
    . rfl
  . next hbit =>
    rcases hfin with hfin | hfin
    . exact hs.readCloseOffset hfin
    . exact absurd hfin hbit

theorem Closing.step : ∃ s', s.addToRead f = some s' ∧ Closing n (fs ++ [f]) s' := by
  have hfits := hf.fits hn
  rcases addToRead_added hs.shape hfits with ⟨s', heq, hadd⟩
  have hnoted := addToRead_noted heq
  have hshape := hadd.shape hs.shape hfits
  have hmax := hadd.maxReadReceived_le hs.maxReadReceived_le hf.le
  have hmono := hnoted.readOffset_le hs.shape hshape
  have hle := hshape.readOffset_le
  have hend : FinReceived (fs ++ [f]) → s'.readCloseOffset = n := by
    intro hfin
    rw [hnoted.readCloseOffset]
    exact hs.noteFin hn hf hfin
  have hunknown : ¬ FinReceived (fs ++ [f]) → s'.readCloseOffset = maxUint64 := by
    intro hfin
    rw [finReceived_concat, not_or] at hfin
    rw [hnoted.readCloseOffset]
    unfold Stream.noteFin
    rw [if_neg hfin.2]
    exact hs.readCloseOffset_unknown hfin.1
  refine ⟨s', heq, hshape, hmax, hend, hunknown, ?_⟩
  rw [hnoted.readClosed, hs.readClosed]
  by_cases hfin : FinReceived (fs ++ [f])
  . rw [hend hfin]
    constructor
    . rintro (hclosed | hclosed)
      . exact ⟨hfin, by omega⟩
      . exact ⟨hfin, hclosed⟩
    . intro hclosed
      exact Or.inr hclosed.2
  . have hbefore : ¬ FinReceived fs := by
      rw [finReceived_concat, not_or] at hfin
      exact hfin.1
    rw [hunknown hfin]
    simp only [hfin, hbefore, false_and, false_or, iff_false]
    unfold maxUint64
    omega

end Close

theorem Closing.new (n : Nat) : Closing n [] newStream := by
  refine ⟨shape_newStream, by simp [newStream], by simp [FinReceived], fun _ => rfl, ?_⟩
  simp [newStream, FinReceived]

theorem readClosed_iff (n : Nat) (hn : n < 2 ^ 62) (fs : List StreamFrame) (hfs : ∀ f ∈ fs, f.EndsAt n)
    : ∃ s, Run.run addToRead newStream fs = some s ∧
        (s.readClosed = true ↔ (∃ f ∈ fs, f.finBit = true) ∧ s.readOffset = n) ∧
        ∀ f, f.EndsAt n → ∃ s', s.addToRead f = some s' ∧
          (s.readClosed = true → s'.readClosed = true) := by
  have hstep : ∀ hist s (f : StreamFrame), Closing n hist s → f.EndsAt n →
      ∃ s', s.addToRead f = some s' ∧ Closing n (hist ++ [f]) s' := by
    intro hist s f hs hf
    exact hs.step hn hf
  have hok : Run.Guarded addToRead (fun _ f => f.EndsAt n) newStream fs := by
    apply Run.Guarded.of_forall
    intro f hf _
    exact hfs f hf
  rcases Run.run_of_step addToRead hstep [] newStream fs (Closing.new n) hok with ⟨s, hrun, hs⟩
  refine ⟨s, hrun, hs.readClosed, ?_⟩
  intro f hf
  rcases hs.step hn hf with ⟨s', heq, _⟩
  refine ⟨s', heq, ?_⟩
  intro hclosed
  exact (addToRead_noted heq).readClosed.mpr (Or.inl hclosed)

/-- The end of the stream arrives before its start. -/
theorem readClosed_iff_sample
    : ∃ s, Run.run addToRead newStream
          [⟨true, true, true, 0, 2, 2, [3, 4]⟩, ⟨false, true, true, 0, 0, 2, [1, 2]⟩] = some s ∧
        s.readOffset = 4 ∧ s.readClosed = true := by
  have hrun : ∃ s, Run.run addToRead newStream
      [⟨true, true, true, 0, 2, 2, [3, 4]⟩, ⟨false, true, true, 0, 0, 2, [1, 2]⟩] = some s ∧
      s.readOffset = 4 := by
    decide
  rcases readClosed_iff 4 (by decide)
    [⟨true, true, true, 0, 2, 2, [3, 4]⟩, ⟨false, true, true, 0, 0, 2, [1, 2]⟩] (by
      intro f hf
      simp only [List.mem_cons, List.not_mem_nil, or_false] at hf
      rcases hf with rfl | rfl
      . exact ⟨rfl, by decide, by decide⟩
      . exact ⟨rfl, by decide, by decide⟩) with ⟨s, hs, hiff, _⟩
  rcases hrun with ⟨s', hs', hoffset⟩
  rw [hs] at hs'
  injection hs' with hs'
  rw [← hs'] at hoffset
  exact ⟨s, hs, hoffset, hiff.mpr ⟨⟨_, List.mem_cons_self, rfl⟩, hoffset⟩⟩

end Stream

end QuicTracker
