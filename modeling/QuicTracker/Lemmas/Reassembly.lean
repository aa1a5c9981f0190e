import QuicTracker.Lemmas.Streams

/-!
This module contains what a stream delivers when it is fed the slices of one byte string in any order.
-/

namespace QuicTracker

open HalfOpen

namespace StreamFrame

def SliceOf (d : List UInt8) (f : StreamFrame) : Prop :=
  f.length = f.streamData.length ∧ f.offset + f.length ≤ d.length ∧
    f.streamData = (d.drop f.offset).take f.length

instance (d : List UInt8) (f : StreamFrame) : Decidable (f.SliceOf d) :=
  inferInstanceAs (Decidable (_ ∧ _))

def range (f : StreamFrame) : ByteInterval := ⟨f.offset, f.offset + f.length⟩

theorem SliceOf.fits {d : List UInt8} {f : StreamFrame} (hd : d.length < 2 ^ 62) (h : f.SliceOf d)
    : f.Fits := by
  rcases h with ⟨hlen, hle, -⟩
  exact ⟨hlen, by omega, by omega⟩

theorem SliceOf.getElem? {d : List UInt8} {f : StreamFrame} (h : f.SliceOf d) (x : Nat)
    (hx : f.range.Mem x)
    : f.streamData[x - f.offset]? = d[x]? := by
  rcases h with ⟨-, -, hdata⟩
  rcases hx with ⟨hlo, hhi⟩
  dsimp [range] at hlo hhi
  rw [hdata]
  rw [List.getElem?_take_of_lt (by omega)]
  rw [List.getElem?_drop]
  congr 1
  omega

end StreamFrame

def Received (fs : List StreamFrame) (x : Nat) : Prop := ∃ f ∈ fs, f.range.Mem x

instance (fs : List StreamFrame) (x : Nat) : Decidable (Received fs x) :=
  inferInstanceAs (Decidable (∃ f ∈ fs, _))

theorem received_concat (fs : List StreamFrame) (f : StreamFrame) (x : Nat)
    : Received (fs ++ [f]) x ↔ Received fs x ∨ f.range.Mem x := by
  simp only [Received, List.mem_append, List.mem_singleton]
  constructor
  . rintro ⟨g, hg | rfl, hx⟩
    . exact Or.inl ⟨g, hg, hx⟩
    . exact Or.inr hx
  . rintro (⟨g, hg, hx⟩ | hx)
    . exact ⟨g, Or.inl hg, hx⟩
    . exact ⟨f, Or.inr rfl, hx⟩

namespace Stream

def Fills (s : Stream) (f : StreamFrame) : Prop :=
  ¬ (f.offset = s.readOffset ∧ f.offset = s.maxReadReceived) ∧
    f.offset + f.length ≤ s.maxReadReceived

instance (s : Stream) (f : StreamFrame) : Decidable (s.Fills f) :=
  inferInstanceAs (Decidable (_ ∧ _))

def FillsFromStart (s : Stream) (f : StreamFrame) : Prop :=
  s.Fills f → ∀ g ∈ s.gaps, ¬ ByteIntervalList.Loses f.range g

instance (s : Stream) (f : StreamFrame) : Decidable (s.FillsFromStart f) :=
  inferInstanceAs (Decidable (_ → _))

/-- What the stream knows about `d` after the frames `fs`. -/
structure Delivered (d : List UInt8) (fs : List StreamFrame) (s : Stream) : Prop where
  shape : s.Shape
  maxReadReceived_le : s.maxReadReceived ≤ d.length
  received_lt : ∀ x, Received fs x → x < s.maxReadReceived
  readData : ∀ x, Received fs x → s.readData[x]? = d[x]?
  covers_gaps : ∀ x, x < s.maxReadReceived → ¬ Received fs x → Covers s.gaps x
  received_of_lt : ∀ x, x < s.readOffset → Received fs x
  readChan : s.readChan.flatten = d.take s.readOffset

theorem take_readData_eq {d : List UInt8} {fs : List StreamFrame} {data : List UInt8} {n : Nat}
    (hdata : ∀ x, Received fs x → data[x]? = d[x]?) (hrec : ∀ x, x < n → Received fs x)
    : data.take n = d.take n := by
  apply List.ext_getElem?
  intro x
  by_cases hx : x < n
  . rw [List.getElem?_take_of_lt hx, List.getElem?_take_of_lt hx]
    exact hdata x (hrec x hx)
  . rw [List.getElem?_eq_none, List.getElem?_eq_none]
    . rw [List.length_take]
      omega
    . rw [List.length_take]
      omega

theorem take_append_drop_take (d : List UInt8) {m n : Nat} (h : m ≤ n)
    : d.take m ++ (d.take n).drop m = d.take n := by
  have : d.take m = (d.take n).take m := by
    rw [List.take_take]
    rw [Nat.min_eq_left h]
  rw [this]
  rw [List.take_append_drop]

section Step

variable {d : List UInt8} {fs : List StreamFrame} {s s' : Stream} {f : StreamFrame}

theorem Added.received_lt (h : Added s f s') (hs : ∀ x, Received fs x → x < s.maxReadReceived)
    : ∀ x, Received (fs ++ [f]) x → x < s'.maxReadReceived := by
  have hmax : s.maxReadReceived ≤ s'.maxReadReceived ∧
      f.offset + f.length ≤ s'.maxReadReceived := by
    cases h with
    | append => omega
    | extend => omega
    | fill => omega
  intro x hx
  rw [received_concat] at hx
  cases hx with
  | inl h =>
    have := hs x h
    omega
  | inr h =>
    have : x < f.offset + f.length := h.2
    omega

theorem Delivered.append (hs : Delivered d fs s) (hf : f.SliceOf d)
    (hoff : f.offset = s.readOffset) (hmax : f.offset = s.maxReadReceived)
    (readOffset : s'.readOffset = f.offset + f.length)
    (maxReadReceived : s'.maxReadReceived = f.offset + f.length)
    (readData : s'.readData = s.readData ++ f.streamData)
    (readChan : s'.readChan.flatten = s.readChan.flatten ++ f.streamData)
    (hshape : s'.Shape) (hlt : ∀ x, Received (fs ++ [f]) x → x < s'.maxReadReceived)
    : Delivered d (fs ++ [f]) s' := by
  have hlen := hs.shape.length_readData
  have hall : ∀ x, x < f.offset + f.length → Received (fs ++ [f]) x := by
    intro x hx
    rw [received_concat]
    by_cases hlo : x < f.offset
    . left
      apply hs.received_of_lt
      omega
    . right
      constructor
      . dsimp [StreamFrame.range]
        omega
      . exact hx
  constructor
  . exact hshape
  . rw [maxReadReceived]
    exact hf.2.1
  . exact hlt
  . intro x hx
    rw [readData]
    rw [received_concat] at hx
    cases hx with
    | inl h =>
      have := hs.received_lt x h
      rw [List.getElem?_append_left (by omega)]
      exact hs.readData x h
    | inr h =>
      have := h.1
      dsimp [StreamFrame.range] at this
      rw [List.getElem?_append_right (by omega)]
      rw [hlen, ← hmax]
      exact hf.getElem? x h
  . intro x hx hnot
    exact absurd (hall x (by omega)) hnot
  . intro x hx
    apply hall
    omega
  . rw [readChan, readOffset, hs.readChan, ← hoff, hf.2.2]
    rw [List.take_add]

theorem Delivered.extend (hs : Delivered d fs s) (hf : f.SliceOf d)
    (hmax : s.maxReadReceived < f.offset + f.length)
    (readOffset : s'.readOffset = s.readOffset)
    (maxReadReceived : s'.maxReadReceived = f.offset + f.length)
    (readData : s'.readData =
      copyAt (copyAt (List.replicate (f.offset + f.length) 0) 0 s.readData) f.offset f.streamData)
    (readChan : s'.readChan.flatten = s.readChan.flatten)
    (gaps : s'.gaps =
      if s.maxReadReceived < f.offset then s.gaps.add ⟨s.maxReadReceived, f.offset⟩ else s.gaps)
    (hshape : s'.Shape) (hlt : ∀ x, Received (fs ++ [f]) x → x < s'.maxReadReceived)
    : Delivered d (fs ++ [f]) s' := by
  have hlen := hs.shape.length_readData
  constructor
  . exact hshape
  . rw [maxReadReceived]
    exact hf.2.1
  . exact hlt
  . intro x hx
    rw [readData]
    rw [getElem?_copyAt]
    . rw [← hf.1]
      split
      . next hin => exact hf.getElem? x hin
      . next hout =>
        rw [received_concat] at hx
        cases hx with
        | inl h =>
          have hlt := hs.received_lt x h
          rw [getElem?_copyAt]
          . rw [if_pos (by omega)]
            exact hs.readData x h
          . rw [List.length_replicate]
            omega
        | inr h => exact absurd h hout
    . rw [length_copyAt]
      . rw [List.length_replicate, hf.1]
      . omega
  . intro x hx hnot
    rw [received_concat, not_or] at hnot
    have hout : ¬ (f.offset ≤ x ∧ x < f.offset + f.length) := hnot.2
    rw [gaps]
    split
    . next hgap =>
      apply ByteIntervalList.covers_add hgap hs.shape.gaps_top_le
      by_cases hold : x < s.maxReadReceived
      . exact Or.inl (hs.covers_gaps x hold hnot.1)
      . right
        constructor
        . dsimp
          omega
        . dsimp
          omega
    . exact hs.covers_gaps x (by omega) hnot.1
  . intro x hx
    rw [received_concat]
    left
    apply hs.received_of_lt
    omega
  . rw [readChan, readOffset]
    exact hs.readChan

theorem Delivered.fill (hs : Delivered d fs s) (hf : f.SliceOf d)
    (hmax : f.offset + f.length ≤ s.maxReadReceived)
    (hclean : ∀ g ∈ s.gaps, ¬ ByteIntervalList.Loses f.range g)
    (readOffset : s'.readOffset = max s.readOffset (firstGap s'.gaps s.maxReadReceived))
    (maxReadReceived : s'.maxReadReceived = s.maxReadReceived)
    (readData : s'.readData = copyAt s.readData f.offset f.streamData)
    (readChan : s'.readChan.flatten =
      s.readChan.flatten ++ (s'.readData.take s'.readOffset).drop s.readOffset)
    (gaps : s'.gaps = s.gaps.fill f.range)
    (hshape : s'.Shape) (hlt : ∀ x, Received (fs ++ [f]) x → x < s'.maxReadReceived)
    : Delivered d (fs ++ [f]) s' := by
  have hlen := hs.shape.length_readData
  have hdata : ∀ x, Received (fs ++ [f]) x → s'.readData[x]? = d[x]? := by
    intro x hx
    rw [readData]
    rw [getElem?_copyAt]
    . rw [← hf.1]
      split
      . next hin => exact hf.getElem? x hin
      . next hout =>
        rw [received_concat] at hx
        cases hx with
        | inl h => exact hs.readData x h
        | inr h => exact absurd h hout
    . rw [← hf.1]
      omega
  have hcover : ∀ x, x < s.maxReadReceived → ¬ Received (fs ++ [f]) x → Covers s'.gaps x := by
    intro x hx hnot
    rw [received_concat, not_or] at hnot
    rw [gaps]
    apply ByteIntervalList.covers_fill (hs.covers_gaps x hx hnot.1) hnot.2 hclean
  -- The gaps are ordered, so what lies in front of the first one has been received.
  have hbelow : ∀ x, x < s'.readOffset → Received (fs ++ [f]) x := by
    intro x hx
    rw [readOffset] at hx
    by_cases hold : x < s.readOffset
    . rw [received_concat]
      exact Or.inl (hs.received_of_lt x hold)
    . have hx : x < firstGap s'.gaps s.maxReadReceived := by omega
      have hord := hshape.gaps_ordered
      have htop := hshape.gaps_top_le
      by_contra hnot
      generalize s'.gaps = l at hx hord htop hcover
      cases l with
      | nil => simpa using hcover x hx hnot
      | cons front rest =>
        have hfront := htop front (by simp)
        have hstart := front.start_le_top
        refine hord.not_covers_of_lt hx (hcover x ?_ hnot)
        dsimp [firstGap] at hx
        omega
  constructor
  . exact hshape
  . rw [maxReadReceived]
    exact hs.maxReadReceived_le
  . exact hlt
  . exact hdata
  . rw [maxReadReceived]
    exact hcover
  . exact hbelow
  . rw [readChan, hs.readChan, take_readData_eq hdata hbelow]
    apply take_append_drop_take
    omega

end Step

theorem Delivered.step {d : List UInt8} {fs : List StreamFrame} {s : Stream} {f : StreamFrame}
    (hd : d.length < 2 ^ 62) (hs : Delivered d fs s) (hf : f.SliceOf d) (hclean : s.FillsFromStart f)
    : ∃ s', s.addToRead f = some s' ∧ Delivered d (fs ++ [f]) s' := by
  rcases addToRead_added hs.shape (hf.fits hd) with ⟨s', heq, hadd⟩
  have hshape := hadd.shape hs.shape (hf.fits hd)
  have hlt := hadd.received_lt hs.received_lt
  refine ⟨s', heq, ?_⟩
  cases hadd with
  | append hoff hmax readOffset maxReadReceived readData readChan gaps =>
    exact hs.append hf hoff hmax readOffset maxReadReceived readData readChan hshape hlt
  | extend hnext hmax readOffset maxReadReceived readData readChan gaps =>
    exact hs.extend hf hmax readOffset maxReadReceived readData readChan gaps hshape hlt
  | fill hnext hmax readOffset maxReadReceived readData readChan gaps =>
    exact hs.fill hf hmax (hclean ⟨hnext, hmax⟩) readOffset maxReadReceived readData readChan gaps
      hshape hlt

theorem Delivered.new (d : List UInt8) : Delivered d [] newStream := by
  constructor
  . apply shape_newStream
  . simp [newStream]
  . simp [Received]
  . simp [Received]
  . simp [newStream]
  . simp [newStream]
  . simp [newStream]

theorem guarded_take {d : List UInt8} {fs : List StreamFrame} {ok : Stream → StreamFrame → Prop}
    (hfs : ∀ f ∈ fs, f.SliceOf d) (hok : Run.Guarded addToRead ok newStream fs) (n : Nat)
    : Run.Guarded addToRead (fun s f => f.SliceOf d ∧ ok s f) newStream (fs.take n) := by
  apply Run.Guarded.mono
  . exact hok.take addToRead n
  . intro s f hf hok
    exact ⟨hfs f (List.mem_of_mem_take hf), hok⟩

theorem readChan_eq_take (d : List UInt8) (hd : d.length < 2 ^ 62) (fs : List StreamFrame)
    (hfs : ∀ f ∈ fs, f.SliceOf d)
    (hclean : Run.Guarded addToRead FillsFromStart newStream fs) (n : Nat)
    : ∃ s, Run.run addToRead newStream (fs.take n) = some s ∧
        s.readChan.flatten = d.take s.readOffset ∧
        ∀ x, x < s.readOffset → Received (fs.take n) x := by
  have hstep : ∀ hist s f, Delivered d hist s → f.SliceOf d ∧ s.FillsFromStart f →
      ∃ s', s.addToRead f = some s' ∧ Delivered d (hist ++ [f]) s' := by
    intro hist s f hs hok
    exact hs.step hd hok.1 hok.2
  rcases Run.run_of_step addToRead hstep [] newStream (fs.take n) (Delivered.new d)
    (guarded_take hfs hclean n) with ⟨s, hrun, hs⟩
  rw [List.nil_append] at hs
  exact ⟨s, hrun, hs.readChan, hs.received_of_lt⟩

theorem readChan_eq_take_two_frames
    : ∃ s, Run.run addToRead newStream
          ([⟨false, true, true, 0, 2, 2, [3, 4]⟩, ⟨false, true, true, 0, 0, 2, [1, 2]⟩].take 2)
            = some s ∧
        s.readChan.flatten = List.take s.readOffset [1, 2, 3, 4] ∧
        ∀ x, x < s.readOffset → Received
          ([⟨false, true, true, 0, 2, 2, [3, 4]⟩, ⟨false, true, true, 0, 0, 2, [1, 2]⟩].take 2) x := by
  apply readChan_eq_take
  . decide
  . decide
  . decide

/-- A frame at the end of a gap removes the whole gap, and the bytes before it are delivered as zeros. -/
theorem readChan_ne_take
    : (∀ f ∈ [⟨false, true, true, 0, 4, 4, [5, 6, 7, 8]⟩, ⟨false, true, true, 0, 2, 2, [3, 4]⟩],
        StreamFrame.SliceOf [1, 2, 3, 4, 5, 6, 7, 8] f) ∧
      ∃ s, Run.run addToRead newStream
          [⟨false, true, true, 0, 4, 4, [5, 6, 7, 8]⟩, ⟨false, true, true, 0, 2, 2, [3, 4]⟩]
            = some s ∧
        s.readChan.flatten ≠ List.take s.readOffset [1, 2, 3, 4, 5, 6, 7, 8] ∧
        ∃ x < s.readOffset, ¬ Received
          [⟨false, true, true, 0, 4, 4, [5, 6, 7, 8]⟩, ⟨false, true, true, 0, 2, 2, [3, 4]⟩] x := by
  decide

def GapsBelow (s : Stream) (f : StreamFrame) : Prop :=
  s.gaps ≠ [] ∧ ∀ g ∈ s.gaps, g.stop ≤ f.offset

instance (s : Stream) (f : StreamFrame) : Decidable (s.GapsBelow f) :=
  inferInstanceAs (Decidable (_ ∧ _))

def KeepsUp (s : Stream) (f : StreamFrame) : Prop :=
  (s.Fills f → ∀ g ∈ s.gaps, ¬ ByteIntervalList.Sticks f.range g) ∧
  (f.offset < s.maxReadReceived → s.maxReadReceived < f.offset + f.length → s.GapsBelow f)

instance (s : Stream) (f : StreamFrame) : Decidable (s.KeepsUp f) :=
  inferInstanceAs (Decidable (_ ∧ _))

/-- Every gap is a real one, and the stream is not behind the first of them. -/
structure Live (fs : List StreamFrame) (s : Stream) : Prop where
  shape : s.Shape
  received_lt : ∀ x, Received fs x → x < s.maxReadReceived
  proper : Proper s.gaps
  not_received : ∀ x, Covers s.gaps x → ¬ Received fs x
  firstGap_le : firstGap s.gaps s.maxReadReceived ≤ s.readOffset

theorem firstGap_le_of_covers {l : ByteIntervalList} {x m : Nat} (hl : Ordered l) (h : Covers l x)
    : firstGap l m ≤ x := by
  cases l with
  | nil => simp at h
  | cons front rest =>
    by_contra hlt
    exact hl.not_covers_of_lt (not_le.mp hlt) h

theorem Live.le_readOffset {fs : List StreamFrame} {s : Stream} (hs : Live fs s) (n : Nat)
    (hn : ∀ x, x < n → Received fs x)
    : n ≤ s.readOffset := by
  have hle := hs.firstGap_le
  have hproper := hs.proper
  have hnot := hs.not_received
  by_contra hlt
  generalize s.gaps = l at hle hproper hnot
  cases l with
  | nil =>
    dsimp [firstGap] at hle
    have := hs.received_lt _ (hn s.maxReadReceived (by omega))
    omega
  | cons front rest =>
    dsimp [firstGap] at hle
    have hfront : Covers (front :: rest) front.start := by
      rw [covers_cons]
      exact Or.inl ⟨le_refl _, hproper front (by simp)⟩
    exact hnot front.start hfront (hn front.start (by omega))

section Step

variable {fs : List StreamFrame} {s s' : Stream} {f : StreamFrame}

theorem Live.not_received_concat (hs : Live fs s) (hbelow : ∀ g ∈ s.gaps, g.stop ≤ f.offset) {x : Nat}
    (hx : Covers s.gaps x)
    : ¬ Received (fs ++ [f]) x := by
  rw [received_concat]
  rintro (h | h)
  . exact hs.not_received x hx h
  . rcases hx with ⟨g, hg, hx⟩
    have hstop := hbelow g hg
    have hlo : f.offset ≤ x := h.1
    have hhi := hx.2
    omega

theorem Live.stop_le (hs : Live fs s) (hmax : s.maxReadReceived ≤ f.offset)
    : ∀ g ∈ s.gaps, g.stop ≤ f.offset := by
  intro g hg
  have htop := hs.shape.gaps_top_le g hg
  have hstop := g.stop_le_top
  omega

theorem Live.append (hs : Live fs s)
    (hoff : f.offset = s.readOffset) (hmax : f.offset = s.maxReadReceived)
    (readOffset : s'.readOffset = f.offset + f.length)
    (maxReadReceived : s'.maxReadReceived = f.offset + f.length)
    (gaps : s'.gaps = s.gaps) (hshape : s'.Shape)
    (hlt : ∀ x, Received (fs ++ [f]) x → x < s'.maxReadReceived)
    : Live (fs ++ [f]) s' := by
  have hle := hs.firstGap_le
  constructor
  . exact hshape
  . exact hlt
  . rw [gaps]
    exact hs.proper
  . intro x hx
    rw [gaps] at hx
    exact hs.not_received_concat (hs.stop_le (le_of_eq hmax.symm)) hx
  . rw [gaps, readOffset, maxReadReceived]
    generalize s.gaps = l at hle
    cases l with
    | nil => simp [firstGap]
    | cons front rest =>
      dsimp [firstGap] at hle ⊢
      omega

/-- The first gap stays where it is, or is the new one. -/
theorem Live.covers_add_le (hs : Live fs s) (hgap : s.maxReadReceived < f.offset)
    : ∃ x, x ≤ s.readOffset ∧ Covers (s.gaps.add ⟨s.maxReadReceived, f.offset⟩) x := by
  have hle := hs.firstGap_le
  have htop := hs.shape.gaps_top_le
  have hproper := hs.proper
  cases hl : s.gaps with
  | nil =>
    rw [hl] at hle
    refine ⟨s.maxReadReceived, hle, ?_⟩
    apply ByteIntervalList.covers_add hgap (by simp)
    exact Or.inr ⟨le_refl _, hgap⟩
  | cons front rest =>
    rw [hl] at hle hproper
    refine ⟨front.start, hle, ?_⟩
    apply ByteIntervalList.covers_add hgap (by rw [← hl]; exact htop)
    left
    rw [covers_cons]
    exact Or.inl ⟨le_refl _, hproper front (by simp)⟩

theorem Live.extend_gap (hs : Live fs s) (hgap : s.maxReadReceived < f.offset)
    (readOffset : s'.readOffset = s.readOffset)
    (gaps : s'.gaps = s.gaps.add ⟨s.maxReadReceived, f.offset⟩) (hshape : s'.Shape)
    (hlt : ∀ x, Received (fs ++ [f]) x → x < s'.maxReadReceived)
    : Live (fs ++ [f]) s' := by
  have htop := hs.shape.gaps_top_le
  rcases hs.covers_add_le hgap with ⟨x, hx, hcov⟩
  rw [← gaps] at hcov
  constructor
  . exact hshape
  . exact hlt
  . rw [gaps]
    exact ByteIntervalList.add_proper hgap htop hs.shape.gaps_ordered hs.proper
  . intro x hx
    rw [gaps] at hx
    rcases ByteIntervalList.covers_of_covers_add hgap htop hs.shape.gaps_ordered hs.proper hx with hold | hnew
    . exact hs.not_received_concat (hs.stop_le (le_of_lt hgap)) hold
    . rw [received_concat]
      rintro (h | h)
      . have := hs.received_lt x h
        have hlo : s.maxReadReceived ≤ x := hnew.1
        omega
      . have hlo : f.offset ≤ x := h.1
        have hhi : x < f.offset := hnew.2
        omega
  . have := firstGap_le_of_covers (m := s'.maxReadReceived) hshape.gaps_ordered hcov
    omega

theorem Live.extend_below (hs : Live fs s) (hbelow : s.GapsBelow f)
    (readOffset : s'.readOffset = s.readOffset) (gaps : s'.gaps = s.gaps) (hshape : s'.Shape)
    (hlt : ∀ x, Received (fs ++ [f]) x → x < s'.maxReadReceived)
    : Live (fs ++ [f]) s' := by
  have hle := hs.firstGap_le
  constructor
  . exact hshape
  . exact hlt
  . rw [gaps]
    exact hs.proper
  . intro x hx
    rw [gaps] at hx
    exact hs.not_received_concat hbelow.2 hx
  . rw [gaps, readOffset]
    cases hl : s.gaps with
    | nil => exact absurd hl hbelow.1
    | cons front rest =>
      rw [hl] at hle
      exact hle

theorem Live.extend (hs : Live fs s) (hkeep : s.KeepsUp f)
    (hnext : ¬ (f.offset = s.readOffset ∧ f.offset = s.maxReadReceived))
    (hmax : s.maxReadReceived < f.offset + f.length)
    (readOffset : s'.readOffset = s.readOffset)
    (gaps : s'.gaps =
      if s.maxReadReceived < f.offset then s.gaps.add ⟨s.maxReadReceived, f.offset⟩ else s.gaps)
    (hshape : s'.Shape)
    (hlt : ∀ x, Received (fs ++ [f]) x → x < s'.maxReadReceived)
    : Live (fs ++ [f]) s' := by
  by_cases hgap : s.maxReadReceived < f.offset
  . rw [if_pos hgap] at gaps
    exact hs.extend_gap hgap readOffset gaps hshape hlt
  . rw [if_neg hgap] at gaps
    apply hs.extend_below _ readOffset gaps hshape hlt
    by_cases hoff : f.offset < s.maxReadReceived
    . exact hkeep.2 hoff hmax
    . -- The frame starts at the end of the data, but not where the reader is.
      have hro := hs.shape.readOffset_le
      have hbehind : s.readOffset < s.maxReadReceived := by omega
      constructor
      . intro hnil
        have hle := hs.firstGap_le
        rw [hnil] at hle
        dsimp [firstGap] at hle
        omega
      . exact hs.stop_le (not_lt.mp hoff)

theorem Live.fill (hs : Live fs s) (hstick : ∀ g ∈ s.gaps, ¬ ByteIntervalList.Sticks f.range g)
    (readOffset : s'.readOffset = max s.readOffset (firstGap s'.gaps s.maxReadReceived))
    (maxReadReceived : s'.maxReadReceived = s.maxReadReceived)
    (gaps : s'.gaps = s.gaps.fill f.range) (hshape : s'.Shape)
    (hlt : ∀ x, Received (fs ++ [f]) x → x < s'.maxReadReceived)
    : Live (fs ++ [f]) s' := by
  have hb : f.range.start ≤ f.range.stop := by
    dsimp [StreamFrame.range]
    omega
  constructor
  . exact hshape
  . exact hlt
  . rw [gaps]
    apply ByteIntervalList.fill_proper hb hs.shape.gaps_ordered hs.proper hstick
  . intro x hx
    rw [gaps] at hx
    have := ByteIntervalList.covers_of_covers_fill hb hs.shape.gaps_ordered hs.proper hstick hx
    rw [received_concat]
    rintro (h | h)
    . exact hs.not_received x this.1 h
    . exact this.2 h
  . rw [readOffset, maxReadReceived]
    omega

end Step

theorem Live.step {fs : List StreamFrame} {s : Stream} {f : StreamFrame} (hs : Live fs s)
    (hf : f.Fits) (hkeep : s.KeepsUp f)
    : ∃ s', s.addToRead f = some s' ∧ Live (fs ++ [f]) s' := by
  rcases addToRead_added hs.shape hf with ⟨s', heq, hadd⟩
  have hshape := hadd.shape hs.shape hf
  have hlt := hadd.received_lt hs.received_lt
  refine ⟨s', heq, ?_⟩
  cases hadd with
  | append hoff hmax readOffset maxReadReceived readData readChan gaps =>
    exact hs.append hoff hmax readOffset maxReadReceived gaps hshape hlt
  | extend hnext hmax readOffset maxReadReceived readData readChan gaps =>
    exact hs.extend hkeep hnext hmax readOffset gaps hshape hlt
  | fill hnext hmax readOffset maxReadReceived readData readChan gaps =>
    exact hs.fill (hkeep.1 ⟨hnext, hmax⟩) readOffset maxReadReceived gaps hshape hlt

theorem Live.new : Live [] newStream := by
  constructor
  . apply shape_newStream
  . simp [Received]
  . simp [newStream, Proper]
  . simp [newStream]
  . simp [newStream, firstGap]

section ReadOffset

variable {d : List UInt8} {fs : List StreamFrame} {s s' : Stream} {f : StreamFrame}

theorem Live.not_received_readOffset (hl : Live fs s) (hs : Delivered d fs s)
    : ¬ Received fs s.readOffset := by
  intro hrec
  have := hl.le_readOffset (s.readOffset + 1) ?_
  . omega
  . intro x hx
    by_cases h : x = s.readOffset
    . rw [h]
      exact hrec
    . exact hs.received_of_lt x (by omega)

theorem Live.readOffset_eq (hl : Live fs s) (hs : Delivered d fs s) (hs' : Delivered d (fs ++ [f]) s')
    (hle : s.readOffset ≤ s'.readOffset) (hf : ¬ f.range.Mem s.readOffset)
    : s'.readOffset = s.readOffset := by
  by_contra hne
  have hrec := hs'.received_of_lt s.readOffset (by omega)
  rw [received_concat] at hrec
  cases hrec with
  | inl h => exact hl.not_received_readOffset hs h
  | inr h => exact hf h

theorem Live.readOffset_eq_length (hl : Live fs s) (hl' : Live (fs ++ [f]) s')
    (hs' : Delivered d (fs ++ [f]) s') (hf : f.offset = 0)
    (hgap : s.maxReadReceived ≤ f.length ∨ Covers s.gaps f.length)
    : s'.readOffset = f.length := by
  have hge : f.length ≤ s'.readOffset := by
    apply hl'.le_readOffset
    intro x hx
    rw [received_concat]
    right
    constructor
    . dsimp [StreamFrame.range]
      omega
    . dsimp [StreamFrame.range]
      omega
  by_contra hne
  have hrec := hs'.received_of_lt f.length (by omega)
  rw [received_concat] at hrec
  cases hrec with
  | inl h =>
    have hlt := hl.received_lt _ h
    cases hgap with
    | inl hmax => omega
    | inr hcovers => exact hl.not_received _ hcovers h
  | inr h =>
    have hhi : f.length < f.offset + f.length := h.2
    omega

end ReadOffset

theorem received_prefix_le_readOffset (d : List UInt8) (hd : d.length < 2 ^ 62)
    (fs : List StreamFrame) (hfs : ∀ f ∈ fs, f.SliceOf d)
    (hkeep : Run.Guarded addToRead KeepsUp newStream fs) (n : Nat)
    : ∃ s, Run.run addToRead newStream (fs.take n) = some s ∧
        ∀ m, m ≤ d.length → (∀ x, x < m → Received (fs.take n) x) → m ≤ s.readOffset := by
  have hstep : ∀ hist s f, Live hist s → f.SliceOf d ∧ s.KeepsUp f →
      ∃ s', s.addToRead f = some s' ∧ Live (hist ++ [f]) s' := by
    intro hist s f hs hok
    exact hs.step (hok.1.fits hd) hok.2
  rcases Run.run_of_step addToRead hstep [] newStream (fs.take n) Live.new
    (guarded_take hfs hkeep n) with ⟨s, hrun, hs⟩
  rw [List.nil_append] at hs
  refine ⟨s, hrun, ?_⟩
  intro m _ hm
  exact hs.le_readOffset m hm

theorem received_prefix_le_readOffset_two_frames
    : ∃ s, Run.run addToRead newStream
          ([⟨false, true, true, 0, 2, 2, [3, 4]⟩, ⟨false, true, true, 0, 0, 2, [1, 2]⟩].take 2)
            = some s ∧
        ∀ m, m ≤ [1, 2, 3, 4].length → (∀ x, x < m → Received
          ([⟨false, true, true, 0, 2, 2, [3, 4]⟩, ⟨false, true, true, 0, 0, 2, [1, 2]⟩].take 2) x) →
          m ≤ s.readOffset := by
  apply received_prefix_le_readOffset [1, 2, 3, 4]
  . decide
  . decide
  . decide

/-- A retransmission that also carries new data is stored, but its new data is not delivered. -/
theorem readOffset_lt_received_prefix
    : (∀ f ∈ [⟨false, true, true, 0, 0, 2, [1, 2]⟩, ⟨false, true, true, 0, 1, 2, [2, 3]⟩],
        StreamFrame.SliceOf [1, 2, 3] f) ∧
      ∃ s, Run.run addToRead newStream
          [⟨false, true, true, 0, 0, 2, [1, 2]⟩, ⟨false, true, true, 0, 1, 2, [2, 3]⟩] = some s ∧
        s.readOffset < 3 ∧
        ∀ x < 3, Received
          [⟨false, true, true, 0, 0, 2, [1, 2]⟩, ⟨false, true, true, 0, 1, 2, [2, 3]⟩] x := by
  decide

end Stream

end QuicTracker
