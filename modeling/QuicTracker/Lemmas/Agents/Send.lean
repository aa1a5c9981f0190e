import QuicTracker.Impl.Agents.Send
import QuicTracker.Lemmas.Ack

/-!
This module contains the set of packets that a merged acknowledgement stands for.
-/

namespace QuicTracker

namespace SendingAgent

/-- How far below the largest number the merge looks for the numbers of block `j`. -/
def blockOffset (blocks : List AckBlock) (j : Nat) : Nat :=
  ((blocks.take j).tail.map fun b => b.gap + 1).sum

def Reaches (f : AckFrame) (r : Nat) : Prop :=
  r = f.largestAcknowledged ∨
    ∃ j b, f.ackBlocks[j]? = some b ∧
      ∃ i, i < b.block ∧ r + i + blockOffset f.ackBlocks j = f.largestAcknowledged

def AcknowledgedBy (frames : List AckFrame) (n : Int) : Prop := ∃ f ∈ frames, f.Acknowledges n

instance (frames : List AckFrame) (n : Int) : Decidable (AcknowledgedBy frames n) :=
  inferInstanceAs (Decidable (∃ f ∈ frames, _))

def acknowledged (frames : List AckFrame) : Set Nat := {n | AcknowledgedBy frames n}

def reached (frames : List AckFrame) : Set Nat := {r | ∃ f ∈ frames, Reaches f r}

/-- The reached numbers, once every run of them is moved down by the number of runs above it. -/
def LoweredRuns (frames : List AckFrame) (n : Int) : Prop :=
  ∃ r ∈ reached frames, n = r - GapRuns.breaksAbove (reached frames) r

theorem exists_getElem?_cons {α : Type} (a : α) (l : List α) (P : Nat → α → Prop)
    : (∃ j b, (a :: l)[j]? = some b ∧ P j b) ↔ P 0 a ∨ ∃ j b, l[j]? = some b ∧ P (j + 1) b := by
  apply Iff.intro
  . intro h
    rcases h with ⟨j, b, hb, hP⟩
    cases j with
    | zero =>
      rw [List.getElem?_cons_zero] at hb
      injection hb with hb
      rw [← hb] at hP
      exact Or.inl hP
    | succ j => exact Or.inr ⟨j, b, hb, hP⟩
  . intro h
    cases h with
    | inl h => exact ⟨0, a, rfl, h⟩
    | inr h =>
      rcases h with ⟨j, b, hb, hP⟩
      exact ⟨j + 1, b, hb, hP⟩

theorem mem_mark_iff {largest offset block : Nat} (hlt : largest < 2 ^ 64)
    (hle : offset + block ≤ largest) (r : Nat)
    : r ∈ (List.range block).map (fun i => u64Sub (u64Sub largest i) offset) ↔
        ∃ i, i < block ∧ r + i + offset = largest := by
  rw [List.mem_map]
  apply exists_congr
  intro i
  rw [List.mem_range]
  apply and_congr_right
  intro hi
  rw [u64Sub_of_le (by omega) hlt]
  rw [u64Sub_of_le (by omega) (by omega)]
  omega

theorem mem_markBlocks_iff {largest offset : Nat} (hlt : largest < 2 ^ 64) (bidx : Nat)
    (blocks : List AckBlock) (hspan : offset + GapRuns.span 2 blocks ≤ largest) (r : Nat)
    : r ∈ markBlocks largest (bidx + 1) offset blocks ↔
        ∃ j b, blocks[j]? = some b ∧
          ∃ i, i < b.block ∧
            r + i + (offset + ((blocks.take j).map fun b => b.gap + 1).sum) = largest := by
  induction blocks generalizing bidx offset with
  | nil => simp [markBlocks]
  | cons b blocks ih =>
    rw [GapRuns.span_cons] at hspan
    unfold markBlocks
    rw [if_pos (Nat.succ_pos bidx)]
    rw [u64_of_lt (by omega)]
    rw [List.mem_append]
    rw [mem_mark_iff hlt (by omega)]
    rw [ih _ (by omega)]
    rw [exists_getElem?_cons]
    simp only [List.take_zero, List.map_nil, List.sum_nil, List.take_succ_cons, List.map_cons,
      List.sum_cons, Nat.add_zero, Nat.add_assoc]

theorem mem_marked_iff_reaches {f : AckFrame} (h : f.RangesWellFormed) (r : Nat)
    : r ∈ f.largestAcknowledged :: markBlocks f.largestAcknowledged 0 0 f.ackBlocks ↔
        Reaches f r := by
  rcases h.exists_cons with ⟨first, blocks, hblocks, hspan⟩
  have hlt := h.largestAcknowledged_lt
  unfold Reaches blockOffset
  rw [hblocks]
  rw [exists_getElem?_cons]
  unfold markBlocks
  rw [if_neg (Nat.lt_irrefl 0)]
  rw [List.mem_cons]
  rw [List.mem_append]
  rw [mem_mark_iff hlt (by omega)]
  rw [mem_markBlocks_iff hlt 0 blocks (by omega)]
  simp only [List.take_zero, List.tail_nil, List.map_nil, List.sum_nil, List.take_succ_cons,
    List.tail_cons, Nat.zero_add]

theorem mem_numbersAcknowledged_iff {frames : List AckFrame}
    (h : ∀ f ∈ frames, f.RangesWellFormed) (r : Nat)
    : r ∈ numbersAcknowledged frames ↔ r ∈ reached frames := by
  unfold numbersAcknowledged
  rw [List.mem_dedup]
  rw [List.mem_flatMap]
  apply exists_congr
  intro f
  apply and_congr_right
  intro hf
  apply mem_marked_iff_reaches (h f hf)

theorem Reaches.le {f : AckFrame} {r : Nat} (h : Reaches f r) : r ≤ f.largestAcknowledged := by
  cases h with
  | inl h => omega
  | inr h =>
    rcases h with ⟨j, b, _, i, _, hr⟩
    omega

theorem largestAcknowledged_go (frames : List AckFrame) (largest : Nat)
    : let res := frames.foldl (fun largest f =>
        if f.largestAcknowledged > largest then f.largestAcknowledged else largest) largest
      largest ≤ res ∧ (∀ f ∈ frames, f.largestAcknowledged ≤ res) ∧
        (res = largest ∨ ∃ f ∈ frames, f.largestAcknowledged = res) := by
  induction frames generalizing largest with
  | nil => simp
  | cons f frames ih =>
    rcases ih (if f.largestAcknowledged > largest then f.largestAcknowledged else largest) with
      ⟨hle, hall, hmem⟩
    have hstep : largest ≤ (if f.largestAcknowledged > largest then f.largestAcknowledged else largest) ∧
        f.largestAcknowledged ≤
          (if f.largestAcknowledged > largest then f.largestAcknowledged else largest) := by
      split <;> omega
    simp only [List.foldl_cons, List.forall_mem_cons, List.exists_mem_cons_iff]
    refine ⟨Nat.le_trans hstep.1 hle, ⟨Nat.le_trans hstep.2 hle, hall⟩, ?_⟩
    . cases hmem with
      | inl heq =>
        rw [heq]
        split
        . exact Or.inr (Or.inl rfl)
        . exact Or.inl rfl
      | inr h => exact Or.inr (Or.inr h)

theorem le_largestAcknowledged {frames : List AckFrame} {f : AckFrame} (hf : f ∈ frames)
    : f.largestAcknowledged ≤ largestAcknowledged frames := by
  apply (largestAcknowledged_go frames 0).2.1 f hf

theorem exists_largestAcknowledged {frames : List AckFrame} (hne : frames ≠ [])
    : ∃ f ∈ frames, f.largestAcknowledged = largestAcknowledged frames := by
  rcases (largestAcknowledged_go frames 0).2.2 with hzero | h
  . rcases List.exists_mem_of_ne_nil frames hne with ⟨f, hf⟩
    have hle := le_largestAcknowledged hf
    refine ⟨f, hf, ?_⟩
    unfold largestAcknowledged at hle ⊢
    omega
  . exact h

theorem sort_numbersAcknowledged {frames : List AckFrame} (hne : frames ≠ [])
    (h : ∀ f ∈ frames, f.RangesWellFormed)
    : ∃ numbers, sortPacketNumberQueue (numbersAcknowledged frames)
          = largestAcknowledged frames :: numbers ∧
        (largestAcknowledged frames :: numbers).Pairwise (· > ·) ∧
        ∀ r, r ∈ largestAcknowledged frames :: numbers ↔ r ∈ reached frames := by
  have hperm := Connection.sortPacketNumberQueue_perm (numbersAcknowledged frames)
  have hsorted : (sortPacketNumberQueue (numbersAcknowledged frames)).Pairwise (· ≥ ·) := by
    apply List.pairwise_insertionSort
  have hnodup : (sortPacketNumberQueue (numbersAcknowledged frames)).Nodup := by
    rw [hperm.nodup_iff]
    apply List.nodup_dedup
  have hgt : (sortPacketNumberQueue (numbersAcknowledged frames)).Pairwise (· > ·) := by
    apply hsorted.imp₂ _ hnodup
    intro a b hge hne
    omega
  have hmem : ∀ r, r ∈ sortPacketNumberQueue (numbersAcknowledged frames) ↔ r ∈ reached frames := by
    intro r
    rw [hperm.mem_iff]
    apply mem_numbersAcknowledged_iff h
  rcases exists_largestAcknowledged hne with ⟨f, hf, hlargest⟩
  have hin := (hmem f.largestAcknowledged).mpr ⟨f, hf, Or.inl rfl⟩
  generalize sortPacketNumberQueue (numbersAcknowledged frames) = sorted at hgt hmem hin
  cases sorted with
  | nil => simp at hin
  | cons top numbers =>
    have htop : top = largestAcknowledged frames := by
      rcases (hmem top).mp (by simp) with ⟨g, hg, hreach⟩
      have hle := le_largestAcknowledged hg
      have := hreach.le
      rw [hlargest] at hin
      rcases List.mem_cons.mp hin with heq | hlt
      . exact heq.symm
      . have := (List.pairwise_cons.mp hgt).1 _ hlt
        omega
    subst htop
    exact ⟨numbers, rfl, hgt, hmem⟩

theorem acknowledges_mergeAckFrames_iff {frames : List AckFrame} (hne : frames ≠ [])
    (h : ∀ f ∈ frames, f.RangesWellFormed)
    : ∃ g, mergeAckFrames frames = some g ∧ ∀ n, g.Acknowledges n ↔ LoweredRuns frames n := by
  rcases sort_numbersAcknowledged hne h with ⟨numbers, hsort, hdesc, hmem⟩
  rcases exists_largestAcknowledged hne with ⟨f, hf, hlargest⟩
  have hlt := (h f hf).largestAcknowledged_lt
  rw [hlargest] at hlt
  rcases ackBlocksLoop_eq_cons 1 (largestAcknowledged frames) ⟨0, 0⟩ numbers with
    ⟨block, blocks, hcons⟩
  have hset : reached frames = {x | x ∈ largestAcknowledged frames :: numbers} := by
    apply Set.ext
    intro x
    exact (hmem x).symm
  unfold mergeAckFrames
  rw [hsort]
  refine ⟨_, rfl, ?_⟩
  intro n
  rw [AckFrame.acknowledges_iff_reads hcons]
  dsimp only
  rw [ackBlocksLoop_eq_encode (by decide) ⟨0, 0⟩ numbers hdesc (by dsimp; omega)]
  rw [GapRuns.reads_encode (by decide) (by decide) _ 0 ⟨0, 0⟩ _ numbers hdesc (by dsimp; omega)]
  rw [GapRuns.mem_shifted_one _ _ _ hdesc]
  have hfirst : ((largestAcknowledged frames : Int) - (0 : Nat) ≤ n ∧
      n ≤ largestAcknowledged frames + (0 : Nat) - (0 : Nat)) ↔
      n = largestAcknowledged frames - (0 : Nat) := by
    omega
  unfold LoweredRuns
  simp only [← hmem]
  rw [hset]
  rw [List.exists_mem_cons_iff]
  rw [GapRuns.breaksAbove_top hdesc]
  rw [hfirst]
  simp only [Nat.zero_add]

theorem acknowledgedBy_iff {frames : List AckFrame} (h : ∀ f ∈ frames, f.RangesWellFormed) (n : Int)
    : AcknowledgedBy frames n ↔ ∃ m ∈ acknowledged frames, n = (m : Int) := by
  apply Iff.intro
  . intro hn
    rcases hn with ⟨f, hf, hack⟩
    have hnonneg := (h f hf).nonneg n hack
    rcases Int.eq_ofNat_of_zero_le hnonneg with ⟨m, hm⟩
    rw [hm] at hack ⊢
    exact ⟨m, ⟨f, hf, hack⟩, rfl⟩
  . intro hn
    rcases hn with ⟨m, hm, heq⟩
    rw [heq]
    exact hm

theorem finite_acknowledged (frames : List AckFrame) : (acknowledged frames).Finite := by
  apply Set.Finite.subset (Set.finite_le_nat (largestAcknowledged frames))
  intro n hn
  rcases hn with ⟨f, hf, hack⟩
  have := hack.le
  have := le_largestAcknowledged hf
  rw [Set.mem_ofPred_eq]
  omega

theorem finite_reached (frames : List AckFrame) : (reached frames).Finite := by
  apply Set.Finite.subset (Set.finite_le_nat (largestAcknowledged frames))
  intro r hr
  rcases hr with ⟨f, hf, hreach⟩
  exact Nat.le_trans hreach.le (le_largestAcknowledged hf)

theorem mergeAckFrames_exact_iff (frames : List AckFrame) (hne : frames ≠ [])
    (h : ∀ f ∈ frames, f.RangesWellFormed)
    : ∃ g, mergeAckFrames frames = some g ∧
        ((∀ n, g.Acknowledges n ↔ AcknowledgedBy frames n) ↔
          GapRuns.WideGaps (acknowledged frames) ∧
          ∀ r, r ∈ reached frames ↔
            ∃ n ∈ acknowledged frames, n + GapRuns.breaksAbove (acknowledged frames) n = r) := by
  rcases acknowledges_mergeAckFrames_iff hne h with ⟨g, hg, hack⟩
  refine ⟨g, hg, ?_⟩
  have hduality := GapRuns.lowered_iff_raised (finite_reached frames) (finite_acknowledged frames)
  rw [Set.ext_iff] at hduality
  simp only [Set.mem_image] at hduality
  rw [← hduality]
  apply forall_congr'
  intro n
  rw [hack]
  rw [acknowledgedBy_iff h]
  apply Iff.comm

theorem rangesWellFormed_pair {m n : Nat} (hm : m < 2 ^ 64) (hn : n < 2 ^ 64)
    : ∀ f ∈ [⟨m, 0, 0, [⟨0, 0⟩]⟩, ⟨n, 0, 0, [⟨0, 0⟩]⟩], AckFrame.RangesWellFormed f := by
  intro f hf
  simp only [List.mem_cons, List.not_mem_nil, or_false] at hf
  cases hf with
  | inl hf =>
    rw [hf]
    apply AckFrame.rangesWellFormed_single hm
  | inr hf =>
    rw [hf]
    apply AckFrame.rangesWellFormed_single hn

theorem reaches_single (n r : Nat) : Reaches ⟨n, 0, 0, [⟨0, 0⟩]⟩ r ↔ r = n := by
  unfold Reaches
  rw [exists_getElem?_cons]
  simp

theorem mem_reached_pair (m n r : Nat)
    : r ∈ reached [⟨m, 0, 0, [⟨0, 0⟩]⟩, ⟨n, 0, 0, [⟨0, 0⟩]⟩] ↔ r = m ∨ r = n := by
  unfold reached
  rw [Set.mem_ofPred_eq]
  simp only [List.exists_mem_cons_iff, reaches_single, List.not_mem_nil, false_and, exists_false,
    or_false]

theorem mem_acknowledged_pair (m n k : Nat)
    : k ∈ acknowledged [⟨m, 0, 0, [⟨0, 0⟩]⟩, ⟨n, 0, 0, [⟨0, 0⟩]⟩] ↔ k = m ∨ k = n := by
  unfold acknowledged
  rw [Set.mem_ofPred_eq]
  simp [AcknowledgedBy, AckFrame.acknowledges_single]

theorem mergeAckFrames_exact_iff_two_frames
    : ∃ g, mergeAckFrames [⟨5, 0, 0, [⟨0, 0⟩]⟩, ⟨4, 0, 0, [⟨0, 0⟩]⟩] = some g ∧
        ∀ n, g.Acknowledges n ↔
          AcknowledgedBy [⟨5, 0, 0, [⟨0, 0⟩]⟩, ⟨4, 0, 0, [⟨0, 0⟩]⟩] n := by
  rcases mergeAckFrames_exact_iff [⟨5, 0, 0, [⟨0, 0⟩]⟩, ⟨4, 0, 0, [⟨0, 0⟩]⟩] (by simp)
    (rangesWellFormed_pair (by decide) (by decide)) with ⟨g, hg, hiff⟩
  refine ⟨g, hg, hiff.mpr ⟨?_, ?_⟩⟩
  . intro n hn hnn
    rw [mem_acknowledged_pair] at hn hnn
    omega
  . intro r
    rw [mem_reached_pair]
    rw [GapRuns.mem_raised_of_single_run]
    . rw [mem_acknowledged_pair]
    . intro n hn x hx hlt
      rw [mem_acknowledged_pair] at hn hx
      refine ⟨4, ?_, by omega⟩
      simp [mem_acknowledged_pair]

theorem mergeAckFrames_invents
    : (∀ f ∈ [⟨5, 0, 0, [⟨0, 0⟩]⟩, ⟨3, 0, 0, [⟨0, 0⟩]⟩], AckFrame.RangesWellFormed f) ∧
      ∃ g, mergeAckFrames [⟨5, 0, 0, [⟨0, 0⟩]⟩, ⟨3, 0, 0, [⟨0, 0⟩]⟩] = some g ∧
        g.Acknowledges 2 ∧ ¬ g.Acknowledges 3 ∧
        ¬ AcknowledgedBy [⟨5, 0, 0, [⟨0, 0⟩]⟩, ⟨3, 0, 0, [⟨0, 0⟩]⟩] 2 := by
  apply And.intro
  . apply rangesWellFormed_pair <;> decide
  . exact ⟨⟨5, 0, 1, [⟨0, 0⟩, ⟨1, 0⟩]⟩, by decide, by decide, by decide, by decide⟩

end SendingAgent

end QuicTracker
