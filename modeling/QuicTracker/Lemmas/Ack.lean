import QuicTracker.Impl.Agents.Ack
import QuicTracker.Lemmas.Common

/-!
This module contains the meaning of an acknowledgement and the set of packets that the acknowledgement
of a queue stands for.
-/

namespace QuicTracker

namespace AckFrame

/-- The first range ends at the largest number, each next one starts `Gap + 2` below the previous one. -/
def Acknowledges (f : AckFrame) (n : Int) : Prop :=
  match f.ackBlocks with
  | [] => False
  | first :: blocks =>
    (f.largestAcknowledged - first.block ≤ n ∧ n ≤ f.largestAcknowledged) ∨
      GapRuns.Reads 2 (f.largestAcknowledged - first.block) blocks n

instance (f : AckFrame) (n : Int) : Decidable (f.Acknowledges n) :=
  match f with
  | ⟨_, _, _, []⟩ => inferInstanceAs (Decidable False)
  | ⟨_, _, _, _ :: _⟩ => inferInstanceAs (Decidable (_ ∨ _))

theorem acknowledges_iff_reads {f : AckFrame} {first : AckBlock} {blocks : List AckBlock}
    (h : f.ackBlocks = first :: blocks) (n : Int)
    : f.Acknowledges n ↔
        GapRuns.Reads 2 (f.largestAcknowledged + first.gap + 2) f.ackBlocks n := by
  have hlow : (f.largestAcknowledged : Int) + first.gap + 2 - first.gap - (2 : Nat)
      = f.largestAcknowledged := by omega
  unfold Acknowledges
  rw [h]
  rw [GapRuns.reads_cons]
  rw [hlow]

theorem Acknowledges.le {f : AckFrame} {n : Int} (h : f.Acknowledges n)
    : n ≤ f.largestAcknowledged := by
  unfold Acknowledges at h
  cases hblocks : f.ackBlocks with
  | nil =>
    rw [hblocks] at h
    exact h.elim
  | cons first blocks =>
    rw [hblocks] at h
    cases h with
    | inl h => exact h.2
    | inr h =>
      have := h.le
      omega

structure RangesWellFormed (f : AckFrame) : Prop where
  ackBlockCount : f.ackBlocks.length = f.ackBlockCount + 1
  largestAcknowledged_lt : f.largestAcknowledged < 2 ^ 64
  nonneg : ∀ n, f.Acknowledges n → 0 ≤ n

theorem acknowledges_single (n : Nat) (m : Int)
    : Acknowledges ⟨n, 0, 0, [⟨0, 0⟩]⟩ m ↔ m = n := by
  simp only [Acknowledges, GapRuns.Reads, or_false]
  omega

theorem rangesWellFormed_single {n : Nat} (h : n < 2 ^ 64)
    : RangesWellFormed ⟨n, 0, 0, [⟨0, 0⟩]⟩ := by
  refine ⟨rfl, h, ?_⟩
  intro m hm
  rw [acknowledges_single] at hm
  omega

theorem RangesWellFormed.exists_cons {f : AckFrame} (h : f.RangesWellFormed)
    : ∃ first blocks, f.ackBlocks = first :: blocks ∧
        first.block + GapRuns.span 2 blocks ≤ f.largestAcknowledged := by
  have hcount := h.ackBlockCount
  have hnonneg := h.nonneg
  unfold Acknowledges at hnonneg
  cases hblocks : f.ackBlocks with
  | nil =>
    rw [hblocks] at hcount
    simp at hcount
  | cons first blocks =>
    simp only [hblocks] at hnonneg
    have hfirst : (0 : Int) ≤ f.largestAcknowledged - first.block := by
      apply hnonneg
      omega
    have hspan := GapRuns.span_le hfirst blocks (fun n hn => hnonneg n (Or.inr hn))
    exact ⟨first, blocks, rfl, by omega⟩

end AckFrame

theorem ackBlocksLoop_eq_encode {bias previous : Nat} (hbias : bias ≤ 2) (b : AckBlock)
    (numbers : List Nat) (hdesc : (previous :: numbers).Pairwise (· > ·))
    (hlt : previous + b.block < 2 ^ 64)
    : ackBlocksLoop bias previous b numbers = GapRuns.encode bias previous b numbers := by
  induction numbers generalizing previous b with
  | nil => rfl
  | cons n numbers ih =>
    rw [List.pairwise_cons] at hdesc
    have hn : previous > n := hdesc.1 n (by simp)
    unfold ackBlocksLoop GapRuns.encode
    rw [u64Sub_of_le (by omega) (by omega)]
    split
    . rw [u64_of_lt (by omega)]
      rw [ih _ hdesc.2]
      dsimp
      omega
    . rw [u64Sub_of_le (by omega) (by omega)]
      rw [ih _ hdesc.2]
      dsimp
      omega

theorem ackBlocksLoop_eq_cons (bias previous : Nat) (b : AckBlock) (numbers : List Nat)
    : ∃ block blocks, ackBlocksLoop bias previous b numbers = ⟨b.gap, block⟩ :: blocks := by
  induction numbers generalizing previous b with
  | nil => exact ⟨b.block, [], rfl⟩
  | cons n numbers ih =>
    unfold ackBlocksLoop
    split
    . apply ih
    . exact ⟨b.block, _, rfl⟩

theorem pairwise_gt_of_gap_lt {previous : Nat} (b : AckBlock) (numbers : List Nat)
    (hdesc : (previous :: numbers).Pairwise (· ≥ ·)) (hlt : previous < 2 ^ 62)
    (h : ∀ c ∈ ackBlocksLoop 2 previous b numbers, c.gap < 2 ^ 62)
    : (previous :: numbers).Pairwise (· > ·) := by
  induction numbers generalizing previous b with
  | nil => simp
  | cons n numbers ih =>
    rw [List.pairwise_cons] at hdesc
    have hn : previous ≥ n := hdesc.1 n (by simp)
    have hgt : previous > n ∧ (n :: numbers).Pairwise (· > ·) := by
      unfold ackBlocksLoop at h
      rw [u64Sub_of_le hn (by omega)] at h
      split at h
      . exact ⟨by omega, ih _ hdesc.2 (by omega) h⟩
      . rcases ackBlocksLoop_eq_cons 2 n ⟨u64Sub (previous - n) 2, 0⟩ numbers with
          ⟨block, blocks, hcons⟩
        have hgap : u64Sub (previous - n) 2 < 2 ^ 62 := by
          apply h ⟨u64Sub (previous - n) 2, block⟩
          rw [hcons]
          simp
        apply And.intro
        . unfold u64Sub u64 at hgap
          omega
        . apply ih ⟨u64Sub (previous - n) 2, 0⟩ hdesc.2 (by omega)
          intro c hc
          apply h
          apply List.mem_cons_of_mem _ hc
    rw [List.pairwise_cons]
    refine ⟨?_, hgt.2⟩
    intro m hm
    rw [List.mem_cons] at hm
    cases hm with
    | inl hm => omega
    | inr hm =>
      have := (List.pairwise_cons.mp hgt.2).1 m hm
      omega

structure AckFrame.Encodes (f : AckFrame) (numbers : List Nat) : Prop where
  ackBlockCount : f.ackBlocks.length = f.ackBlockCount + 1
  largestAcknowledged_lt : f.largestAcknowledged < 2 ^ 62
  ackDelay_lt : f.ackDelay < 2 ^ 62
  ackBlockCount_lt : f.ackBlockCount < 2 ^ 62
  ackBlocks_lt : ∀ b ∈ f.ackBlocks, b.gap < 2 ^ 62 ∧ b.block < 2 ^ 62
  acknowledges : ∀ n, f.Acknowledges n ↔ ∃ m ∈ numbers, n = (m : Int)

theorem encodes_of_pairwise_gt {largest : Nat} {numbers : List Nat}
    (hdesc : (largest :: numbers).Pairwise (· > ·)) (hlt : largest < 2 ^ 62)
    : AckFrame.Encodes
        ⟨largest, 0, (ackBlocksLoop 2 largest ⟨0, 0⟩ numbers).length - 1,
          ackBlocksLoop 2 largest ⟨0, 0⟩ numbers⟩
        (largest :: numbers) := by
  rcases ackBlocksLoop_eq_cons 2 largest ⟨0, 0⟩ numbers with ⟨block, blocks, hcons⟩
  have heq := ackBlocksLoop_eq_encode (Nat.le_refl 2) ⟨0, 0⟩ numbers hdesc (by dsimp; omega)
  have hlen := GapRuns.length_encode_le 2 largest ⟨0, 0⟩ numbers hdesc
  rw [← heq] at hlen
  refine ⟨?_, hlt, by simp, ?_, ?_, ?_⟩
  . dsimp
    rw [hcons]
    simp
  . dsimp
    omega
  . intro b hb
    dsimp at hb
    rw [heq] at hb
    have := GapRuns.encode_bound 2 largest ⟨0, 0⟩ numbers hdesc hb
    dsimp at this
    omega
  . intro n
    rw [AckFrame.acknowledges_iff_reads hcons]
    dsimp
    rw [heq]
    rw [GapRuns.reads_encode (Nat.le_refl 2) (Nat.le_refl 2) largest 0 ⟨0, 0⟩ _ numbers hdesc
      (by dsimp; omega)]
    rw [Nat.sub_self]
    rw [GapRuns.mem_shifted_zero]
    have hfirst : ((largest : Int) - (0 : Nat) ≤ n ∧ n ≤ largest + (0 : Nat) - (0 : Nat)) ↔
        n = largest := by
      omega
    rw [hfirst]
    simp

theorem AckFrame.Encodes.of_perm {f : AckFrame} {numbers numbers' : List Nat}
    (h : f.Encodes numbers) (hperm : numbers.Perm numbers')
    : f.Encodes numbers' := by
  refine ⟨h.ackBlockCount, h.largestAcknowledged_lt, h.ackDelay_lt, h.ackBlockCount_lt,
    h.ackBlocks_lt, ?_⟩
  intro n
  rw [h.acknowledges]
  simp only [hperm.mem_iff]

namespace Connection

theorem sortPacketNumberQueue_perm (queue : List Nat)
    : (sortPacketNumberQueue queue).Perm queue := by
  apply List.perm_insertionSort

theorem sortPacketNumberQueue_pairwise {queue : List Nat} (hnodup : queue.Nodup)
    : (sortPacketNumberQueue queue).Pairwise (· > ·) := by
  have hdesc : (sortPacketNumberQueue queue).Pairwise (· ≥ ·) := by
    apply List.pairwise_insertionSort
  apply hdesc.imp₂ _ ((sortPacketNumberQueue_perm queue).nodup_iff.mpr hnodup)
  intro a b hge hne
  omega

theorem getAckFrame_ackQueue_perm (conn : Connection) (space space' : PNSpace)
    : ((conn.getAckFrame space).2.ackQueue space').Perm (conn.ackQueue space') := by
  have hqueue : (conn.getAckFrame space).2.ackQueue
      = Function.update conn.ackQueue space (sortPacketNumberQueue (conn.ackQueue space)) := by
    unfold getAckFrame
    dsimp
    split
    . rfl
    . rfl
  rw [hqueue]
  cases decEq space' space with
  | isTrue heq =>
    rw [heq]
    rw [Function.update_self]
    apply sortPacketNumberQueue_perm
  | isFalse hne => rw [Function.update_of_ne hne]

theorem getAckFrame_encodes_iff (conn : Connection) (space : PNSpace)
    (hne : conn.ackQueue space ≠ []) (hlt : ∀ n ∈ conn.ackQueue space, n < 2 ^ 62)
    : ∃ f, (conn.getAckFrame space).1 = some f ∧
        (f.Encodes (conn.ackQueue space) ↔ (conn.ackQueue space).Nodup) := by
  have hperm := sortPacketNumberQueue_perm (conn.ackQueue space)
  have hsorted : (sortPacketNumberQueue (conn.ackQueue space)).Pairwise (· ≥ ·) := by
    apply List.pairwise_insertionSort
  have hstrict := @sortPacketNumberQueue_pairwise (conn.ackQueue space)
  unfold getAckFrame
  dsimp
  generalize sortPacketNumberQueue (conn.ackQueue space) = sorted at hperm hsorted hstrict ⊢
  cases sorted with
  | nil => exact absurd hperm.symm.eq_nil hne
  | cons largest numbers =>
    have hlargest : largest < 2 ^ 62 := by
      apply hlt
      apply hperm.subset
      simp
    refine ⟨_, rfl, ?_⟩
    apply Iff.intro
    . intro henc
      have hgt := pairwise_gt_of_gap_lt ⟨0, 0⟩ numbers hsorted hlargest
        (fun c hc => (henc.ackBlocks_lt c hc).1)
      rw [← hperm.nodup_iff]
      exact hgt.imp (fun h => Nat.ne_of_gt h)
    . intro hnodup
      exact (encodes_of_pairwise_gt (hstrict hnodup) hlargest).of_perm hperm

def Consecutive (queue : List Nat) : Prop :=
  ∀ a ∈ queue, ∀ b ∈ queue, ∀ n, a ≤ n → n ≤ b → n ∈ queue

def Downwards (numbers : List Nat) : Prop := numbers.IsChain (fun a b => b + 1 = a)

theorem Downwards.mem_iff {largest : Nat} {numbers : List Nat} (h : Downwards (largest :: numbers)) (n : Nat)
    : n ∈ largest :: numbers ↔ largest ≤ n + numbers.length ∧ n ≤ largest := by
  induction numbers generalizing largest with
  | nil =>
    simp only [List.mem_singleton, List.length_nil]
    omega
  | cons m numbers ih =>
    have hchain := List.isChain_cons_cons.mp h
    have hrest := ih hchain.2
    have hm := hchain.1
    rw [List.mem_cons, hrest, List.length_cons]
    omega

theorem Downwards.consecutive {numbers : List Nat} (h : Downwards numbers) : Consecutive numbers := by
  cases numbers with
  | nil => simp [Consecutive]
  | cons largest numbers =>
    intro a ha b hb n hlo hhi
    rw [h.mem_iff] at ha hb ⊢
    omega

theorem Consecutive.downwards {numbers : List Nat} (h : Consecutive numbers)
    (hdesc : numbers.Pairwise (· > ·))
    : Downwards numbers := by
  induction numbers with
  | nil => exact List.IsChain.nil
  | cons x numbers ih =>
    rw [List.pairwise_cons] at hdesc
    have hrest : Consecutive numbers := by
      intro a ha b hb n hlo hhi
      have hmem := h a (List.mem_cons_of_mem x ha) b (List.mem_cons_of_mem x hb) n hlo hhi
      have hlt := hdesc.1 b hb
      cases List.mem_cons.mp hmem with
      | inl heq => omega
      | inr hin => exact hin
    have htail := ih hrest hdesc.2
    cases numbers with
    | nil => exact List.IsChain.singleton x
    | cons m numbers =>
      refine List.isChain_cons_cons.mpr ⟨?_, htail⟩
      have hlt := hdesc.1 m List.mem_cons_self
      by_contra hne
      -- The number above the second one would be between the first two.
      have hmem := h m (by simp) x List.mem_cons_self (m + 1) (by omega) (by omega)
      rw [List.mem_cons, List.mem_cons] at hmem
      rcases hmem with heq | heq | hin
      . omega
      . omega
      . have hgt := (List.pairwise_cons.mp hdesc.2).1 (m + 1) hin
        omega

theorem ackBlocksLoop_of_downwards {bias previous : Nat} (b : AckBlock) (numbers : List Nat)
    (h : Downwards (previous :: numbers)) (hlt : previous + b.block < 2 ^ 64)
    : ackBlocksLoop bias previous b numbers = [⟨b.gap, b.block + numbers.length⟩] := by
  induction numbers generalizing previous b with
  | nil => rfl
  | cons n numbers ih =>
    have hchain := List.isChain_cons_cons.mp h
    have hn := hchain.1
    have hone : u64Sub previous n = 1 := by
      rw [u64Sub_of_le (by omega) (by omega)]
      omega
    unfold ackBlocksLoop
    rw [if_pos hone]
    rw [ih _ hchain.2]
    . simp only [u64_of_lt (show b.block + 1 < 2 ^ 64 by omega), List.length_cons]
      congr 2
      omega
    . dsimp
      rw [u64_of_lt (by omega)]
      omega

theorem walk_downwards {largest : Nat} (packets numbers : List Nat)
    (h : Downwards (largest :: numbers)) (hlt : largest < 2 ^ 64)
    : (AckWalk.next^[numbers.length] ⟨largest, packets⟩).packets = packets ++ numbers := by
  induction numbers generalizing largest packets with
  | nil => simp
  | cons n numbers ih =>
    have hchain := List.isChain_cons_cons.mp h
    have hn := hchain.1
    have hnext : AckWalk.next ⟨largest, packets⟩ = ⟨n, packets ++ [n]⟩ := by
      unfold AckWalk.next
      dsimp only
      rw [u64Sub_of_le (by omega) hlt]
      rw [← hn, Nat.add_sub_cancel]
    rw [List.length_cons]
    rw [Function.iterate_succ_apply]
    rw [hnext]
    rw [ih _ hchain.2 (by omega)]
    simp

def Walked (w : AckWalk) : Prop :=
  w.packets.IsChain (fun a b => b = u64Sub a 1) ∧ w.packets.getLast? = some w.currentPacketNumber

theorem Walked.next {w : AckWalk} (h : Walked w) : Walked w.next := by
  refine ⟨?_, List.getLast?_concat⟩
  refine List.isChain_append.mpr ⟨h.1, List.IsChain.singleton _, ?_⟩
  rw [h.2]
  intro a ha b hb
  rw [← Option.mem_some_iff.mp ha]
  exact (Option.mem_some_iff.mp hb).symm

theorem Walked.iterate {w : AckWalk} (h : Walked w) (k : Nat) : Walked (AckWalk.next^[k] w) := by
  induction k generalizing w with
  | zero => exact h
  | succ k ih =>
    rw [Function.iterate_succ_apply]
    exact ih h.next

theorem Walked.blocks {w : AckWalk} (h : Walked w) (blocks : List AckBlock)
    : Walked (blocks.foldl AckWalk.block w) := by
  induction blocks generalizing w with
  | nil => exact h
  | cons b blocks ih =>
    rw [List.foldl_cons]
    apply ih
    exact (h.iterate (b.gap + 1)).iterate b.block

theorem downwards_of_getAckedPackets {f : AckFrame} {packets : List Nat}
    (h : f.getAckedPackets = some packets) (hdesc : packets.Pairwise (· > ·))
    (hlt : ∀ n ∈ packets, n < 2 ^ 64)
    : Downwards packets := by
  have hchain : packets.IsChain (fun a b => b = u64Sub a 1) := by
    unfold AckFrame.getAckedPackets at h
    split at h
    . contradiction
    . injection h with h
      rw [← h]
      have hstart : Walked ⟨f.largestAcknowledged, [f.largestAcknowledged]⟩ :=
        ⟨List.IsChain.singleton _, rfl⟩
      exact ((hstart.iterate _).blocks _).1
  rw [Downwards, List.isChain_iff_getElem]
  intro i hi
  have hnext := List.isChain_iff_getElem.mp hchain i hi
  have hgt := List.isChain_iff_getElem.mp hdesc.isChain i hi
  have hi64 := hlt packets[i] (List.getElem_mem _)
  -- A number that wraps around is not below the one before it.
  unfold u64Sub u64 at hnext
  omega

theorem getAckedPackets_of_downwards {largest : Nat} {numbers : List Nat} (count : Nat)
    (h : Downwards (largest :: numbers)) (hlt : largest < 2 ^ 64)
    : AckFrame.getAckedPackets ⟨largest, 0, count, ackBlocksLoop 2 largest ⟨0, 0⟩ numbers⟩
        = some (largest :: numbers) := by
  rw [ackBlocksLoop_of_downwards ⟨0, 0⟩ numbers h hlt]
  unfold AckFrame.getAckedPackets
  dsimp only [List.foldl_nil]
  rw [Nat.zero_add]
  rw [walk_downwards _ _ h hlt]
  rfl

/-- The numbers of the queue, none missing and no other, from the largest on. -/
def Lists (packets queue : List Nat) : Prop :=
  packets.Pairwise (· > ·) ∧ ∀ n, n ∈ packets ↔ n ∈ queue

theorem getAckedPackets_lists_iff (conn : Connection) (space : PNSpace)
    (hne : conn.ackQueue space ≠ []) (hnodup : (conn.ackQueue space).Nodup)
    (hlt : ∀ n ∈ conn.ackQueue space, n < 2 ^ 64)
    : ∃ f packets, (conn.getAckFrame space).1 = some f ∧ f.getAckedPackets = some packets
        ∧ (Lists packets (conn.ackQueue space) ↔ Consecutive (conn.ackQueue space)) := by
  have hperm := sortPacketNumberQueue_perm (conn.ackQueue space)
  have hdesc := sortPacketNumberQueue_pairwise hnodup
  cases hsorted : sortPacketNumberQueue (conn.ackQueue space) with
  | nil =>
    rw [hsorted] at hperm
    exact absurd hperm.nil_eq.symm hne
  | cons largest numbers =>
    rw [hsorted] at hperm hdesc
    have hlargest : largest < 2 ^ 64 := hlt _ (hperm.subset List.mem_cons_self)
    rcases ackBlocksLoop_eq_cons 2 largest ⟨0, 0⟩ numbers with ⟨block, blocks, hblocks⟩
    have hframe : (conn.getAckFrame space).1 = some ⟨largest, 0, blocks.length, ⟨0, block⟩ :: blocks⟩ := by
      unfold getAckFrame
      dsimp only
      rw [hsorted]
      dsimp only
      rw [hblocks]
      rfl
    refine ⟨_, _, hframe, rfl, ?_⟩
    apply Iff.intro
    . intro hlists
      have hdown := downwards_of_getAckedPackets
        (f := ⟨largest, 0, blocks.length, ⟨0, block⟩ :: blocks⟩) rfl hlists.1
        (fun n hn => hlt n ((hlists.2 n).mp hn))
      intro a ha b hb n hlo hhi
      rw [← hlists.2] at ha hb ⊢
      exact hdown.consecutive a ha b hb n hlo hhi
    . intro hconsecutive
      have hdown : Downwards (largest :: numbers) := by
        refine Consecutive.downwards ?_ hdesc
        intro a ha b hb n hlo hhi
        rw [hperm.mem_iff] at ha hb ⊢
        exact hconsecutive a ha b hb n hlo hhi
      have hpackets := getAckedPackets_of_downwards blocks.length hdown hlargest
      rw [hblocks] at hpackets
      injection hpackets with hpackets
      rw [hpackets]
      exact ⟨hdesc, fun n => hperm.mem_iff⟩

theorem getAckedPackets_lists_iff_three
    : ∃ f packets, (getAckFrame { ackQueue := fun _ => [5, 3, 4] } .appData).1 = some f
        ∧ f.getAckedPackets = some packets ∧ Lists packets [5, 3, 4] := by
  rcases getAckedPackets_lists_iff { ackQueue := fun _ => [5, 3, 4] } .appData
    (by decide) (by decide) (by decide) with ⟨f, packets, hframe, hpackets, hiff⟩
  refine ⟨f, packets, hframe, hpackets, hiff.mpr ?_⟩
  intro a ha b hb n hlo hhi
  dsimp only at ha hb ⊢
  simp only [List.mem_cons, List.not_mem_nil, or_false] at ha hb ⊢
  omega

/-- The number in the gap is listed in place of the one below it. -/
theorem getAckedPackets_gap
    : (getAckFrame { ackQueue := fun _ => [5, 3] } .appData).1 = some ⟨5, 0, 1, [⟨0, 0⟩, ⟨0, 0⟩]⟩
        ∧ AckFrame.getAckedPackets ⟨5, 0, 1, [⟨0, 0⟩, ⟨0, 0⟩]⟩ = some [5, 4]
        ∧ ¬ Lists [5, 4] [5, 3] := by
  refine ⟨by decide, by decide, ?_⟩
  intro h
  exact absurd ((h.2 4).mp (by decide)) (by decide)

end Connection

namespace AckAgent

def received (space : PNSpace) (ps : List FramePacket) : List Nat :=
  (ps.filter (fun p => p.pnSpace = space)).map (fun p => p.header.packetNumber)

theorem receive_ackQueue_perm (agent : AckAgent) (conn : Connection) (p : FramePacket)
    {space : PNSpace} (hspace : space ≠ .noSpace)
    : ((agent.receive conn p).1.ackQueue space).Perm (conn.ackQueue space ++ received space [p]) := by
  have happend : ∀ queue : PNSpace → List Nat,
      Function.update queue p.pnSpace (queue p.pnSpace ++ [p.header.packetNumber]) space
        = queue space ++ received space [p] := by
    intro queue
    cases decEq p.pnSpace space with
    | isTrue heq => simp [received, heq]
    | isFalse hne => simp [received, hne, Function.update_of_ne (Ne.symm hne)]
  unfold receive
  split
  . split
    . rw [← happend]
      apply Connection.getAckFrame_ackQueue_perm
    . rw [← happend]
  . next heq =>
    rw [not_not] at heq
    simp [received, heq, Ne.symm hspace]

theorem receiveAll_ackQueue_perm (agent : AckAgent) (conn : Connection) (ps : List FramePacket)
    {space : PNSpace} (hspace : space ≠ .noSpace)
    : ((agent.receiveAll conn ps).ackQueue space).Perm (conn.ackQueue space ++ received space ps) := by
  unfold receiveAll
  induction ps generalizing conn with
  | nil => simp [received]
  | cons p ps ih =>
    have hsplit : received space (p :: ps) = received space [p] ++ received space ps := by
      unfold received
      rw [← List.map_append]
      rw [← List.filter_append]
      rfl
    rw [List.foldl_cons]
    apply (ih _).trans
    rw [hsplit]
    rw [← List.append_assoc]
    apply List.Perm.append_right
    apply receive_ackQueue_perm agent conn p hspace

theorem getAckFrame_encodes_iff_nodup (agent : AckAgent) (conn : Connection) (space : PNSpace)
    (hspace : space ≠ .noSpace) (hempty : conn.ackQueue space = []) (ps : List FramePacket)
    (hne : received space ps ≠ []) (hlt : ∀ n ∈ received space ps, n < 2 ^ 62)
    : ∃ f, ((agent.receiveAll conn ps).getAckFrame space).1 = some f ∧
        (f.Encodes (received space ps) ↔ (received space ps).Nodup) := by
  have hperm := receiveAll_ackQueue_perm agent conn ps hspace
  rw [hempty] at hperm
  rw [List.nil_append] at hperm
  rcases Connection.getAckFrame_encodes_iff (agent.receiveAll conn ps) space
    (fun hnil => hne (by rw [hnil] at hperm; exact hperm.symm.eq_nil))
    (fun n hn => hlt n (hperm.subset hn)) with ⟨f, hf, hiff⟩
  refine ⟨f, hf, ?_⟩
  rw [← hperm.nodup_iff]
  rw [← hiff]
  apply Iff.intro
  . intro h
    exact h.of_perm hperm.symm
  . intro h
    exact h.of_perm hperm

theorem getAckFrame_encodes_iff_nodup_three
    : ∃ f, ((receiveAll ⟨fun _ => false, false⟩ {} ([5, 3, 4].map fun n =>
          ⟨.short ⟨false, [], ⟨n, 1⟩, n⟩, .appData, .oneRTT, [.ping]⟩)).getAckFrame .appData).1 = some f ∧
        f.Encodes [5, 3, 4] := by
  rcases getAckFrame_encodes_iff_nodup ⟨fun _ => false, false⟩ {} .appData (by decide) rfl
    ([5, 3, 4].map fun n => ⟨.short ⟨false, [], ⟨n, 1⟩, n⟩, .appData, .oneRTT, [.ping]⟩)
    (by decide) (by decide) with ⟨f, hf, hiff⟩
  refine ⟨f, hf, hiff.mpr ?_⟩
  decide

theorem getAckFrame_duplicate
    : ∃ f, ((receiveAll ⟨fun _ => false, false⟩ {} ([7, 7].map fun n =>
          ⟨.short ⟨false, [], ⟨n, 1⟩, n⟩, .appData, .oneRTT, [.ping]⟩)).getAckFrame .appData).1 = some f ∧
        f.ackBlocks = [⟨0, 0⟩, ⟨2 ^ 64 - 2, 0⟩] ∧ ¬ f.Encodes [7, 7] := by
  refine ⟨⟨7, 0, 1, [⟨0, 0⟩, ⟨2 ^ 64 - 2, 0⟩]⟩, by decide, rfl, ?_⟩
  intro h
  have hlt := (h.ackBlocks_lt ⟨2 ^ 64 - 2, 0⟩ (by simp)).1
  simp at hlt

end AckAgent

end QuicTracker
