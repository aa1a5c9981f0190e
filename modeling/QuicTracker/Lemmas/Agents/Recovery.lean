import QuicTracker.Impl.Agents.Recovery
import QuicTracker.Lemmas.Ack

/-!
This module contains what an acknowledgement removes from a retransmission buffer.
-/

namespace QuicTracker

namespace RecoveryAgent

/-- Every number from the largest one down to the current one is deleted and nothing is retransmitted. -/
structure Swept (largest : Nat) (buffer : RetransmissionBuffer) (s : Sweep) : Prop where
  le : s.currentPacketNumber ≤ largest
  buffer_eq : ∀ n, s.buffer n
    = if s.currentPacketNumber ≤ n ∧ n ≤ largest then none else buffer n
  frames : s.frames = []

def distance (blocks : List AckBlock) : Nat :=
  (blocks.map fun b => min (b.gap + 1) threshold + min b.block threshold).sum

variable {largest : Nat} {buffer : RetransmissionBuffer} {s : Sweep}

theorem Swept.acknowledge (hs : Swept largest buffer s) (hlt : largest < 2 ^ 64)
    (hpos : 0 < s.currentPacketNumber)
    : Swept largest buffer s.acknowledge ∧
        s.acknowledge.currentPacketNumber + 1 = s.currentPacketNumber := by
  have hle := hs.le
  have hcur : u64Sub s.currentPacketNumber 1 = s.currentPacketNumber - 1 := by
    apply u64Sub_of_le hpos
    omega
  unfold Sweep.acknowledge
  rw [hcur]
  refine ⟨⟨by dsimp; omega, ?_, hs.frames⟩, by dsimp; omega⟩
  intro n
  dsimp [RetransmissionBuffer.delete]
  rw [Function.update_apply]
  rw [hs.buffer_eq]
  split
  . rw [if_pos]
    omega
  . apply if_congr
    . omega
    . rfl
    . rfl

/-- The number that is looked up is the one that was deleted last. -/
theorem Swept.skip_eq (hs : Swept largest buffer s) : s.skip = s.acknowledge := by
  have hnone : s.buffer s.currentPacketNumber = none := by
    rw [hs.buffer_eq]
    rw [if_pos ⟨Nat.le_refl _, hs.le⟩]
  unfold Sweep.skip Sweep.acknowledge
  rw [hnone]

theorem Swept.iterate {step : Sweep → Sweep}
    (hstep : ∀ s, Swept largest buffer s → 0 < s.currentPacketNumber →
      Swept largest buffer (step s) ∧ (step s).currentPacketNumber + 1 = s.currentPacketNumber)
    (hs : Swept largest buffer s) (k : Nat) (hk : k ≤ s.currentPacketNumber)
    : Swept largest buffer (step^[k] s) ∧
        (step^[k] s).currentPacketNumber + k = s.currentPacketNumber := by
  induction k generalizing s with
  | zero => exact ⟨hs, rfl⟩
  | succ k ih =>
    rcases hstep s hs (by omega) with ⟨hs1, hcur1⟩
    rcases ih hs1 (by omega) with ⟨hs2, hcur2⟩
    rw [Function.iterate_succ_apply]
    exact ⟨hs2, by omega⟩

theorem Swept.block (hs : Swept largest buffer s) (hlt : largest < 2 ^ 64) (b : AckBlock)
    (hle : min (b.gap + 1) threshold + min b.block threshold ≤ s.currentPacketNumber)
    : Swept largest buffer (s.block b) ∧
        (s.block b).currentPacketNumber + (min (b.gap + 1) threshold + min b.block threshold)
          = s.currentPacketNumber := by
  have hack : ∀ s, Swept largest buffer s → 0 < s.currentPacketNumber →
      Swept largest buffer s.acknowledge ∧
        s.acknowledge.currentPacketNumber + 1 = s.currentPacketNumber :=
    fun s hs hpos => hs.acknowledge hlt hpos
  have hskip : ∀ s, Swept largest buffer s → 0 < s.currentPacketNumber →
      Swept largest buffer s.skip ∧ s.skip.currentPacketNumber + 1 = s.currentPacketNumber := by
    intro s hs hpos
    rw [hs.skip_eq]
    exact hack s hs hpos
  rcases Swept.iterate hskip hs (min (b.gap + 1) threshold) (by omega) with ⟨hs1, hcur1⟩
  rcases Swept.iterate hack hs1 (min b.block threshold) (by omega) with ⟨hs2, hcur2⟩
  refine ⟨hs2, ?_⟩
  unfold Sweep.block
  dsimp only
  omega

theorem Swept.blocks (hs : Swept largest buffer s) (hlt : largest < 2 ^ 64)
    (blocks : List AckBlock) (hle : distance blocks ≤ s.currentPacketNumber)
    : Swept largest buffer (blocks.foldl Sweep.block s) ∧
        (blocks.foldl Sweep.block s).currentPacketNumber + distance blocks
          = s.currentPacketNumber := by
  induction blocks generalizing s with
  | nil => exact ⟨hs, rfl⟩
  | cons b blocks ih =>
    have hcons : distance (b :: blocks)
        = min (b.gap + 1) threshold + min b.block threshold + distance blocks := by
      unfold distance
      rw [List.map_cons]
      rw [List.sum_cons]
    rw [hcons] at hle ⊢
    rcases hs.block hlt b (by omega) with ⟨hs1, hcur1⟩
    rcases ih hs1 (by omega) with ⟨hs2, hcur2⟩
    rw [List.foldl_cons]
    exact ⟨hs2, by omega⟩

theorem distance_le_span (blocks : List AckBlock) : distance blocks ≤ GapRuns.span 2 blocks := by
  unfold distance GapRuns.span
  apply List.sum_le_sum
  intro b _
  omega

def sweepLength (ack : AckFrame) : Nat :=
  match ack.ackBlocks with
  | [] => 0
  | first :: blocks => min first.block threshold + distance blocks

theorem processAck_eq (agent : RecoveryAgent) {ack : AckFrame} (h : ack.RangesWellFormed)
    (space : PNSpace)
    : ∃ agent', agent.processAck ack space = some ([], agent') ∧
        ∀ n, agent'.retransmissionBuffer space n
          = if ack.largestAcknowledged ≤ n + sweepLength ack ∧ n ≤ ack.largestAcknowledged then none
            else agent.retransmissionBuffer space n := by
  rcases h.exists_cons with ⟨first, blocks, hblocks, hspan⟩
  have hlt := h.largestAcknowledged_lt
  have hdistance := distance_le_span blocks
  have hstart : Swept ack.largestAcknowledged (agent.retransmissionBuffer space)
      ⟨ack.largestAcknowledged,
        (agent.retransmissionBuffer space).delete ack.largestAcknowledged, []⟩ := by
    refine ⟨Nat.le_refl _, ?_, rfl⟩
    intro n
    dsimp [RetransmissionBuffer.delete]
    rw [Function.update_apply]
    apply if_congr
    . omega
    . rfl
    . rfl
  rcases Swept.iterate (fun s hs hpos => hs.acknowledge hlt hpos) hstart (min first.block threshold)
    (by dsimp; omega) with ⟨hs1, hcur1⟩
  dsimp only at hcur1
  rcases hs1.blocks hlt blocks (by omega) with ⟨hs2, hcur2⟩
  unfold processAck sweepLength
  rw [hblocks]
  dsimp only
  rw [hs2.frames]
  refine ⟨_, rfl, ?_⟩
  intro n
  dsimp only
  rw [Function.update_self]
  rw [hs2.buffer_eq]
  apply if_congr
  . omega
  . rfl
  . rfl

def Keeps (agent : RecoveryAgent) (ack : AckFrame) (space : PNSpace) (batch : RetransmitBatch)
    (agent' : RecoveryAgent) : Prop :=
  ∀ n entry, agent.retransmissionBuffer space n = some entry →
    ack.Acknowledges n ∨ agent'.retransmissionBuffer space n = some entry ∨ entry ∈ batch

theorem processAck_keeps_iff (agent : RecoveryAgent) (ack : AckFrame) (h : ack.RangesWellFormed)
    (space : PNSpace)
    : ∃ batch agent', agent.processAck ack space = some (batch, agent') ∧
        (Keeps agent ack space batch agent' ↔
          ∀ n, agent.retransmissionBuffer space n ≠ none →
            ack.largestAcknowledged ≤ n + sweepLength ack → n ≤ ack.largestAcknowledged →
            ack.Acknowledges n) := by
  rcases processAck_eq agent h space with ⟨agent', hprocess, hbuffer⟩
  refine ⟨[], agent', hprocess, ?_⟩
  apply Iff.intro
  . intro hkeep n hne hlow hhigh
    rcases Option.ne_none_iff_exists'.mp hne with ⟨entry, hentry⟩
    have hgone := hbuffer n
    rw [if_pos ⟨hlow, hhigh⟩] at hgone
    simpa [hgone] using hkeep n entry hentry
  . intro hall n entry hentry
    by_cases hin : ack.largestAcknowledged ≤ n + sweepLength ack ∧ n ≤ ack.largestAcknowledged
    . exact Or.inl (hall n (by simp [hentry]) hin.1 hin.2)
    . have hkept := hbuffer n
      rw [if_neg hin] at hkept
      rw [hentry] at hkept
      exact Or.inr (Or.inl hkept)

/-- A buffer with packets of one PING frame each. -/
def buffering (numbers : List Nat) : RecoveryAgent :=
  ⟨fun space n => if space = .appData ∧ n ∈ numbers then some ⟨[.ping], 0, .oneRTT⟩ else none⟩

theorem mem_of_buffering {numbers : List Nat} {space : PNSpace} {n : Nat}
    (h : (buffering numbers).retransmissionBuffer space n ≠ none)
    : n ∈ numbers := by
  unfold buffering at h
  dsimp only at h
  split at h
  . next hn => exact hn.2
  . contradiction

/-- It acknowledges the packets 5 and 2. -/
def gapAck : AckFrame := ⟨5, 0, 1, [⟨0, 0⟩, ⟨1, 0⟩]⟩

theorem gapAck_rangesWellFormed : gapAck.RangesWellFormed := by
  refine ⟨rfl, by decide, ?_⟩
  intro n hn
  simp only [gapAck, AckFrame.Acknowledges, GapRuns.Reads, or_false] at hn
  omega

theorem processAck_keeps_iff_gap
    : ∃ batch agent', processAck (buffering [5, 1]) gapAck .appData = some (batch, agent') ∧
        Keeps (buffering [5, 1]) gapAck .appData batch agent' := by
  rcases processAck_keeps_iff (buffering [5, 1]) gapAck gapAck_rangesWellFormed .appData with
    ⟨batch, agent', hprocess, hiff⟩
  refine ⟨batch, agent', hprocess, hiff.mpr ?_⟩
  intro n hne hlow _
  have hn := mem_of_buffering hne
  simp only [gapAck, sweepLength, distance, threshold, List.mem_cons, List.not_mem_nil, or_false,
    List.map_cons, List.map_nil, List.sum_cons, List.sum_nil] at hn hlow
  have h5 : n = 5 := by omega
  rw [h5]
  decide

theorem processAck_drops
    : gapAck.RangesWellFormed ∧
      ∃ batch agent', processAck (buffering [4]) gapAck .appData = some (batch, agent') ∧
        ¬ Keeps (buffering [4]) gapAck .appData batch agent' := by
  refine ⟨gapAck_rangesWellFormed, _, _, rfl, ?_⟩
  intro hkeep
  have hlost := hkeep 4 ⟨[.ping], 0, .oneRTT⟩ rfl
  revert hlost
  decide

/-- What is acknowledged is neither kept nor sent again. -/
def Clears (agent : RecoveryAgent) (ack : AckFrame) (space : PNSpace) (batch : RetransmitBatch)
    (agent' : RecoveryAgent) : Prop :=
  ∀ n : Nat, ack.Acknowledges n → agent'.retransmissionBuffer space n = none ∧
    ∀ entry, agent.retransmissionBuffer space n = some entry → entry ∉ batch

theorem processAck_clears_iff (agent : RecoveryAgent) (ack : AckFrame) (h : ack.RangesWellFormed)
    (space : PNSpace)
    : ∃ batch agent', agent.processAck ack space = some (batch, agent') ∧
        (Clears agent ack space batch agent' ↔
          ∀ n : Nat, ack.Acknowledges n → n + sweepLength ack < ack.largestAcknowledged →
            agent.retransmissionBuffer space n = none) := by
  rcases processAck_eq agent h space with ⟨agent', hprocess, hbuffer⟩
  refine ⟨[], agent', hprocess, ?_⟩
  constructor
  . intro hclears n hack hlow
    have hgone := (hclears n hack).1
    rw [hbuffer n, if_neg (by omega)] at hgone
    exact hgone
  . intro hall n hack
    have hle := hack.le
    refine ⟨?_, by simp⟩
    rw [hbuffer n]
    split
    . rfl
    . exact hall n hack (by omega)

theorem processAck_clears_iff_single
    : ∃ batch agent', processAck (buffering [4, 3]) ⟨5, 0, 0, [⟨0, 2⟩]⟩ .appData = some (batch, agent') ∧
        Clears (buffering [4, 3]) ⟨5, 0, 0, [⟨0, 2⟩]⟩ .appData batch agent' := by
  have hacks : ∀ n, AckFrame.Acknowledges ⟨5, 0, 0, [⟨0, 2⟩]⟩ n → 3 ≤ n := by
    intro n hn
    simp only [AckFrame.Acknowledges, GapRuns.Reads, or_false] at hn
    omega
  have hwf : AckFrame.RangesWellFormed ⟨5, 0, 0, [⟨0, 2⟩]⟩ := by
    refine ⟨rfl, by decide, ?_⟩
    intro n hn
    have hle := hacks n hn
    omega
  rcases processAck_clears_iff (buffering [4, 3]) ⟨5, 0, 0, [⟨0, 2⟩]⟩ hwf .appData with
    ⟨batch, agent', hprocess, hiff⟩
  refine ⟨batch, agent', hprocess, hiff.mpr ?_⟩
  intro n hn hlow
  have hle := hacks n hn
  simp only [sweepLength, distance, threshold, List.map_nil, List.sum_nil] at hlow
  omega

/-- The packet 2 is acknowledged and stays in the buffer. -/
theorem not_processAck_clears
    : gapAck.RangesWellFormed ∧
      ∃ batch agent', processAck (buffering [2]) gapAck .appData = some (batch, agent') ∧
        ¬ Clears (buffering [2]) gapAck .appData batch agent' := by
  refine ⟨gapAck_rangesWellFormed, ?_⟩
  rcases processAck_eq (buffering [2]) gapAck_rangesWellFormed .appData with ⟨agent', hprocess, hbuffer⟩
  refine ⟨[], agent', hprocess, ?_⟩
  intro hclears
  have hgone := (hclears 2 (by decide)).1
  rw [hbuffer 2, if_neg (by decide)] at hgone
  contradiction

end RecoveryAgent

end QuicTracker
