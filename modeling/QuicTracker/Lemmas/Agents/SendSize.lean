import QuicTracker.Lemmas.Agents.SendRuns
import QuicTracker.Lemmas.Frames.Length

/-!
This module contains the size of the packets that the sending agent builds. They stay below the limit
as long as the frames that end up in one buffer really fit in one packet.
-/

namespace QuicTracker

namespace SendingAgent

def totalSize (frames : List Frame) : Nat := (frames.map Frame.size).sum

/-- The acknowledgements of a packet do not grow when they are merged. -/
def MergesWithin (buffer : List Frame) : Prop :=
  let acks := buffer.filterMap Frame.ack?
  1 < acks.length → ∀ ack, mergeAckFrames acks = some ack →
    ack.frameLength.isSome ∧ (Frame.ack ack).size ≤ totalSize (acks.map .ack)

instance (buffer : List Frame) : Decidable (MergesWithin buffer) :=
  inferInstanceAs (Decidable (_ → ∀ _, _ → _))

def FitsPacket (mtu : Nat) (frames : List Frame) : Prop :=
  frames.length ≤ 1 ∨ totalSize frames ≤ mtu

instance (mtu : Nat) (frames : List Frame) : Decidable (FitsPacket mtu frames) :=
  inferInstanceAs (Decidable (_ ∨ _))

def isBest (level : EncryptionLevel) : Prop := level = .best ∨ level = .bestAppData

instance (level : EncryptionLevel) : Decidable (isBest level) := inferInstanceAs (Decidable (_ ∨ _))

/--
The three places where the running length is not the size of the packet: a frame joins a buffer, the frames
of a best level join a buffer without a check, and the acknowledgements of a buffer are merged.
-/
def KeepsWithin (mtu : Nat) (s : State) (event : Event) : Prop :=
  match event with
  | .queue frame level =>
    (mtu < u16 (s.frameBufferLength level + frame.frameLength.getD 0) →
      MergesWithin (s.frameBuffer (retarget s level))) ∧
    (u16 (s.frameBufferLength level + frame.frameLength.getD 0) ≤ mtu → ¬ isBest level →
      FitsPacket mtu (s.frameBuffer level ++ [frame]))
  | .timer level =>
    (isBest level → FitsPacket mtu (s.frameBuffer (retarget s level) ++ s.frameBuffer level)) ∧
    (s.encryptionLevelsAvailable level → MergesWithin (s.frameBuffer level))
  | .announce _ _ => True

instance (mtu : Nat) (s : State) (event : Event) : Decidable (KeepsWithin mtu s event) :=
  match event with
  | .queue _ _ => inferInstanceAs (Decidable (_ ∧ _))
  | .timer _ => inferInstanceAs (Decidable (_ ∧ _))
  | .announce _ _ => isTrue trivial

def PacketWithin (mtu : Nat) (packet : FramePacket) : Prop :=
  packet.frames.length = 1 ∨
    ∃ bytes, encodePayload packet.frames = some bytes ∧ bytes.length ≤ mtu

instance (mtu : Nat) (packet : FramePacket) : Decidable (PacketWithin mtu packet) :=
  inferInstanceAs (Decidable (_ ∨ _))

structure Within (mtu : Nat) (s : State) : Prop where
  measured : Measured s
  waiting : ∀ level, Concrete level → FitsPacket mtu (s.frameBuffer level)
  held : ∀ level, ∀ packet ∈ s.packetBuffer level, PacketWithin mtu packet
  sent : ∀ packet level, (packet, level) ∈ s.sent → PacketWithin mtu packet

theorem totalSize_append (frames frames' : List Frame)
    : totalSize (frames ++ frames') = totalSize frames + totalSize frames' := by
  simp [totalSize]

theorem totalSize_split (buffer : List Frame)
    : totalSize (buffer.filter (fun f => f.ack?.isNone)) +
        totalSize ((buffer.filterMap Frame.ack?).map .ack) = totalSize buffer := by
  induction buffer with
  | nil => rfl
  | cons frame buffer ih =>
    cases hack : frame.ack? with
    | none =>
      simp only [totalSize, List.filter_cons, List.filterMap_cons, hack, Option.isNone_none, if_true,
        List.map_cons, List.sum_cons] at ih ⊢
      omega
    | some f =>
      have heq := eq_ack_of_ack? hack
      subst heq
      simp only [totalSize, List.filter_cons, List.filterMap_cons, hack, Option.isNone_some,
        List.map_cons, List.sum_cons] at ih ⊢
      simp only [Bool.false_eq_true, if_false]
      omega

theorem totalSize_packed_le {buffer : List Frame} (h : MergesWithin buffer)
    : totalSize (packed buffer) ≤ totalSize buffer := by
  unfold packed
  rw [totalSize_append]
  rw [← totalSize_split buffer]
  apply Nat.add_le_add_left
  unfold packedAcks
  dsimp only
  split
  . next hlen =>
    rcases exists_mergeAckFrames_of_length hlen with ⟨ack, hack⟩
    rw [hack]
    simpa [totalSize] using (h hlen ack hack).2
  . exact Nat.le_refl _

theorem length_packed_singleton (frame : Frame) : (packed [frame]).length = 1 := by
  unfold packed packedAcks
  cases hack : frame.ack? with
  | none => simp [hack]
  | some f => simp [hack]

theorem writes_packed {buffer : List Frame} (hmeasured : ∀ frame ∈ buffer, frame.frameLength.isSome)
    (h : MergesWithin buffer)
    : ∀ frame ∈ packed buffer, Writes frame.writeTo := by
  intro frame hframe
  apply Frame.writes
  cases List.mem_append.mp hframe with
  | inl hframe => exact hmeasured frame (List.mem_of_mem_filter hframe)
  | inr hframe =>
    unfold packedAcks at hframe
    dsimp only at hframe
    split at hframe
    . next hlen =>
      rcases List.mem_map.mp hframe with ⟨ack, hack, rfl⟩
      exact (h hlen ack (Option.mem_toList.mp hack)).1
    . rcases List.mem_map.mp hframe with ⟨f, hf, rfl⟩
      rcases List.mem_filterMap.mp hf with ⟨frame, hframe', hack⟩
      rw [← eq_ack_of_ack? hack]
      exact hmeasured frame hframe'

theorem packetWithin_packed {mtu : Nat} {packet : FramePacket} {buffer : List Frame}
    (hmeasured : ∀ frame ∈ buffer, frame.frameLength.isSome) (hne : buffer ≠ [])
    (hfits : FitsPacket mtu buffer) (h : MergesWithin buffer) (hframes : packet.frames = packed buffer)
    : PacketWithin mtu packet := by
  unfold PacketWithin
  rw [hframes]
  cases hfits with
  | inl hone =>
    have hpos := List.length_pos_iff.mpr hne
    rcases List.length_eq_one_iff.mp (by omega : buffer.length = 1) with ⟨frame, rfl⟩
    exact Or.inl (length_packed_singleton frame)
  | inr hsize =>
    rcases encodePayload_writes (writes_packed hmeasured h) with ⟨bytes, hbytes, hlength⟩
    refine Or.inr ⟨bytes, hbytes, ?_⟩
    have hle := totalSize_packed_le h
    unfold totalSize at hle hsize
    omega

theorem FitsPacket.waiting_append {mtu : Nat} {s : State} {level level' : EncryptionLevel}
    {frame : Frame} (h : FitsPacket mtu (s.frameBuffer level))
    (hnew : level = level' → FitsPacket mtu (s.frameBuffer level' ++ [frame]))
    : FitsPacket mtu ((s.append level' frame).frameBuffer level) := by
  unfold State.append
  dsimp only
  rw [Function.update_apply]
  split
  . next heq => exact hnew heq
  . exact h

theorem FitsPacket.waiting_clear {mtu : Nat} {s : State} {level level' : EncryptionLevel}
    (h : FitsPacket mtu (s.frameBuffer level))
    : FitsPacket mtu ((s.clear level').frameBuffer level) := by
  unfold State.clear
  dsimp only
  rw [Function.update_apply]
  split
  . exact Or.inl (Nat.zero_le 1)
  . exact h

theorem not_isBest_of_concrete {level : EncryptionLevel} (h : Concrete level) : ¬ isBest level := by
  rcases h with rfl | rfl | rfl | rfl <;> decide

theorem Move.fitsPacket {newHeader : EncryptionLevel → Nat → Header} {mtu : Nat} {s s' : State}
    {event : Event} (h : Move newHeader mtu s event s') (hkeeps : KeepsWithin mtu s event)
    (hs : ∀ level, Concrete level → FitsPacket mtu (s.frameBuffer level)) (level : EncryptionLevel)
    (hlevel : Concrete level)
    : FitsPacket mtu (s'.frameBuffer level) := by
  have hold := hs level hlevel
  cases h with
  | enqueue frame level' length hlength hfits =>
    unfold KeepsWithin at hkeeps
    simp only [hlength, Option.getD_some] at hkeeps
    rw [frameBuffer_addLength]
    apply hold.waiting_append
    intro heq
    rw [heq] at hlevel
    exact hkeeps.2 hfits (not_isBest_of_concrete hlevel)
  | alone frame level' length packet hlength hover hpacket hempty =>
    rw [frameBuffer_deliver]
    apply FitsPacket.waiting_clear
    rw [frameBuffer_create]
    exact hold
  | flush frame level' length packet hlength hover hpacket hne =>
    rw [frameBuffer_deliver]
    apply FitsPacket.waiting_append
    . apply FitsPacket.waiting_clear
      rw [frameBuffer_create]
      exact hold
    . intro _
      rw [frameBuffer_clear]
      exact Or.inl (Nat.le_refl 1)
  | idle level' => exact hold
  | fire level' packet hpacket hne havailable =>
    rw [frameBuffer_sendPacket]
    apply FitsPacket.waiting_clear
    rw [frameBuffer_create]
    exact hold
  | move source moved hsource hmoved =>
    apply FitsPacket.waiting_clear
    rw [(moveFrames_spec hmoved).1]
    rw [Function.update_apply]
    split
    . exact hkeeps.1 hsource
    . exact hold
  | readable level' => exact hold
  | writable level' => exact hold

theorem mergesWithin_of_packs {mtu : Nat} {s : State} {event : Event} {level : EncryptionLevel}
    (h : Packs mtu s event level) (hkeeps : KeepsWithin mtu s event)
    : MergesWithin (s.frameBuffer level) := by
  cases event with
  | queue frame level' =>
    rcases h with ⟨heq, length, hlength, hover⟩
    unfold KeepsWithin at hkeeps
    simp only [hlength, Option.getD_some] at hkeeps
    rw [heq]
    exact hkeeps.1 hover
  | timer level' =>
    rcases h with ⟨heq, havailable⟩
    subst heq
    exact hkeeps.2 havailable
  | announce level' read => contradiction

theorem Within.packetWithin_of_built {mtu : Nat} {s : State} (hs : Within mtu s) {event : Event}
    (hkeeps : KeepsWithin mtu s event) {packet : FramePacket} {level : EncryptionLevel}
    (h : Built mtu s event packet level)
    : PacketWithin mtu packet := by
  rcases h with ⟨_, hlevel, hframes⟩
  rcases hframes with ⟨frame, _, _, _, hframes⟩ | ⟨hpacks, hne, hframes⟩
  . apply Or.inl
    rw [hframes]
    rfl
  . have hmerges := mergesWithin_of_packs hpacks hkeeps
    exact packetWithin_packed (hs.measured level) hne (hs.waiting level hlevel) hmerges hframes

theorem Within.move {newHeader : EncryptionLevel → Nat → Header} {mtu : Nat} {s s' : State}
    {event : Event} (hs : Within mtu s) (h : Move newHeader mtu s event s')
    (hkeeps : KeepsWithin mtu s event)
    : Within mtu s' := by
  constructor
  . exact h.measured hs.measured
  . exact h.fitsPacket hkeeps hs.waiting
  . intro level packet hpacket
    rcases h.mem_packetBuffer hpacket with hold | hbuilt
    . exact hs.held level packet hold
    . exact hs.packetWithin_of_built hkeeps hbuilt
  . intro packet level hpacket
    rcases h.mem_sent hpacket with hold | ⟨_, hbuilt⟩ | ⟨_, hheld⟩
    . exact hs.sent packet level hold
    . exact hs.packetWithin_of_built hkeeps hbuilt
    . exact hs.held level packet hheld

theorem run_within_mtu (newHeader : EncryptionLevel → Nat → Header) (mtu : Nat)
    (events : List Event)
    (h : Run.Guarded (step newHeader mtu) (fun s event => event.Served ∧ KeepsWithin mtu s event)
      initial events) (n : Nat)
    : ∃ s, Run.run (step newHeader mtu) initial (events.take n) = some s ∧
        (∀ packet level, (packet, level) ∈ s.sent → PacketWithin mtu packet) ∧
        ∀ level, ∀ packet ∈ s.packetBuffer level, PacketWithin mtu packet := by
  have hinitial : Within mtu initial := by
    constructor
    . simp [initial, Measured]
    . intro level _
      exact Or.inl (Nat.zero_le 1)
    . simp [initial]
    . simp [initial]
  rcases guarded_run newHeader mtu (fun _ s => Within mtu s) hinitial
    (fun _ _ _ _ hs hmove hkeeps => hs.move hmove hkeeps) (events.take n) (h.take _ n) with
    ⟨s, hrun, hs⟩
  exact ⟨s, hrun, hs.sent, hs.held⟩

theorem run_within_mtu_two_levels
    : ∃ s, Run.run (step (fun _ _ => shortPacketHeader) 1200) initial
        ([.queue (cryptoFrame 0 700) .initial, .queue (cryptoFrame 700 700) .initial, .timer .initial,
          .queue (cryptoFrame 0 1300) .handshake, .queue (.ack ⟨5, 0, 0, [⟨0, 0⟩]⟩) .best,
          .queue (.ack ⟨3, 0, 0, [⟨0, 0⟩]⟩) .best, .timer .best, .timer .initial,
          .announce .handshake false].take 9) = some s ∧
        (∀ packet level, (packet, level) ∈ s.sent → PacketWithin 1200 packet) ∧
        ∀ level, ∀ packet ∈ s.packetBuffer level, PacketWithin 1200 packet := by
  apply run_within_mtu
  decide +kernel

/-- The second frame waits uncounted, so the third one joins it. -/
theorem exists_packet_over_mtu
    : ∃ s, Run.run (step (fun _ _ => shortPacketHeader) 1200) initial
        [.queue (cryptoFrame 0 700) .initial, .queue (cryptoFrame 700 700) .initial,
          .queue (cryptoFrame 1400 600) .initial, .timer .initial] = some s ∧
        ∃ p ∈ s.sent, ¬ PacketWithin 1200 p.1 := by
  decide +kernel

end SendingAgent

end QuicTracker
