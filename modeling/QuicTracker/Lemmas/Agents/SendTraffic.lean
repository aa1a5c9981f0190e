import QuicTracker.Lemmas.Agents.SendTimers

/-!
This module contains what one round of the sending agent does with packets: it builds at most one, which is
sent or kept, or it sends the ones that were kept for a level. A frame that waits is never dropped.
-/

namespace QuicTracker

namespace SendingAgent

/-- The levels whose packets are numbered in the space of the application data. -/
def AppData (level : EncryptionLevel) : Prop := level = .zeroRTT ∨ level = .oneRTT

instance (level : EncryptionLevel) : Decidable (AppData level) := inferInstanceAs (Decidable (_ ∨ _))

def ForAppData (level : EncryptionLevel) : Prop := AppData level ∨ level = .bestAppData

instance (level : EncryptionLevel) : Decidable (ForAppData level) :=
  inferInstanceAs (Decidable (_ ∨ _))

structure Numbered (newHeader : EncryptionLevel → Nat → Header) (n : Nat) (level : EncryptionLevel)
    (packet : FramePacket) : Prop where
  header : packet.header = newHeader level n
  encryptionLevel : packet.encryptionLevel = level
  pnSpace : packet.pnSpace = .appData ↔ AppData level
  space : packet.pnSpace ≠ .noSpace
  concrete : Concrete level

section

variable {newHeader : EncryptionLevel → Nat → Header} {mtu : Nat} {s s' : State}

theorem newPacket_numbered {level : EncryptionLevel} {n : Nat} {packet : FramePacket}
    (h : newPacket newHeader level n = some packet) (frames : List Frame)
    : Numbered newHeader n level { packet with frames := frames } := by
  unfold newPacket at h
  split at h
  all_goals first
    | contradiction
    | injection h with h
      rw [← h]
      exact ⟨rfl, rfl, by simp [AppData], by simp, by simp [Concrete]⟩

inductive Traffic (newHeader : EncryptionLevel → Nat → Header) (s s' : State) :
    List (FramePacket × EncryptionLevel) → Prop where
  | nothing (hbuffer : s'.packetBuffer = s.packetBuffer) (hcreated : s.packetsCreated ≤ s'.packetsCreated) :
      Traffic newHeader s s' []
  | sent (packet : FramePacket) (level : EncryptionLevel)
      (hpacket : Numbered newHeader s.packetsCreated level packet)
      (hbuffer : s'.packetBuffer = s.packetBuffer) (hcreated : s'.packetsCreated = s.packetsCreated + 1) :
      Traffic newHeader s s' [(packet, level)]
  | held (packet : FramePacket) (level : EncryptionLevel)
      (hpacket : Numbered newHeader s.packetsCreated level packet)
      (hbuffer : s'.packetBuffer =
        Function.update s.packetBuffer level (s.packetBuffer level ++ [packet]))
      (hcreated : s'.packetsCreated = s.packetsCreated + 1) :
      Traffic newHeader s s' []
  | released (level : EncryptionLevel)
      (hbuffer : s'.packetBuffer = Function.update s.packetBuffer level [])
      (hcreated : s'.packetsCreated = s.packetsCreated) :
      Traffic newHeader s s' ((s.packetBuffer level).map (fun packet => (packet, level)))

theorem packetsCreated_moveFrames {frames : List Frame} {level : EncryptionLevel} {s moved : State}
    (h : frames.foldlM (moveFrame level) s = some moved)
    : moved.packetsCreated = s.packetsCreated := by
  apply Run.invariant_of_run (moveFrame level) _ (fun _ _ => trivial) _ h
  . intro s₁ frame s₂ _ hs₁ hstep
    rcases Option.bind_eq_some_iff.mp hstep with ⟨length, _, hstep⟩
    injection hstep with hstep
    rw [← hstep]
    exact hs₁
  . rfl

theorem traffic_deliver {s s₁ : State} {packet : FramePacket} {level : EncryptionLevel}
    (hpacket : Numbered newHeader s.packetsCreated level packet) (hsent : s₁.sent = s.sent)
    (hbuffer : s₁.packetBuffer = s.packetBuffer) (hcreated : s₁.packetsCreated = s.packetsCreated + 1)
    : ∃ packets, (s₁.deliver packet level).sent = s.sent ++ packets ∧
        Traffic newHeader s (s₁.deliver packet level) packets ∧
        ((packet, level) ∈ packets ∨ packet ∈ (s₁.deliver packet level).packetBuffer level) := by
  unfold State.deliver
  split
  . refine ⟨[(packet, level)], ?_, .sent packet level hpacket hbuffer hcreated, ?_⟩
    . rw [← hsent]
      rfl
    . exact Or.inl (List.mem_singleton.mpr rfl)
  . have hheld : (s₁.holdPacket packet).packetBuffer =
        Function.update s.packetBuffer level (s.packetBuffer level ++ [packet]) := by
      unfold State.holdPacket
      dsimp only
      rw [hpacket.encryptionLevel, hbuffer]
    refine ⟨[], ?_, .held packet level hpacket hheld hcreated, ?_⟩
    . rw [List.append_nil]
      exact hsent
    . rw [hheld, Function.update_self]
      exact Or.inr (List.mem_append_right _ (List.mem_singleton.mpr rfl))

def Holds (s : State) (packets : List (FramePacket × EncryptionLevel)) (level : EncryptionLevel)
    (frame : Frame) : Prop :=
  frame ∈ s.frameBuffer level ∨ (∃ packet ∈ s.packetBuffer level, frame ∈ packet.frames) ∨
    ∃ packet, (packet, level) ∈ packets ∧ frame ∈ packet.frames

theorem holds_of_placed {packets : List (FramePacket × EncryptionLevel)} {level : EncryptionLevel}
    {packet : FramePacket} {frame : Frame}
    (hplaced : (packet, level) ∈ packets ∨ packet ∈ s.packetBuffer level) (hframe : frame ∈ packet.frames)
    : Holds s packets level frame := by
  cases hplaced with
  | inl hplaced => exact Or.inr (Or.inr ⟨packet, hplaced, hframe⟩)
  | inr hplaced => exact Or.inr (Or.inl ⟨packet, hplaced, hframe⟩)

theorem Traffic.holds_of_packet {packets : List (FramePacket × EncryptionLevel)}
    (h : Traffic newHeader s s' packets) {level : EncryptionLevel} {packet : FramePacket} {frame : Frame}
    (hpacket : packet ∈ s.packetBuffer level) (hframe : frame ∈ packet.frames)
    : Holds s' packets level frame := by
  cases h with
  | nothing hbuffer hcreated =>
    rw [← hbuffer] at hpacket
    exact Or.inr (Or.inl ⟨packet, hpacket, hframe⟩)
  | sent packet' level' hpacket' hbuffer hcreated =>
    rw [← hbuffer] at hpacket
    exact Or.inr (Or.inl ⟨packet, hpacket, hframe⟩)
  | held packet' level' hpacket' hbuffer hcreated =>
    refine Or.inr (Or.inl ⟨packet, ?_, hframe⟩)
    rw [hbuffer]
    by_cases heq : level = level'
    . subst heq
      rw [Function.update_self]
      exact List.mem_append_left _ hpacket
    . rw [Function.update_of_ne heq]
      exact hpacket
  | released level' hbuffer hcreated =>
    by_cases heq : level = level'
    . subst heq
      exact Or.inr (Or.inr ⟨packet, List.mem_map.mpr ⟨packet, hpacket, rfl⟩, hframe⟩)
    . refine Or.inr (Or.inl ⟨packet, ?_, hframe⟩)
      rw [hbuffer, Function.update_of_ne heq]
      exact hpacket

theorem retarget_forAppData (s : State) {level : EncryptionLevel} (h : ForAppData level)
    : ForAppData (retarget s level) := by
  unfold retarget
  split
  . next hbest =>
    have hrestrict : level = .bestAppData := by
      rcases h with (rfl | rfl) | rfl
      . simp at hbest
      . simp at hbest
      . rfl
    have hmem := chooseBest_mem s.encryptionLevelsAvailable (level = .bestAppData)
    rw [hrestrict] at hmem ⊢
    simp only [decide_true, if_true, elAppDataOrder, List.mem_cons, List.not_mem_nil, or_false] at hmem
    exact Or.inl hmem.symm
  . exact h

theorem Move.traffic {event : Event} (h : Move newHeader mtu s event s')
    : ∃ packets, s'.sent = s.sent ++ packets ∧ Traffic newHeader s s' packets ∧
        ∀ frame level, frame.ack? = none →
          frame ∈ s.frameBuffer level ∨ event = .queue frame level →
          Holds s' packets level frame ∨ Holds s' packets (retarget s level) frame := by
  cases h with
  | enqueue frame level length hlength hfits =>
    refine ⟨[], (List.append_nil _).symm, .nothing rfl (Nat.le_refl _), ?_⟩
    intro frame' level' _ hframe
    apply Or.inl
    apply Or.inl
    rw [frameBuffer_addLength]
    unfold State.append
    dsimp only
    rcases hframe with hframe | hframe
    . rw [Function.update_apply]
      split
      . next heq =>
        rw [heq] at hframe
        exact List.mem_append_left _ hframe
      . exact hframe
    . injection hframe with hframe hlevel
      rw [hframe, hlevel, Function.update_self]
      simp
  | alone frame level length packet hlength hover hpacket hempty =>
    have hnumbered := newPacket_numbered hpacket [frame]
    rcases @traffic_deliver newHeader s (s.create.clear (retarget s level)) _ _ hnumbered rfl rfl rfl with
      ⟨packets, hsent, htraffic, hplaced⟩
    refine ⟨packets, hsent, htraffic, ?_⟩
    intro frame' level' _ hframe
    rcases hframe with hframe | hframe
    . apply Or.inl
      apply Or.inl
      rw [frameBuffer_deliver]
      have hne : level' ≠ retarget s level := by
        rintro rfl
        rw [hempty] at hframe
        contradiction
      rw [frameBuffer_clear_of_ne _ hne]
      exact hframe
    . injection hframe with hframe hlevel
      subst hframe hlevel
      exact Or.inr (holds_of_placed hplaced (List.mem_singleton.mpr rfl))
  | flush frame level length packet hlength hover hpacket hne =>
    have hnumbered := newPacket_numbered hpacket (packed (s.frameBuffer (retarget s level)))
    rcases @traffic_deliver newHeader s ((s.create.clear (retarget s level)).append (retarget s level) frame)
      _ _ hnumbered rfl rfl rfl with ⟨packets, hsent, htraffic, hplaced⟩
    refine ⟨packets, hsent, htraffic, ?_⟩
    intro frame' level' hack hframe
    rcases hframe with hframe | hframe
    . apply Or.inl
      by_cases heq : level' = retarget s level
      . subst heq
        exact holds_of_placed hplaced (mem_packed_of_not_ack hframe hack)
      . apply Or.inl
        rw [frameBuffer_deliver, frameBuffer_append_of_ne _ _ heq, frameBuffer_clear_of_ne _ heq]
        exact hframe
    . injection hframe with hframe hlevel
      subst hframe hlevel
      apply Or.inr
      apply Or.inl
      rw [frameBuffer_deliver]
      unfold State.append
      dsimp only
      rw [Function.update_self]
      simp
  | idle level =>
    refine ⟨[], (List.append_nil _).symm, .nothing rfl (Nat.le_succ _), ?_⟩
    intro frame' level' _ hframe
    exact Or.inl (Or.inl (hframe.resolve_right (by simp)))
  | fire level packet hpacket hne havailable =>
    have hnumbered := newPacket_numbered hpacket (packed (s.frameBuffer level))
    refine ⟨_, rfl, .sent _ _ hnumbered rfl rfl, ?_⟩
    intro frame' level' hack hframe
    have hold := hframe.resolve_right (by simp)
    apply Or.inl
    by_cases heq : level' = level
    . subst heq
      exact Or.inr (Or.inr ⟨_, List.mem_singleton.mpr rfl, mem_packed_of_not_ack hold hack⟩)
    . apply Or.inl
      rw [frameBuffer_sendPacket, frameBuffer_clear_of_ne _ heq]
      exact hold
  | move source moved hsource hmoved =>
    rcases moveFrames_spec hmoved with ⟨hframes, hpackets, hsent, _⟩
    refine ⟨[], ?_, .nothing hpackets (Nat.le_of_eq (packetsCreated_moveFrames hmoved).symm), ?_⟩
    . rw [List.append_nil]
      exact hsent
    intro frame' level' _ hframe
    have hold := hframe.resolve_right (by simp)
    by_cases heq : level' = source
    . subst heq
      apply Or.inr
      apply Or.inl
      rw [frameBuffer_clear_of_ne _ (retarget_ne s hsource), hframes, Function.update_self]
      exact List.mem_append_right _ hold
    . apply Or.inl
      apply Or.inl
      rw [frameBuffer_clear_of_ne _ heq, hframes, Function.update_apply]
      split
      . next htarget =>
        rw [htarget] at hold
        exact List.mem_append_left _ hold
      . exact hold
  | readable level =>
    refine ⟨[], (List.append_nil _).symm, .nothing rfl (Nat.le_refl _), ?_⟩
    intro frame' level' _ hframe
    exact Or.inl (Or.inl (hframe.resolve_right (by simp)))
  | writable level =>
    refine ⟨_, rfl, .released level rfl rfl, ?_⟩
    intro frame' level' _ hframe
    exact Or.inl (Or.inl (hframe.resolve_right (by simp)))

end

end SendingAgent

end QuicTracker
