import QuicTracker.Lib.Run
import QuicTracker.Lemmas.Agents.Send

/-!
This module contains what one round of the sending agent's loop can do, and where the frames and the
packets that it leaves behind come from.
-/

namespace QuicTracker

namespace SendingAgent

theorem exists_mergeAckFrames {frames : List AckFrame} (h : frames ≠ [])
    : ∃ ack, mergeAckFrames frames = some ack := by
  unfold mergeAckFrames
  split
  . next hnil =>
    rcases List.exists_mem_of_ne_nil frames h with ⟨f, hf⟩
    have hmem : f.largestAcknowledged ∈ sortPacketNumberQueue (numbersAcknowledged frames) := by
      unfold sortPacketNumberQueue numbersAcknowledged
      rw [List.mem_insertionSort]
      rw [List.mem_dedup]
      rw [List.mem_flatMap]
      exact ⟨f, hf, List.mem_cons_self⟩
    rw [hnil] at hmem
    contradiction
  . exact ⟨_, rfl⟩

theorem exists_mergeAckFrames_of_length {acks : List AckFrame} (h : acks.length > 1)
    : ∃ ack, mergeAckFrames acks = some ack := by
  apply exists_mergeAckFrames
  intro hnil
  simp [hnil] at h

def packedAcks (buffer : List Frame) : List Frame :=
  let acks := buffer.filterMap Frame.ack?
  if acks.length > 1 then (mergeAckFrames acks).toList.map .ack else acks.map .ack

/-- The frames of a packet that takes over a whole buffer. -/
def packed (buffer : List Frame) : List Frame :=
  buffer.filter (fun f => f.ack?.isNone) ++ packedAcks buffer

theorem fillWithLevel_packed (packet : FramePacket) (buffer : List Frame)
    : fillWithLevel packet buffer = some { packet with frames := packet.frames ++ packed buffer } := by
  unfold fillWithLevel packed packedAcks
  dsimp only
  split
  . next hlen =>
    rcases exists_mergeAckFrames_of_length hlen with ⟨ack, hack⟩
    simp [hack]
  . simp

theorem eq_ack_of_ack? {frame : Frame} {f : AckFrame} (h : frame.ack? = some f)
    : frame = .ack f := by
  cases frame <;> simp_all [Frame.ack?]

theorem packedAcks_ne_nil {buffer : List Frame} {f : AckFrame} (h : Frame.ack f ∈ buffer)
    : packedAcks buffer ≠ [] := by
  have hmem : f ∈ buffer.filterMap Frame.ack? := List.mem_filterMap.mpr ⟨_, h, rfl⟩
  rcases exists_mergeAckFrames (List.ne_nil_of_mem hmem) with ⟨ack, hack⟩
  unfold packedAcks
  dsimp only
  split
  . simp [hack]
  . intro hnil
    rw [List.map_eq_nil_iff] at hnil
    exact List.ne_nil_of_mem hmem hnil

theorem packed_eq_nil {buffer : List Frame} : packed buffer = [] ↔ buffer = [] := by
  apply Iff.intro
  . intro h
    rcases List.append_eq_nil_iff.mp h with ⟨hothers, hacks⟩
    rw [List.eq_nil_iff_forall_not_mem]
    intro frame hframe
    cases hack : frame.ack? with
    | none =>
      have hmem : frame ∈ buffer.filter (fun f => f.ack?.isNone) := by
        rw [List.mem_filter]
        exact ⟨hframe, by simp [hack]⟩
      rw [hothers] at hmem
      contradiction
    | some f =>
      rw [eq_ack_of_ack? hack] at hframe
      exact packedAcks_ne_nil hframe hacks
  . intro h
    rw [h]
    rfl

namespace State

def deliver (s : State) (packet : FramePacket) (level : EncryptionLevel) : State :=
  if s.encryptionLevelsAvailable level then s.sendPacket packet level else s.holdPacket packet

end State

/-- The agent survives the event, as the length of the frame can be computed and the level has a timer. -/
def Event.Served (event : Event) : Prop :=
  match event with
  | .queue frame level => frame.frameLength.isSome ∧ level ≠ .none
  | .timer level => level ≠ .none
  | .announce level read => read = true ∨ level ≠ .none

instance (event : Event) : Decidable event.Served :=
  match event with
  | .queue _ _ => inferInstanceAs (Decidable (_ ∧ _))
  | .timer _ => inferInstanceAs (Decidable (_ ≠ _))
  | .announce _ _ => inferInstanceAs (Decidable (_ ∨ _))

section

variable (newHeader : EncryptionLevel → Nat → Header) (mtu : Nat)

/-- Everything that one round of the loop can do. -/
inductive Move (s : State) : Event → State → Prop where
  | enqueue (frame : Frame) (level : EncryptionLevel) (length : Nat)
      (hlength : frame.frameLength = some length)
      (hfits : u16 (s.frameBufferLength level + length) ≤ mtu) :
      Move s (.queue frame level) ((s.append level frame).addLength level length)
  | alone (frame : Frame) (level : EncryptionLevel) (length : Nat) (packet : FramePacket)
      (hlength : frame.frameLength = some length)
      (hover : mtu < u16 (s.frameBufferLength level + length))
      (hpacket : newPacket newHeader (retarget s level) s.packetsCreated = some packet)
      (hempty : s.frameBuffer (retarget s level) = []) :
      Move s (.queue frame level) ((s.create.clear (retarget s level)).deliver
        { packet with frames := [frame] } (retarget s level))
  | flush (frame : Frame) (level : EncryptionLevel) (length : Nat) (packet : FramePacket)
      (hlength : frame.frameLength = some length)
      (hover : mtu < u16 (s.frameBufferLength level + length))
      (hpacket : newPacket newHeader (retarget s level) s.packetsCreated = some packet)
      (hne : s.frameBuffer (retarget s level) ≠ []) :
      Move s (.queue frame level)
        (((s.create.clear (retarget s level)).append (retarget s level) frame).deliver
          { packet with frames := packed (s.frameBuffer (retarget s level)) } (retarget s level))
  | idle (level : EncryptionLevel) : Move s (.timer level) s.create
  | fire (level : EncryptionLevel) (packet : FramePacket)
      (hpacket : newPacket newHeader level s.packetsCreated = some packet)
      (hne : s.frameBuffer level ≠ []) (havailable : s.encryptionLevelsAvailable level) :
      Move s (.timer level)
        ((s.create.clear level).sendPacket
          { packet with frames := packed (s.frameBuffer level) } level)
  | move (source : EncryptionLevel) (moved : State)
      (hsource : source = .best ∨ source = .bestAppData)
      (hmoved : (s.frameBuffer source).foldlM (moveFrame (retarget s source)) s = some moved) :
      Move s (.timer source) (moved.clear source)
  | readable (level : EncryptionLevel) : Move s (.announce level true) s
  | writable (level : EncryptionLevel) :
      Move s (.announce level false) { s with
        encryptionLevelsAvailable := Function.update s.encryptionLevelsAvailable level true
        sent := s.sent ++ (s.packetBuffer level).map (fun packet => (packet, level))
        packetBuffer := Function.update s.packetBuffer level [] }

variable {newHeader mtu} {s s' : State}

def Concrete (level : EncryptionLevel) : Prop :=
  level = .initial ∨ level = .zeroRTT ∨ level = .handshake ∨ level = .oneRTT

theorem newPacket_spec {level : EncryptionLevel} {n : Nat} {packet : FramePacket}
    (h : newPacket newHeader level n = some packet)
    : packet.encryptionLevel = level ∧ packet.frames = [] ∧ Concrete level := by
  unfold newPacket at h
  unfold Concrete
  split at h <;> first | contradiction | (injection h with h; rw [← h]; simp)

theorem exists_newPacket (newHeader : EncryptionLevel → Nat → Header) {level : EncryptionLevel}
    (h : Concrete level) (n : Nat)
    : ∃ packet, newPacket newHeader level n = some packet := by
  rcases h with rfl | rfl | rfl | rfl <;> exact ⟨_, rfl⟩

theorem chooseBest_mem (elAvailable : EncryptionLevel → Bool) (restrictAppData : Bool)
    : chooseBestEncryptionLevel elAvailable restrictAppData ∈
        (if restrictAppData then elAppDataOrder else elOrder) := by
  unfold chooseBestEncryptionLevel
  dsimp only
  cases hfind : (if restrictAppData then elAppDataOrder else elOrder).find? elAvailable with
  | some level => exact List.mem_of_find?_eq_some hfind
  | none => cases restrictAppData <;> decide

theorem retarget_concrete (s : State) {level : EncryptionLevel} (h : level ≠ .none)
    : Concrete (retarget s level) := by
  unfold retarget
  split
  . have hmem := chooseBest_mem s.encryptionLevelsAvailable (level = .bestAppData)
    unfold Concrete
    revert hmem
    generalize chooseBestEncryptionLevel _ _ = target
    split <;> simp [elAppDataOrder, elOrder] <;> tauto
  . next hbest =>
    unfold Concrete
    cases level <;> simp_all

theorem retarget_ne (s : State) {source : EncryptionLevel}
    (h : source = .best ∨ source = .bestAppData)
    : retarget s source ≠ source := by
  have hconcrete : Concrete (retarget s source) := by
    apply retarget_concrete
    rcases h with rfl | rfl <;> decide
  intro heq
  rw [heq] at hconcrete
  rcases h with rfl | rfl <;> simp [Concrete] at hconcrete

def Measured (s : State) : Prop :=
  ∀ level, ∀ frame ∈ s.frameBuffer level, frame.frameLength.isSome

theorem exists_moveFrames (frames : List Frame) (h : ∀ frame ∈ frames, frame.frameLength.isSome)
    (level : EncryptionLevel) (s : State)
    : ∃ moved, frames.foldlM (moveFrame level) s = some moved := by
  induction frames generalizing s with
  | nil => exact ⟨s, rfl⟩
  | cons frame frames ih =>
    rcases Option.isSome_iff_exists.mp (h frame List.mem_cons_self) with ⟨length, hlength⟩
    rcases ih (fun f hf => h f (List.mem_cons_of_mem frame hf))
      ((s.append level frame).addLength level length) with ⟨moved, hmoved⟩
    refine ⟨moved, ?_⟩
    rw [List.foldlM_cons]
    simp only [moveFrame, hlength]
    exact hmoved

theorem queueFrame_move {frame : Frame} {level : EncryptionLevel}
    (h : (Event.queue frame level).Served)
    : ∃ s', queueFrame newHeader mtu s frame level = some s' ∧
        Move newHeader mtu s (.queue frame level) s' := by
  rcases h with ⟨hlength, hlevel⟩
  rcases Option.isSome_iff_exists.mp hlength with ⟨length, hlength⟩
  by_cases hover : mtu < u16 (s.frameBufferLength level + length)
  . rcases exists_newPacket newHeader (retarget_concrete s hlevel) s.packetsCreated with
      ⟨packet, hpacket⟩
    rcases newPacket_spec hpacket with ⟨_, hframes, _⟩
    have hqueue : queueFrame newHeader mtu s frame level = sendBuffer newHeader s frame level := by
      simp [queueFrame, hlength, hover]
    rw [hqueue]
    by_cases hempty : s.frameBuffer (retarget s level) = []
    . refine ⟨_, ?_, .alone frame level length packet hlength hover hpacket hempty⟩
      have hpacked := packed_eq_nil.mpr hempty
      by_cases havailable : s.encryptionLevelsAvailable (retarget s level)
      all_goals
        simp [sendBuffer, hpacket, fillWithLevel_packed, hframes, hpacked, State.deliver,
          State.create, State.clear, havailable]
    . refine ⟨_, ?_, .flush frame level length packet hlength hover hpacket hempty⟩
      have hpacked := mt packed_eq_nil.mp hempty
      by_cases havailable : s.encryptionLevelsAvailable (retarget s level)
      all_goals
        simp [sendBuffer, hpacket, fillWithLevel_packed, hframes, hpacked, State.deliver,
          State.create, State.clear, State.append, havailable]
  . refine ⟨_, ?_, .enqueue frame level length hlength (by omega)⟩
    simp [queueFrame, hlength, hover, hlevel]

theorem fillAndSendPacket_move {level : EncryptionLevel} (h : Concrete level)
    : ∃ s', fillAndSendPacket newHeader s level = some s' ∧
        Move newHeader mtu s (.timer level) s' := by
  rcases exists_newPacket newHeader h s.packetsCreated with ⟨packet, hpacket⟩
  rcases newPacket_spec hpacket with ⟨_, hframes, _⟩
  by_cases hfire : (s.frameBuffer level).length > 0 ∧ s.encryptionLevelsAvailable level
  . refine ⟨_, ?_, .fire level packet hpacket (List.length_pos_iff.mp hfire.1) hfire.2⟩
    simp [fillAndSendPacket, hpacket, fillWithLevel_packed, hframes, State.create, hfire.1, hfire.2]
  . refine ⟨_, ?_, .idle level⟩
    unfold fillAndSendPacket
    rw [hpacket]
    exact if_neg hfire

theorem timerFired_move (hs : Measured s) {level : EncryptionLevel} (h : level ≠ .none)
    : ∃ s', timerFired newHeader s level = some s' ∧ Move newHeader mtu s (.timer level) s' := by
  have hmove : ∀ source, source = .best ∨ source = .bestAppData →
      ∃ s', moveFrames s source = some s' ∧ Move newHeader mtu s (.timer source) s' := by
    intro source hsource
    rcases exists_moveFrames (s.frameBuffer source) (hs source) (retarget s source) s with
      ⟨moved, hmoved⟩
    refine ⟨_, ?_, .move source moved hsource hmoved⟩
    simp [moveFrames, hmoved]
  cases level with
  | none => contradiction
  | best => exact hmove .best (Or.inl rfl)
  | bestAppData => exact hmove .bestAppData (Or.inr rfl)
  | initial => exact fillAndSendPacket_move (Or.inl rfl)
  | zeroRTT => exact fillAndSendPacket_move (Or.inr (Or.inl rfl))
  | handshake => exact fillAndSendPacket_move (Or.inr (Or.inr (Or.inl rfl)))
  | oneRTT => exact fillAndSendPacket_move (Or.inr (Or.inr (Or.inr rfl)))

theorem step_move (hs : Measured s) {event : Event} (h : event.Served)
    : ∃ s', step newHeader mtu s event = some s' ∧ Move newHeader mtu s event s' := by
  cases event with
  | queue frame level => exact queueFrame_move h
  | timer level => exact timerFired_move hs h
  | announce level read =>
    cases read with
    | true => exact ⟨s, rfl, .readable level⟩
    | false =>
      have hlevel : level ≠ .none := by simpa [Event.Served] using h
      refine ⟨_, ?_, .writable level⟩
      simp [step, announced, hlevel]

theorem moveFrames_spec {frames : List Frame} {level : EncryptionLevel} {s moved : State}
    (h : frames.foldlM (moveFrame level) s = some moved)
    : moved.frameBuffer = Function.update s.frameBuffer level (s.frameBuffer level ++ frames) ∧
      moved.packetBuffer = s.packetBuffer ∧ moved.sent = s.sent ∧
      moved.encryptionLevelsAvailable = s.encryptionLevelsAvailable := by
  induction frames generalizing s with
  | nil =>
    injection h with h
    rw [← h]
    simp
  | cons frame frames ih =>
    rw [List.foldlM_cons] at h
    rcases Option.bind_eq_some_iff.mp h with ⟨s₁, hs₁, h₁⟩
    rcases Option.bind_eq_some_iff.mp hs₁ with ⟨length, _, hs₁'⟩
    injection hs₁' with hs₁'
    rcases ih h₁ with ⟨hframes, hpackets, hsent, havailable⟩
    rw [hframes, hpackets, hsent, havailable]
    rw [← hs₁']
    simp [State.append, State.addLength]

@[simp]
theorem frameBuffer_create : s.create.frameBuffer = s.frameBuffer := by
  rfl

@[simp]
theorem frameBuffer_addLength (level : EncryptionLevel) (n : Nat)
    : (s.addLength level n).frameBuffer = s.frameBuffer := by
  rfl

@[simp]
theorem frameBuffer_sendPacket (packet : FramePacket) (level : EncryptionLevel)
    : (s.sendPacket packet level).frameBuffer = s.frameBuffer := by
  rfl

@[simp]
theorem frameBuffer_deliver (packet : FramePacket) (level : EncryptionLevel)
    : (s.deliver packet level).frameBuffer = s.frameBuffer := by
  unfold State.deliver
  split <;> rfl

theorem mem_frameBuffer_append {level level' : EncryptionLevel} {frame frame' : Frame}
    (h : frame ∈ (s.append level' frame').frameBuffer level)
    : frame ∈ s.frameBuffer level ∨ (level = level' ∧ frame = frame') := by
  unfold State.append at h
  dsimp only at h
  rw [Function.update_apply] at h
  split at h
  . next heq =>
    subst heq
    simpa using h
  . exact Or.inl h

theorem frameBuffer_clear (s : State) (level : EncryptionLevel)
    : (s.clear level).frameBuffer level = [] := by
  exact Function.update_self _ _ _

theorem mem_frameBuffer_clear {level level' : EncryptionLevel} {frame : Frame}
    (h : frame ∈ (s.clear level').frameBuffer level)
    : frame ∈ s.frameBuffer level := by
  unfold State.clear at h
  dsimp only at h
  rw [Function.update_apply] at h
  split at h
  . contradiction
  . exact h

theorem Move.mem_frameBuffer {event : Event} (h : Move newHeader mtu s event s')
    {level : EncryptionLevel} {frame : Frame} (hframe : frame ∈ s'.frameBuffer level)
    : frame ∈ s.frameBuffer level ∨
      (∃ level', event = .queue frame level' ∧ frame.frameLength.isSome ∧
        (level = level' ∨ level = retarget s level')) ∨
      (∃ source, (source = .best ∨ source = .bestAppData) ∧ frame ∈ s.frameBuffer source ∧
        level = retarget s source) := by
  cases h with
  | enqueue frame' level' length hlength hfits =>
    cases mem_frameBuffer_append (frameBuffer_addLength level' length ▸ hframe) with
    | inl hold => exact Or.inl hold
    | inr hnew =>
      rcases hnew with ⟨rfl, rfl⟩
      exact Or.inr (Or.inl ⟨level, rfl, by rw [hlength]; rfl, Or.inl rfl⟩)
  | alone frame' level' length packet hlength hover hpacket hempty =>
    rw [frameBuffer_deliver] at hframe
    exact Or.inl (mem_frameBuffer_clear hframe)
  | flush frame' level' length packet hlength hover hpacket hne =>
    rw [frameBuffer_deliver] at hframe
    cases mem_frameBuffer_append hframe with
    | inl hold => exact Or.inl (mem_frameBuffer_clear hold)
    | inr hnew =>
      rcases hnew with ⟨rfl, rfl⟩
      exact Or.inr (Or.inl ⟨level', rfl, by rw [hlength]; rfl, Or.inr rfl⟩)
  | idle level' => exact Or.inl hframe
  | fire level' packet hpacket hne havailable =>
    rw [frameBuffer_sendPacket] at hframe
    exact Or.inl (mem_frameBuffer_clear hframe)
  | move source moved hsource hmoved =>
    have hmem := mem_frameBuffer_clear hframe
    rw [(moveFrames_spec hmoved).1] at hmem
    rw [Function.update_apply] at hmem
    split at hmem
    . next heq =>
      subst heq
      cases List.mem_append.mp hmem with
      | inl hold => exact Or.inl hold
      | inr hnew => exact Or.inr (Or.inr ⟨source, hsource, hnew, rfl⟩)
    . exact Or.inl hmem
  | readable level' => exact Or.inl hframe
  | writable level' => exact Or.inl hframe

theorem Move.measured {event : Event} (h : Move newHeader mtu s event s') (hs : Measured s)
    : Measured s' := by
  intro level frame hframe
  rcases h.mem_frameBuffer hframe with hold | ⟨_, _, hlength, _⟩ | ⟨source, _, hmem, _⟩
  . exact hs level frame hold
  . exact hlength
  . exact hs source frame hmem

def Packs (mtu : Nat) (s : State) (event : Event) (level : EncryptionLevel) : Prop :=
  match event with
  | .queue frame level' =>
    level = retarget s level' ∧
      ∃ length, frame.frameLength = some length ∧ mtu < u16 (s.frameBufferLength level' + length)
  | .timer level' => level = level' ∧ s.encryptionLevelsAvailable level
  | .announce _ _ => False

/-- A packet that the event builds holds the frame that does not fit, or what waited for its level. -/
def Built (mtu : Nat) (s : State) (event : Event) (packet : FramePacket) (level : EncryptionLevel) :
    Prop :=
  packet.encryptionLevel = level ∧ Concrete level ∧
    ((∃ frame level', event = .queue frame level' ∧ level = retarget s level' ∧
        packet.frames = [frame]) ∨
      (Packs mtu s event level ∧ s.frameBuffer level ≠ [] ∧
        packet.frames = packed (s.frameBuffer level)))

theorem mem_sent_deliver {packet packet' : FramePacket} {level level' : EncryptionLevel}
    (h : (packet, level) ∈ (s.deliver packet' level').sent)
    : (packet, level) ∈ s.sent ∨
        (s.encryptionLevelsAvailable level ∧ packet = packet' ∧ level = level') := by
  unfold State.deliver at h
  split at h
  . next havailable =>
    cases List.mem_append.mp h with
    | inl hold => exact Or.inl hold
    | inr hnew =>
      rw [List.mem_singleton] at hnew
      injection hnew with hpacket hlevel
      subst hlevel
      exact Or.inr ⟨havailable, hpacket, rfl⟩
  . exact Or.inl h

theorem mem_packetBuffer_deliver {packet packet' : FramePacket} {level level' : EncryptionLevel}
    (h : packet ∈ (s.deliver packet' level').packetBuffer level)
    : packet ∈ s.packetBuffer level ∨ (packet = packet' ∧ level = packet'.encryptionLevel) := by
  unfold State.deliver at h
  split at h
  . exact Or.inl h
  . unfold State.holdPacket at h
    dsimp only at h
    rw [Function.update_apply] at h
    split at h
    . next heq =>
      cases List.mem_append.mp h with
      | inl hold =>
        rw [heq]
        exact Or.inl hold
      | inr hnew =>
        rw [List.mem_singleton] at hnew
        exact Or.inr ⟨hnew, heq⟩
    . exact Or.inl h

theorem Move.mem_sent {event : Event} (h : Move newHeader mtu s event s') {packet : FramePacket}
    {level : EncryptionLevel} (hpacket : (packet, level) ∈ s'.sent)
    : (packet, level) ∈ s.sent ∨
      (s.encryptionLevelsAvailable level ∧ Built mtu s event packet level) ∨
      (event = .announce level false ∧ packet ∈ s.packetBuffer level) := by
  cases h with
  | enqueue frame level' length hlength hfits => exact Or.inl hpacket
  | alone frame level' length packet' hlength hover hnew hempty =>
    rcases mem_sent_deliver hpacket with hold | ⟨havailable, rfl, rfl⟩
    . exact Or.inl hold
    . rcases newPacket_spec hnew with ⟨hlevel, _, hconcrete⟩
      exact Or.inr (Or.inl ⟨havailable, hlevel, hconcrete, Or.inl ⟨frame, level', rfl, rfl, rfl⟩⟩)
  | flush frame level' length packet' hlength hover hnew hne =>
    rcases mem_sent_deliver hpacket with hold | ⟨havailable, rfl, rfl⟩
    . exact Or.inl hold
    . rcases newPacket_spec hnew with ⟨hlevel, _, hconcrete⟩
      exact Or.inr (Or.inl ⟨havailable, hlevel, hconcrete,
        Or.inr ⟨⟨rfl, length, hlength, hover⟩, hne, rfl⟩⟩)
  | idle level' => exact Or.inl hpacket
  | fire level' packet' hnew hne havailable =>
    cases List.mem_append.mp hpacket with
    | inl hold => exact Or.inl hold
    | inr hlast =>
      rw [List.mem_singleton] at hlast
      injection hlast with hpacket' hlevel'
      subst hpacket' hlevel'
      rcases newPacket_spec hnew with ⟨hlevel, _, hconcrete⟩
      exact Or.inr (Or.inl ⟨havailable, hlevel, hconcrete, Or.inr ⟨⟨rfl, havailable⟩, hne, rfl⟩⟩)
  | move source moved hsource hmoved =>
    have hsent : (moved.clear source).sent = s.sent := (moveFrames_spec hmoved).2.2.1
    rw [hsent] at hpacket
    exact Or.inl hpacket
  | readable level' => exact Or.inl hpacket
  | writable level' =>
    cases List.mem_append.mp hpacket with
    | inl hold => exact Or.inl hold
    | inr hlast =>
      rcases List.mem_map.mp hlast with ⟨packet', hmem, heq⟩
      injection heq with hpacket' hlevel'
      subst hpacket' hlevel'
      exact Or.inr (Or.inr ⟨rfl, hmem⟩)

theorem Move.mem_packetBuffer {event : Event} (h : Move newHeader mtu s event s')
    {packet : FramePacket} {level : EncryptionLevel} (hpacket : packet ∈ s'.packetBuffer level)
    : packet ∈ s.packetBuffer level ∨ Built mtu s event packet level := by
  cases h with
  | enqueue frame level' length hlength hfits => exact Or.inl hpacket
  | alone frame level' length packet' hlength hover hnew hempty =>
    rcases newPacket_spec hnew with ⟨hlevel, _, hconcrete⟩
    rcases mem_packetBuffer_deliver hpacket with hold | ⟨rfl, hlast⟩
    . exact Or.inl hold
    . rw [hlevel] at hlast
      subst hlast
      exact Or.inr ⟨hlevel, hconcrete, Or.inl ⟨frame, level', rfl, rfl, rfl⟩⟩
  | flush frame level' length packet' hlength hover hnew hne =>
    rcases newPacket_spec hnew with ⟨hlevel, _, hconcrete⟩
    rcases mem_packetBuffer_deliver hpacket with hold | ⟨rfl, hlast⟩
    . exact Or.inl hold
    . rw [hlevel] at hlast
      subst hlast
      exact Or.inr ⟨hlevel, hconcrete, Or.inr ⟨⟨rfl, length, hlength, hover⟩, hne, rfl⟩⟩
  | idle level' => exact Or.inl hpacket
  | fire level' packet' hnew hne havailable => exact Or.inl hpacket
  | move source moved hsource hmoved =>
    have hbuffer : (moved.clear source).packetBuffer = s.packetBuffer := (moveFrames_spec hmoved).2.1
    rw [hbuffer] at hpacket
    exact Or.inl hpacket
  | readable level' => exact Or.inl hpacket
  | writable level' =>
    dsimp only at hpacket
    rw [Function.update_apply] at hpacket
    split at hpacket
    . contradiction
    . exact Or.inl hpacket

@[simp]
theorem available_deliver (s : State) (packet : FramePacket) (level : EncryptionLevel)
    : (s.deliver packet level).encryptionLevelsAvailable = s.encryptionLevelsAvailable := by
  unfold State.deliver
  split <;> rfl

theorem Move.available {event : Event} (h : Move newHeader mtu s event s')
    {level : EncryptionLevel} (havailable : s'.encryptionLevelsAvailable level)
    : s.encryptionLevelsAvailable level ∨ event = .announce level false := by
  cases h with
  | enqueue frame level' length hlength hfits => exact Or.inl havailable
  | alone frame level' length packet' hlength hover hnew hempty =>
    rw [available_deliver] at havailable
    exact Or.inl havailable
  | flush frame level' length packet' hlength hover hnew hne =>
    rw [available_deliver] at havailable
    exact Or.inl havailable
  | idle level' => exact Or.inl havailable
  | fire level' packet' hnew hne _ => exact Or.inl havailable
  | move source moved hsource hmoved =>
    have heq : (moved.clear source).encryptionLevelsAvailable = s.encryptionLevelsAvailable :=
      (moveFrames_spec hmoved).2.2.2
    rw [heq] at havailable
    exact Or.inl havailable
  | readable level' => exact Or.inl havailable
  | writable level' =>
    dsimp only at havailable
    rw [Function.update_apply] at havailable
    split at havailable
    . next heq =>
      rw [heq]
      exact Or.inr rfl
    . exact Or.inl havailable

end

end SendingAgent

end QuicTracker
