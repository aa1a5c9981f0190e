import QuicTracker.Lib.Run
import QuicTracker.Lemmas.Agents.Retransmit

/-!
This module contains what the recovery agent does over a whole run: an acknowledgement only ever takes
entries out of the buffers, and what is sent again was in a packet that is older than the timeout.
-/

namespace QuicTracker

namespace RecoveryAgent

structure Erased (buffer : RetransmissionBuffer) (s : Sweep) : Prop where
  current : s.buffer s.currentPacketNumber = none
  kept : ∀ n entry, s.buffer n = some entry → buffer n = some entry
  frames : s.frames = []

section

variable {buffer : RetransmissionBuffer} {s : Sweep}

theorem delete_kept {n number : Nat} {entry : RetransmittableFrames}
    (h : buffer.delete number n = some entry)
    : buffer n = some entry := by
  unfold RetransmissionBuffer.delete at h
  rw [Function.update_apply] at h
  split at h
  . contradiction
  . exact h

theorem Erased.acknowledge (hs : Erased buffer s) : Erased buffer s.acknowledge := by
  unfold Sweep.acknowledge
  refine ⟨?_, ?_, hs.frames⟩
  . dsimp only [RetransmissionBuffer.delete]
    rw [Function.update_self]
  . intro n entry h
    dsimp only at h
    exact hs.kept n entry (delete_kept h)

theorem Erased.skip (hs : Erased buffer s) : Erased buffer s.skip := by
  have heq : s.skip = s.acknowledge := by
    unfold Sweep.skip Sweep.acknowledge
    rw [hs.current]
  rw [heq]
  exact hs.acknowledge

theorem Erased.iterate {step : Sweep → Sweep} (hstep : ∀ s, Erased buffer s → Erased buffer (step s))
    (hs : Erased buffer s) (k : Nat)
    : Erased buffer (step^[k] s) := by
  induction k generalizing s with
  | zero => exact hs
  | succ k ih =>
    rw [Function.iterate_succ_apply]
    exact ih (hstep s hs)

theorem Erased.blocks (hs : Erased buffer s) (blocks : List AckBlock)
    : Erased buffer (blocks.foldl Sweep.block s) := by
  induction blocks generalizing s with
  | nil => exact hs
  | cons b blocks ih =>
    rw [List.foldl_cons]
    apply ih
    exact Erased.iterate (fun _ => Erased.acknowledge) (Erased.iterate (fun _ => Erased.skip) hs _) _

end

def Below (agent' agent : RecoveryAgent) : Prop :=
  ∀ space n entry, agent'.retransmissionBuffer space n = some entry →
    agent.retransmissionBuffer space n = some entry

theorem Below.refl (agent : RecoveryAgent) : Below agent agent := fun _ _ _ h => h

theorem Below.trans {agent agent' agent'' : RecoveryAgent} (h : Below agent'' agent')
    (h' : Below agent' agent)
    : Below agent'' agent :=
  fun space n entry hentry => h' space n entry (h space n entry hentry)

theorem below_update {agent : RecoveryAgent} {space : PNSpace} {buffer : RetransmissionBuffer}
    (h : ∀ n entry, buffer n = some entry → agent.retransmissionBuffer space n = some entry)
    : Below ⟨Function.update agent.retransmissionBuffer space buffer⟩ agent := by
  intro space' n entry hentry
  dsimp only at hentry
  by_cases heq : space' = space
  . subst heq
    rw [Function.update_self] at hentry
    exact h n entry hentry
  . rw [Function.update_of_ne heq] at hentry
    exact hentry

theorem below_emptyBuffer (agent : RecoveryAgent) (space : PNSpace)
    : Below (agent.emptyBuffer space) agent := by
  apply below_update
  intro n entry h
  contradiction

theorem below_handleLevel (agent : RecoveryAgent) (e : DirectionalEncryptionLevel)
    : Below (agent.handleLevel e) agent := by
  unfold handleLevel
  split
  . exact (below_emptyBuffer _ _).trans (below_emptyBuffer _ _)
  . exact Below.refl _

theorem processAck_batch {agent agent' : RecoveryAgent} {ack : AckFrame} {space : PNSpace}
    {batch : RetransmitBatch} (h : agent.processAck ack space = some (batch, agent'))
    : batch = [] ∧ Below agent' agent ∧
      ∀ space', space' ≠ space →
        agent'.retransmissionBuffer space' = agent.retransmissionBuffer space' := by
  unfold processAck at h
  cases hblocks : ack.ackBlocks with
  | nil =>
    rw [hblocks] at h
    contradiction
  | cons first blocks =>
    rw [hblocks] at h
    injection h with h
    injection h with hbatch hagent
    have hstart : Erased (agent.retransmissionBuffer space) ⟨ack.largestAcknowledged,
        (agent.retransmissionBuffer space).delete ack.largestAcknowledged, []⟩ := by
      refine ⟨Function.update_self _ _ _, ?_, rfl⟩
      intro n entry hentry
      exact delete_kept hentry
    have herased := (Erased.iterate (fun _ => Erased.acknowledge) hstart
      (min first.block threshold)).blocks blocks
    rw [← hbatch, ← hagent]
    refine ⟨herased.frames, below_update herased.kept, ?_⟩
    intro space' hne
    exact Function.update_of_ne hne _ _

section

variable {τ : Type} {lib : Libraries τ}

/-- Nothing was queued and nothing was sent. -/
structure SameTraffic (c c' : Client τ) : Prop where
  frameQueue : c'.frameQueue = c.frameQueue
  outgoingPackets : c'.outgoingPackets = c.outgoingPackets
  udpConnection : c'.udpConnection = c.udpConnection

theorem SameTraffic.refl (c : Client τ) : SameTraffic c c := ⟨rfl, rfl, rfl⟩

theorem sameTraffic_noteAck {c c' : Client τ} (h : SameTraffic c c') (space : PNSpace) (ack : AckFrame)
    : SameTraffic c (noteAck c' space ack) := by
  unfold noteAck
  split
  . exact ⟨h.frameQueue, h.outgoingPackets, h.udpConnection⟩
  . exact h

theorem handleAck_spec {space : PNSpace} {r r' : RecoveryAgent × Client τ} {ack : AckFrame}
    (h : handleAck lib space r ack = some r')
    : r.1.processAck ack space = some ([], r'.1) ∧ r'.2 = noteAck r.2 space ack := by
  rcases Option.bind_eq_some_iff.mp h with ⟨⟨batch, agent⟩, hprocess, h⟩
  rw [(processAck_batch hprocess).1] at h hprocess
  rcases Option.bind_eq_some_iff.mp h with ⟨c, hbatch, h⟩
  injection hbatch with hbatch
  injection h with h
  rw [← h]
  exact ⟨hprocess, hbatch.symm⟩

theorem handleIncoming_spec {r r' : RecoveryAgent × Client τ} {p : Packet}
    (h : handleIncoming lib r p = some r')
    : Below r'.1 r.1 ∧ SameTraffic r.2 r'.2 := by
  cases p with
  | frames p =>
    rcases Option.bind_eq_some_iff.mp h with ⟨r₁, hacks, h⟩
    have hr₁ : Below r₁.1 r.1 ∧ SameTraffic r.2 r₁.2 := by
      apply Run.invariant_of_run (handleAck lib p.pnSpace) _ (fun _ _ => trivial) _ hacks
      . intro r₂ ack r₃ _ hr₂ hack
        rcases handleAck_spec hack with ⟨hprocess, hnote⟩
        rw [hnote]
        exact ⟨(processAck_batch hprocess).2.1.trans hr₂.1, sameTraffic_noteAck hr₂.2 _ _⟩
      . exact ⟨Below.refl _, SameTraffic.refl _⟩
    split at h
    . injection h with h
      rw [← h]
      exact ⟨(below_emptyBuffer _ _).trans hr₁.1, hr₁.2⟩
    . injection h with h
      rw [← h]
      exact hr₁
  | retry p =>
    injection h with h
    rw [← h]
    exact ⟨below_emptyBuffer _ _, SameTraffic.refl _⟩
  | versionNegotiation p =>
    injection h with h
    rw [← h]
    exact ⟨below_emptyBuffer _ _, SameTraffic.refl _⟩

end

structure Expired (now : Nat) (agent : RecoveryAgent) (r : RetransmitBatch × RecoveryAgent) : Prop where
  below : Below r.2 agent
  batch : ∀ b ∈ r.1, now - b.timestamp > timerValue ∧
    ∃ space n, agent.retransmissionBuffer space n = some b
  kept : ∀ space n entry, agent.retransmissionBuffer space n = some entry →
    r.2.retransmissionBuffer space n = some entry ∨ entry ∈ r.1

theorem Expired.expire {now : Nat} {agent : RecoveryAgent} {r : RetransmitBatch × RecoveryAgent}
    (h : Expired now agent r) (key : PNSpace × Nat)
    : Expired now agent (expire now r key) := by
  unfold RecoveryAgent.expire
  dsimp only
  cases hkey : r.2.retransmissionBuffer key.1 key.2 with
  | none => exact h
  | some v =>
    dsimp only
    split
    . next hold =>
      refine ⟨?_, ?_, ?_⟩
      . apply Below.trans _ h.below
        apply below_update
        intro n entry hentry
        exact delete_kept hentry
      . intro b hb
        cases List.mem_append.mp hb with
        | inl hb => exact h.batch b hb
        | inr hb =>
          rw [List.mem_singleton.mp hb]
          exact ⟨hold, key.1, key.2, h.below key.1 key.2 v hkey⟩
      . intro space n entry hentry
        cases h.kept space n entry hentry with
        | inr hbatch => exact Or.inr (List.mem_append_left _ hbatch)
        | inl hkept =>
          dsimp only
          by_cases hspace : space = key.1
          . subst hspace
            rw [Function.update_self]
            by_cases hn : n = key.2
            . subst hn
              rw [hkept] at hkey
              injection hkey with hkey
              rw [hkey]
              simp
            . apply Or.inl
              unfold RetransmissionBuffer.delete
              rw [Function.update_of_ne hn]
              exact hkept
          . rw [Function.update_of_ne hspace]
            exact Or.inl hkept
    . exact h

theorem expired_foldl (now : Nat) (agent : RecoveryAgent) (order : List (PNSpace × Nat))
    : Expired now agent (order.foldl (expire now) ([], agent)) := by
  have hstart : Expired now agent ([], agent) := by
    refine ⟨Below.refl _, by simp, ?_⟩
    intro space n entry hentry
    exact Or.inl hentry
  apply List.foldlRecOn order (expire now) hstart
  intro r hr key _
  exact hr.expire key

section

variable {τ : Type} {lib : Libraries τ}

structure Resent (c c' : Client τ) (batch : RetransmitBatch) (queued : List QueuedFrame)
    (packets : List FramePacket) : Prop where
  frameQueue : c'.frameQueue = c.frameQueue ++ queued
  outgoingPackets : c'.outgoingPackets = c.outgoingPackets ++ packets
  queued : ∀ q ∈ queued, ∃ b ∈ batch, q ∈ queuedFrames b
  packets : ∀ p ∈ packets, p.pnSpace = .initial ∧ p.encryptionLevel = .initial ∧
    ∃ b ∈ batch, b.level = .initial ∧ p.frames = b.frames

theorem level_of_isFirstInitial {b : RetransmittableFrames} (h : isFirstInitial b = some true)
    : b.level = .initial := by
  unfold isFirstInitial at h
  split at h
  . next hlevel => exact hlevel
  . contradiction

theorem retransmitBatch_resent {c c' : Client τ} {batch : RetransmitBatch}
    (h : retransmitBatch lib c batch = some c')
    : ∃ queued packets, Resent c c' batch queued packets ∧
        ((∀ b ∈ batch.dropLast, isFirstInitial b ≠ some true) →
          ∀ b ∈ batch, b.level ≠ .initial → queuedFrames b ⊆ queued) := by
  induction batch generalizing c with
  | nil =>
    injection h with h
    rw [← h]
    refine ⟨[], [], ⟨by simp, by simp, by simp, by simp⟩, ?_⟩
    intro _ b hb
    contradiction
  | cons b batch ih =>
    cases hfirst : isFirstInitial b with
    | none =>
      unfold retransmitBatch at h
      rw [hfirst] at h
      contradiction
    | some first =>
      cases first with
      | true =>
        rw [retransmitBatch_cons_first lib c batch hfirst] at h
        have hlevel := level_of_isFirstInitial hfirst
        rcases sendInitial_outgoing lib h with ⟨hqueue, p, hout, hspace, hp, hframes⟩
        refine ⟨[], [p], ⟨by simpa using hqueue, hout, by simp, ?_⟩, ?_⟩
        . intro p' hp'
          rw [List.mem_singleton.mp hp']
          exact ⟨hspace, hp, b, List.mem_cons_self, hlevel, hframes⟩
        . intro hlast b' hb' hlevel'
          cases batch with
          | nil =>
            rw [List.mem_singleton.mp hb'] at hlevel'
            exact absurd hlevel hlevel'
          | cons b₁ batch =>
            have hne := hlast b (by simp)
            exact absurd hfirst hne
      | false =>
        rw [retransmitBatch_cons_other lib c batch hfirst] at h
        rcases ih h with ⟨queued, packets, hresent, hall⟩
        refine ⟨queuedFrames b ++ queued, packets, ⟨?_, hresent.outgoingPackets, ?_, ?_⟩, ?_⟩
        . rw [hresent.frameQueue, submitAll]
          simp
        . intro q hq
          cases List.mem_append.mp hq with
          | inl hq => exact ⟨b, List.mem_cons_self, hq⟩
          | inr hq =>
            rcases hresent.queued q hq with ⟨b', hb', hq'⟩
            exact ⟨b', List.mem_cons_of_mem b hb', hq'⟩
        . intro p hp
          rcases hresent.packets p hp with ⟨hspace, hplevel, b', hb', hrest⟩
          exact ⟨hspace, hplevel, b', List.mem_cons_of_mem b hb', hrest⟩
        . intro hlast b' hb' hlevel
          cases List.mem_cons.mp hb' with
          | inl heq =>
            rw [heq]
            exact List.subset_append_left _ _
          | inr hb' =>
            apply List.Subset.trans _ (List.subset_append_right _ _)
            apply hall _ b' hb' hlevel
            intro b₁ hb₁
            apply hlast
            cases batch with
            | nil => contradiction
            | cons b₂ batch =>
              rw [List.dropLast_cons_of_ne_nil (by simp)]
              exact List.mem_cons_of_mem b hb₁

def Recorded (inputs : List Input) (entry : RetransmittableFrames) : Prop :=
  ∃ p, .outgoing entry.timestamp p ∈ inputs ∧ entry.frames = p.getRetransmittableFrames ∧
    entry.level = p.encryptionLevel

def TimedOut (inputs : List Input) (p : FramePacket) : Prop :=
  ∃ sent now order, .outgoing sent p ∈ inputs ∧ .tick now order ∈ inputs ∧ now - sent > timerValue

theorem Recorded.mono {inputs inputs' : List Input} (hsub : inputs ⊆ inputs')
    {entry : RetransmittableFrames} (h : Recorded inputs entry)
    : Recorded inputs' entry := by
  rcases h with ⟨p, hp, hentry⟩
  exact ⟨p, hsub hp, hentry⟩

theorem TimedOut.mono {inputs inputs' : List Input} (hsub : inputs ⊆ inputs') {p : FramePacket}
    (h : TimedOut inputs p)
    : TimedOut inputs' p := by
  rcases h with ⟨sent, now, order, hp, htick, hlt⟩
  exact ⟨sent, now, order, hsub hp, hsub htick, hlt⟩

/-- Everything that has been sent again since the connection was in the state `c`. -/
structure Explained (inputs : List Input) (c c' : Client τ) : Prop where
  frames : ∃ queued, c'.frameQueue = c.frameQueue ++ queued ∧
    ∀ q ∈ queued, ∃ p, TimedOut inputs p ∧ q.frame ∈ p.getRetransmittableFrames ∧
      q.encryptionLevel = p.encryptionLevel
  packets : ∃ packets, c'.outgoingPackets = c.outgoingPackets ++ packets ∧
    ∀ p' ∈ packets, ∃ p, TimedOut inputs p ∧ p'.frames = p.getRetransmittableFrames ∧
      p.encryptionLevel = .initial ∧ p'.encryptionLevel = .initial

theorem Explained.mono {inputs inputs' : List Input} (hsub : inputs ⊆ inputs') {c c' : Client τ}
    (h : Explained inputs c c')
    : Explained inputs' c c' := by
  rcases h with ⟨⟨queued, hqueue, hqueued⟩, packets, hout, hpackets⟩
  refine ⟨⟨queued, hqueue, ?_⟩, packets, hout, ?_⟩
  . intro q hq
    rcases hqueued q hq with ⟨p, hp, hrest⟩
    exact ⟨p, hp.mono hsub, hrest⟩
  . intro p' hp'
    rcases hpackets p' hp' with ⟨p, hp, hrest⟩
    exact ⟨p, hp.mono hsub, hrest⟩

theorem Explained.sameTraffic {inputs : List Input} {c c₁ c₂ : Client τ} (h : Explained inputs c c₁)
    (hsame : SameTraffic c₁ c₂)
    : Explained inputs c c₂ := by
  rcases h with ⟨hframes, hpackets⟩
  rw [← hsame.frameQueue] at hframes
  rw [← hsame.outgoingPackets] at hpackets
  exact ⟨hframes, hpackets⟩

theorem Explained.resent {inputs : List Input} {c c₁ c₂ : Client τ} {batch : RetransmitBatch}
    {queued : List QueuedFrame} {packets : List FramePacket} (h : Explained inputs c c₁)
    (hresent : Resent c₁ c₂ batch queued packets)
    (hbatch : ∀ b ∈ batch, ∃ p, TimedOut inputs p ∧ b.frames = p.getRetransmittableFrames ∧
      b.level = p.encryptionLevel)
    : Explained inputs c c₂ := by
  rcases h with ⟨⟨queued₁, hqueue₁, hqueued₁⟩, packets₁, hout₁, hpackets₁⟩
  refine ⟨⟨queued₁ ++ queued, ?_, ?_⟩, packets₁ ++ packets, ?_, ?_⟩
  . rw [hresent.frameQueue, hqueue₁, List.append_assoc]
  . intro q hq
    cases List.mem_append.mp hq with
    | inl hq => exact hqueued₁ q hq
    | inr hq =>
      rcases hresent.queued q hq with ⟨b, hb, hqb⟩
      rcases hbatch b hb with ⟨p, hp, hframes, hlevel⟩
      rcases List.mem_map.mp hqb with ⟨f, hf, rfl⟩
      rw [hframes] at hf
      exact ⟨p, hp, hf, hlevel⟩
  . rw [hresent.outgoingPackets, hout₁, List.append_assoc]
  . intro p' hp'
    cases List.mem_append.mp hp' with
    | inl hp' => exact hpackets₁ p' hp'
    | inr hp' =>
      rcases hresent.packets p' hp' with ⟨_, hlevel', b, hb, hblevel, hframes'⟩
      rcases hbatch b hb with ⟨p, hp, hframes, hlevel⟩
      exact ⟨p, hp, hframes'.trans hframes, hlevel.symm.trans hblevel, hlevel'⟩

structure Accounts (c : Client τ) (inputs : List Input) (r : RecoveryAgent × Client τ) : Prop where
  recorded : ∀ space n entry, r.1.retransmissionBuffer space n = some entry → Recorded inputs entry
  explained : Explained inputs c r.2

theorem Accounts.below {c : Client τ} {inputs : List Input} {r r' : RecoveryAgent × Client τ} (i : Input)
    (h : Accounts c inputs r) (hbelow : Below r'.1 r.1) (hsame : SameTraffic r.2 r'.2)
    : Accounts c (inputs ++ [i]) r' := by
  have hsub : inputs ⊆ inputs ++ [i] := List.subset_append_left _ _
  refine ⟨?_, (h.explained.sameTraffic hsame).mono hsub⟩
  intro space n entry hentry
  exact (h.recorded space n entry (hbelow space n entry hentry)).mono hsub

theorem Accounts.tick {c : Client τ} {inputs : List Input} {r r' : RecoveryAgent × Client τ} {now : Nat}
    {order : List (PNSpace × Nat)} (h : Accounts c inputs r) (hstep : handleTick lib now order r = some r')
    : Accounts c (inputs ++ [.tick now order]) r' := by
  rcases Option.bind_eq_some_iff.mp hstep with ⟨c', hbatch, hstep⟩
  injection hstep with hstep
  rw [← hstep]
  have hexpired := expired_foldl now r.1 order
  rcases retransmitBatch_resent hbatch with ⟨queued, packets, hresent, _⟩
  have hsub : inputs ⊆ inputs ++ [.tick now order] := List.subset_append_left _ _
  refine ⟨?_, ?_⟩
  . intro space n entry hentry
    exact (h.recorded space n entry (hexpired.below space n entry hentry)).mono hsub
  . apply (h.explained.mono hsub).resent hresent
    intro b hb
    rcases hexpired.batch b hb with ⟨hlt, space, n, hentry⟩
    rcases h.recorded space n b hentry with ⟨p, hp, hframes, hlevel⟩
    exact ⟨p, ⟨b.timestamp, now, order, hsub hp, by simp, hlt⟩, hframes, hlevel⟩

theorem Accounts.outgoing {c : Client τ} {inputs : List Input} {r : RecoveryAgent × Client τ}
    {agent : RecoveryAgent} {now : Nat} {p : FramePacket} (h : Accounts c inputs r)
    (hstep : handleOutgoing now r.1 p = some agent)
    : Accounts c (inputs ++ [.outgoing now p]) (agent, r.2) := by
  have hsub : inputs ⊆ inputs ++ [.outgoing now p] := List.subset_append_left _ _
  refine ⟨?_, h.explained.mono hsub⟩
  intro space n entry hentry
  unfold handleOutgoing at hstep
  dsimp only at hstep
  split at hstep
  . split at hstep
    . contradiction
    . injection hstep with hstep
      rw [← hstep] at hentry
      dsimp only at hentry
      by_cases hnew : space = p.pnSpace ∧ n = p.header.packetNumber
      . rw [hnew.1, hnew.2, Function.update_self, Function.update_self] at hentry
        injection hentry with hentry
        rw [← hentry]
        exact ⟨p, by simp, rfl, rfl⟩
      . have hold : r.1.retransmissionBuffer space n = some entry := by
          by_cases hspace : space = p.pnSpace
          . subst hspace
            rw [Function.update_self] at hentry
            rw [Function.update_of_ne (fun hn => hnew ⟨rfl, hn⟩)] at hentry
            exact hentry
          . rw [Function.update_of_ne hspace] at hentry
            exact hentry
        exact (h.recorded space n entry hold).mono hsub
  . injection hstep with hstep
    rw [← hstep] at hentry
    exact (h.recorded space n entry hentry).mono hsub

theorem Accounts.step {c : Client τ} {inputs : List Input} {r r' : RecoveryAgent × Client τ} {i : Input}
    (h : Accounts c inputs r) (hstep : step lib r i = some r')
    : Accounts c (inputs ++ [i]) r' := by
  cases i with
  | tick now order => exact h.tick hstep
  | incoming p =>
    rcases handleIncoming_spec hstep with ⟨hbelow, hsame⟩
    exact h.below _ hbelow hsame
  | outgoing now p =>
    rcases Option.bind_eq_some_iff.mp hstep with ⟨agent, hagent, hstep⟩
    injection hstep with hstep
    rw [← hstep]
    exact h.outgoing hagent
  | encryptionLevel e =>
    injection hstep with hstep
    rw [← hstep]
    exact h.below _ (below_handleLevel r.1 e) (SameTraffic.refl r.2)

theorem retransmissions_follow_timeout (lib : Libraries τ) (c : Client τ) (inputs : List Input)
    {r : RecoveryAgent × Client τ} (hrun : Run.run (step lib) (initial, c) inputs = some r)
    : (∃ queued, r.2.frameQueue = c.frameQueue ++ queued ∧
        ∀ q ∈ queued, ∃ p, TimedOut inputs p ∧ q.frame ∈ p.getRetransmittableFrames ∧
          q.encryptionLevel = p.encryptionLevel) ∧
      (∃ packets, r.2.outgoingPackets = c.outgoingPackets ++ packets ∧
        ∀ p' ∈ packets, ∃ p, TimedOut inputs p ∧ p'.frames = p.getRetransmittableFrames ∧
          p.encryptionLevel = .initial ∧ p'.encryptionLevel = .initial) ∧
      ∀ p r', step lib r (.incoming p) = some r' → SameTraffic r.2 r'.2 := by
  have hstart : Accounts c [] (initial, c) := by
    refine ⟨?_, ⟨⟨[], by simp, by simp⟩, [], by simp, by simp⟩⟩
    intro space n entry hentry
    contradiction
  have hguarded : Run.Guarded (step lib) (fun _ _ => True) (initial, c) inputs := by
    apply Run.Guarded.of_forall
    intro _ _ _
    trivial
  have haccounts := Run.inv_of_run (step lib) (fun _ _ _ _ hs _ hstep => Accounts.step hs hstep)
    [] _ inputs hstart hguarded hrun
  refine ⟨haccounts.explained.frames, haccounts.explained.packets, ?_⟩
  intro p r' hstep
  exact (handleIncoming_spec hstep).2

end

def samplePacket : FramePacket :=
  ⟨.short ⟨false, [], ⟨7, 1⟩, 7⟩, .appData, .oneRTT, [.stream sampleStream, .ping]⟩

/-- The PING frame of the packet is not sent again. -/
theorem retransmissions_follow_timeout_stream
    : ∃ r, Run.run (step sampleLibraries) (initial, sampleClient)
          [.outgoing 100 samplePacket, .tick 601 [(.appData, 7)]] = some r ∧
        r.2.frameQueue = [⟨.stream sampleStream, .oneRTT⟩] ∧
        ∀ q ∈ r.2.frameQueue, ∃ p,
          TimedOut [.outgoing 100 samplePacket, .tick 601 [(.appData, 7)]] p ∧
            q.frame ∈ p.getRetransmittableFrames := by
  refine ⟨_, rfl, by decide, ?_⟩
  rcases (retransmissions_follow_timeout sampleLibraries sampleClient
    [.outgoing 100 samplePacket, .tick 601 [(.appData, 7)]] rfl).1 with ⟨queued, hqueue, hqueued⟩
  rw [hqueue]
  intro q hq
  rcases hqueued q hq with ⟨p, hp, hframe, _⟩
  exact ⟨p, hp, hframe⟩

end RecoveryAgent

end QuicTracker
