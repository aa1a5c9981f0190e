import QuicTracker.Impl.Agents.Loop
import QuicTracker.Lemmas.Agents.Recovery
import QuicTracker.Lemmas.Agents.RecoveryRuns
import QuicTracker.Lemmas.Agents.SendTraffic

/-!
This module contains the verification of the loop between the sending and the recovery agent: application data
that has to be retransmitted stays in the loop until a packet that carries it is acknowledged.
-/

namespace QuicTracker

namespace Loop

open SendingAgent (AppData ForAppData Numbered Traffic Holds Measured)

structure Letter where
  number : Nat
  space : PNSpace
  level : EncryptionLevel
  frames : List Frame

def letter (p : FramePacket) : Letter :=
  ⟨p.header.packetNumber, p.pnSpace, p.encryptionLevel, p.frames⟩

theorem packetNumber_withLength {h h' : Header} {payloadLength overhead : Nat}
    (hlength : h.withLength payloadLength overhead = some h')
    : h'.packetNumber = h.packetNumber := by
  cases h with
  | long h =>
    rcases Option.bind_eq_some_iff.mp hlength with ⟨length, _, hlength⟩
    injection hlength with hlength
    rw [← hlength]
    rfl
  | short h =>
    injection hlength with hlength
    rw [← hlength]

section

variable {τ : Type} {c c' : Client τ}

theorem sendPacket_letter {p : FramePacket} {level : EncryptionLevel}
    (h : c.sendPacket p level = some c') (hspace : p.pnSpace ≠ .noSpace)
    : c'.frameQueue = c.frameQueue ∧
      ∃ p', c'.outgoingPackets = c.outgoingPackets ++ [p'] ∧ letter p' = letter p := by
  unfold Client.sendPacket at h
  split at h
  . contradiction
  . rcases Option.bind_eq_some_iff.mp h with ⟨_, _, h⟩
    rcases Option.bind_eq_some_iff.mp h with ⟨_, _, h⟩
    rcases Option.bind_eq_some_iff.mp h with ⟨_, _, h⟩
    rcases Option.bind_eq_some_iff.mp h with ⟨header, hheader, h⟩
    rcases Option.bind_eq_some_iff.mp h with ⟨_, _, h⟩
    injection h with h
    rw [← h]
    refine ⟨rfl, _, rfl, ?_⟩
    unfold letter
    dsimp only
    rw [packetNumber_withLength hheader]

theorem sendPackets_letters {packets : List (FramePacket × EncryptionLevel)}
    (h : packets.foldlM (fun c p => c.sendPacket p.1 p.2) c = some c')
    (hspace : ∀ p ∈ packets, p.1.pnSpace ≠ .noSpace)
    : c'.frameQueue = c.frameQueue ∧
      ∃ outgoing, c'.outgoingPackets = c.outgoingPackets ++ outgoing ∧
        outgoing.map letter = packets.map (fun p => letter p.1) := by
  induction packets generalizing c with
  | nil =>
    injection h with h
    rw [← h]
    exact ⟨rfl, [], (List.append_nil _).symm, rfl⟩
  | cons p packets ih =>
    rw [List.foldlM_cons] at h
    rcases Option.bind_eq_some_iff.mp h with ⟨c₁, hc₁, h⟩
    rw [List.forall_mem_cons] at hspace
    rcases sendPacket_letter hc₁ hspace.1 with ⟨hqueue₁, p', hout₁, hletter⟩
    rcases ih h hspace.2 with ⟨hqueue, outgoing, hout, hletters⟩
    refine ⟨hqueue.trans hqueue₁, p' :: outgoing, ?_, ?_⟩
    . rw [hout, hout₁, List.append_assoc]
      rfl
    . rw [List.map_cons, List.map_cons, hletter, hletters]

end

def appNumbers (letters : List Letter) : Multiset Nat :=
  ((letters.filter (fun v => v.space = .appData)).map (·.number) : List Nat)

theorem appNumbers_append (letters letters' : List Letter)
    : appNumbers (letters ++ letters') = appNumbers letters + appNumbers letters' := by
  unfold appNumbers
  rw [List.filter_append, List.map_append, Multiset.coe_add]

def numbers (s : SendingAgent.State) (outgoing : List FramePacket) : Multiset Nat :=
  ∑ level, appNumbers ((s.packetBuffer level).map letter) + appNumbers (outgoing.map letter)

section

variable {newHeader : EncryptionLevel → Nat → Header} {s s' : SendingAgent.State}

theorem appNumbers_numbered {n : Nat} {level : EncryptionLevel} {packet : FramePacket}
    (h : Numbered newHeader n level packet)
    : appNumbers [letter packet] =
        if AppData level then {(newHeader level n).packetNumber} else 0 := by
  unfold appNumbers letter
  split
  . next hlevel =>
    have hspace := h.pnSpace.mpr hlevel
    simp [hspace, h.header]
  . next hlevel =>
    have hspace := mt h.pnSpace.mp hlevel
    simp [hspace]

theorem numbers_of_traffic {packets : List (FramePacket × EncryptionLevel)}
    (h : Traffic newHeader s s' packets) {outgoing outgoing' : List FramePacket}
    (hout : outgoing'.map letter = outgoing.map letter ++ packets.map (fun p => letter p.1))
    : numbers s' outgoing' = numbers s outgoing ∨
      ∃ level, AppData level ∧ s'.packetsCreated = s.packetsCreated + 1 ∧
        numbers s' outgoing' =
          numbers s outgoing + {(newHeader level s.packetsCreated).packetNumber} := by
  -- The number of a packet that was built for a level.
  have hbuilt : ∀ packet level, Numbered newHeader s.packetsCreated level packet →
      s'.packetsCreated = s.packetsCreated + 1 →
      numbers s' outgoing' = numbers s outgoing + appNumbers [letter packet] →
      numbers s' outgoing' = numbers s outgoing ∨
        ∃ level, AppData level ∧ s'.packetsCreated = s.packetsCreated + 1 ∧
          numbers s' outgoing' =
            numbers s outgoing + {(newHeader level s.packetsCreated).packetNumber} := by
    intro packet level hpacket hcreated hnumbers
    rw [appNumbers_numbered hpacket] at hnumbers
    by_cases hlevel : AppData level
    . rw [if_pos hlevel] at hnumbers
      exact Or.inr ⟨level, hlevel, hcreated, hnumbers⟩
    . rw [if_neg hlevel, add_zero] at hnumbers
      exact Or.inl hnumbers
  cases h with
  | nothing hbuffer hcreated =>
    apply Or.inl
    rw [List.map_nil, List.append_nil] at hout
    unfold numbers
    rw [hbuffer, hout]
  | sent packet level hpacket hbuffer hcreated =>
    apply hbuilt packet level hpacket hcreated
    unfold numbers
    rw [hbuffer, hout, appNumbers_append, add_assoc]
    rfl
  | held packet level hpacket hbuffer hcreated =>
    apply hbuilt packet level hpacket hcreated
    rw [List.map_nil, List.append_nil] at hout
    have hsum := sum_update_add (fun _ packets => appNumbers (packets.map letter))
      (f := s.packetBuffer) (a := level) (b := s.packetBuffer level ++ [packet])
      (m := appNumbers [letter packet]) (by rw [List.map_append, appNumbers_append]; rfl)
    unfold numbers
    rw [hbuffer, hout, hsum]
    exact add_right_comm _ _ _
  | released level hbuffer hcreated =>
    apply Or.inl
    have hsum := sum_update (fun _ packets => appNumbers (packets.map letter)) s.packetBuffer level []
    rw [List.map_map] at hout
    unfold numbers
    rw [hbuffer, hout, appNumbers_append, ← add_assoc, add_right_comm]
    have hempty : appNumbers (([] : List FramePacket).map letter) = 0 := rfl
    rw [hempty, add_zero] at hsum
    rw [← hsum]
    rfl

end

/-- A packet is kept for, or was sent at, the level that it was built for. -/
structure Placed (p : FramePacket) (level : EncryptionLevel) : Prop where
  space : p.pnSpace ≠ .noSpace
  encryptionLevel : p.encryptionLevel = level
  pnSpace : p.pnSpace = .appData ↔ AppData level
  concrete : SendingAgent.Concrete level

theorem placed_of_numbered {newHeader : EncryptionLevel → Nat → Header} {n : Nat}
    {level : EncryptionLevel} {packet : FramePacket} (h : Numbered newHeader n level packet)
    : Placed packet level :=
  ⟨h.space, h.encryptionLevel, h.pnSpace, h.concrete⟩

section

variable {newHeader : EncryptionLevel → Nat → Header} {s s' : SendingAgent.State}

theorem placed_packets {packets : List (FramePacket × EncryptionLevel)}
    (h : Traffic newHeader s s' packets) (hs : ∀ level, ∀ p ∈ s.packetBuffer level, Placed p level)
    : ∀ p ∈ packets, Placed p.1 p.2 := by
  intro p hp
  cases h with
  | nothing hbuffer hcreated => contradiction
  | sent packet level hpacket hbuffer hcreated =>
    rw [List.mem_singleton.mp hp]
    exact placed_of_numbered hpacket
  | held packet level hpacket hbuffer hcreated => contradiction
  | released level hbuffer hcreated =>
    rcases List.mem_map.mp hp with ⟨packet, hpacket, rfl⟩
    exact hs level packet hpacket

theorem placed_packetBuffer {packets : List (FramePacket × EncryptionLevel)}
    (h : Traffic newHeader s s' packets) (hs : ∀ level, ∀ p ∈ s.packetBuffer level, Placed p level)
    : ∀ level, ∀ p ∈ s'.packetBuffer level, Placed p level := by
  intro level p hp
  cases h with
  | nothing hbuffer hcreated =>
    rw [hbuffer] at hp
    exact hs level p hp
  | sent packet level' hpacket hbuffer hcreated =>
    rw [hbuffer] at hp
    exact hs level p hp
  | held packet level' hpacket hbuffer hcreated =>
    rw [hbuffer, Function.update_apply] at hp
    split at hp
    . next heq =>
      subst heq
      cases List.mem_append.mp hp with
      | inl hp => exact hs level p hp
      | inr hp =>
        rw [List.mem_singleton.mp hp]
        exact placed_of_numbered hpacket
    . exact hs level p hp
  | released level' hbuffer hcreated =>
    rw [hbuffer, Function.update_apply] at hp
    split at hp
    . contradiction
    . exact hs level p hp

theorem packetsCreated_le {packets : List (FramePacket × EncryptionLevel)}
    (h : Traffic newHeader s s' packets)
    : s.packetsCreated ≤ s'.packetsCreated := by
  cases h with
  | nothing hbuffer hcreated => exact hcreated
  | sent packet level hpacket hbuffer hcreated => omega
  | held packet level hpacket hbuffer hcreated => omega
  | released level hbuffer hcreated => omega

end

def Created (newHeader : EncryptionLevel → Nat → Header) (n k : Nat) : Prop :=
  ∃ level i, AppData level ∧ i < n ∧ k = (newHeader level i).packetNumber

theorem Created.mono {newHeader : EncryptionLevel → Nat → Header} {n n' k : Nat} (hle : n ≤ n')
    (h : Created newHeader n k)
    : Created newHeader n' k := by
  rcases h with ⟨level, i, hlevel, hi, hk⟩
  exact ⟨level, i, hlevel, by omega, hk⟩

/-- No number is given twice to packets with application data. -/
def Distinct (newHeader : EncryptionLevel → Nat → Header) : Prop :=
  ∀ level level' n n', AppData level → AppData level' →
    (newHeader level n).packetNumber = (newHeader level' n').packetNumber → n = n'

def SentAs (s : SendingAgent.State) (v : Letter) : Prop := ∃ q level, (q, level) ∈ s.sent ∧ letter q = v

/-- An entry of the retransmission buffer stands for a packet that was sent. -/
structure Stands (s : SendingAgent.State) (k : Nat) (entry : RetransmittableFrames) : Prop where
  level : AppData entry.level
  packet : ∃ v, SentAs s v ∧ v.number = k ∧ v.space = .appData ∧ entry.frames ⊆ v.frames

structure Tracked {τ : Type} (newHeader : EncryptionLevel → Nat → Header) (l : Loop τ) : Prop where
  measured : Measured l.sending
  kept : ∀ level, ∀ p ∈ l.sending.packetBuffer level, Placed p level
  outgoing : ∀ p ∈ l.client.outgoingPackets, p.pnSpace = .appData →
    AppData p.encryptionLevel ∧ SentAs l.sending (letter p)
  nodup : (numbers l.sending l.client.outgoingPackets).Nodup
  created : ∀ k ∈ numbers l.sending l.client.outgoingPackets,
    Created newHeader l.sending.packetsCreated k
  buffered : ∀ k entry, l.recovery.retransmissionBuffer .appData k = some entry →
    Created newHeader l.sending.packetsCreated k ∧
      k ∉ numbers l.sending l.client.outgoingPackets ∧ Stands l.sending k entry

section

variable {τ : Type} {lib : Libraries τ} {newHeader : EncryptionLevel → Nat → Header} {mtu : Nat}
  {l l' : Loop τ}

theorem tracked_start {c : Client τ} (hout : c.outgoingPackets = []) : Tracked newHeader (start c) where
  measured := by
    intro level frame hframe
    contradiction
  kept := by
    intro level p hp
    contradiction
  outgoing := by
    intro p hp
    rw [show (start c).client.outgoingPackets = [] from hout] at hp
    contradiction
  nodup := by
    rw [show (start c).client.outgoingPackets = [] from hout]
    exact Multiset.nodup_zero
  created := by
    rw [show (start c).client.outgoingPackets = [] from hout]
    intro k hk
    exact absurd hk (Multiset.notMem_zero k)
  buffered := by
    intro k entry hentry
    contradiction

/-- What a round of the sending agent does to the loop. -/
structure Sends (newHeader : EncryptionLevel → Nat → Header) (mtu : Nat) (l l' : Loop τ)
    (event : SendingAgent.Event) (packets : List (FramePacket × EncryptionLevel))
    (outgoing : List FramePacket) : Prop where
  move : SendingAgent.Move newHeader mtu l.sending event l'.sending
  sent : l'.sending.sent = l.sending.sent ++ packets
  traffic : Traffic newHeader l.sending l'.sending packets
  holds : ∀ frame level, Frame.ack? frame = none →
    frame ∈ l.sending.frameBuffer level ∨ event = .queue frame level →
    Holds l'.sending packets level frame ∨
      Holds l'.sending packets (SendingAgent.retarget l.sending level) frame
  placed : ∀ p ∈ packets, Placed p.1 p.2
  recovery : l'.recovery = l.recovery
  frameQueue : l'.client.frameQueue = l.client.frameQueue
  outgoingPackets : l'.client.outgoingPackets = l.client.outgoingPackets ++ outgoing
  letters : outgoing.map letter = packets.map (fun p => letter p.1)

theorem Tracked.sends (hl : Tracked newHeader l) {event : SendingAgent.Event}
    (h : send newHeader mtu l event = some l')
    : ∃ packets outgoing, Sends newHeader mtu l l' event packets outgoing := by
  rcases Option.bind_eq_some_iff.mp h with ⟨sending, hsending, h⟩
  rcases Option.bind_eq_some_iff.mp h with ⟨client, hclient, h⟩
  injection h with h
  rw [← h]
  have hmove := SendingAgent.move_of_step hl.measured hsending
  rcases hmove.traffic with ⟨packets, hsent, htraffic, hholds⟩
  have hplaced := placed_packets htraffic hl.kept
  rw [hsent, List.drop_left] at hclient
  rcases sendPackets_letters hclient (fun p hp => (hplaced p hp).space) with
    ⟨hqueue, outgoing, hout, hletters⟩
  exact ⟨packets, outgoing, hmove, hsent, htraffic, hholds, hplaced, rfl, hqueue, hout, hletters⟩

theorem SentAs.mono {s s' : SendingAgent.State} (hsub : s.sent ⊆ s'.sent) {v : Letter} (h : SentAs s v)
    : SentAs s' v := by
  rcases h with ⟨q, level, hq, hv⟩
  exact ⟨q, level, hsub hq, hv⟩

theorem Stands.mono {s s' : SendingAgent.State} (hsub : s.sent ⊆ s'.sent) {k : Nat}
    {entry : RetransmittableFrames} (h : Stands s k entry)
    : Stands s' k entry := by
  rcases h.packet with ⟨v, hv, hrest⟩
  exact ⟨h.level, v, hv.mono hsub, hrest⟩

theorem Tracked.of_sends (hdistinct : Distinct newHeader) (hl : Tracked newHeader l)
    {event : SendingAgent.Event} {packets : List (FramePacket × EncryptionLevel)}
    {outgoing : List FramePacket} (h : Sends newHeader mtu l l' event packets outgoing)
    : Tracked newHeader l' := by
  have hsub : l.sending.sent ⊆ l'.sending.sent := by
    rw [h.sent]
    exact List.subset_append_left _ _
  have hle := packetsCreated_le h.traffic
  have hletters : l'.client.outgoingPackets.map letter =
      l.client.outgoingPackets.map letter ++ packets.map (fun p => letter p.1) := by
    rw [h.outgoingPackets, List.map_append, h.letters]
  have hnumbers := numbers_of_traffic h.traffic hletters
  -- A number that was given before is not the one of the packet that was built.
  have hfresh : ∀ level k, AppData level → Created newHeader l.sending.packetsCreated k →
      k ≠ (newHeader level l.sending.packetsCreated).packetNumber := by
    rintro level k hlevel ⟨level', i, hlevel', hi, rfl⟩ heq
    have hsame := hdistinct level' level i _ hlevel' hlevel heq
    omega
  refine ⟨h.move.measured hl.measured, placed_packetBuffer h.traffic hl.kept, ?_, ?_, ?_, ?_⟩
  . intro p hp hspace
    rw [h.outgoingPackets] at hp
    cases List.mem_append.mp hp with
    | inl hp =>
      rcases hl.outgoing p hp hspace with ⟨hlevel, hsent⟩
      exact ⟨hlevel, hsent.mono hsub⟩
    | inr hp =>
      have hletter : letter p ∈ packets.map (fun p => letter p.1) := by
        rw [← h.letters]
        exact List.mem_map_of_mem hp
      rcases List.mem_map.mp hletter with ⟨⟨q, level⟩, hq, heq⟩
      have hq' := h.placed _ hq
      have hqspace : q.pnSpace = p.pnSpace := congrArg Letter.space heq
      have hqlevel : q.encryptionLevel = p.encryptionLevel := congrArg Letter.level heq
      refine ⟨?_, q, level, ?_, heq⟩
      . rw [← hqlevel, hq'.encryptionLevel]
        exact hq'.pnSpace.mp (hqspace.trans hspace)
      . rw [h.sent]
        exact List.mem_append_right _ hq
  . rcases hnumbers with heq | ⟨level, hlevel, hcreated, heq⟩
    . rw [heq]
      exact hl.nodup
    . rw [heq, add_comm, Multiset.singleton_add, Multiset.nodup_cons]
      refine ⟨?_, hl.nodup⟩
      intro hmem
      exact hfresh level _ hlevel (hl.created _ hmem) rfl
  . intro k hk
    rcases hnumbers with heq | ⟨level, hlevel, hcreated, heq⟩
    . rw [heq] at hk
      exact (hl.created k hk).mono hle
    . rw [heq, Multiset.mem_add, Multiset.mem_singleton] at hk
      cases hk with
      | inl hk => exact (hl.created k hk).mono hle
      | inr hk => exact ⟨level, _, hlevel, by omega, hk⟩
  . intro k entry hentry
    rw [h.recovery] at hentry
    rcases hl.buffered k entry hentry with ⟨hk, hnot, hstands⟩
    refine ⟨hk.mono hle, ?_, hstands.mono hsub⟩
    rcases hnumbers with heq | ⟨level, hlevel, hcreated, heq⟩
    . rw [heq]
      exact hnot
    . rw [heq, Multiset.mem_add, Multiset.mem_singleton]
      rintro (hmem | heq')
      . exact hnot hmem
      . exact hfresh level k hlevel hk heq'

theorem numbers_append_initial (s : SendingAgent.State) (outgoing : List FramePacket)
    {packets : List FramePacket} (h : ∀ p ∈ packets, p.pnSpace = .initial)
    : numbers s (outgoing ++ packets) = numbers s outgoing := by
  have hnone : appNumbers (packets.map letter) = 0 := by
    unfold appNumbers
    rw [List.filter_eq_nil_iff.mpr]
    . rfl
    . intro v hv
      rcases List.mem_map.mp hv with ⟨p, hp, rfl⟩
      simp [letter, h p hp]
  unfold numbers
  rw [List.map_append, appNumbers_append, hnone, add_zero]

theorem Tracked.of_below (hl : Tracked newHeader l) (hsending : l'.sending = l.sending)
    (hbelow : RecoveryAgent.Below l'.recovery l.recovery) (packets : List FramePacket)
    (hout : l'.client.outgoingPackets = l.client.outgoingPackets ++ packets)
    (hpackets : ∀ p ∈ packets, p.pnSpace = .initial)
    : Tracked newHeader l' := by
  have hnumbers : numbers l'.sending l'.client.outgoingPackets =
      numbers l.sending l.client.outgoingPackets := by
    rw [hsending, hout, numbers_append_initial _ _ hpackets]
  refine ⟨hsending ▸ hl.measured, hsending ▸ hl.kept, ?_, ?_, ?_, ?_⟩
  . intro p hp hspace
    rw [hout] at hp
    rw [hsending]
    cases List.mem_append.mp hp with
    | inl hp => exact hl.outgoing p hp hspace
    | inr hp =>
      rw [hpackets p hp] at hspace
      contradiction
  . rw [hnumbers]
    exact hl.nodup
  . rw [hnumbers, hsending]
    exact hl.created
  . intro k entry hentry
    rw [hnumbers, hsending]
    exact hl.buffered k entry (hbelow .appData k entry hentry)

theorem numbers_cons (s : SendingAgent.State) (p : FramePacket) (packets : List FramePacket)
    : numbers s (p :: packets) =
        (if p.pnSpace = .appData then {p.header.packetNumber} else 0) + numbers s packets := by
  have hcons : appNumbers ((p :: packets).map letter) =
      (if p.pnSpace = .appData then {p.header.packetNumber} else 0) + appNumbers (packets.map letter) := by
    rw [← List.singleton_append, List.map_append, appNumbers_append]
    congr 1
    unfold appNumbers letter
    split
    . next hspace => simp [hspace]
    . next hspace => simp [hspace]
  unfold numbers
  rw [hcons, add_left_comm]

/-- What the recovery agent does with a packet that it takes from its channel. -/
structure Takes (l l' : Loop τ) (now : Nat) (p : FramePacket) : Prop where
  outgoing : l.client.outgoingPackets = p :: l'.client.outgoingPackets
  sending : l'.sending = l.sending
  frameQueue : l'.client.frameQueue = l.client.frameQueue
  recovery : RecoveryAgent.handleOutgoing now l.recovery p = some l'.recovery

theorem takes_of_step {now : Nat} (h : step lib newHeader mtu l (.outgoing now) = some l')
    : ∃ p, Takes l l' now p := by
  cases hout : l.client.outgoingPackets with
  | nil => simp [step, hout] at h
  | cons p packets =>
    simp only [step, hout] at h
    rcases Option.bind_eq_some_iff.mp h with ⟨r, hr, h⟩
    rcases Option.bind_eq_some_iff.mp hr with ⟨agent, hagent, hr⟩
    injection hr with hr
    injection h with h
    rw [← h, ← hr]
    exact ⟨p, hout, rfl, rfl, hagent⟩

theorem handleOutgoing_spec {now : Nat} {agent agent' : RecoveryAgent} {p : FramePacket}
    (h : RecoveryAgent.handleOutgoing now agent p = some agent') (n : Nat)
    : agent'.retransmissionBuffer .appData n =
        if p.pnSpace = .appData ∧ n = p.header.packetNumber ∧ p.getRetransmittableFrames ≠ [] then
          some ⟨p.getRetransmittableFrames, now, p.encryptionLevel⟩
        else
          agent.retransmissionBuffer .appData n := by
  unfold RecoveryAgent.handleOutgoing at h
  dsimp only at h
  split at h
  . next hframes =>
    rw [gt_iff_lt, List.length_pos_iff] at hframes
    split at h
    . contradiction
    . injection h with h
      rw [← h]
      dsimp only
      by_cases hspace : p.pnSpace = .appData
      . rw [hspace, Function.update_self, Function.update_apply]
        simp [hframes]
      . rw [Function.update_of_ne (Ne.symm hspace)]
        simp [hspace]
  . next hframes =>
    rw [gt_iff_lt, List.length_pos_iff, not_not] at hframes
    injection h with h
    simp [hframes, h]

theorem Tracked.of_takes (hl : Tracked newHeader l) {now : Nat} {p : FramePacket} (h : Takes l l' now p)
    : Tracked newHeader l' := by
  have hnumbers : numbers l.sending l.client.outgoingPackets =
      (if p.pnSpace = .appData then {p.header.packetNumber} else 0) +
        numbers l'.sending l'.client.outgoingPackets := by
    rw [h.outgoing, h.sending, numbers_cons]
  have hsub : ∀ k ∈ numbers l'.sending l'.client.outgoingPackets,
      k ∈ numbers l.sending l.client.outgoingPackets := by
    intro k hk
    rw [hnumbers]
    exact Multiset.mem_add.mpr (Or.inr hk)
  refine ⟨h.sending ▸ hl.measured, h.sending ▸ hl.kept, ?_, ?_, ?_, ?_⟩
  . intro p' hp' hspace
    rw [h.sending]
    apply hl.outgoing p' _ hspace
    rw [h.outgoing]
    exact List.mem_cons_of_mem p hp'
  . have hnodup := hl.nodup
    rw [hnumbers] at hnodup
    exact Multiset.nodup_of_le (Multiset.le_add_left _ _) hnodup
  . intro k hk
    rw [h.sending]
    exact hl.created k (hsub k hk)
  . intro k entry hentry
    rw [handleOutgoing_spec h.recovery k] at hentry
    split at hentry
    . next hnew =>
      rcases hnew with ⟨hspace, rfl, _⟩
      injection hentry with hentry
      rw [if_pos hspace] at hnumbers
      have hnodup := hl.nodup
      rw [hnumbers, Multiset.singleton_add, Multiset.nodup_cons] at hnodup
      rcases hl.outgoing p (by rw [h.outgoing]; simp) hspace with ⟨hlevel, hsent⟩
      refine ⟨?_, hnodup.1, ?_⟩
      . rw [h.sending]
        apply hl.created
        rw [hnumbers, Multiset.singleton_add]
        exact Multiset.mem_cons_self _ _
      . rw [h.sending, ← hentry]
        exact ⟨hlevel, letter p, hsent, rfl, hspace, List.filter_subset_self _⟩
    . rcases hl.buffered k entry hentry with ⟨hk, hnot, hstands⟩
      rw [h.sending]
      refine ⟨hk, ?_, hstands⟩
      intro hmem
      exact hnot (hsub k (by rw [h.sending]; exact hmem))

/-- Where application data is as long as no packet that carries it is acknowledged. -/
def Pending (l : Loop τ) (f : Frame) : Prop :=
  (∃ q ∈ l.client.frameQueue, q.frame = f ∧ ForAppData q.encryptionLevel) ∨
    (∃ level, ForAppData level ∧ f ∈ l.sending.frameBuffer level) ∨
    (∃ level, ForAppData level ∧ ∃ p ∈ l.sending.packetBuffer level, f ∈ p.frames) ∨
    (∃ p ∈ l.client.outgoingPackets, p.pnSpace = .appData ∧ f ∈ p.frames) ∨
    ∃ n entry, l.recovery.retransmissionBuffer .appData n = some entry ∧ f ∈ entry.frames

theorem pending_of_holds {event : SendingAgent.Event} {packets : List (FramePacket × EncryptionLevel)}
    {outgoing : List FramePacket} (h : Sends newHeader mtu l l' event packets outgoing)
    {level : EncryptionLevel} (hlevel : ForAppData level) {f : Frame}
    (hf : Holds l'.sending packets level f)
    : Pending l' f := by
  rcases hf with hf | hf | ⟨packet, hpacket, hf⟩
  . exact Or.inr (Or.inl ⟨level, hlevel, hf⟩)
  . exact Or.inr (Or.inr (Or.inl ⟨level, hlevel, hf⟩))
  . have hplaced := h.placed _ hpacket
    have happ : AppData level := by
      apply hlevel.resolve_right
      rintro rfl
      have hconcrete := hplaced.concrete
      simp [SendingAgent.Concrete] at hconcrete
    have hletter : letter packet ∈ outgoing.map letter := by
      rw [h.letters]
      exact List.mem_map.mpr ⟨_, hpacket, rfl⟩
    rcases List.mem_map.mp hletter with ⟨p, hp, heq⟩
    have hspace : p.pnSpace = packet.pnSpace := congrArg Letter.space heq
    have hframes : p.frames = packet.frames := congrArg Letter.frames heq
    refine Or.inr (Or.inr (Or.inr (Or.inl ⟨p, ?_, ?_, ?_⟩)))
    . rw [h.outgoingPackets]
      exact List.mem_append_right _ hp
    . rw [hspace]
      exact hplaced.pnSpace.mpr happ
    . rw [hframes]
      exact hf

theorem Pending.of_sends {event : SendingAgent.Event} {packets : List (FramePacket × EncryptionLevel)}
    {outgoing : List FramePacket} (h : Sends newHeader mtu l l' event packets outgoing) {f : Frame}
    (hack : Frame.ack? f = none)
    (hf : Pending l f ∨ ∃ level, ForAppData level ∧ event = .queue f level)
    : Pending l' f := by
  -- A frame that waits for a level, or is queued for it.
  have hwaits : ∀ level, ForAppData level →
      f ∈ l.sending.frameBuffer level ∨ event = .queue f level → Pending l' f := by
    intro level hlevel hf
    cases h.holds f level hack hf with
    | inl hholds => exact pending_of_holds h hlevel hholds
    | inr hholds => exact pending_of_holds h (SendingAgent.retarget_forAppData _ hlevel) hholds
  rcases hf with (hf | ⟨level, hlevel, hf⟩ | ⟨level, hlevel, p, hp, hf⟩ | ⟨p, hp, hf⟩ | hf) |
    ⟨level, hlevel, hf⟩
  . rw [← h.frameQueue] at hf
    exact Or.inl hf
  . exact hwaits level hlevel (Or.inl hf)
  . exact pending_of_holds h hlevel (h.traffic.holds_of_packet hp hf)
  . refine Or.inr (Or.inr (Or.inr (Or.inl ⟨p, ?_, hf⟩)))
    rw [h.outgoingPackets]
    exact List.mem_append_left _ hp
  . rw [← h.recovery] at hf
    exact Or.inr (Or.inr (Or.inr (Or.inr hf)))
  . exact hwaits level hlevel (Or.inr hf)

theorem Pending.of_takes (hl : Tracked newHeader l) {now : Nat} {p : FramePacket} (h : Takes l l' now p)
    {f : Frame} (hretransmit : f.shouldBeRetransmitted) (hf : Pending l f)
    : Pending l' f := by
  rcases hf with hf | hf | hf | ⟨p', hp', hspace, hf⟩ | ⟨n, entry, hentry, hf⟩
  . rw [← h.frameQueue] at hf
    exact Or.inl hf
  . rw [← h.sending] at hf
    exact Or.inr (Or.inl hf)
  . rw [← h.sending] at hf
    exact Or.inr (Or.inr (Or.inl hf))
  . rw [h.outgoing] at hp'
    cases List.mem_cons.mp hp' with
    | inl heq =>
      subst heq
      have hmem : f ∈ p'.getRetransmittableFrames := by
        unfold FramePacket.getRetransmittableFrames
        rw [List.mem_filter]
        exact ⟨hf, by simp [hretransmit]⟩
      refine Or.inr (Or.inr (Or.inr (Or.inr ⟨p'.header.packetNumber,
        ⟨p'.getRetransmittableFrames, now, p'.encryptionLevel⟩, ?_, hmem⟩)))
      rw [handleOutgoing_spec h.recovery]
      exact if_pos ⟨hspace, rfl, List.ne_nil_of_mem hmem⟩
    | inr hp' => exact Or.inr (Or.inr (Or.inr (Or.inl ⟨p', hp', hspace, hf⟩)))
  . refine Or.inr (Or.inr (Or.inr (Or.inr ⟨n, entry, ?_, hf⟩)))
    rw [handleOutgoing_spec h.recovery, if_neg]
    . exact hentry
    -- The number of the packet is not in the buffer yet.
    . rintro ⟨hspace, rfl, _⟩
      apply (hl.buffered _ entry hentry).2.1
      rw [h.outgoing, numbers_cons, if_pos hspace, Multiset.singleton_add]
      exact Multiset.mem_cons_self _ _

/--
The acknowledgements of the peer have no gap below which the buffer holds a packet, as the recovery agent
takes these out too. A batch is sent in full.
-/
def Faithful (l : Loop τ) (event : Event) : Prop :=
  match event with
  | .incoming (.frames p) => p.pnSpace = .appData → ∀ ack ∈ RecoveryAgent.ackFrames p,
      ack.RangesWellFormed ∧ ∀ n, l.recovery.retransmissionBuffer .appData n ≠ none →
        ack.largestAcknowledged ≤ n + RecoveryAgent.sweepLength ack → n ≤ ack.largestAcknowledged →
        ack.Acknowledges n
  | .tick now order => ∀ b ∈ (order.foldl (RecoveryAgent.expire now) ([], l.recovery)).1.dropLast,
      RecoveryAgent.isFirstInitial b ≠ some true
  | _ => True

theorem handleAcks_kept {acks : List AckFrame} {r r' : RecoveryAgent × Client τ}
    (h : acks.foldlM (RecoveryAgent.handleAck lib .appData) r = some r')
    (hacks : ∀ ack ∈ acks, ack.RangesWellFormed ∧
      ∀ n, r.1.retransmissionBuffer .appData n ≠ none →
        ack.largestAcknowledged ≤ n + RecoveryAgent.sweepLength ack → n ≤ ack.largestAcknowledged →
        ack.Acknowledges n)
    {n : Nat} {entry : RetransmittableFrames} (hentry : r.1.retransmissionBuffer .appData n = some entry)
    : r'.1.retransmissionBuffer .appData n = some entry ∨ ∃ ack ∈ acks, ack.Acknowledges n := by
  induction acks generalizing r with
  | nil =>
    injection h with h
    rw [← h]
    exact Or.inl hentry
  | cons ack acks ih =>
    rw [List.foldlM_cons] at h
    rcases Option.bind_eq_some_iff.mp h with ⟨r₁, hr₁, h⟩
    have hprocess := (RecoveryAgent.handleAck_spec hr₁).1
    have hbelow := (RecoveryAgent.processAck_batch hprocess).2.1
    rw [List.forall_mem_cons] at hacks
    rcases hacks with ⟨⟨hwf, hswept⟩, hacks⟩
    rcases RecoveryAgent.processAck_eq r.1 hwf .appData with ⟨agent, hagent, hbuffer⟩
    rw [hprocess] at hagent
    injection hagent with hagent
    injection hagent with _ hagent
    by_cases hin : ack.largestAcknowledged ≤ n + RecoveryAgent.sweepLength ack ∧ n ≤ ack.largestAcknowledged
    . have hacked := hswept n (by simp [hentry]) hin.1 hin.2
      exact Or.inr ⟨ack, List.mem_cons_self, hacked⟩
    . have hentry₁ : r₁.1.retransmissionBuffer .appData n = some entry := by
        rw [hagent, hbuffer n, if_neg hin]
        exact hentry
      have hacks₁ : ∀ ack ∈ acks, ack.RangesWellFormed ∧
          ∀ n, r₁.1.retransmissionBuffer .appData n ≠ none →
            ack.largestAcknowledged ≤ n + RecoveryAgent.sweepLength ack → n ≤ ack.largestAcknowledged →
            ack.Acknowledges n := by
        intro ack' hack'
        refine ⟨(hacks ack' hack').1, ?_⟩
        intro n' hne
        apply (hacks ack' hack').2
        rcases Option.ne_none_iff_exists'.mp hne with ⟨entry', hentry'⟩
        simp [hbelow .appData n' entry' hentry']
      rcases ih h hacks₁ hentry₁ with hkept | ⟨ack', hack', hacked⟩
      . exact Or.inl hkept
      . exact Or.inr ⟨ack', List.mem_cons_of_mem ack hack', hacked⟩

theorem handleAcks_other {space : PNSpace} (hspace : space ≠ .appData) {acks : List AckFrame}
    {r r' : RecoveryAgent × Client τ}
    (h : acks.foldlM (RecoveryAgent.handleAck lib space) r = some r')
    : r'.1.retransmissionBuffer .appData = r.1.retransmissionBuffer .appData := by
  apply Run.invariant_of_run (RecoveryAgent.handleAck lib space) _ (fun _ _ => trivial) _ h
  . intro r₁ ack r₂ _ hr₁ hstep
    have hprocess := (RecoveryAgent.handleAck_spec hstep).1
    rw [(RecoveryAgent.processAck_batch hprocess).2.2 .appData (Ne.symm hspace)]
    exact hr₁
  . rfl

theorem emptyBuffer_other (agent : RecoveryAgent) {space : PNSpace} (hspace : space ≠ .appData)
    : (agent.emptyBuffer space).retransmissionBuffer .appData = agent.retransmissionBuffer .appData := by
  exact Function.update_of_ne (Ne.symm hspace) _ _

def AckedBy (p : Packet) (n : Nat) : Prop :=
  ∃ q, p = .frames q ∧ q.pnSpace = .appData ∧ ∃ ack ∈ RecoveryAgent.ackFrames q, ack.Acknowledges n

theorem handleIncoming_kept {p : Packet} {r : RecoveryAgent × Client τ}
    (h : RecoveryAgent.handleIncoming lib (l.recovery, l.client) p = some r)
    (hfaithful : Faithful l (.incoming p)) {n : Nat} {entry : RetransmittableFrames}
    (hentry : l.recovery.retransmissionBuffer .appData n = some entry)
    : r.1.retransmissionBuffer .appData n = some entry ∨ AckedBy p n := by
  cases p with
  | frames p =>
    rcases Option.bind_eq_some_iff.mp h with ⟨r₁, hacks, h⟩
    have hr : r.1.retransmissionBuffer .appData = r₁.1.retransmissionBuffer .appData := by
      split at h
      all_goals
        injection h with h
        rw [← h]
      exact emptyBuffer_other _ (by decide)
    rw [hr]
    by_cases hspace : p.pnSpace = .appData
    . rw [hspace] at hacks
      rcases handleAcks_kept hacks (hfaithful hspace) hentry with hkept | ⟨ack, hack, hacked⟩
      . exact Or.inl hkept
      . exact Or.inr ⟨p, rfl, hspace, ack, hack, hacked⟩
    . rw [handleAcks_other hspace hacks]
      exact Or.inl hentry
  | retry p =>
    injection h with h
    rw [← h, emptyBuffer_other _ (by decide)]
    exact Or.inl hentry
  | versionNegotiation p =>
    injection h with h
    rw [← h, emptyBuffer_other _ (by decide)]
    exact Or.inl hentry

def Acknowledged (events : List Event) (l : Loop τ) (f : Frame) : Prop :=
  ∃ p, .incoming p ∈ events ∧ ∃ q level, (q, level) ∈ l.sending.sent ∧ q.pnSpace = .appData ∧
    f ∈ q.frames ∧ AckedBy p q.header.packetNumber

theorem Acknowledged.mono {events events' : List Event} (hsub : events ⊆ events')
    (hsent : l.sending.sent ⊆ l'.sending.sent) {f : Frame} (h : Acknowledged events l f)
    : Acknowledged events' l' f := by
  rcases h with ⟨p, hp, q, level, hq, hrest⟩
  exact ⟨p, hsub hp, q, level, hsent hq, hrest⟩

theorem recover_eq {input : RecoveryAgent.Input} (h : recover lib l input = some l')
    : l'.sending = l.sending ∧
      RecoveryAgent.step lib (l.recovery, l.client) input = some (l'.recovery, l'.client) := by
  rcases Option.bind_eq_some_iff.mp h with ⟨r, hr, h⟩
  injection h with h
  rw [← h]
  exact ⟨rfl, hr⟩

theorem Pending.of_buffer (hsending : l'.sending = l.sending)
    (hqueue : l.client.frameQueue ⊆ l'.client.frameQueue)
    (hout : l.client.outgoingPackets ⊆ l'.client.outgoingPackets) {f : Frame} {P : Prop}
    (hbuffer : ∀ n entry, l.recovery.retransmissionBuffer .appData n = some entry → f ∈ entry.frames →
      Pending l' f ∨ P)
    (hf : Pending l f)
    : Pending l' f ∨ P := by
  rcases hf with ⟨q, hq, hf⟩ | hf | hf | ⟨p, hp, hf⟩ | ⟨n, entry, hentry, hf⟩
  . exact Or.inl (Or.inl ⟨q, hqueue hq, hf⟩)
  . rw [← hsending] at hf
    exact Or.inl (Or.inr (Or.inl hf))
  . rw [← hsending] at hf
    exact Or.inl (Or.inr (Or.inr (Or.inl hf)))
  . exact Or.inl (Or.inr (Or.inr (Or.inr (Or.inl ⟨p, hout hp, hf⟩))))
  . exact hbuffer n entry hentry hf

theorem ack?_of_shouldBeRetransmitted {f : Frame} (h : f.shouldBeRetransmitted)
    : Frame.ack? f = none := by
  cases f with
  | ack f => contradiction
  | _ => rfl

structure Advances (newHeader : EncryptionLevel → Nat → Header) (l l' : Loop τ) (event : Event) : Prop where
  tracked : Tracked newHeader l'
  sent : l.sending.sent ⊆ l'.sending.sent
  pending : ∀ f, f.shouldBeRetransmitted → Pending l f → Pending l' f ∨ Acknowledged [event] l' f

theorem Tracked.withQueue (hl : Tracked newHeader l) (queue : List QueuedFrame)
    : Tracked newHeader { l with client := { l.client with frameQueue := queue } } :=
  ⟨hl.measured, hl.kept, hl.outgoing, hl.nodup, hl.created, hl.buffered⟩

theorem advances_send (hdistinct : Distinct newHeader) (hl : Tracked newHeader l)
    {event : SendingAgent.Event} (h : send newHeader mtu l event = some l') (event' : Event)
    : Advances newHeader l l' event' := by
  rcases hl.sends h with ⟨packets, outgoing, hsends⟩
  refine ⟨hl.of_sends hdistinct hsends, ?_, ?_⟩
  . rw [hsends.sent]
    exact List.subset_append_left _ _
  . intro f hretransmit hf
    exact Or.inl (Pending.of_sends hsends (ack?_of_shouldBeRetransmitted hretransmit) (Or.inl hf))

theorem advances_queue (hdistinct : Distinct newHeader) (hl : Tracked newHeader l)
    (h : step lib newHeader mtu l .queue = some l')
    : Advances newHeader l l' .queue := by
  cases hqueue : l.client.frameQueue with
  | nil => simp [step, hqueue] at h
  | cons q queue =>
    simp only [step, hqueue] at h
    have hl₁ := hl.withQueue queue
    rcases hl₁.sends h with ⟨packets, outgoing, hsends⟩
    refine ⟨hl₁.of_sends hdistinct hsends, ?_, ?_⟩
    . rw [hsends.sent]
      exact List.subset_append_left _ _
    . intro f hretransmit hf
      apply Or.inl
      apply Pending.of_sends hsends (ack?_of_shouldBeRetransmitted hretransmit)
      rcases hf with ⟨q', hq', rfl, hlevel⟩ | hf
      . rw [hqueue] at hq'
        cases List.mem_cons.mp hq' with
        | inl heq =>
          rw [← heq]
          exact Or.inr ⟨q'.encryptionLevel, hlevel, rfl⟩
        | inr hq' => exact Or.inl (Or.inl ⟨q', hq', rfl, hlevel⟩)
      . exact Or.inl (Or.inr hf)

theorem advances_incoming (hl : Tracked newHeader l) {p : Packet}
    (h : step lib newHeader mtu l (.incoming p) = some l') (hfaithful : Faithful l (.incoming p))
    : Advances newHeader l l' (.incoming p) := by
  rcases recover_eq h with ⟨hsending, hstep⟩
  rcases RecoveryAgent.handleIncoming_spec hstep with ⟨hbelow, hsame⟩
  have hout : l'.client.outgoingPackets = l.client.outgoingPackets := hsame.outgoingPackets
  have hqueue : l'.client.frameQueue = l.client.frameQueue := hsame.frameQueue
  refine ⟨?_, by rw [hsending]; exact List.Subset.refl _, ?_⟩
  . apply hl.of_below hsending hbelow []
    . rw [List.append_nil]
      exact hout
    . simp
  . intro f _ hf
    apply Pending.of_buffer hsending _ _ _ hf
    . rw [hqueue]
      exact List.Subset.refl _
    . rw [hout]
      exact List.Subset.refl _
    . intro n entry hentry hmem
      cases handleIncoming_kept hstep hfaithful hentry with
      | inl hkept => exact Or.inl (Or.inr (Or.inr (Or.inr (Or.inr ⟨n, entry, hkept, hmem⟩))))
      | inr hacked =>
        rcases (hl.buffered n entry hentry).2.2.packet with ⟨v, ⟨q, level, hq, rfl⟩, rfl, hspace, hframes⟩
        rw [← hsending] at hq
        exact Or.inr ⟨p, List.mem_singleton.mpr rfl, q, level, hq, hspace, hframes hmem, hacked⟩

theorem advances_tick (hl : Tracked newHeader l) {now : Nat} {order : List (PNSpace × Nat)}
    (h : step lib newHeader mtu l (.tick now order) = some l') (hfaithful : Faithful l (.tick now order))
    : Advances newHeader l l' (.tick now order) := by
  rcases recover_eq h with ⟨hsending, hstep⟩
  rcases Option.bind_eq_some_iff.mp hstep with ⟨c, hbatch, hstep⟩
  injection hstep with hstep
  injection hstep with hrecovery hclient
  dsimp only at hbatch hrecovery
  have hexpired := RecoveryAgent.expired_foldl now l.recovery order
  have hbelow := hexpired.below
  have hkept := hexpired.kept
  rw [hrecovery] at hbelow hkept
  rcases RecoveryAgent.retransmitBatch_resent hbatch with ⟨queued, packets, hresent, hall⟩
  rw [hclient] at hresent
  refine ⟨?_, by rw [hsending]; exact List.Subset.refl _, ?_⟩
  . apply hl.of_below hsending hbelow packets hresent.outgoingPackets
    intro p hp
    exact (hresent.packets p hp).1
  . intro f _ hf
    apply Pending.of_buffer hsending _ _ _ hf
    . rw [hresent.frameQueue]
      exact List.subset_append_left _ _
    . rw [hresent.outgoingPackets]
      exact List.subset_append_left _ _
    . intro n entry hentry hmem
      apply Or.inl
      cases hkept .appData n entry hentry with
      | inl hkept => exact Or.inr (Or.inr (Or.inr (Or.inr ⟨n, entry, hkept, hmem⟩)))
      | inr hexpired =>
        have hlevel := (hl.buffered n entry hentry).2.2.level
        have hqueued := hall hfaithful entry hexpired (by rcases hlevel with heq | heq <;> simp [heq])
        refine Or.inl ⟨⟨f, entry.level⟩, ?_, rfl, Or.inl hlevel⟩
        rw [hresent.frameQueue]
        apply List.mem_append_right
        apply hqueued
        exact List.mem_map.mpr ⟨f, hmem, rfl⟩

theorem advances_encryptionLevel (hl : Tracked newHeader l) {e : DirectionalEncryptionLevel}
    (h : step lib newHeader mtu l (.encryptionLevel e) = some l')
    : Advances newHeader l l' (.encryptionLevel e) := by
  rcases recover_eq h with ⟨hsending, hstep⟩
  injection hstep with hstep
  injection hstep with hrecovery hclient
  have hbuffer : l'.recovery.retransmissionBuffer .appData = l.recovery.retransmissionBuffer .appData := by
    rw [← hrecovery]
    unfold RecoveryAgent.handleLevel
    split
    . rw [emptyBuffer_other _ (by decide), emptyBuffer_other _ (by decide)]
    . rfl
  have hbelow := RecoveryAgent.below_handleLevel l.recovery e
  dsimp only at hrecovery hclient
  rw [hrecovery] at hbelow
  refine ⟨?_, by rw [hsending]; exact List.Subset.refl _, ?_⟩
  . apply hl.of_below hsending hbelow []
    . rw [List.append_nil, hclient]
    . simp
  . intro f _ hf
    apply Pending.of_buffer hsending _ _ _ hf
    . rw [hclient]
      exact List.Subset.refl _
    . rw [hclient]
      exact List.Subset.refl _
    . intro n entry hentry hmem
      rw [← hbuffer] at hentry
      exact Or.inl (Or.inr (Or.inr (Or.inr (Or.inr ⟨n, entry, hentry, hmem⟩))))

theorem advances_submit (hl : Tracked newHeader l) (f : Frame) (level : EncryptionLevel)
    : Advances newHeader l { l with client := l.client.submitFrame f level } (.submit f level) := by
  refine ⟨hl.withQueue _, List.Subset.refl _, ?_⟩
  intro f' _ hf
  apply Or.inl
  rcases hf with ⟨q, hq, hf⟩ | hf
  . exact Or.inl ⟨q, List.mem_append_left _ hq, hf⟩
  . exact Or.inr hf

theorem Tracked.advances (hdistinct : Distinct newHeader) (hl : Tracked newHeader l) {event : Event}
    (h : step lib newHeader mtu l event = some l') (hfaithful : Faithful l event)
    : Advances newHeader l l' event := by
  cases event with
  | submit f level =>
    injection h with h
    rw [← h]
    exact advances_submit hl f level
  | queue => exact advances_queue hdistinct hl h
  | timer level => exact advances_send hdistinct hl h _
  | announce level read => exact advances_send hdistinct hl h _
  | outgoing now =>
    rcases takes_of_step h with ⟨p, htakes⟩
    refine ⟨hl.of_takes htakes, by rw [htakes.sending]; exact List.Subset.refl _, ?_⟩
    intro f hretransmit hf
    exact Or.inl (hf.of_takes hl htakes hretransmit)
  | incoming p => exact advances_incoming hl h hfaithful
  | tick now order => exact advances_tick hl h hfaithful
  | encryptionLevel e => exact advances_encryptionLevel hl h

theorem pending_submit (l : Loop τ) (f : Frame) {level : EncryptionLevel} (hlevel : ForAppData level)
    : Pending { l with client := l.client.submitFrame f level } f :=
  Or.inl ⟨⟨f, level⟩, List.mem_append_right _ (List.mem_singleton.mpr rfl), rfl, hlevel⟩

structure Safe (newHeader : EncryptionLevel → Nat → Header) (events : List Event) (l : Loop τ) : Prop where
  tracked : Tracked newHeader l
  frames : ∀ f level, .submit f level ∈ events → ForAppData level → f.shouldBeRetransmitted →
    Pending l f ∨ Acknowledged events l f

theorem Safe.step (hdistinct : Distinct newHeader) {events : List Event} {event : Event}
    (hl : Safe newHeader events l) (hfaithful : Faithful l event)
    (h : step lib newHeader mtu l event = some l')
    : Safe newHeader (events ++ [event]) l' := by
  have hadvances := hl.tracked.advances hdistinct h hfaithful
  refine ⟨hadvances.tracked, ?_⟩
  intro f level hsubmit hlevel hretransmit
  cases List.mem_append.mp hsubmit with
  | inl hold =>
    cases hl.frames f level hold hlevel hretransmit with
    | inr hacked => exact Or.inr (hacked.mono (List.subset_append_left _ _) hadvances.sent)
    | inl hpending =>
      cases hadvances.pending f hretransmit hpending with
      | inl hpending => exact Or.inl hpending
      | inr hacked => exact Or.inr (hacked.mono (List.subset_append_right _ _) (List.Subset.refl _))
  | inr hnew =>
    rw [← List.mem_singleton.mp hnew] at h
    injection h with h
    rw [← h]
    exact Or.inl (pending_submit l f hlevel)

theorem appData_stays_until_acknowledged (lib : Libraries τ) (newHeader : EncryptionLevel → Nat → Header)
    (mtu : Nat) (hdistinct : Distinct newHeader) (c : Client τ) (hout : c.outgoingPackets = [])
    (events : List Event) (hfaithful : Run.Guarded (step lib newHeader mtu) Faithful (start c) events)
    (hrun : Run.run (step lib newHeader mtu) (start c) events = some l) {f : Frame}
    {level : EncryptionLevel} (hsubmit : .submit f level ∈ events) (hlevel : ForAppData level)
    (hretransmit : f.shouldBeRetransmitted)
    : Pending l f ∨ Acknowledged events l f := by
  have hstart : Safe newHeader [] (start c) := by
    refine ⟨tracked_start hout, ?_⟩
    intro _ _ hsubmit
    contradiction
  have hsafe := Run.inv_of_run (step lib newHeader mtu)
    (fun _ _ _ _ hs hok hstep => Safe.step hdistinct hs hok hstep) [] _ events hstart hfaithful hrun
  exact hsafe.frames f level hsubmit hlevel hretransmit

theorem faithful_one_range (l : Loop τ) {p : FramePacket}
    (h : ∀ ack ∈ RecoveryAgent.ackFrames p, ack.ackBlockCount = 0 ∧ ack.largestAcknowledged < 2 ^ 64 ∧
      ∃ b, ack.ackBlocks = [b] ∧ b.block ≤ ack.largestAcknowledged)
    : Faithful l (.incoming (.frames p)) := by
  intro _ ack hack
  rcases h ack hack with ⟨hcount, hlt, b, hblocks, hle⟩
  have hiff : ∀ n : Int, ack.Acknowledges n ↔
      (ack.largestAcknowledged - b.block ≤ n ∧ n ≤ ack.largestAcknowledged) := by
    intro n
    simp only [AckFrame.Acknowledges, hblocks, GapRuns.Reads, or_false]
  refine ⟨⟨by rw [hblocks, hcount]; rfl, hlt, ?_⟩, ?_⟩
  . intro n hn
    have hrange := (hiff n).mp hn
    omega
  . intro n _ hlow hhigh
    simp only [RecoveryAgent.sweepLength, hblocks, RecoveryAgent.distance, List.map_nil,
      List.sum_nil] at hlow
    rw [hiff]
    omega

theorem faithful_one_key (l : Loop τ) (now : Nat) (key : PNSpace × Nat)
    : Faithful l (.tick now [key]) := by
  have hnil : ([key].foldl (RecoveryAgent.expire now) ([], l.recovery)).1.dropLast = [] := by
    rw [List.foldl_cons, List.foldl_nil]
    unfold RecoveryAgent.expire
    dsimp only
    split
    . split <;> rfl
    . rfl
  intro b hb
  rw [hnil] at hb
  contradiction

end

def sampleHeader (_ : EncryptionLevel) (n : Nat) : Header := .short ⟨false, [], ⟨n, 1⟩, n⟩

def sampleLoopClient : Client Bool :=
  { sampleClient with
    cryptoStates := fun _ => some
      { write := some ⟨fun cleartext _ _ => cleartext ++ List.replicate 16 0, 16⟩
        headerWrite := some fun _ _ => 0 } }

/-- A frame is sent, times out and is queued again, then its first packet is acknowledged after all. -/
def sampleEvents (f : Frame) : List Event :=
  [.announce .oneRTT false, .submit f .bestAppData, .queue, .timer .bestAppData, .timer .oneRTT,
    .outgoing 100, .tick 601 [(.appData, 0)],
    .incoming (.frames ⟨sampleHeader .oneRTT 0, .appData, .oneRTT, [.ack ⟨0, 0, 0, [⟨0, 0⟩]⟩]⟩)]

theorem appData_stays_until_acknowledged_stream
    : ∃ l, Run.run (step sampleLibraries sampleHeader 1200) (start sampleLoopClient)
          (sampleEvents (.stream RecoveryAgent.sampleStream)) = some l ∧
        (Pending l (.stream RecoveryAgent.sampleStream) ∨
          Acknowledged (sampleEvents (.stream RecoveryAgent.sampleStream)) l
            (.stream RecoveryAgent.sampleStream)) := by
  have hsome : (Run.run (step sampleLibraries sampleHeader 1200) (start sampleLoopClient)
      (sampleEvents (.stream RecoveryAgent.sampleStream))).isSome := by
    decide +kernel
  rcases Option.isSome_iff_exists.mp hsome with ⟨l, hl⟩
  refine ⟨l, hl, ?_⟩
  have hdistinct : Distinct sampleHeader := by
    intro _ _ n n' _ _ heq
    exact heq
  have hsubmit : Event.submit (.stream RecoveryAgent.sampleStream) .bestAppData ∈
      sampleEvents (.stream RecoveryAgent.sampleStream) := by
    simp [sampleEvents]
  apply appData_stays_until_acknowledged sampleLibraries sampleHeader 1200 hdistinct sampleLoopClient rfl
    (sampleEvents (.stream RecoveryAgent.sampleStream)) _ hl hsubmit (by decide) rfl
  apply Run.Guarded.of_forall
  intro event hevent l
  simp only [sampleEvents, List.mem_cons, List.not_mem_nil, or_false] at hevent
  rcases hevent with rfl | rfl | rfl | rfl | rfl | rfl | rfl | rfl
  all_goals try trivial
  . exact faithful_one_key l _ _
  . apply faithful_one_range
    intro ack hack
    rw [List.mem_singleton.mp hack]
    exact ⟨rfl, by decide, _, rfl, by decide⟩

end Loop

end QuicTracker
