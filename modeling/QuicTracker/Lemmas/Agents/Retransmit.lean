import QuicTracker.Lemmas.Client
import QuicTracker.Impl.Agents.Retransmit

/-!
This module contains the verification of the retransmission of a batch: the elements up to the first one
that is taken for the first Initial packet are sent, and the ones behind it are not.
-/

namespace QuicTracker

namespace RecoveryAgent

variable {τ : Type} (lib : Libraries τ)

theorem sendPacket_congr (c : Client τ) (queue : List QueuedFrame) (p : FramePacket) (level : EncryptionLevel)
    : Client.sendPacket { c with frameQueue := queue } p level
        = (c.sendPacket p level).map (fun c => { c with frameQueue := queue }) := by
  unfold Client.sendPacket
  split
  . rfl
  . simp only [Option.bind_eq_bind, Option.map_bind, Function.comp_def, Option.pure_def, Option.map_some]

def sendInitial (c : Client τ) (frames : List Frame) : Option (Client τ) := do
  let (packet, c) ← Client.newInitialPacket lib c
  c.sendPacket { packet with frames := frames } .initial

theorem sendInitial_outgoing {c c' : Client τ} {frames : List Frame}
    (h : sendInitial lib c frames = some c')
    : c'.frameQueue = c.frameQueue
        ∧ ∃ p, c'.outgoingPackets = c.outgoingPackets ++ [p]
            ∧ p.pnSpace = .initial ∧ p.encryptionLevel = .initial ∧ p.frames = frames := by
  rcases Option.bind_eq_some_iff.mp h with ⟨⟨p, c₁⟩, hpacket, h⟩
  rcases Client.newInitialPacket_made lib hpacket with ⟨hc, hspace, hlevel⟩
  rcases Client.sendPacket_sent h with ⟨hnone, _⟩ | ⟨_, _, _, rfl⟩
  . rw [hspace] at hnone
    contradiction
  . rw [hc]
    exact ⟨rfl, _, rfl, hspace, hlevel, rfl⟩

theorem sendInitial_isSome_congr (c : Client τ) (queue : List QueuedFrame) (frames : List Frame)
    : (sendInitial lib { c with frameQueue := queue } frames).isSome
        = (sendInitial lib c frames).isSome := by
  have hheader : Client.newLongHeader lib PacketType.initial { c with frameQueue := queue } .initial
      = (Client.newLongHeader lib PacketType.initial c .initial).map
          (fun r => (r.1, { r.2 with frameQueue := queue })) := by
    unfold Client.newLongHeader
    cases newVarInt 0 with
    | none => rfl
    | some tokenLength =>
      simp only [Option.bind_eq_bind, Option.bind_some, Client.nextPacketNumber]
      cases PacketNumber.truncate lib.log2 (c.packetNumber .initial)
        (c.largestPNsAcknowledged (PacketType.pnSpace PacketType.initial)) with
      | none => rfl
      | some truncatedPN => rfl
  unfold sendInitial Client.newInitialPacket
  rw [hheader]
  cases Client.newLongHeader lib PacketType.initial c .initial with
  | none => rfl
  | some r =>
    simp only [Option.map_some, Option.bind_eq_bind, Option.bind_some]
    split
    . cases newVarInt r.2.token.length with
      | none => rfl
      | some tokenLength =>
        simp only [Option.pure_def, Option.bind_some]
        rw [sendPacket_congr]
        exact Option.isSome_map
    . simp only [Option.pure_def, Option.bind_some]
      rw [sendPacket_congr]
      exact Option.isSome_map

def submitAll (c : Client τ) (frames : List QueuedFrame) : Client τ :=
  { c with frameQueue := c.frameQueue ++ frames }

theorem submitAll_nil (c : Client τ) : submitAll c [] = c := by
  simp [submitAll]

theorem submitAll_append (c : Client τ) (frames frames' : List QueuedFrame)
    : submitAll (submitAll c frames) frames' = submitAll c (frames ++ frames') := by
  simp [submitAll]

def queuedFrames (b : RetransmittableFrames) : List QueuedFrame := b.frames.map (⟨·, b.level⟩)

theorem submitFrame_foldl (c : Client τ) (frames : List Frame) (level : EncryptionLevel)
    : frames.foldl (fun c f => c.submitFrame f level) c = submitAll c (frames.map (⟨·, level⟩)) := by
  induction frames generalizing c with
  | nil => exact (submitAll_nil c).symm
  | cons f frames ih =>
    rw [List.foldl_cons]
    rw [ih]
    exact submitAll_append c [⟨f, level⟩] _

theorem retransmitBatch_cons_first (c : Client τ) {b : RetransmittableFrames} (batch : RetransmitBatch)
    (h : isFirstInitial b = some true)
    : retransmitBatch lib c (b :: batch) = sendInitial lib c b.frames := by
  unfold retransmitBatch
  rw [h]
  rfl

theorem retransmitBatch_cons_other (c : Client τ) {b : RetransmittableFrames} (batch : RetransmitBatch)
    (h : isFirstInitial b = some false)
    : retransmitBatch lib c (b :: batch) = retransmitBatch lib (submitAll c (queuedFrames b)) batch := by
  rw [queuedFrames, ← submitFrame_foldl]
  conv =>
    lhs
    unfold retransmitBatch
  rw [h]
  rfl

theorem retransmitBatch_append (c : Client τ) (before batch : RetransmitBatch)
    (h : ∀ b ∈ before, isFirstInitial b = some false)
    : retransmitBatch lib c (before ++ batch)
        = retransmitBatch lib (submitAll c (before.flatMap queuedFrames)) batch := by
  induction before generalizing c with
  | nil =>
    rw [List.flatMap_nil, submitAll_nil]
    rfl
  | cons b before ih =>
    rw [List.cons_append]
    rw [retransmitBatch_cons_other lib c _ (h b List.mem_cons_self)]
    rw [ih _ (fun b' hb' => h b' (List.mem_cons_of_mem b hb'))]
    rw [submitAll_append, List.flatMap_cons]

/-- What was sent and queued for a batch that is sent in full, in Initial packets for some of its elements. -/
structure SentInFull (c c' : Client τ) (batch : RetransmitBatch) (packets : List FramePacket)
    (inInitial : RetransmittableFrames → Bool) : Prop where
  outgoingPackets : c'.outgoingPackets = c.outgoingPackets ++ packets
  initial : ∀ p ∈ packets, p.pnSpace = .initial ∧ p.encryptionLevel = .initial
  frames : packets.map (·.frames) = (batch.filter inInitial).map (·.frames)
  frameQueue : c'.frameQueue
    = c.frameQueue ++ (batch.filter (fun b => !inInitial b)).flatMap queuedFrames

def InFull (c c' : Client τ) (batch : RetransmitBatch) : Prop :=
  ∃ packets inInitial, SentInFull c c' batch packets inInitial

theorem nFrames_eq_sum (batch : RetransmitBatch)
    : RetransmitBatch.nFrames batch = (batch.map (·.frames.length)).sum := by
  rw [List.sum_eq_foldl, List.foldl_map]
  rfl

theorem flatMap_queuedFrames_length (batch : RetransmitBatch)
    : (batch.flatMap queuedFrames).length = RetransmitBatch.nFrames batch := by
  rw [nFrames_eq_sum, List.length_flatMap]
  simp only [queuedFrames, List.length_map]

theorem SentInFull.nFrames {c c' : Client τ} {batch : RetransmitBatch} {packets : List FramePacket}
    {inInitial : RetransmittableFrames → Bool} (h : SentInFull c c' batch packets inInitial)
    : (packets.map (·.frames.length)).sum + c'.frameQueue.length
        = c.frameQueue.length + RetransmitBatch.nFrames batch := by
  have hpackets : packets.map (·.frames.length) = (batch.filter inInitial).map (·.frames.length) := by
    have hlengths := congrArg (List.map List.length) h.frames
    rw [List.map_map, List.map_map] at hlengths
    exact hlengths
  have hperm := (List.filter_append_perm inInitial batch).map (·.frames.length)
  have hsum := hperm.sum_eq
  rw [List.map_append, List.sum_append] at hsum
  rw [h.frameQueue, List.length_append, flatMap_queuedFrames_length]
  rw [hpackets, nFrames_eq_sum, nFrames_eq_sum]
  omega

theorem isFirstInitial_of_ne {b : RetransmittableFrames} (hframes : b.frames ≠ [])
    (h : isFirstInitial b ≠ some true)
    : isFirstInitial b = some false := by
  rcases List.exists_cons_of_ne_nil hframes with ⟨f, frames, hb⟩
  have hsome : (isFirstInitial b).isSome := by
    unfold isFirstInitial
    rw [hb]
    split
    . split
      . rfl
      . rfl
    . rfl
  rcases Option.isSome_iff_exists.mp hsome with ⟨first, hfirst⟩
  rw [hfirst] at h ⊢
  simpa using h

theorem inFull_of_no_first (c : Client τ) {batch : RetransmitBatch}
    (h : ∀ b ∈ batch, isFirstInitial b = some false)
    : ∃ c', retransmitBatch lib c batch = some c' ∧ InFull c c' batch := by
  have hrun := retransmitBatch_append lib c batch [] h
  rw [List.append_nil] at hrun
  refine ⟨_, hrun, [], fun _ => false, ?_⟩
  refine ⟨(List.append_nil _).symm, by simp, by simp, ?_⟩
  simp [submitAll]

theorem nFrames_pos {batch : RetransmitBatch} (hframes : ∀ b ∈ batch, b.frames ≠ []) (hne : batch ≠ [])
    : 0 < RetransmitBatch.nFrames batch := by
  rcases List.exists_cons_of_ne_nil hne with ⟨b, batch, rfl⟩
  have hb := List.length_pos_of_ne_nil (hframes b List.mem_cons_self)
  rw [nFrames_eq_sum, List.map_cons, List.sum_cons]
  omega

theorem inFull_iff_of_first {c c' : Client τ} {before after : RetransmitBatch} {b : RetransmittableFrames}
    (hbefore : ∀ b' ∈ before, isFirstInitial b' = some false) (hb : isFirstInitial b = some true)
    (hafter : ∀ b' ∈ after, b'.frames ≠ [])
    (hrun : retransmitBatch lib c (before ++ b :: after) = some c')
    : InFull c c' (before ++ b :: after) ↔ after = [] := by
  rw [retransmitBatch_append lib c before _ hbefore] at hrun
  rw [retransmitBatch_cons_first lib _ _ hb] at hrun
  rcases sendInitial_outgoing lib hrun with ⟨hqueue, p, hout, hspace, hlevel, hp⟩
  apply Iff.intro
  . rintro ⟨packets, inInitial, hfull⟩
    -- One packet was sent, the elements behind it have frames that were not.
    have hpackets : packets = [p] := List.append_cancel_left (hfull.outgoingPackets.symm.trans hout)
    have hcount := hfull.nFrames
    rw [hpackets, hqueue] at hcount
    dsimp only [submitAll] at hcount
    rw [List.length_append, flatMap_queuedFrames_length] at hcount
    simp only [nFrames_eq_sum, List.map_append, List.sum_append, List.map_cons, List.sum_cons,
      List.map_nil, List.sum_nil, hp] at hcount
    by_contra hne
    have hpos := nFrames_pos hafter hne
    rw [nFrames_eq_sum] at hpos
    omega
  . rintro rfl
    have hsplit : ∀ b' ∈ before, (isFirstInitial b' == some true) = false := by
      intro b' hb'
      rw [hbefore b' hb']
      rfl
    refine ⟨[p], fun b => isFirstInitial b == some true, hout, ?_, ?_, ?_⟩
    . intro p' hp'
      rw [List.mem_singleton.mp hp']
      exact ⟨hspace, hlevel⟩
    . rw [List.filter_append]
      rw [List.filter_eq_nil_iff.mpr (by simpa using hsplit)]
      simp [hb, hp]
    . rw [hqueue]
      rw [List.filter_append]
      rw [List.filter_eq_self.mpr (by simpa using hsplit)]
      simp [hb, submitAll]

theorem inFull_iff (c : Client τ) (batch : RetransmitBatch) (hframes : ∀ b ∈ batch, b.frames ≠ [])
    (hsend : ∀ b ∈ batch, isFirstInitial b = some true → (sendInitial lib c b.frames).isSome)
    : ∃ c', retransmitBatch lib c batch = some c'
        ∧ (InFull c c' batch ↔ ∀ b ∈ batch.dropLast, isFirstInitial b ≠ some true) := by
  cases hfind : batch.find? (fun b => isFirstInitial b == some true) with
  | none =>
    have hother : ∀ b ∈ batch, isFirstInitial b ≠ some true := by
      simpa using List.find?_eq_none.mp hfind
    rcases inFull_of_no_first lib c (fun b hb => isFirstInitial_of_ne (hframes b hb) (hother b hb)) with
      ⟨c', hrun, hfull⟩
    refine ⟨c', hrun, iff_of_true hfull ?_⟩
    intro b hb
    exact hother b (List.dropLast_subset batch hb)
  | some b =>
    rcases List.find?_eq_some_iff_append.mp hfind with ⟨hfirst, before, after, rfl, hother⟩
    have hb : isFirstInitial b = some true := by simpa using hfirst
    have hbefore : ∀ b' ∈ before, isFirstInitial b' = some false := by
      intro b' hb'
      apply isFirstInitial_of_ne (hframes b' (List.mem_append_left _ hb'))
      simpa using hother b' hb'
    have hsome : (retransmitBatch lib c (before ++ b :: after)).isSome := by
      rw [retransmitBatch_append lib c before _ hbefore]
      rw [retransmitBatch_cons_first lib _ _ hb]
      rw [submitAll, sendInitial_isSome_congr]
      exact hsend b (by simp) hb
    rcases Option.isSome_iff_exists.mp hsome with ⟨c', hrun⟩
    refine ⟨c', hrun, ?_⟩
    rw [inFull_iff_of_first lib hbefore hb (fun b' hb' => hframes b' (by simp [hb'])) hrun]
    apply Iff.intro
    . rintro rfl b' hb'
      rw [List.dropLast_concat] at hb'
      rw [hbefore b' hb']
      decide
    . intro hlast
      by_contra hne
      rw [List.dropLast_append_cons, List.dropLast_cons_of_ne_nil hne] at hlast
      exact hlast b (by simp) hb

def sampleStream : StreamFrame := ⟨false, true, false, 0, 0, 1, [1]⟩

/-- The element with the STREAM frame is sent in an Initial packet, behind the one that is queued. -/
theorem inFull_iff_last
    : ∃ c', retransmitBatch sampleLibraries sampleClient
          [⟨[.ping], 0, .handshake⟩, ⟨[.stream sampleStream], 0, .initial⟩] = some c'
        ∧ InFull sampleClient c' [⟨[.ping], 0, .handshake⟩, ⟨[.stream sampleStream], 0, .initial⟩] := by
  rcases inFull_iff sampleLibraries sampleClient
    [⟨[.ping], 0, .handshake⟩, ⟨[.stream sampleStream], 0, .initial⟩]
    (by decide) (by decide +kernel) with ⟨c', hrun, hiff⟩
  exact ⟨c', hrun, hiff.mpr (by decide)⟩

/-- The other way around, the second element is not sent. -/
theorem not_inFull
    : ∃ c', retransmitBatch sampleLibraries sampleClient
          [⟨[.stream sampleStream], 0, .initial⟩, ⟨[.ping], 0, .handshake⟩] = some c'
        ∧ c'.frameQueue = []
        ∧ ¬ InFull sampleClient c' [⟨[.stream sampleStream], 0, .initial⟩, ⟨[.ping], 0, .handshake⟩] := by
  have hsome : (sendInitial sampleLibraries sampleClient [.stream sampleStream]).isSome := by
    decide +kernel
  rcases Option.isSome_iff_exists.mp hsome with ⟨c', hsend⟩
  have hrun := hsend
  rw [← retransmitBatch_cons_first sampleLibraries sampleClient (b := ⟨[.stream sampleStream], 0, .initial⟩)
    [⟨[.ping], 0, .handshake⟩] (by decide)] at hrun
  refine ⟨c', hrun, (sendInitial_outgoing sampleLibraries hsend).1, ?_⟩
  have hbefore : ∀ b ∈ ([] : RetransmitBatch), isFirstInitial b = some false := by simp
  intro hfull
  have hnone := (inFull_iff_of_first sampleLibraries hbefore (by decide) (by decide) hrun).mp hfull
  exact absurd hnone (by decide)

end RecoveryAgent

end QuicTracker
