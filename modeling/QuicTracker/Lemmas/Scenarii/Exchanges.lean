import QuicTracker.Impl.Scenarii.Exchanges
import QuicTracker.Lemmas.InitialLength
import QuicTracker.Lemmas.Scenarii.Scenario

/-!
This module contains the verdicts of `ack_only` and of `multi_stream`.
-/

namespace QuicTracker

theorem Header.packetNumber_of_withLength {h h' : Header} {payloadLength overhead : Nat}
    (hlength : h.withLength payloadLength overhead = some h')
    : h'.packetNumber = h.packetNumber := by
  cases h with
  | long h =>
    rcases Option.bind_eq_some_iff.mp hlength with ⟨_, _, hlength⟩
    injection hlength with hlength
    rw [← hlength]
    rfl
  | short h =>
    injection hlength with hlength
    rw [hlength]

theorem Client.sendPacket_submitted {τ : Type} {c c' : Client τ} {p : FramePacket} {level : EncryptionLevel}
    (hspace : p.pnSpace ≠ .noSpace) (h : c.sendPacket p level = some c')
    : ∃ header, header.packetNumber = p.header.packetNumber ∧
        c'.outgoingPackets = c.outgoingPackets ++ [{ p with header := header }] := by
  unfold sendPacket at h
  split at h
  . contradiction
  . rcases Option.bind_eq_some_iff.mp h with ⟨_, _, h⟩
    rcases Option.bind_eq_some_iff.mp h with ⟨_, _, h⟩
    rcases Option.bind_eq_some_iff.mp h with ⟨_, _, h⟩
    rcases Option.bind_eq_some_iff.mp h with ⟨header, hheader, h⟩
    rcases Option.bind_eq_some_iff.mp h with ⟨_, _, h⟩
    injection h with h
    rw [← h]
    exact ⟨header, Header.packetNumber_of_withLength hheader, rfl⟩

namespace AckOnly

variable {τ : Type} {lib : Libraries τ} {s s' : State τ}

theorem containsAll_iff (a b : List Nat) : containsAll a b = true ↔ ∀ n ∈ a, n ∈ b := by
  unfold containsAll
  simp

/-- The numbers of the packets for application data that were submitted after the first `n` packets. -/
def ackOnlyNumbers (n : Nat) (conn : Client τ) : List Nat :=
  ((conn.outgoingPackets.drop n).filter (fun p => p.pnSpace = .appData)).map (fun p => p.header.packetNumber)

/-- The packets that were submitted after the first `n` ones hold nothing but an acknowledgement. -/
def OnlyAcks (n : Nat) (conn : Client τ) : Prop :=
  ∀ p ∈ conn.outgoingPackets.drop n, ∃ ack, p.frames = [.ack ack]

structure Kept (n : Nat) (code : Nat) (s : State τ) : Prop where
  length : n ≤ s.conn.outgoingPackets.length
  ackOnlyPackets : s.ackOnlyPackets = ackOnlyNumbers n s.conn
  onlyAcks : OnlyAcks n s.conn
  errorCode : s.trace.errorCode = code

/-- A packet that need not be acknowledged, and acknowledges these numbers only. -/
def AnswersAcks (numbers : List Nat) (p : Packet) : Prop :=
  ∃ pp ack acked, p = .frames pp ∧ pp.encryptionLevel = .oneRTT ∧ pp.shouldBeAcknowledged = false ∧
    pp.getFirst FrameType.ack = some (.ack ack) ∧ ack.getAckedPackets = some acked ∧ ∀ n ∈ acked, n ∈ numbers

theorem newPacket_made {space : PNSpace} {conn conn' : Client τ} {p : FramePacket}
    (h : newPacket lib space conn = some (p, conn'))
    : p.pnSpace = space ∧ p.frames = [] ∧ space ≠ .noSpace ∧ conn'.outgoingPackets = conn.outgoingPackets := by
  cases space with
  | initial =>
    rcases Client.newInitialPacket_header h with ⟨_, _, rfl, _⟩
    refine ⟨rfl, rfl, by decide, ?_⟩
    rw [Client.newInitialPacket_cases lib h]
    rfl
  | handshake =>
    have hconn := Client.newHandshakePacket_cases lib h
    rcases Option.bind_eq_some_iff.mp h with ⟨_, _, h⟩
    injection h with h
    injection h with hp _
    rw [← hp, hconn]
    exact ⟨rfl, rfl, by decide, rfl⟩
  | appData =>
    have hconn := Client.newProtectedPacket_cases lib h
    rcases Option.bind_eq_some_iff.mp h with ⟨_, _, h⟩
    injection h with h
    injection h with hp _
    rw [← hp, hconn]
    exact ⟨rfl, rfl, by decide, rfl⟩
  | noSpace => contradiction

theorem drop_outgoingPackets {n : Nat} {conn conn' : Client τ} {p : FramePacket}
    (hlength : n ≤ conn.outgoingPackets.length)
    (houtgoing : conn'.outgoingPackets = conn.outgoingPackets ++ [p])
    : conn'.outgoingPackets.drop n = conn.outgoingPackets.drop n ++ [p] := by
  rw [houtgoing, List.drop_append_of_le_length hlength]

theorem ackOnlyNumbers_append {n : Nat} {conn conn' : Client τ} {p : FramePacket}
    (hlength : n ≤ conn.outgoingPackets.length)
    (houtgoing : conn'.outgoingPackets = conn.outgoingPackets ++ [p])
    : ackOnlyNumbers n conn'
        = ackOnlyNumbers n conn ++ if p.pnSpace = .appData then [p.header.packetNumber] else [] := by
  unfold ackOnlyNumbers
  rw [drop_outgoingPackets hlength houtgoing, List.filter_append, List.map_append]
  congr 1
  by_cases hspace : p.pnSpace = .appData
  . simp [hspace]
  . simp [hspace]

theorem Kept.same {n code : Nat} (hs : Kept n code s) (houtgoing : s'.conn.outgoingPackets = s.conn.outgoingPackets)
    (hpackets : s'.ackOnlyPackets = s.ackOnlyPackets) (htrace : s'.trace = s.trace)
    : Kept n code s' := by
  refine ⟨?_, ?_, ?_, ?_⟩
  . rw [houtgoing]
    exact hs.length
  . unfold ackOnlyNumbers
    rw [hpackets, houtgoing]
    exact hs.ackOnlyPackets
  . unfold OnlyAcks
    rw [houtgoing]
    exact hs.onlyAcks
  . rw [htrace]
    exact hs.errorCode

theorem Kept.acknowledge {n code : Nat} (hs : Kept n code s) {p : FramePacket} (h : acknowledge lib s p = some s')
    : Kept n code s' := by
  unfold AckOnly.acknowledge at h
  dsimp only at h
  cases hack : (s.conn.getAckFrame p.pnSpace).1 with
  | none =>
    rw [hack] at h
    injection h with h
    rw [← h]
    exact hs.same rfl rfl rfl
  | some ack =>
    rw [hack] at h
    rcases Option.bind_eq_some_iff.mp h with ⟨⟨packet, conn₁⟩, hnew, h⟩
    rcases Option.bind_eq_some_iff.mp h with ⟨conn₂, hsend, h⟩
    rcases newPacket_made hnew with ⟨hspace, hframes, hne, houtgoing⟩
    have hsubmitted := Client.sendPacket_submitted (by dsimp only; rw [hspace]; exact hne) hsend
    rcases hsubmitted with ⟨header, hnumber, hsubmitted⟩
    dsimp only at houtgoing hnumber hsubmitted
    rw [houtgoing] at hsubmitted
    have hnumbers := ackOnlyNumbers_append hs.length hsubmitted
    have hdrop := drop_outgoingPackets hs.length hsubmitted
    have honly : OnlyAcks n conn₂ := by
      unfold OnlyAcks
      rw [hdrop]
      intro q hq
      rcases List.mem_append.mp hq with hq | hq
      . exact hs.onlyAcks q hq
      . rw [List.mem_singleton.mp hq, hframes]
        exact ⟨ack, rfl⟩
    have hlength : n ≤ conn₂.outgoingPackets.length := by
      rw [hsubmitted, List.length_append]
      have := hs.length
      omega
    dsimp only at hnumbers
    rw [hspace] at hnumbers
    dsimp only at h
    split at h
    . next happ =>
      injection h with h
      rw [← h]
      refine ⟨hlength, ?_, honly, hs.errorCode⟩
      dsimp only
      rw [hnumbers, if_pos happ, hnumber, hs.ackOnlyPackets]
    . next happ =>
      injection h with h
      rw [← h]
      refine ⟨hlength, ?_, honly, hs.errorCode⟩
      dsimp only
      rw [hnumbers, if_neg happ, List.append_nil, hs.ackOnlyPackets]

theorem queueNumber_outgoingPackets (conn : Client τ) (p : FramePacket)
    : (queueNumber conn p).outgoingPackets = conn.outgoingPackets := by
  unfold queueNumber
  split
  . rfl
  . rfl

theorem Kept.queueNumber {n code : Nat} (hs : Kept n code s) (p : FramePacket)
    : Kept n code { s with conn := queueNumber s.conn p } := by
  exact hs.same (queueNumber_outgoingPackets s.conn p) rfl rfl

theorem judgeAck_cases {p : FramePacket} {r : ForInStep (State τ)} (h : judgeAck s p = some r)
    : ∃ ack acked, p.getFirst FrameType.ack = some (.ack ack) ∧ ack.getAckedPackets = some acked ∧
        r = if ∀ n ∈ acked, n ∈ s.ackOnlyPackets then
            .done { s with trace := s.trace.markError sentAOInResponseOfAO "" }
          else
            .yield s := by
  unfold judgeAck at h
  cases hfirst : p.getFirst FrameType.ack with
  | none =>
    rw [hfirst] at h
    contradiction
  | some f =>
    rw [hfirst] at h
    cases f with
    | ack ack =>
      dsimp only at h
      rcases Option.bind_eq_some_iff.mp h with ⟨acked, hacked, h⟩
      refine ⟨ack, acked, rfl, hacked, ?_⟩
      by_cases hall : ∀ n ∈ acked, n ∈ s.ackOnlyPackets
      . rw [if_pos ((containsAll_iff _ _).mpr hall)] at h
        injection h with h
        rw [if_pos hall, h]
      . rw [if_neg (fun h => hall ((containsAll_iff _ _).mp h))] at h
        injection h with h
        rw [if_neg hall, h]
    | _ => contradiction

theorem Kept.yield {n code : Nat} (hs : Kept n code s) {p : Packet} (h : step lib s p = some (.yield s'))
    : Kept n code s' := by
  rcases p with p | p | p
  . injection h with h
    injection h with h
    rw [← h]
    exact hs
  . injection h with h
    injection h with h
    rw [← h]
    exact hs
  . unfold step at h
    dsimp only at h
    split at h
    . rcases Option.bind_eq_some_iff.mp h with ⟨s₁, hs₁, h⟩
      injection h with h
      injection h with h
      rw [← h]
      exact (hs.queueNumber p).acknowledge hs₁
    . split at h
      . rcases judgeAck_cases h with ⟨ack, acked, _, _, h⟩
        split at h
        . contradiction
        . injection h with h
          rw [h]
          exact hs.queueNumber p
      . injection h with h
        injection h with h
        rw [← h]
        exact hs.queueNumber p

theorem step_done {p : Packet} (h : step lib s p = some (.done s'))
    : AnswersAcks s.ackOnlyPackets p ∧ s'.trace.errorCode = sentAOInResponseOfAO ∧
        s'.conn.outgoingPackets = s.conn.outgoingPackets := by
  rcases p with p | p | p
  . injection h with h
    contradiction
  . injection h with h
    contradiction
  . unfold step at h
    dsimp only at h
    split at h
    . rcases Option.bind_eq_some_iff.mp h with ⟨s₁, _, h⟩
      injection h with h
      contradiction
    . next hacked =>
      split at h
      . next hack =>
        rcases judgeAck_cases h with ⟨ack, acked, hfirst, hacked', h⟩
        split at h
        . next hall =>
          injection h with h
          rw [h]
          refine ⟨⟨p, ack, acked, rfl, hack.1, by simpa using hacked, hfirst, hacked', hall⟩, rfl, ?_⟩
          exact queueNumber_outgoingPackets s.conn p
        . contradiction
      . injection h with h
        contradiction

theorem Kept.scan {n code : Nat} (hs : Kept n code s) {packets : List Packet}
    (h : Watch.scan (step lib) s packets = some (.yield s'))
    : Kept n code s' := by
  apply Watch.invariant_of_scan (step lib) _ hs h
  intro s p s' hs h
  exact hs.yield h

def samplePacket (number : Nat) (frame : Frame) : Packet :=
  .frames ⟨.short ⟨false, [], ⟨0, 1⟩, number⟩, .appData, .oneRTT, [frame]⟩

end AckOnly

namespace MultiStream

variable {τ : Type} {s s' : State τ}

def Keys (opened : List Nat) (conn : Client τ) : Prop := ∀ id, (conn.streams id).isSome = true ↔ id ∈ opened

def AllRead (conn : Client τ) : Prop := ∀ id stream, conn.streams id = some stream → stream.readClosed = true

theorem Keys.setStream {opened : List Nat} {conn conn' : Client τ} (h : Keys opened conn) {streamId : Nat}
    (stream : Stream) (hstreams : conn'.streams = Function.update conn.streams streamId (some stream))
    : Keys (opened ++ [streamId]) conn' := by
  intro id
  rw [hstreams, List.mem_append, List.mem_singleton, ← h id]
  by_cases hid : id = streamId
  . rw [hid, Function.update_self]
    simp
  . rw [Function.update_of_ne hid]
    simp [hid]

theorem Keys.sendRequest {opened : List Nat} {conn conn' : Client τ} (h : Keys opened conn)
    {preferredUrl : List UInt8} {streamId : Nat} (hsend : conn.sendHTTPGETRequest preferredUrl streamId = some conn')
    : Keys (opened ++ [streamId]) conn' := by
  rcases Option.bind_eq_some_iff.mp hsend with ⟨⟨frame, stream⟩, _, hsend⟩
  injection hsend with hsend
  apply h.setStream stream
  rw [← hsend]
  rfl

theorem Keys.sendRequests {opened : List Nat} {conn conn' : Client τ} (h : Keys opened conn)
    {preferredUrl : List UInt8} {ids : List Nat}
    (hsend : ids.foldlM (fun conn i => conn.sendHTTPGETRequest preferredUrl (i * 4)) conn = some conn')
    : Keys (opened ++ ids.map (· * 4)) conn' := by
  induction ids generalizing opened conn with
  | nil =>
    injection hsend with hsend
    rw [← hsend]
    simpa using h
  | cons i ids ih =>
    rw [List.foldlM_cons] at hsend
    rcases Option.bind_eq_some_iff.mp hsend with ⟨conn₁, hconn₁, hsend⟩
    have hrest := ih (h.sendRequest hconn₁) hsend
    simpa using hrest

theorem Keys.readFrames {opened : List Nat} {conn conn' : Client τ} (h : Keys opened conn) {frames : List Frame}
    (hread : frames.foldlM FlowControl.readFrame conn = some conn')
    : Keys (opened ++ frames.filterMap streamId?) conn' := by
  induction frames generalizing opened conn with
  | nil =>
    injection hread with hread
    rw [← hread]
    simpa using h
  | cons f frames ih =>
    rw [List.foldlM_cons] at hread
    rcases Option.bind_eq_some_iff.mp hread with ⟨conn₁, hconn₁, hrest⟩
    cases f with
    | stream f =>
      rcases Option.bind_eq_some_iff.mp hconn₁ with ⟨stream, _, hconn₁⟩
      injection hconn₁ with hconn₁
      have hnext : Keys (opened ++ [f.streamId]) conn₁ := by
        apply h.setStream stream
        rw [← hconn₁]
        rfl
      have hkeys := ih hnext hrest
      simpa [streamId?] using hkeys
    | _ =>
      injection hconn₁ with hconn₁
      rw [← hconn₁] at hrest
      exact ih h hrest

theorem readPacket_keys (h : Keys s.opened s.conn) {p : Packet} (hread : readPacket s p = some s')
    : Keys s'.opened s'.conn ∧ FlowControl.readPacket s.conn p = some s'.conn ∧ s'.allClosed = s.allClosed := by
  rcases Option.bind_eq_some_iff.mp hread with ⟨conn, hconn, hread⟩
  injection hread with hread
  rw [← hread]
  refine ⟨?_, hconn, rfl⟩
  rcases p with p | p | p
  . injection hconn with hconn
    rw [← hconn]
    simpa [streamIds] using h
  . injection hconn with hconn
    rw [← hconn]
    simpa [streamIds] using h
  . exact h.readFrames hconn

theorem Keys.any_iff {opened : List Nat} {conn : Client τ} (h : Keys opened conn) (ok : Nat → Bool)
    : opened.any (fun id => ok id ∧ ¬ (conn.streams.get id).readClosed) = true ↔
        ∃ id stream, ok id = true ∧ conn.streams id = some stream ∧ stream.readClosed = false := by
  rw [List.any_eq_true]
  constructor
  . rintro ⟨id, hid, hopen⟩
    rcases Option.isSome_iff_exists.mp ((h id).mpr hid) with ⟨stream, hstream⟩
    have hopen' := of_decide_eq_true hopen
    unfold Streams.get at hopen'
    rw [hstream] at hopen'
    exact ⟨id, stream, hopen'.1, hstream, by simpa using hopen'.2⟩
  . rintro ⟨id, stream, hok, hstream, hopen⟩
    refine ⟨id, (h id).mp (by rw [hstream]; rfl), ?_⟩
    unfold Streams.get
    rw [hstream]
    simp [hok, hopen]

theorem handlePacket_eq (h : Keys s.opened s.conn)
    : (AllRead s.conn ∧ s.allClosed = true ∧
        handlePacket s = .done { s with conn := s.conn.closeConnection false 0 [] }) ∨
      ∃ s', handlePacket s = .yield s' ∧ s'.conn = s.conn ∧ s'.opened = s.opened ∧ s'.allClosed = false ∧
        (s.allClosed = true → ¬ AllRead s.conn) := by
  have hany := h.any_iff (fun _ => true)
  simp only [true_and] at hany
  unfold handlePacket
  by_cases hopen : s.opened.any (fun id => ¬ (s.conn.streams.get id).readClosed) = true
  . right
    rw [if_pos hopen]
    refine ⟨_, rfl, rfl, rfl, rfl, ?_⟩
    intro _ hread
    rcases hany.mp hopen with ⟨id, stream, hstream, hclosed⟩
    rw [hread id stream hstream] at hclosed
    contradiction
  . rw [if_neg hopen]
    have hread : AllRead s.conn := by
      intro id stream hstream
      by_contra hclosed
      exact hopen (hany.mpr ⟨id, stream, hstream, by simpa using hclosed⟩)
    cases hclosed : s.allClosed with
    | true =>
      left
      rw [if_pos hclosed]
      refine ⟨hread, rfl, ?_⟩
      rw [hclosed]
    | false =>
      right
      rw [if_neg (by rw [hclosed]; exact Bool.false_ne_true)]
      refine ⟨s, rfl, rfl, rfl, hclosed, ?_⟩
      intro h
      contradiction

theorem scan_of_open {packets : List Packet} {r : ForInStep (State τ)} (hkeys : Keys s.opened s.conn)
    (hclosed : s.allClosed = false) (h : Watch.scan step s packets = some r)
    : ∃ s', r = .yield s' ∧ packets.foldlM FlowControl.readPacket s.conn = some s'.conn ∧
        Keys s'.opened s'.conn := by
  induction packets generalizing s with
  | nil =>
    injection h with h
    exact ⟨s, h.symm, rfl, hkeys⟩
  | cons p packets ih =>
    rw [Watch.scan_cons] at h
    rcases Option.bind_eq_some_iff.mp h with ⟨r₁, hstep, h⟩
    rcases Option.bind_eq_some_iff.mp hstep with ⟨s₁, hread, hstep⟩
    injection hstep with hstep
    rcases readPacket_keys hkeys hread with ⟨hkeys₁, hconn₁, hclosed₁⟩
    rw [hclosed] at hclosed₁
    rcases handlePacket_eq hkeys₁ with ⟨_, hclosed', _⟩ | ⟨s₂, hs₂, hconn₂, hopened₂, hclosed₂, _⟩
    . rw [hclosed₁] at hclosed'
      contradiction
    . rw [hs₂] at hstep
      rw [← hstep, ForInStep.bind_yield] at h
      rcases ih (by rw [hconn₂, hopened₂]; exact hkeys₁) hclosed₂ h with ⟨s', hs', hfold, hkeys'⟩
      refine ⟨s', hs', ?_, hkeys'⟩
      rw [List.foldlM_cons, hconn₁]
      rw [hconn₂] at hfold
      exact hfold

/-- Only the first packet can end the loop. -/
theorem scan_start {packets : List Packet} {r : ForInStep (State τ)} (hkeys : Keys s.opened s.conn)
    (hclosed : s.allClosed = true) (h : Watch.scan step s packets = some r)
    : Keys r.run.opened r.run.conn ∧
      ((packets.foldlM FlowControl.readPacket s.conn = some r.run.conn ∧
          ∀ p rest conn, packets = p :: rest → FlowControl.readPacket s.conn p = some conn → ¬ AllRead conn) ∨
        ∃ p rest conn, packets = p :: rest ∧ FlowControl.readPacket s.conn p = some conn ∧ AllRead conn ∧
          r.run.conn = conn.closeConnection false 0 []) := by
  cases packets with
  | nil =>
    injection h with h
    rw [← h]
    exact ⟨hkeys, Or.inl ⟨rfl, by simp⟩⟩
  | cons p packets =>
    rw [Watch.scan_cons] at h
    rcases Option.bind_eq_some_iff.mp h with ⟨r₁, hstep, h⟩
    rcases Option.bind_eq_some_iff.mp hstep with ⟨s₁, hread, hstep⟩
    injection hstep with hstep
    rcases readPacket_keys hkeys hread with ⟨hkeys₁, hconn₁, hclosed₁⟩
    rw [hclosed] at hclosed₁
    rcases handlePacket_eq hkeys₁ with ⟨hall, _, hdone⟩ | ⟨s₂, hs₂, hconn₂, hopened₂, hclosed₂, hnot⟩
    . rw [hdone] at hstep
      rw [← hstep, ForInStep.bind_done] at h
      injection h with h
      rw [← h]
      exact ⟨hkeys₁, Or.inr ⟨p, packets, s₁.conn, rfl, hconn₁, hall, rfl⟩⟩
    . rw [hs₂] at hstep
      rw [← hstep, ForInStep.bind_yield] at h
      rcases scan_of_open (by rw [hconn₂, hopened₂]; exact hkeys₁) hclosed₂ h with ⟨s', rfl, hfold, hkeys'⟩
      refine ⟨hkeys', Or.inl ⟨?_, ?_⟩⟩
      . rw [List.foldlM_cons, hconn₁]
        rw [hconn₂] at hfold
        exact hfold
      . intro q rest conn hpackets hconn
        injection hpackets with hp _
        rw [← hp, hconn₁] at hconn
        injection hconn with hconn
        rw [← hconn]
        exact hnot hclosed₁

theorem other_streams_decide {conn conn' : Client τ} {opened : List Nat} {trace trace' : Trace}
    {status : HandshakeStatus} {receivedParameters : QuicTransportParameters} {preferredUrl : List UInt8}
    {packets : List Packet} (hopened : Keys opened conn) (hstatus : status.completed = true)
    (hrun : run conn opened trace (some status) (some receivedParameters) preferredUrl packets
      = some (conn', trace'))
    : ((∃ id stream, id ≠ 0 ∧ conn'.streams id = some stream ∧ stream.readClosed = false) →
        trace'.errorCode = notAllStreamsWereClosed) ∧
      ((∀ id stream, id ≠ 0 → conn'.streams id = some stream → stream.readClosed = true) →
        trace'.errorCode = trace.errorCode) ∧
      ∃ conn₀, sendRequests preferredUrl (min receivedParameters.maxBidiStreams 4) conn = some conn₀ ∧
        ((packets.foldlM FlowControl.readPacket conn₀ = some conn' ∧
            ∀ p rest conn₁, packets = p :: rest → FlowControl.readPacket conn₀ p = some conn₁ →
              ¬ AllRead conn₁) ∨
          ∃ p rest conn₁, packets = p :: rest ∧ FlowControl.readPacket conn₀ p = some conn₁ ∧ AllRead conn₁ ∧
            conn' = conn₁.closeConnection false 0 []) := by
  unfold run at hrun
  rw [completeHandshake_completed trace _ hstatus, Option.bind_eq_bind, Option.bind_some] at hrun
  simp only [if_true, Option.bind_eq_bind, Option.bind_some] at hrun
  rcases Option.bind_eq_some_iff.mp hrun with ⟨conn₀, hconn₀, hrun⟩
  rcases Option.bind_eq_some_iff.mp hrun with ⟨s, hwatch, hrun⟩
  rcases Option.map_eq_some_iff.mp hwatch with ⟨r, hscan, hr⟩
  injection hrun with hrun
  injection hrun with hconn htrace
  rcases scan_start (hopened.sendRequests hconn₀) rfl hscan with ⟨hkeys, hloop⟩
  rw [hr] at hkeys hloop
  rw [← hconn, ← htrace]
  have hany := hkeys.any_iff (fun id => decide (id ≠ 0))
  simp only [decide_eq_true_eq] at hany
  unfold verdict
  refine ⟨?_, ?_, conn₀, hconn₀, hloop⟩
  . intro hopen
    rw [if_pos (hany.mpr hopen)]
  . intro hall
    rw [if_neg]
    intro hopen
    rcases hany.mp hopen with ⟨id, stream, hid, hstream, hclosed⟩
    rw [hall id stream hid hstream] at hclosed
    contradiction

/-- The response on stream 4 has not arrived. -/
theorem other_streams_decide_two
    : ∃ conn' trace', run sampleClient [] {} (some ⟨true, none, none⟩) (some { maxBidiStreams := 2 }) []
          [AckOnly.samplePacket 0 (.stream ⟨true, true, false, 0, 0, 0, []⟩)] = some (conn', trace') ∧
        trace'.errorCode = notAllStreamsWereClosed := by
  have hopened : Keys [] sampleClient := by
    intro id
    simp [sampleClient, Client.transitionTo]
  have hrun : ∃ r, run sampleClient [] {} (some ⟨true, none, none⟩) (some { maxBidiStreams := 2 }) []
      [AckOnly.samplePacket 0 (.stream ⟨true, true, false, 0, 0, 0, []⟩)] = some r ∧
      (r.1.streams 4).map (fun stream => stream.readClosed) = some false := by
    decide +kernel
  rcases hrun with ⟨⟨conn', trace'⟩, hrun, hstream⟩
  rcases Option.map_eq_some_iff.mp hstream with ⟨stream, hstream, hclosed⟩
  refine ⟨conn', trace', hrun, ?_⟩
  exact (other_streams_decide hopened rfl hrun).1 ⟨4, stream, by decide, hstream, hclosed⟩

end MultiStream

end QuicTracker
