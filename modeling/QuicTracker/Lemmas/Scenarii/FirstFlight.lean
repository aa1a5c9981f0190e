import QuicTracker.Impl.Scenarii.FirstFlight
import QuicTracker.Lemmas.Agents.Handshake
import QuicTracker.Lemmas.InitialLength
import QuicTracker.Lemmas.Scenarii.Scenario

/-!
This module contains the verdicts of `version_negotiation`, of `unsupported_tls_version` and of `handshake`. The
last one is over every run of the handshake agent.
-/

namespace QuicTracker

theorem Client.getInitialPacket_outgoingPackets {τ : Type} (lib : Libraries τ) {c c' : Client τ} {p : FramePacket}
    (h : getInitialPacket lib c = some (some p, c'))
    : c'.outgoingPackets = c.outgoingPackets := by
  rcases getInitialPacket_eq_some lib h with ⟨_, tls, stream, _, _, hpacket, _⟩
  rcases installZeroRTT_cases lib (withCryptoStream { c with tls := tls } .initial stream) with
    ⟨states, levels, hzero⟩
  rw [newInitialPacket_cases lib hpacket]
  unfold withHello
  rw [hzero]
  rfl

namespace VersionNegotiation

variable {τ : Type} (lib : Libraries τ)

def unusedField? (p : Packet) : Option UInt8 :=
  match p with
  | .versionNegotiation p => some p.unusedField
  | _ => none

def isOther (p : Packet) : Bool := (unusedField? p).isNone

def waitingCode (other : Bool) : Nat := if other then notAnsweringToVN else timeout

/-- The verdict by the unused fields of the Version Negotiation packets, in order. -/
def code (fields : List UInt8) (other : Bool) : Nat :=
  match fields with
  | first :: second :: fields =>
    if first ≠ second then
      0
    else
      match fields with
      | [] => waitingCode other
      | third :: _ => if second ≠ third then 0 else unusedFieldIsIdentical
  | _ => waitingCode other

/-- The Initial packets that were sent, all with the same frames. -/
structure Sent (frames : List Frame) (before : List FramePacket) (count : Nat) (conn : Client τ) : Prop where
  outgoingPackets : ∃ sent, conn.outgoingPackets = before ++ sent ∧ sent.length = count ∧
    ∀ p ∈ sent, p.frames = frames

theorem Sent.send {frames : List Frame} {before : List FramePacket} {count : Nat} {conn conn' : Client τ}
    {p : FramePacket} (h : Sent frames before count conn) (hframes : p.frames = frames)
    (hspace : p.pnSpace = .initial) (hsend : conn.sendPacket p .initial = some conn')
    : Sent frames before (count + 1) conn' := by
  rcases Client.sendPacket_sent hsend with ⟨hnone, _⟩ | ⟨packetBytes, header, _, rfl⟩
  . rw [hspace] at hnone
    contradiction
  . rcases h.outgoingPackets with ⟨sent, hsent, hcount, hall⟩
    refine ⟨sent ++ [{ p with header := header }], ?_, ?_, ?_⟩
    . dsimp only
      rw [hsent, List.append_assoc]
    . rw [List.length_append, hcount]
      rfl
    . intro q hq
      rcases List.mem_append.mp hq with hq | hq
      . exact hall q hq
      . rw [List.mem_singleton.mp hq]
        exact hframes

theorem Sent.sendAgain {frames : List Frame} {before : List FramePacket} {count : Nat} {conn conn' : Client τ}
    (h : Sent frames before count conn) (hsend : sendAgain lib frames conn = some conn')
    : Sent frames before (count + 1) conn' := by
  rcases Option.bind_eq_some_iff.mp hsend with ⟨⟨p, c⟩, hnew, hsend⟩
  rcases Client.newInitialPacket_made lib hnew with ⟨rfl, hspace, _⟩
  have hnext : Sent frames before count (conn.nextPacketNumber .initial).2 := ⟨h.outgoingPackets⟩
  dsimp only at hsend
  refine hnext.send ?_ ?_ hsend
  . rfl
  . exact hspace

structure Waiting (frames : List Frame) (before : List FramePacket) (hist : List Packet) (s : State τ) : Prop where
  vnCount : s.vnCount = (hist.filterMap unusedField?).length
  belowThreshold : s.vnCount < threshold
  identical : ∀ field ∈ hist.filterMap unusedField?, field = s.unusedField
  errorCode : s.trace.errorCode = waitingCode (hist.any isOther)
  sent : Sent frames before (s.vnCount + 1) s.conn

structure Left (frames : List Frame) (before : List FramePacket) (hist : List Packet) (s : State τ) : Prop where
  errorCode : ∀ later other, s.trace.errorCode = code (hist.filterMap unusedField? ++ later) other
  sent : ∃ count ≤ threshold, Sent frames before count s.conn

variable {lib} {frames : List Frame} {before : List FramePacket} {hist : List Packet} {s s' : State τ}

theorem unusedFields_append (hist : List Packet) (p : VersionNegotiationPacket)
    : (hist ++ [Packet.versionNegotiation p]).filterMap unusedField?
        = hist.filterMap unusedField? ++ [p.unusedField] := by
  rw [List.filterMap_append]
  rfl

theorem Waiting.other (hs : Waiting frames before hist s) {p : Packet} {header : Header}
    (hp : unusedField? p = none)
    : Waiting frames before (hist ++ [p])
        { s with
          trace := s.trace.markError notAnsweringToVN ""
          receivedPacketType := some header.packetType } := by
  have hfields : (hist ++ [p]).filterMap unusedField? = hist.filterMap unusedField? := by
    rw [List.filterMap_append, List.filterMap_cons_none hp]
    simp
  refine ⟨?_, hs.belowThreshold, ?_, ?_, hs.sent⟩
  . rw [hfields]
    exact hs.vnCount
  . rw [hfields]
    exact hs.identical
  . have hother : isOther p = true := by
      unfold isOther
      rw [hp]
      rfl
    rw [List.any_append]
    simp [hother, waitingCode, Trace.markError]

theorem step_versionNegotiation {p : VersionNegotiationPacket} {r : ForInStep (State τ)}
    (h : step lib frames s (.versionNegotiation p) = some r)
    : (s.vnCount + 1 > 1 ∧ s.unusedField ≠ p.unusedField ∧
        r = .done { s with vnCount := s.vnCount + 1, trace := { s.trace with errorCode := 0 } }) ∨
      ((s.vnCount + 1 > 1 → s.unusedField = p.unusedField) ∧ s.vnCount + 1 = threshold ∧
        r = .done { s with
          vnCount := s.vnCount + 1
          trace := { s.trace with errorCode := unusedFieldIsIdentical } }) ∨
      ((s.vnCount + 1 > 1 → s.unusedField = p.unusedField) ∧ s.vnCount + 1 ≠ threshold ∧
        ∃ conn, sendAgain lib frames s.conn = some conn ∧
          r = .yield { s with
            vnCount := s.vnCount + 1
            conn := conn
            unusedField := p.unusedField
            supportedVersions := some p.supportedVersions }) := by
  unfold step handleVersionNegotiation at h
  dsimp only at h
  split at h
  . next hdiffers =>
    injection h with h
    exact Or.inl ⟨hdiffers.1, hdiffers.2, h.symm⟩
  . next hsame =>
    have hsame' : s.vnCount + 1 > 1 → s.unusedField = p.unusedField := by
      intro hcount
      by_contra hne
      exact hsame ⟨hcount, hne⟩
    split at h
    . next hthreshold =>
      injection h with h
      exact Or.inr (Or.inl ⟨hsame', hthreshold, h.symm⟩)
    . next hthreshold =>
      rcases Option.bind_eq_some_iff.mp h with ⟨conn, hconn, h⟩
      injection h with h
      exact Or.inr (Or.inr ⟨hsame', hthreshold, conn, hconn, h.symm⟩)

theorem step_other {p : Packet} {r : ForInStep (State τ)} (hp : unusedField? p = none)
    (h : step lib frames s p = some r)
    : ∃ header : Header, r = .yield { s with
        trace := s.trace.markError notAnsweringToVN ""
        receivedPacketType := some header.packetType } := by
  rcases p with p | p | p
  . contradiction
  . injection h with h
    exact ⟨_, h.symm⟩
  . injection h with h
    exact ⟨_, h.symm⟩

theorem Waiting.again (hs : Waiting frames before hist s) {p : VersionNegotiationPacket} {conn : Client τ}
    (hsame : s.vnCount + 1 > 1 → s.unusedField = p.unusedField) (hthreshold : s.vnCount + 1 ≠ threshold)
    (hconn : sendAgain lib frames s.conn = some conn)
    : Waiting frames before (hist ++ [.versionNegotiation p])
        { s with
          vnCount := s.vnCount + 1
          conn := conn
          unusedField := p.unusedField
          supportedVersions := some p.supportedVersions } := by
  have hbelow := hs.belowThreshold
  refine ⟨?_, by dsimp only; omega, ?_, ?_, hs.sent.sendAgain lib hconn⟩
  . dsimp only
    rw [unusedFields_append, List.length_append, hs.vnCount]
    rfl
  . intro field hfield
    rw [unusedFields_append] at hfield
    rcases List.mem_append.mp hfield with hfield | hfield
    . have hcount := List.length_pos_of_mem hfield
      rw [← hs.vnCount] at hcount
      rw [hs.identical field hfield]
      exact hsame (by omega)
    . exact List.mem_singleton.mp hfield
  . rw [List.any_append, hs.errorCode]
    simp [isOther, unusedField?]

theorem Waiting.fields (hs : Waiting frames before hist s)
    : hist.filterMap unusedField? = List.replicate s.vnCount s.unusedField := by
  rw [hs.vnCount]
  exact List.eq_replicate_of_mem hs.identical

theorem Waiting.left (hs : Waiting frames before hist s) {p : Packet}
    (h : step lib frames s p = some (.done s'))
    : Left frames before (hist ++ [p]) s' := by
  have hbelow : s.vnCount < 3 := hs.belowThreshold
  cases hp : unusedField? p with
  | none =>
    rcases step_other hp h with ⟨_, h⟩
    contradiction
  | some field =>
    rcases p with p | p | p
    . rcases step_versionNegotiation h with ⟨hcount, hdiffers, h⟩ | ⟨hsame, hthreshold, h⟩ | ⟨_, _, _, _, h⟩
      . injection h with h
        rw [h]
        refine ⟨?_, s.vnCount + 1, by dsimp only [threshold]; omega, ⟨hs.sent.outgoingPackets⟩⟩
        intro later other
        rw [unusedFields_append, hs.fields]
        have hcases : s.vnCount = 1 ∨ s.vnCount = 2 := by omega
        rcases hcases with hcount | hcount
        . rw [hcount]
          simp [code, hdiffers]
        . rw [hcount]
          simp [code, hdiffers]
      . injection h with h
        rw [h]
        refine ⟨?_, s.vnCount + 1, by rw [hthreshold], ⟨hs.sent.outgoingPackets⟩⟩
        intro later other
        rw [unusedFields_append, hs.fields]
        have hcount : s.vnCount = 2 := by
          unfold threshold at hthreshold
          omega
        rw [hcount, hsame (by omega)]
        simp [code]
      . contradiction
    . contradiction
    . contradiction

theorem Waiting.yield (hs : Waiting frames before hist s) {p : Packet}
    (h : step lib frames s p = some (.yield s'))
    : Waiting frames before (hist ++ [p]) s' := by
  cases hp : unusedField? p with
  | none =>
    rcases step_other hp h with ⟨header, h⟩
    injection h with h
    rw [h]
    exact hs.other hp
  | some field =>
    rcases p with p | p | p
    . rcases step_versionNegotiation h with ⟨_, _, h⟩ | ⟨_, _, h⟩ | ⟨hsame, hthreshold, conn, hconn, h⟩
      . contradiction
      . contradiction
      . injection h with h
        rw [h]
        exact hs.again hsame hthreshold hconn
    . contradiction
    . contradiction

theorem Waiting.code_eq (hs : Waiting frames before hist s)
    : s.trace.errorCode = code (hist.filterMap unusedField?) (hist.any isOther) := by
  have hbelow : s.vnCount < 3 := hs.belowThreshold
  rw [hs.errorCode, hs.fields]
  have hcases : s.vnCount = 0 ∨ s.vnCount = 1 ∨ s.vnCount = 2 := by omega
  rcases hcases with hcount | hcount | hcount
  . rw [hcount]
    rfl
  . rw [hcount]
    rfl
  . rw [hcount]
    simp [code]

theorem start_waiting {conn : Client τ} {trace : Trace} (h : start lib conn trace = some (frames, s))
    : Waiting frames conn.outgoingPackets [] s := by
  rcases Option.bind_eq_some_iff.mp h with ⟨⟨initial, c⟩, hget, h⟩
  rcases Option.bind_eq_some_iff.mp h with ⟨p, hp, h⟩
  rcases Option.bind_eq_some_iff.mp h with ⟨c', hsend, h⟩
  injection h with h
  injection h with hframes hs
  rw [hp] at hget
  have houtgoing := Client.getInitialPacket_outgoingPackets lib hget
  have hnothing : Sent frames conn.outgoingPackets 0 c := by
    refine ⟨[], ?_, rfl, by simp⟩
    rw [houtgoing, List.append_nil]
  have hspace : p.pnSpace = .initial := by
    rcases Client.getInitialPacket_eq_some lib hget with ⟨_, _, _, p₀, _, hnew, hpad⟩
    rcases Client.padInitialPacket_eq_some hpad with ⟨_, _, _, _, _, _, _, rfl⟩
    exact (Client.newInitialPacket_made lib hnew).2.1
  rw [← hs]
  refine ⟨rfl, Nat.zero_lt_succ _, by simp, rfl, ?_⟩
  exact hnothing.send hframes hspace hsend

theorem three_answers_decide {conn : Client τ} {trace : Trace} {packets : List Packet} {s : State τ}
    (hrun : run lib conn trace packets = some s)
    : s.trace.errorCode = code (packets.filterMap unusedField?) (packets.any isOther) ∧
      ∃ frames sent, s.conn.outgoingPackets = conn.outgoingPackets ++ sent ∧ sent.length ≤ 3 ∧
        ∀ p ∈ sent, p.frames = frames := by
  rcases Option.bind_eq_some_iff.mp hrun with ⟨⟨frames, s₀⟩, hstart, hrun⟩
  rcases Option.map_eq_some_iff.mp hrun with ⟨r, hscan, hr⟩
  have hyield (hist : List Packet) (s : State τ) (p : Packet) (s' : State τ)
      (hs : Waiting frames conn.outgoingPackets hist s) (h : step lib frames s p = some (.yield s'))
      : Waiting frames conn.outgoingPackets (hist ++ [p]) s' := by
    exact hs.yield h
  have hdone (hist : List Packet) (s : State τ) (p : Packet) (s' : State τ)
      (hs : Waiting frames conn.outgoingPackets hist s) (h : step lib frames s p = some (.done s'))
      : Left frames conn.outgoingPackets (hist ++ [p]) s' := by
    exact hs.left h
  rcases Watch.scan_rule (step lib frames) hyield hdone (start_waiting hstart) hscan with
    ⟨s', hr', hwaiting⟩ | ⟨s', seen, rest, hr', hpackets, hleft⟩
  . rw [← hr, hr']
    refine ⟨hwaiting.code_eq, frames, ?_⟩
    rcases hwaiting.sent.outgoingPackets with ⟨sent, hsent, hcount, hall⟩
    have hbelow : s'.vnCount < 3 := hwaiting.belowThreshold
    exact ⟨sent, hsent, by omega, hall⟩
  . rw [← hr, hr']
    refine ⟨?_, frames, ?_⟩
    . rw [hpackets, List.filterMap_append]
      exact hleft.errorCode _ _
    . rcases hleft.sent with ⟨count, hcount, hsent⟩
      rcases hsent.outgoingPackets with ⟨sent, hsent, hlength, hall⟩
      exact ⟨sent, hsent, by rw [hlength]; exact hcount, hall⟩

def samplePacket (unusedField : UInt8) : Packet := .versionNegotiation ⟨unusedField, 0, [], [], [0xff000011]⟩

theorem three_answers_decide_identical
    : ∃ s, run sampleLibraries sampleClient {} [samplePacket 1, samplePacket 1, samplePacket 1, samplePacket 2]
          = some s ∧
        s.trace.errorCode = unusedFieldIsIdentical ∧
        ∃ frames sent, s.conn.outgoingPackets = sampleClient.outgoingPackets ++ sent ∧ sent.length ≤ 3 ∧
          ∀ p ∈ sent, p.frames = frames := by
  have hsome : (run sampleLibraries sampleClient {}
      [samplePacket 1, samplePacket 1, samplePacket 1, samplePacket 2]).isSome := by
    decide +kernel
  rcases Option.isSome_iff_exists.mp hsome with ⟨s, hrun⟩
  exact ⟨s, hrun, three_answers_decide hrun⟩

end VersionNegotiation

namespace UnsupportedTLSVersion

variable {τ : Type} {lib : Libraries τ} {s s' : State τ}

def isWrong (cc : ConnectionCloseFrame) : Bool := cc.errorCode ≠ 0x146

def refusesVersions (p : Packet) : Bool :=
  match p with
  | .versionNegotiation p => Client.chooseVersion p.supportedVersions = 0
  | _ => false

structure Judged (code : Nat) (ccs : List ConnectionCloseFrame) (s : State τ) : Prop where
  connectionClosed : s.connectionClosed = true ↔ ccs ≠ []
  errorCode : s.trace.errorCode = if ccs.any isWrong then wrongErrorCodeIsUsed else code

theorem Judged.same {code : Nat} {ccs : List ConnectionCloseFrame} (hs : Judged code ccs s)
    (hclosed : s'.connectionClosed = s.connectionClosed) (htrace : s'.trace = s.trace)
    : Judged code ccs s' := by
  refine ⟨?_, ?_⟩
  . rw [hclosed]
    exact hs.connectionClosed
  . rw [htrace]
    exact hs.errorCode

theorem Judged.handleFrame {code : Nat} {ccs : List ConnectionCloseFrame} (hs : Judged code ccs s) (f : Frame)
    : Judged code (ccs ++ f.connectionClose?.toList) (handleFrame s f) := by
  cases f with
  | connectionClose cc =>
    refine ⟨?_, ?_⟩
    . simp [UnsupportedTLSVersion.handleFrame, Frame.connectionClose?]
    . simp only [UnsupportedTLSVersion.handleFrame, Frame.connectionClose?, Option.toList_some,
        List.any_append, List.any_cons, List.any_nil, Bool.or_false]
      by_cases hwrong : cc.errorCode ≠ 0x146
      . rw [if_pos hwrong]
        simp [isWrong, hwrong, Trace.markError]
      . rw [if_neg hwrong, hs.errorCode]
        simp [isWrong, not_not.mp hwrong]
  | _ => simpa [UnsupportedTLSVersion.handleFrame, Frame.connectionClose?] using hs

theorem Judged.handleFrames {code : Nat} {ccs : List ConnectionCloseFrame} (hs : Judged code ccs s)
    (frames : List Frame)
    : Judged code (ccs ++ frames.filterMap Frame.connectionClose?)
        (frames.foldl UnsupportedTLSVersion.handleFrame s) := by
  induction frames generalizing s ccs with
  | nil => simpa using hs
  | cons f frames ih =>
    have hrest := ih (hs.handleFrame f)
    rw [List.append_assoc] at hrest
    rw [List.foldl_cons]
    cases hf : f.connectionClose? with
    | none =>
      rw [List.filterMap_cons_none hf]
      simpa [hf] using hrest
    | some cc =>
      rw [List.filterMap_cons_some hf]
      simpa [hf] using hrest

theorem Judged.yield {code : Nat} {hist : List Packet} (hs : Judged code (hist.flatMap Packet.closes) s) {p : Packet}
    (h : step lib s p = some (.yield s'))
    : Judged code ((hist ++ [p]).flatMap Packet.closes) s' := by
  rw [List.flatMap_append, List.flatMap_singleton]
  rcases p with p | p | p
  . have hnil : Packet.closes (.versionNegotiation p) = [] := rfl
    rw [hnil, List.append_nil]
    unfold step handleVersionNegotiation at h
    dsimp only at h
    split at h
    . injection h with h
      contradiction
    . rcases Option.bind_eq_some_iff.mp h with ⟨conn, _, h⟩
      injection h with h
      injection h with h
      rw [← h]
      exact hs.same rfl rfl
  . have hnil : Packet.closes (.retry p) = [] := rfl
    rw [hnil, List.append_nil]
    rcases Option.bind_eq_some_iff.mp h with ⟨s₁, hretry, h⟩
    rcases Option.bind_eq_some_iff.mp hretry with ⟨conn, _, hretry⟩
    injection h with h
    injection h with h
    injection hretry with hretry
    rw [← h, ← hretry]
    exact hs.same rfl rfl
  . injection h with h
    injection h with h
    rw [← h]
    exact hs.handleFrames p.frames

theorem step_done {p : Packet} (h : step lib s p = some (.done s'))
    : refusesVersions p = true ∧ s'.trace.errorCode = vnDidNotComplete := by
  rcases p with p | p | p
  . unfold step handleVersionNegotiation Client.processVersionNegotation at h
    dsimp only at h
    by_cases hversion : Client.chooseVersion p.supportedVersions = 0
    . rw [if_pos hversion] at h
      injection h with h
      injection h with h
      rw [← h]
      exact ⟨by simpa [refusesVersions] using hversion, rfl⟩
    . rw [if_neg hversion] at h
      rcases Option.bind_eq_some_iff.mp h with ⟨_, _, h⟩
      injection h with h
      contradiction
  . rcases Option.bind_eq_some_iff.mp h with ⟨_, _, h⟩
    injection h with h
    contradiction
  . injection h with h
    contradiction

theorem step_yield {p : Packet} (h : step lib s p = some (.yield s'))
    : refusesVersions p = false := by
  rcases p with p | p | p
  . unfold step handleVersionNegotiation Client.processVersionNegotation at h
    dsimp only at h
    by_cases hversion : Client.chooseVersion p.supportedVersions = 0
    . rw [if_pos hversion] at h
      injection h with h
      contradiction
    . simpa [refusesVersions] using hversion
  . rfl
  . rfl

structure Waiting (code : Nat) (hist : List Packet) (s : State τ) : Prop where
  judged : Judged code (hist.flatMap Packet.closes) s
  accepted : hist.any refusesVersions = false

structure Left (hist : List Packet) (s : State τ) : Prop where
  refused : hist.any refusesVersions = true
  errorCode : s.trace.errorCode = vnDidNotComplete

theorem Waiting.yield {code : Nat} {hist : List Packet} (hs : Waiting code hist s) {p : Packet}
    (h : step lib s p = some (.yield s'))
    : Waiting code (hist ++ [p]) s' := by
  refine ⟨hs.judged.yield h, ?_⟩
  rw [List.any_append, hs.accepted]
  simpa using step_yield h

theorem left_of_done {hist : List Packet} {p : Packet} (h : step lib s p = some (.done s'))
    : Left (hist ++ [p]) s' := by
  rcases step_done h with ⟨hrefuses, hcode⟩
  refine ⟨?_, hcode⟩
  rw [List.any_append]
  simp [hrefuses]

theorem closes_decide {globals : Globals} {conn : Client τ} {trace trace' : Trace} {packets : List Packet}
    (hrun : run lib globals conn trace packets = some trace')
    : trace'.errorCode =
        if packets.any refusesVersions then
          vnDidNotComplete
        else if packets.flatMap Packet.closes = [] then
          noConnectionCloseSent
        else if (packets.flatMap Packet.closes).any isWrong then
          wrongErrorCodeIsUsed
        else
          trace.errorCode := by
  rcases Option.bind_eq_some_iff.mp hrun with ⟨conn', _, hrun⟩
  rcases Option.bind_eq_some_iff.mp hrun with ⟨r, hscan, hrun⟩
  have hyield (hist : List Packet) (s : State τ) (p : Packet) (s' : State τ) (hs : Waiting trace.errorCode hist s)
      (h : step lib s p = some (.yield s'))
      : Waiting trace.errorCode (hist ++ [p]) s' := by
    exact hs.yield h
  have hdone (hist : List Packet) (s : State τ) (p : Packet) (s' : State τ) (_ : Waiting trace.errorCode hist s)
      (h : step lib s p = some (.done s'))
      : Left (hist ++ [p]) s' := by
    exact left_of_done h
  have hstart : Waiting trace.errorCode [] (⟨globals, conn', trace, false, none⟩ : State τ) :=
    ⟨⟨by simp, rfl⟩, rfl⟩
  rcases Watch.scan_rule (step lib) hyield hdone hstart hscan with
    ⟨s', rfl, hjudged, hnone⟩ | ⟨s', seen, rest, rfl, hpackets, hrefuses, hcode⟩
  . injection hrun with hrun
    rw [List.nil_append] at hjudged hnone
    rw [← hrun, hnone, if_neg Bool.false_ne_true]
    unfold verdict
    by_cases hccs : packets.flatMap Packet.closes = []
    . rw [if_pos hccs]
      rw [if_pos (by rw [hjudged.connectionClosed]; exact not_not.mpr hccs)]
    . rw [if_neg hccs]
      rw [if_neg (by rw [hjudged.connectionClosed]; exact not_not.mpr hccs)]
      exact hjudged.errorCode
  . injection hrun with hrun
    rw [← hrun, hpackets, List.any_append]
    rw [List.nil_append] at hrefuses
    rw [hrefuses, Bool.true_or, if_pos rfl]
    exact hcode

def samplePacket (errorCode : Nat) : Packet :=
  .frames ⟨.short ⟨false, [], ⟨0, 1⟩, 0⟩, .appData, .oneRTT, [.connectionClose ⟨errorCode, 0, 0, []⟩]⟩

/-- One of the two closes has the wrong code. -/
theorem closes_decide_wrong
    : ∃ trace', run sampleLibraries {} sampleClient {} [samplePacket 0x147, samplePacket 0x146] = some trace' ∧
        trace'.errorCode = wrongErrorCodeIsUsed := by
  have hsome : (run sampleLibraries {} sampleClient {} [samplePacket 0x147, samplePacket 0x146]).isSome := by
    decide +kernel
  rcases Option.isSome_iff_exists.mp hsome with ⟨trace', hrun⟩
  refine ⟨trace', hrun, ?_⟩
  rw [closes_decide hrun]
  decide

end UnsupportedTLSVersion

namespace Handshake

open HandshakeAgent (Input)

variable {τ : Type} {lib : Libraries τ}

inductive Reports (inputs : List Input) : String → Prop where
  | version {p : VersionNegotiationPacket} (hmem : .incoming (.versionNegotiation p) ∈ inputs)
      (h : Client.chooseVersion p.supportedVersions = 0) : Reports inputs noVersionText
  | closed {p : FramePacket} (hmem : .incoming (.frames p) ∈ inputs) (h : HandshakeAgent.Closes p) :
      Reports inputs HandshakeAgent.closedText
  | tls {status : TLSStatus} {err : String} (hmem : .tlsStatus status ∈ inputs) (h : status.error = some err) :
      Reports inputs err
  | socket {err : String} (hmem : .socketStatus err ∈ inputs) (h : HandshakeAgent.connectionRefused err = true) :
      Reports inputs err

theorem Reports.mono {inputs inputs' : List Input} {err : String} (h : Reports inputs err)
    (hsub : ∀ i ∈ inputs, i ∈ inputs')
    : Reports inputs' err := by
  cases h with
  | version hmem h => exact .version (hsub _ hmem) h
  | closed hmem h => exact .closed (hsub _ hmem) h
  | tls hmem h => exact .tls (hsub _ hmem) h
  | socket hmem h => exact .socket (hsub _ hmem) h

/-- A status without an error is one of a completed handshake. -/
def Accounted (inputs : List Input) (status : HandshakeStatus) : Prop :=
  status.completed = true ∨ ∃ err, status.error = some err ∧ Reports inputs err

theorem Accounted.mono {inputs inputs' : List Input} {status : HandshakeStatus} (h : Accounted inputs status)
    (hsub : ∀ i ∈ inputs, i ∈ inputs')
    : Accounted inputs' status := by
  rcases h with h | ⟨err, herr, h⟩
  . exact Or.inl h
  . exact Or.inr ⟨err, herr, h.mono hsub⟩

theorem step_accounted {hist : List Input} {s s' : HandshakeAgent.State τ} {i : Input}
    (hs : ∀ status ∈ s.handshakeStatus, Accounted hist status) (h : HandshakeAgent.step lib s i = some s')
    : ∀ status ∈ s'.handshakeStatus, Accounted (hist ++ [i]) status := by
  have hkept : ∀ status ∈ s.handshakeStatus, Accounted (hist ++ [i]) status := by
    intro status hstatus
    exact (hs status hstatus).mono (fun j hj => List.mem_append_left _ hj)
  have hi : i ∈ hist ++ [i] := by simp
  have hsubmit (status : HandshakeStatus) (hstatus : Accounted (hist ++ [i]) status)
      : ∀ status' ∈ s.handshakeStatus ++ [status], Accounted (hist ++ [i]) status' := by
    intro status' hmem
    rcases List.mem_append.mp hmem with hmem | hmem
    . exact hkept status' hmem
    . rw [List.mem_singleton.mp hmem]
      exact hstatus
  rcases HandshakeAgent.step_cases lib h with ⟨_, rfl⟩ | ⟨_, hstep⟩
  . exact hkept
  . cases hstep with
    | versionRefused hversion => exact hsubmit _ (Or.inr ⟨_, rfl, .version hi hversion⟩)
    | closed hcloses => exact hsubmit _ (Or.inr ⟨_, rfl, .closed hi hcloses⟩)
    | finished => exact hsubmit _ (Or.inl rfl)
    | @tlsStatus status =>
      unfold HandshakeAgent.handleTLSStatus
      cases herr : status.error with
      | none => simpa [herr] using hkept
      | some err =>
        exact hsubmit _ (Or.inr ⟨err, rfl, .tls hi herr⟩)
    | @socketStatus err =>
      unfold HandshakeAgent.handleSocketStatus
      split
      . next hrefused => exact hsubmit _ (Or.inr ⟨err, rfl, .socket hi hrefused⟩)
      . exact hkept
    | _ => exact hkept

theorem statuses_accounted {globals : Globals} {conn : Client τ} {ignoreRetry : Bool} {inputs : List Input}
    {s : HandshakeAgent.State τ}
    (hrun : Run.run (HandshakeAgent.step lib) (HandshakeAgent.start globals conn ignoreRetry) inputs = some s)
    : ∀ status ∈ s.handshakeStatus, Accounted inputs status := by
  have hstep (hist : List Input) (s : HandshakeAgent.State τ) (i : Input) (s' : HandshakeAgent.State τ)
      (hs : ∀ status ∈ s.handshakeStatus, Accounted hist status) (_ : True)
      (h : HandshakeAgent.step lib s i = some s')
      : ∀ status ∈ s'.handshakeStatus, Accounted (hist ++ [i]) status := by
    exact step_accounted hs h
  have hall := Run.Guarded.of_forall (HandshakeAgent.step lib)
    (fun (_ : Input) (_ : _ ∈ inputs) (_ : HandshakeAgent.State τ) => trivial)
    (HandshakeAgent.start globals conn ignoreRetry)
  exact Run.inv_of_run (HandshakeAgent.step lib) hstep [] _ inputs (by simp [HandshakeAgent.start]) hall hrun

def errorCodeOf (error : String) : Nat :=
  if error = noVersionText then
    noCompatibleVersionAvailable
  else if error = incorrectPacketText then
    receivedUnexpectedPacketType
  else
    tlsHandshakeFailed

theorem judgeError_errorCode (trace : Trace) (error : String)
    : (judgeError trace error).errorCode = errorCodeOf error := by
  unfold judgeError errorCodeOf
  split
  . rfl
  . split
    . rfl
    . rfl

theorem errorCodeOf_cases (error : String)
    : (errorCodeOf error = noCompatibleVersionAvailable ∧ error = noVersionText) ∨
      (errorCodeOf error = receivedUnexpectedPacketType ∧ error = incorrectPacketText) ∨
      errorCodeOf error = tlsHandshakeFailed := by
  unfold errorCodeOf
  split
  . next h => exact Or.inl ⟨rfl, h⟩
  . split
    . next h => exact Or.inr (Or.inl ⟨rfl, h⟩)
    . exact Or.inr (Or.inr rfl)

theorem errorCodeOf_ne_zero (error : String) : errorCodeOf error ≠ 0 := by
  rcases errorCodeOf_cases error with ⟨h, _⟩ | ⟨h, _⟩ | h
  all_goals
    rw [h]
    decide

theorem errorCodeOf_ne_timeout (error : String) : errorCodeOf error ≠ timeout := by
  rcases errorCodeOf_cases error with ⟨h, _⟩ | ⟨h, _⟩ | h
  all_goals
    rw [h]
    decide

theorem eq_noVersionText {error : String} (herror : errorCodeOf error = noCompatibleVersionAvailable)
    : error = noVersionText := by
  rcases errorCodeOf_cases error with ⟨_, hname⟩ | ⟨h, _⟩ | h
  . exact hname
  . rw [h] at herror
    contradiction
  . rw [h] at herror
    contradiction

theorem eq_incorrectPacketText {error : String} (herror : errorCodeOf error = receivedUnexpectedPacketType)
    : error = incorrectPacketText := by
  rcases errorCodeOf_cases error with ⟨h, _⟩ | ⟨_, hname⟩ | h
  . rw [h] at herror
    contradiction
  . exact hname
  . rw [h] at herror
    contradiction

structure Judged (inputs : List Input) (statuses : List HandshakeStatus) (s : State) : Prop where
  errorCode : (s.trace.errorCode = 0 ∧ ∀ status ∈ statuses, status.completed = true) ∨
    ((∃ status ∈ statuses, status.completed = false) ∧
      ∃ err, Reports inputs err ∧ s.trace.errorCode = errorCodeOf err)
  completed : s.trace.errorCode = 0 → (s.completed = true ↔ statuses ≠ [])

theorem Judged.step {inputs : List Input} {statuses : List HandshakeStatus} {s : State}
    (hs : Judged inputs statuses s) {status : HandshakeStatus} (hstatus : Accounted inputs status)
    : ∃ s', Handshake.step s status = some s' ∧ Judged inputs (statuses ++ [status]) s' := by
  unfold Handshake.step
  cases hcompleted : status.completed with
  | true =>
    refine ⟨_, rfl, ?_, by simp⟩
    rcases hs.errorCode with ⟨hzero, hall⟩ | ⟨⟨failed, hmem, hfailed⟩, hreason⟩
    . refine Or.inl ⟨hzero, ?_⟩
      intro status' hmem
      rcases List.mem_append.mp hmem with hmem | hmem
      . exact hall status' hmem
      . rw [List.mem_singleton.mp hmem]
        exact hcompleted
    . exact Or.inr ⟨⟨failed, List.mem_append_left _ hmem, hfailed⟩, hreason⟩
  | false =>
    rcases hstatus with hstatus | ⟨err, herr, hreports⟩
    . rw [hcompleted] at hstatus
      contradiction
    . rw [herr]
      refine ⟨_, rfl, ?_, ?_⟩
      . refine Or.inr ⟨⟨status, by simp, hcompleted⟩, err, hreports, ?_⟩
        exact judgeError_errorCode s.trace err
      . intro hzero
        rw [judgeError_errorCode] at hzero
        exact absurd hzero (errorCodeOf_ne_zero err)

theorem Judged.run {inputs : List Input} {seen statuses : List HandshakeStatus} {s : State}
    (hs : Judged inputs seen s) (hstatuses : ∀ status ∈ statuses, Accounted inputs status)
    : ∃ s', statuses.foldlM Handshake.step s = some s' ∧ Judged inputs (seen ++ statuses) s' := by
  induction statuses generalizing seen s with
  | nil => exact ⟨s, rfl, by simpa using hs⟩
  | cons status statuses ih =>
    rw [List.forall_mem_cons] at hstatuses
    rcases hs.step hstatuses.1 with ⟨s₁, hs₁, hjudged⟩
    rcases ih hjudged hstatuses.2 with ⟨s₂, hs₂, hjudged⟩
    refine ⟨s₂, ?_, by simpa using hjudged⟩
    rw [List.foldlM_cons, hs₁]
    exact hs₂

theorem Judged.verdict {inputs : List Input} {statuses : List HandshakeStatus} {s : State}
    (hs : Judged inputs statuses s)
    : (statuses = [] ∧ (verdict s).errorCode = timeout) ∨
      (statuses ≠ [] ∧ (∀ status ∈ statuses, status.completed = true) ∧ (verdict s).errorCode = 0) ∨
      ((∃ status ∈ statuses, status.completed = false) ∧
        ∃ err, Reports inputs err ∧ (verdict s).errorCode = errorCodeOf err) := by
  unfold Handshake.verdict
  rcases hs.errorCode with ⟨hzero, hall⟩ | ⟨hfailed, err, hreports, hcode⟩
  . have hcompleted := hs.completed hzero
    by_cases hnil : statuses = []
    . rw [if_pos ⟨by rw [hcompleted]; exact not_not.mpr hnil, hzero⟩]
      exact Or.inl ⟨hnil, rfl⟩
    . rw [if_neg (fun h => h.1 (hcompleted.mpr hnil))]
      exact Or.inr (Or.inl ⟨hnil, hall, hzero⟩)
  . rw [if_neg (fun h => errorCodeOf_ne_zero err (hcode ▸ h.2))]
    exact Or.inr (Or.inr ⟨hfailed, err, hreports, hcode⟩)

theorem Reports.incorrectPacket {inputs : List Input} (h : Reports inputs incorrectPacketText)
    : ∃ status, .tlsStatus status ∈ inputs ∧ status.error = some incorrectPacketText := by
  generalize herr : incorrectPacketText = err at h
  cases h with
  | version => exact absurd herr (by decide)
  | closed => exact absurd herr (by decide)
  | tls hmem h => exact ⟨_, hmem, h⟩
  | socket _ h =>
    rw [← herr] at h
    exact absurd h (by decide)

theorem Reports.noVersion {inputs : List Input} (h : Reports inputs noVersionText)
    : (∃ p, .incoming (.versionNegotiation p) ∈ inputs ∧ Client.chooseVersion p.supportedVersions = 0) ∨
      ∃ status, .tlsStatus status ∈ inputs ∧ status.error = some noVersionText := by
  generalize herr : noVersionText = err at h
  cases h with
  | version hmem h => exact Or.inl ⟨_, hmem, h⟩
  | closed => exact absurd herr (by decide)
  | tls hmem h => exact Or.inr ⟨_, hmem, h⟩
  | socket _ h =>
    rw [← herr] at h
    exact absurd h (by decide)

/-- The statuses that the scenario takes are the first ones of the agent. -/
theorem agent_decides {globals : Globals} {conn : Client τ} {ignoreRetry : Bool} {inputs : List Input}
    {s : HandshakeAgent.State τ}
    (hrun : Run.run (HandshakeAgent.step lib) (HandshakeAgent.start globals conn ignoreRetry) inputs = some s)
    {statuses : List HandshakeStatus} (hstatuses : statuses <+: s.handshakeStatus)
    : ∃ trace, run {} statuses = some trace ∧
        (trace.errorCode = timeout ↔ statuses = []) ∧
        (trace.errorCode = 0 ↔ statuses ≠ [] ∧ ∀ status ∈ statuses, status.completed = true) ∧
        (trace.errorCode = noCompatibleVersionAvailable →
          (∃ p, .incoming (.versionNegotiation p) ∈ inputs ∧ Client.chooseVersion p.supportedVersions = 0) ∨
            ∃ status, .tlsStatus status ∈ inputs ∧ status.error = some noVersionText) ∧
        (trace.errorCode = receivedUnexpectedPacketType →
          ∃ status, .tlsStatus status ∈ inputs ∧ status.error = some incorrectPacketText) := by
  have hstart : Judged inputs [] (⟨{}, false⟩ : State) := ⟨Or.inl ⟨rfl, by simp⟩, by simp⟩
  have haccounted : ∀ status ∈ statuses, Accounted inputs status := by
    intro status hstatus
    exact statuses_accounted hrun status (hstatuses.subset hstatus)
  rcases hstart.run haccounted with ⟨s', hs', hjudged⟩
  rw [List.nil_append] at hjudged
  refine ⟨verdict s', ?_, ?_⟩
  . unfold run
    rw [hs']
    rfl
  . rcases hjudged.verdict with ⟨hnil, hcode⟩ | ⟨hne, hall, hcode⟩ | ⟨⟨failed, hmem, hfailed⟩, err, hreports, hcode⟩
    . rw [hcode]
      refine ⟨by simp [hnil], ?_, ?_, ?_⟩
      . simp [hnil, timeout]
      . intro h
        contradiction
      . intro h
        contradiction
    . rw [hcode]
      refine ⟨?_, ?_, ?_, ?_⟩
      . simp [hne, timeout]
      . simp only [true_iff]
        exact ⟨hne, hall⟩
      . intro h
        contradiction
      . intro h
        contradiction
    . have hne : statuses ≠ [] := List.ne_nil_of_mem hmem
      have hnot : ¬ ∀ status ∈ statuses, status.completed = true := by
        intro hall
        rw [hall failed hmem] at hfailed
        contradiction
      rw [hcode]
      refine ⟨?_, ?_, ?_, ?_⟩
      . exact iff_of_false (errorCodeOf_ne_timeout err) hne
      . exact iff_of_false (errorCodeOf_ne_zero err) (fun h => hnot h.2)
      . intro h
        rw [eq_noVersionText h] at hreports
        exact hreports.noVersion
      . intro h
        rw [eq_incorrectPacketText h] at hreports
        exact hreports.incorrectPacket

theorem agent_decides_version
    : ∃ s, Run.run (HandshakeAgent.step sampleLibraries) (HandshakeAgent.start {} sampleClient false)
          [.incoming (.versionNegotiation ⟨0, 0, [], [], [1]⟩)] = some s ∧
        ∃ trace, run {} s.handshakeStatus = some trace ∧ trace.errorCode ≠ 0 ∧ trace.errorCode ≠ timeout := by
  have hsome : ∃ s, Run.run (HandshakeAgent.step sampleLibraries) (HandshakeAgent.start {} sampleClient false)
      [.incoming (.versionNegotiation ⟨0, 0, [], [], [1]⟩)] = some s ∧
      s.handshakeStatus.map (fun status => status.completed) = [false] := by
    decide +kernel
  rcases hsome with ⟨s, hrun, hstatus⟩
  rcases agent_decides hrun ⟨[], List.append_nil _⟩ with ⟨trace, htrace, htimeout, hzero, _⟩
  have hne : s.handshakeStatus ≠ [] := by
    intro hnil
    rw [hnil] at hstatus
    contradiction
  refine ⟨s, hrun, trace, htrace, ?_, ?_⟩
  . rw [Ne, hzero]
    intro hall
    rcases List.map_eq_singleton_iff.mp hstatus with ⟨status, hsingle, hfailed⟩
    have hcompleted := hall.2 status (by rw [hsingle]; simp)
    rw [hfailed] at hcompleted
    contradiction
  . rw [Ne, htimeout]
    exact hne

end Handshake

end QuicTracker
