import QuicTracker.Impl.Session
import QuicTracker.Lemmas.Agents.Handshake
import Mathlib.Logic.Relation

/-!
This module contains what one step of the client can do to its connection. The recovery agent and the users
of the connection make a sequence of small changes, the handshake agent can also start it again.
-/

namespace QuicTracker

namespace Session

open Client (chooseVersion SentInitial)

variable {τ : Type} (lib : Libraries τ)

inductive Change (acks : PNSpace → AckFrame → Prop) (c : Client τ) : Client τ → Prop where
  | created (space : PNSpace) :
      Change acks c (c.nextPacketNumber space).2
  | sent (written : List (List UInt8)) (submitted : List FramePacket) :
      Change acks c { c with udpConnection := written, outgoingPackets := submitted }
  | queued (f : Frame) (level : EncryptionLevel) :
      Change acks c (c.submitFrame f level)
  | acked {space : PNSpace} {ack : AckFrame} (h : acks space ack) :
      Change acks c (RecoveryAgent.noteAck c space ack)

def Changes (acks : PNSpace → AckFrame → Prop) (c c' : Client τ) : Prop :=
  Relation.ReflTransGen (Change acks) c c'

theorem Changes.inv {acks : PNSpace → AckFrame → Prop} {inv : Client τ → Prop} {c c' : Client τ}
    (h : Changes acks c c') (hchange : ∀ c c', inv c → Change acks c c' → inv c') (hc : inv c)
    : inv c' := by
  induction h with
  | refl => exact hc
  | tail _ hlast ih => exact hchange _ _ ih hlast

theorem submitFrame_changes (acks : PNSpace → AckFrame → Prop) (c : Client τ) (frames : List Frame)
    (level : EncryptionLevel)
    : Changes acks c (frames.foldl (fun c f => c.submitFrame f level) c) := by
  induction frames generalizing c with
  | nil => exact .refl
  | cons f frames ih => exact .head (.queued f level) (ih _)

theorem retransmitBatch_changes (acks : PNSpace → AckFrame → Prop) {c c' : Client τ}
    {batch : RetransmitBatch} (h : RecoveryAgent.retransmitBatch lib c batch = some c')
    : Changes acks c c' := by
  induction batch generalizing c with
  | nil =>
    injection h with h
    rw [h]
    exact .refl
  | cons b batch ih =>
    rcases Option.bind_eq_some_iff.mp h with ⟨first, _, h⟩
    cases first with
    | true =>
      rcases Option.bind_eq_some_iff.mp h with ⟨⟨p, c₁⟩, hpacket, h⟩
      rcases Client.sendPacket_cases h with ⟨written, submitted, rfl⟩
      rw [Client.newInitialPacket_cases lib hpacket]
      exact .tail (.single (.created .initial)) (.sent written submitted)
    | false => exact (submitFrame_changes acks c b.frames b.level).trans (ih h)

theorem handleAck_changes {acks : PNSpace → AckFrame → Prop} {space : PNSpace} {ack : AckFrame}
    {r r' : RecoveryAgent × Client τ} (hack : acks space ack)
    (h : RecoveryAgent.handleAck lib space r ack = some r')
    : Changes acks r.2 r'.2 := by
  rcases Option.bind_eq_some_iff.mp h with ⟨⟨batch, agent⟩, _, h⟩
  rcases Option.bind_eq_some_iff.mp h with ⟨c, hbatch, h⟩
  injection h with h
  rw [← h]
  exact .head (.acked hack) (retransmitBatch_changes lib acks hbatch)

theorem handleAcks_changes {acks : PNSpace → AckFrame → Prop} {space : PNSpace}
    {frames : List AckFrame} {r r' : RecoveryAgent × Client τ} (hacks : ∀ ack ∈ frames, acks space ack)
    (h : frames.foldlM (RecoveryAgent.handleAck lib space) r = some r')
    : Changes acks r.2 r'.2 := by
  induction frames generalizing r with
  | nil =>
    injection h with h
    rw [h]
    exact .refl
  | cons ack frames ih =>
    rw [List.foldlM_cons] at h
    rcases Option.bind_eq_some_iff.mp h with ⟨r₁, hack, h⟩
    have hrest := ih (fun a ha => hacks a (List.mem_cons_of_mem _ ha)) h
    exact (handleAck_changes lib (hacks ack List.mem_cons_self) hack).trans hrest

/-- The acknowledgements that the recovery agent reads from one of its inputs. -/
def Acknowledges (i : RecoveryAgent.Input) (space : PNSpace) (ack : AckFrame) : Prop :=
  match i with
  | .incoming (.frames p) => space = p.pnSpace ∧ ack ∈ RecoveryAgent.ackFrames p
  | _ => False

theorem handleIncoming_changes {r r' : RecoveryAgent × Client τ} {p : Packet}
    (h : RecoveryAgent.handleIncoming lib r p = some r')
    : Changes (Acknowledges (.incoming p)) r.2 r'.2 := by
  cases p with
  | frames p =>
    rcases Option.bind_eq_some_iff.mp h with ⟨r₁, hacks, h⟩
    have hchanges : Changes (Acknowledges (.incoming (.frames p))) r.2 r₁.2 :=
      handleAcks_changes lib (fun ack hack => ⟨rfl, hack⟩) hacks
    split at h
    . injection h with h
      rw [← h]
      exact hchanges
    . injection h with h
      rw [← h]
      exact hchanges
  | retry p =>
    injection h with h
    rw [← h]
    exact .refl
  | versionNegotiation p =>
    injection h with h
    rw [← h]
    exact .refl

theorem recovery_changes {r r' : RecoveryAgent × Client τ} {i : RecoveryAgent.Input}
    (h : RecoveryAgent.step lib r i = some r')
    : Changes (Acknowledges i) r.2 r'.2 := by
  cases i with
  | tick now order =>
    rcases Option.bind_eq_some_iff.mp h with ⟨c, hbatch, h⟩
    injection h with h
    rw [← h]
    exact retransmitBatch_changes lib _ hbatch
  | incoming p => exact handleIncoming_changes lib h
  | outgoing now p =>
    rcases Option.bind_eq_some_iff.mp h with ⟨agent, _, h⟩
    injection h with h
    rw [← h]
    exact .refl
  | encryptionLevel e =>
    injection h with h
    rw [← h]
    exact .refl

theorem newPacket_cases {kind : PacketKind} {c c' : Client τ} {p : FramePacket}
    (h : newPacket lib kind c = some (p, c'))
    : c' = (c.nextPacketNumber kind.pnSpace).2 := by
  cases kind with
  | initial => exact Client.newInitialPacket_cases lib h
  | handshake => exact Client.newHandshakePacket_cases lib h
  | zeroRTTProtected => exact Client.newZeroRTTProtectedPacket_cases lib h
  | oneRTTProtected => exact Client.newProtectedPacket_cases lib h

/-- A connection that starts again. Its maps are empty, its queue and what was sent are not. -/
structure Restarted (c c' : Client τ) : Prop where
  streams : c'.streams = fun _ => none
  frameQueue : c'.frameQueue = c.frameQueue
  packetNumber : c'.packetNumber = fun _ => 0
  largestPNsAcknowledged : c'.largestPNsAcknowledged = fun _ => 0
  numbersUsed : c'.numbersUsed = c.numbersUsed
  initialKeys : c'.initialKeys = c'.destinationCID

theorem restartOnVersion_restarted (s : HandshakeAgent.State τ) (p : VersionNegotiationPacket)
    : Restarted s.conn (HandshakeAgent.restartOnVersion lib s p).conn := by
  exact ⟨rfl, rfl, rfl, rfl, rfl, rfl⟩

theorem restartOnRetry_restarted (s : HandshakeAgent.State τ) (p : RetryPacket)
    : Restarted s.conn (HandshakeAgent.restartOnRetry lib s p).conn := by
  exact ⟨rfl, rfl, rfl, rfl, rfl, rfl⟩

theorem restartOnVersion_initialKeys (s : HandshakeAgent.State τ) (p : VersionNegotiationPacket)
    : (HandshakeAgent.restartOnVersion lib s p).conn.initialKeys = s.conn.destinationCID := by
  rfl

theorem restartOnRetry_initialKeys (s : HandshakeAgent.State τ) (p : RetryPacket)
    : (HandshakeAgent.restartOnRetry lib s p).conn.initialKeys = p.header.sourceCID := by
  rfl

/-- The connection ID that the keys are derived from when the input starts the connection again. -/
def restartCID (s : HandshakeAgent.State τ) (i : HandshakeAgent.Input) : Option ConnectionID :=
  if s.returned then
    none
  else
    match i with
    | .incoming (.versionNegotiation p) =>
      if chooseVersion p.supportedVersions = 0 then none else some s.conn.destinationCID
    | .incoming (.retry p) =>
      if HandshakeAgent.acceptsRetry s p then some p.header.sourceCID else none
    | _ => none

inductive Handles (s : HandshakeAgent.State τ) (i : HandshakeAgent.Input) (c : Client τ) : Prop where
  | kept (h : c = s.conn)
  | addressed (cid : ConnectionID) (h : c = { s.conn with destinationCID := cid })
  | sent (h : SentInitial s.conn c)
  | restarted {fresh : Client τ} (hrestarted : Restarted s.conn fresh)
      (hkeys : restartCID s i = some fresh.initialKeys) (h : SentInitial fresh c)

theorem handshake_handles {s s' : HandshakeAgent.State τ} {i : HandshakeAgent.Input}
    (h : HandshakeAgent.step lib s i = some s')
    : Handles s i s'.conn := by
  rcases HandshakeAgent.step_cases lib h with ⟨_, rfl⟩ | ⟨hreturned, hstep⟩
  . exact .kept rfl
  . cases hstep with
    | sent hsent => exact .sent (Client.sendInitialPacket_cases lib hsent)
    | versionAccepted hversion hsent =>
      refine .restarted (restartOnVersion_restarted lib s _) ?_
        (Client.sendInitialPacket_cases lib hsent)
      rw [restartOnVersion_initialKeys]
      simp [restartCID, hreturned, hversion]
    | retryAccepted haccepts hsent =>
      refine .restarted (restartOnRetry_restarted lib s _) ?_
        (Client.sendInitialPacket_cases lib hsent)
      rw [restartOnRetry_initialKeys]
      simp [restartCID, hreturned, haccepts]
    | firstInitial _ _ _ _ => exact .addressed _ rfl
    | tlsStatus =>
      apply Handles.kept
      unfold HandshakeAgent.handleTLSStatus
      dsimp only
      split
      . rfl
      . rfl
    | socketStatus =>
      apply Handles.kept
      unfold HandshakeAgent.handleSocketStatus
      split
      . rfl
      . rfl
    | versionRefused _ => exact .kept rfl
    | retryRefused _ => exact .kept rfl
    | closed _ => exact .kept rfl
    | received _ _ => exact .kept rfl
    | finished _ _ _ => exact .kept rfl
    | outgoing _ => exact .kept rfl
    | close => exact .kept rfl

theorem Handles.inv {inv : Client τ → Prop} {s : HandshakeAgent.State τ} {i : HandshakeAgent.Input}
    {c : Client τ} (hconn : Handles s i c) (h : inv s.conn)
    (haddressed : ∀ cid, inv { s.conn with destinationCID := cid })
    (hsent : ∀ c c', inv c → SentInitial c c' → inv c')
    (hrestarted : ∀ fresh, Restarted s.conn fresh → restartCID s i = some fresh.initialKeys → inv fresh)
    : inv c := by
  cases hconn with
  | kept hc =>
    rw [hc]
    exact h
  | addressed cid hc =>
    rw [hc]
    exact haddressed cid
  | sent hinitial => exact hsent _ _ h hinitial
  | restarted hfresh hkeys hinitial => exact hsent _ _ (hrestarted _ hfresh hkeys) hinitial

inductive Step (s : State τ) : Event → State τ → Prop where
  | handshake {i : HandshakeAgent.Input} {agent : HandshakeAgent.State τ}
      (h : Handles s.agent i agent.conn) :
      Step s (.handshake i) (withAgent s agent)
  | recovery {i : RecoveryAgent.Input} {recovery : RecoveryAgent} {c : Client τ}
      (h : Changes (Acknowledges i) s.conn c) :
      Step s (.recovery i) (withConn { s with recovery := recovery } c)
  | write {streamId : Nat} {data : List UInt8} {fin : Bool} {c : Client τ}
      (h : s.conn.sendOnStream streamId data fin = some c) :
      Step s (.write streamId data fin) (withConn s c)
  | create {kind : PacketKind} :
      Step s (.create kind) (withConn s (s.conn.nextPacketNumber kind.pnSpace).2)

theorem step_cases {s s' : State τ} {e : Event} (h : step lib s e = some s') : Step s e s' := by
  cases e with
  | handshake i =>
    rcases Option.bind_eq_some_iff.mp h with ⟨agent, hagent, h⟩
    injection h with h
    rw [← h]
    exact .handshake (handshake_handles lib hagent)
  | recovery i =>
    rcases Option.bind_eq_some_iff.mp h with ⟨⟨recovery, c⟩, hrecovery, h⟩
    injection h with h
    rw [← h]
    exact .recovery (recovery_changes lib hrecovery)
  | write streamId data fin =>
    rcases Option.bind_eq_some_iff.mp h with ⟨c, hc, h⟩
    injection h with h
    rw [← h]
    exact .write hc
  | create kind =>
    rcases Option.bind_eq_some_iff.mp h with ⟨⟨p, c⟩, hpacket, h⟩
    injection h with h
    rw [← h]
    rw [newPacket_cases lib hpacket]
    exact .create

structure Fresh (c : Client τ) : Prop where
  streams : c.streams = fun _ => none
  frameQueue : c.frameQueue = []
  packetNumber : c.packetNumber = fun _ => 0
  largestPNsAcknowledged : c.largestPNsAcknowledged = fun _ => 0
  numbersUsed : c.numbersUsed = []
  initialKeys : c.initialKeys = c.destinationCID

theorem transitionTo_fresh (globals : Globals) (c : Client τ) (version : Nat) (alpn : String)
    (hqueue : c.frameQueue = []) (hused : c.numbersUsed = [])
    : Fresh (Client.transitionTo lib globals c version alpn) := by
  exact ⟨rfl, hqueue, rfl, rfl, hused, rfl⟩

theorem Fresh.start {c : Client τ} (h : Fresh c) (globals : Globals) (ignoreRetry : Bool)
    : Fresh (Session.start globals c ignoreRetry).conn := by
  exact ⟨h.streams, h.frameQueue, h.packetNumber, h.largestPNsAcknowledged, h.numbersUsed, h.initialKeys⟩

end Session

end QuicTracker
