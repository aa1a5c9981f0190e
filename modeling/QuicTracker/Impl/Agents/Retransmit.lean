import QuicTracker.Impl.Agents.Recovery
import QuicTracker.Impl.Client

/-!
This module contains the loop of `agents/recovery_agent.go` with what it does to the connection: the largest
number acknowledged, and the frames that are sent again. Times are in milliseconds, a panic is `none`.
-/

namespace QuicTracker

namespace RecoveryAgent

variable {τ : Type} (lib : Libraries τ)

def ackECN? (f : Frame) : Option AckFrame :=
  match f with
  | .ackECN f => some f.toAckFrame
  | _ => none

/-- The ACK frames come before the ACK_ECN frames. -/
def ackFrames (p : FramePacket) : List AckFrame := p.frames.filterMap Frame.ack? ++ p.frames.filterMap ackECN?

def noteAck (c : Client τ) (space : PNSpace) (ack : AckFrame) : Client τ :=
  if ack.largestAcknowledged > c.largestPNsAcknowledged space then
    { c with largestPNsAcknowledged :=
        Function.update c.largestPNsAcknowledged space ack.largestAcknowledged }
  else
    c

/-- The heuristic that detects the first Initial packet. It panics without frames. -/
def isFirstInitial (b : RetransmittableFrames) : Option Bool :=
  if b.level = .initial then
    if b.frames.length > 200 then
      some true
    else do
      let first ← b.frames.head?
      return first.frameType = FrameType.stream
  else
    some false

/-- The rest of the batch is dropped behind the first Initial packet. -/
def retransmitBatch (c : Client τ) (batch : RetransmitBatch) : Option (Client τ) :=
  match batch with
  | [] => some c
  | b :: batch => do
    if ← isFirstInitial b then
      let (packet, c) ← Client.newInitialPacket lib c
      c.sendPacket { packet with frames := b.frames } .initial
    else
      retransmitBatch (b.frames.foldl (fun c f => c.submitFrame f b.level) c) batch

def handleAck (space : PNSpace) (r : RecoveryAgent × Client τ) (ack : AckFrame) :
    Option (RecoveryAgent × Client τ) := do
  let c := noteAck r.2 space ack
  let (batch, agent) ← r.1.processAck ack space
  let c ← retransmitBatch lib c batch
  return (agent, c)

def emptyBuffer (agent : RecoveryAgent) (space : PNSpace) : RecoveryAgent :=
  ⟨Function.update agent.retransmissionBuffer space (fun _ => none)⟩

def handleIncoming (r : RecoveryAgent × Client τ) (p : Packet) : Option (RecoveryAgent × Client τ) :=
  match p with
  | .frames p => do
    let r ← (ackFrames p).foldlM (handleAck lib p.pnSpace) r
    if (ackFrames p).length = 0 ∧ p.pnSpace = .initial then
      return (r.1.emptyBuffer .initial, r.2)
    else
      return r
  | .retry _ => some (r.1.emptyBuffer .initial, r.2)
  | .versionNegotiation _ => some (r.1.emptyBuffer .initial, r.2)

def timerValue : Nat := 500

def expire (now : Nat) (r : RetransmitBatch × RecoveryAgent) (key : PNSpace × Nat) :
    RetransmitBatch × RecoveryAgent :=
  let buffer := r.2.retransmissionBuffer key.1
  match buffer key.2 with
  | some v =>
    if now - v.timestamp > timerValue then
      (r.1 ++ [v], ⟨Function.update r.2.retransmissionBuffer key.1 (buffer.delete key.2)⟩)
    else
      r
  | none => r

/-- The maps are iterated over in `order`. -/
def handleTick (now : Nat) (order : List (PNSpace × Nat)) (r : RecoveryAgent × Client τ) :
    Option (RecoveryAgent × Client τ) := do
  let (batch, agent) := order.foldl (expire now) ([], r.1)
  let c ← retransmitBatch lib r.2 batch
  return (agent, c)

/-- The agent has no buffer for the packets without a space, and a write to it panics. -/
def handleOutgoing (now : Nat) (agent : RecoveryAgent) (p : FramePacket) : Option RecoveryAgent :=
  let frames := p.getRetransmittableFrames
  if frames.length > 0 then
    if p.pnSpace = .noSpace then
      none
    else
      let buffer := Function.update (agent.retransmissionBuffer p.pnSpace) p.header.packetNumber
        (some ⟨frames, now, p.encryptionLevel⟩)
      some ⟨Function.update agent.retransmissionBuffer p.pnSpace buffer⟩
  else
    some agent

def handleLevel (agent : RecoveryAgent) (e : DirectionalEncryptionLevel) : RecoveryAgent :=
  if e.encryptionLevel = .oneRTT then
    (agent.emptyBuffer .initial).emptyBuffer .handshake
  else
    agent

def initial : RecoveryAgent := ⟨fun _ _ => none⟩

inductive Input where
  | tick (now : Nat) (order : List (PNSpace × Nat))
  | incoming (p : Packet)
  | outgoing (now : Nat) (p : FramePacket)
  | encryptionLevel (e : DirectionalEncryptionLevel)
  deriving DecidableEq, Repr

def step (r : RecoveryAgent × Client τ) (i : Input) : Option (RecoveryAgent × Client τ) :=
  match i with
  | .tick now order => handleTick lib now order r
  | .incoming p => handleIncoming lib r p
  | .outgoing now p => do
    let agent ← handleOutgoing now r.1 p
    return (agent, r.2)
  | .encryptionLevel e => some (handleLevel r.1 e, r.2)

end RecoveryAgent

end QuicTracker
