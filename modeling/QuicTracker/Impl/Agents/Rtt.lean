import QuicTracker.Impl.Packets
import QuicTracker.Impl.TransportParameters
import QuicTracker.Lib.Rounding

/-!
This module contains the estimation of the round-trip time in `agents/rtt_agent.go`. The times of the clock are
in nanoseconds, `round` is the rounding of the floating-point unit. A panic is `none`.
-/

namespace QuicTracker

structure SentPacket where
  sent : Nat
  ackOnly : Bool
  size : Nat
  deriving DecidableEq, Repr

structure RTTAgent where
  minRTT : Nat
  latestRTT : Nat
  smoothedRTT : Nat
  rttVar : Nat
  maxAckDelay : Nat
  sentPackets : PNSpace → Nat → Option SentPacket
  largestSentPackets : PNSpace → Nat

namespace RTTAgent

def initial : RTTAgent where
  minRTT := 2 ^ 64 - 1
  latestRTT := 0
  smoothedRTT := 0
  rttVar := 0
  maxAckDelay := 0
  sentPackets := fun _ _ => none
  largestSentPackets := fun _ => 0

def onlyContains (p : FramePacket) (frameType : Nat) : Bool :=
  p.frames.all (fun f => f.frameType = frameType)

def encodedLength (p : FramePacket) : Option Nat := do
  let payload ← encodePayload p.frames
  let header ← p.header.encode
  return (header ++ payload).length

def handleOutgoing (now : Nat) (a : RTTAgent) (p : FramePacket) : Option RTTAgent := do
  let packetNumber := p.header.packetNumber
  let largest := a.largestSentPackets p.pnSpace
  let size ← encodedLength p
  -- There is no map for the packets without a space, a write to it panics.
  if p.pnSpace = .noSpace then
    none
  else
    return { a with
      largestSentPackets := Function.update a.largestSentPackets p.pnSpace
        (if packetNumber > largest then packetNumber else largest)
      sentPackets := Function.update a.sentPackets p.pnSpace
        (Function.update (a.sentPackets p.pnSpace) packetNumber
          (some ⟨now, onlyContains p FrameType.ack, size⟩)) }

section

variable (round : ℚ → ℚ)

def updateRTT (a : RTTAgent) (ackDelay : Nat) (ackOnly : Bool) : RTTAgent :=
  let minRTT := if a.latestRTT < a.minRTT then a.latestRTT else a.minRTT
  let latestRTT :=
    if u64Sub a.latestRTT minRTT > ackDelay then u64Sub a.latestRTT ackDelay else a.latestRTT
  let maxAckDelay :=
    if ¬ ackOnly ∧ ackDelay > a.maxAckDelay then ackDelay else a.maxAckDelay
  if a.smoothedRTT = 0 then
    { a with
      minRTT, latestRTT, maxAckDelay
      smoothedRTT := latestRTT
      rttVar := latestRTT / 2 }
  else
    let rttVarSample :=
      if a.smoothedRTT < latestRTT then u64Sub 0 (u64Sub a.smoothedRTT latestRTT)
      else u64Sub a.smoothedRTT latestRTT
    { a with
      minRTT, latestRTT, maxAckDelay
      rttVar := Rounding.mean round 0.75 0.25 a.rttVar rttVarSample
      smoothedRTT := Rounding.mean round 0.875 0.125 a.smoothedRTT latestRTT }

/-- This is `now.Sub(sent).Nanoseconds() / int64(time.Microsecond)` as a `uint64`. -/
def microseconds (now sent : Nat) : Nat :=
  (Int.tdiv (now - sent) 1000 % 2 ^ 64).toNat

def exponent (received : Option QuicTransportParameters) : Nat :=
  match received with
  | some r => if r.ackDelayExponent = 0 then 3 else r.ackDelayExponent
  | none => 3

/-- This is `ack.AckDelay * (2 << (ackDelayExponent - 1))`. -/
def ackDelay (ack : AckFrame) (exponent : Nat) : Nat :=
  let shifted := if exponent - 1 < 64 then u64 (2 <<< (exponent - 1)) else 0
  u64 (ack.ackDelay * shifted)

def handleAck (now : Nat) (received : Option QuicTransportParameters) (space : PNSpace) (a : RTTAgent)
    (ack : AckFrame) : RTTAgent :=
  match a.sentPackets space ack.largestAcknowledged with
  | some sp =>
    updateRTT round { a with latestRTT := microseconds now sp.sent }
      (ackDelay ack (exponent received)) sp.ackOnly
  | none => a

/-- ACK_ECN frames are not looked at. -/
def ackFrames (p : FramePacket) : List AckFrame := p.frames.filterMap Frame.ack?

def handleIncoming (now : Nat) (received : Option QuicTransportParameters) (a : RTTAgent) (p : Packet) :
    RTTAgent :=
  match p with
  | .frames p => (ackFrames p).foldl (handleAck round now received p.pnSpace) a
  | _ => a

inductive Input where
  | outgoing (now : Nat) (p : FramePacket)
  | incoming (now : Nat) (received : Option QuicTransportParameters) (p : Packet)

def step (a : RTTAgent) (i : Input) : Option RTTAgent :=
  match i with
  | .outgoing now p => handleOutgoing now a p
  | .incoming now received p => some (handleIncoming round now received a p)

end

end RTTAgent

end QuicTracker
