import QuicTracker.Impl.Scenarii.FlowControl
import QuicTracker.Lib.Watch

/-!
This module contains `scenarii/ack_only.go` and `scenarii/multi_stream.go`, which look at how the peer goes on after
requests. As in `flow_control`, the streams are changed before the scenario takes a packet from its channel.
-/

namespace QuicTracker

namespace AckOnly

variable {τ : Type} (lib : Libraries τ)

def tlsHandshakeFailed : Nat := 1
def sentAOInResponseOfAO : Nat := 2

structure State (τ : Type) where
  conn : Client τ
  trace : Trace
  ackOnlyPackets : List Nat

def containsAll (a b : List Nat) : Bool := a.all fun i => b.any fun j => i = j

def queueNumber (conn : Client τ) (p : FramePacket) : Client τ :=
  if p.pnSpace ≠ .noSpace then
    { conn with ackQueue :=
        Function.update conn.ackQueue p.pnSpace (conn.ackQueue p.pnSpace ++ [p.header.packetNumber]) }
  else
    conn

/-- No other space has packets, and a packet that is `nil` has no frames. -/
def newPacket (space : PNSpace) (conn : Client τ) : Option (FramePacket × Client τ) :=
  match space with
  | .initial => Client.newInitialPacket lib conn
  | .handshake => Client.newHandshakePacket lib conn
  | .appData => Client.newProtectedPacket lib conn
  | .noSpace => none

def acknowledge (s : State τ) (p : FramePacket) : Option (State τ) :=
  let (ackFrame, conn) := s.conn.getAckFrame p.pnSpace
  let s := { s with conn := { s.conn with toConnection := conn } }
  match ackFrame with
  | none => some s
  | some ackFrame => do
    let (packet, conn) ← newPacket lib p.pnSpace s.conn
    let packet := { packet with frames := packet.frames ++ [.ack ackFrame] }
    let conn ← conn.sendPacket packet packet.encryptionLevel
    if p.pnSpace = .appData then
      return { s with conn := conn, ackOnlyPackets := s.ackOnlyPackets ++ [packet.header.packetNumber] }
    else
      return { s with conn := conn }

/-- The type assertion holds for the frame that `GetFirst` returns. -/
def judgeAck (s : State τ) (packet : FramePacket) : Option (ForInStep (State τ)) :=
  match packet.getFirst FrameType.ack with
  | some (.ack ack) => do
    let acked ← ack.getAckedPackets
    if containsAll acked s.ackOnlyPackets then
      return .done { s with trace := s.trace.markError sentAOInResponseOfAO "" }
    else
      return .yield s
  | _ => none

/-- The other packets have no space and are not acknowledged. -/
def step (s : State τ) (p : Packet) : Option (ForInStep (State τ)) :=
  match p with
  | .frames p =>
    let s := { s with conn := queueNumber s.conn p }
    if p.shouldBeAcknowledged then do
      let s ← acknowledge lib s p
      return .yield s
    else if p.encryptionLevel = .oneRTT ∧ p.contains FrameType.ack then
      judgeAck s p
    else
      some (.yield s)
  | _ => some (.yield s)

/-- The agent that acknowledges packets is stopped. -/
def run (conn : Client τ) (trace : Trace) (status : Option HandshakeStatus) (preferredUrl : List UInt8)
    (packets : List Packet) : Option (Client τ × Trace) := do
  let (completed, trace) ← completeHandshake trace tlsHandshakeFailed status
  if completed then
    let conn ← conn.sendHTTPGETRequest preferredUrl 0
    let s ← Watch.watch (step lib) ⟨conn, trace, []⟩ packets
    return (s.conn, s.trace)
  else
    return (conn, trace)

end AckOnly

namespace MultiStream

variable {τ : Type}

def tlsHandshakeFailed : Nat := 1
def notAllStreamsWereClosed : Nat := 3

/-- The keys of `conn.Streams` are `opened`. -/
structure State (τ : Type) where
  conn : Client τ
  opened : List Nat
  allClosed : Bool

def streamId? (f : Frame) : Option Nat :=
  match f with
  | .stream f => some f.streamId
  | _ => none

def streamIds (p : Packet) : List Nat :=
  match p with
  | .frames p => p.frames.filterMap streamId?
  | _ => []

def readPacket (s : State τ) (p : Packet) : Option (State τ) := do
  let conn ← FlowControl.readPacket s.conn p
  return { s with conn := conn, opened := s.opened ++ streamIds p }

def sendRequests (preferredUrl : List UInt8) (streams : Nat) (conn : Client τ) : Option (Client τ) :=
  (List.range streams).foldlM (fun conn i => conn.sendHTTPGETRequest preferredUrl (i * 4)) conn

/-- Nothing sets `allClosed` to `true` again. -/
def handlePacket (s : State τ) : ForInStep (State τ) :=
  let s :=
    if s.opened.any (fun streamId => ¬ (s.conn.streams.get streamId).readClosed) then
      { s with allClosed := false }
    else
      s
  if s.allClosed then
    .done { s with conn := s.conn.closeConnection false 0 [] }
  else
    .yield s

def step (s : State τ) (p : Packet) : Option (ForInStep (State τ)) := do
  let s ← readPacket s p
  return handlePacket s

def verdict (trace : Trace) (s : State τ) : Trace :=
  if s.opened.any (fun streamId => streamId ≠ 0 ∧ ¬ (s.conn.streams.get streamId).readClosed) then
    { trace with errorCode := notAllStreamsWereClosed }
  else
    trace

/-- The streams that the peer has opened before the handshake is complete are `opened`. -/
def run (conn : Client τ) (opened : List Nat) (trace : Trace) (status : Option HandshakeStatus)
    (receivedParameters : Option QuicTransportParameters) (preferredUrl : List UInt8) (packets : List Packet) :
    Option (Client τ × Trace) := do
  let (completed, trace) ← completeHandshake trace tlsHandshakeFailed status
  if completed then
    let receivedParameters ← receivedParameters
    let streams := min receivedParameters.maxBidiStreams 4
    let conn ← sendRequests preferredUrl streams conn
    let s ← Watch.watch step ⟨conn, opened ++ (List.range streams).map (· * 4), true⟩ packets
    return (s.conn, verdict trace s)
  else
    return (conn, trace)

end MultiStream

end QuicTracker
