import QuicTracker.Impl.Scenarii.Scenario

/-!
This module contains `scenarii/flow_control.go`. The streams are changed by the agent that reads the packets,
before the scenario takes a packet from its channel. The other agents are left out.
-/

namespace QuicTracker

namespace FlowControl

variable {τ : Type}

def tlsHandshakeFailed : Nat := 1
def hostSentMoreThanLimit : Nat := 2
def hostDidNotResumeSending : Nat := 3
def notEnoughDataAvailable : Nat := 4

/-- The packets are submitted to the channel of the scenario as long as it is `registered`. -/
structure State (τ : Type) where
  conn : Client τ
  trace : Trace
  shouldResume : Bool
  registered : Bool

def maxStreamDataBidiLocal (c : Client τ) : Nat :=
  c.tlsTPHandler.quicTransportParameters.maxStreamDataBidiLocal

def withLimits (c : Client τ) (maxData maxStreamDataBidiLocal : Nat) : Client τ :=
  { c with tlsTPHandler := { c.tlsTPHandler with
      quicTransportParameters := { c.tlsTPHandler.quicTransportParameters with
        maxData := maxData
        maxStreamDataBidiLocal := maxStreamDataBidiLocal } } }

def readFrame (c : Client τ) (f : Frame) : Option (Client τ) :=
  match f with
  | .stream f => do
    let stream ← (c.streams.get f.streamId).addToRead f
    return c.withStream f.streamId stream
  | _ => some c

def readPacket (c : Client τ) (p : Packet) : Option (Client τ) :=
  match p with
  | .frames p => p.frames.foldlM readFrame c
  | _ => some c

def raiseLimits (s : State τ) : State τ :=
  let maxData := u64 (s.conn.tlsTPHandler.quicTransportParameters.maxData * 2)
  let maxStreamData := u64 (maxStreamDataBidiLocal s.conn * 2)
  let conn := withLimits s.conn maxData maxStreamData
  let conn := conn.submitFrame (.maxData ⟨maxData⟩) .oneRTT
  let conn := conn.submitFrame (.maxStreamData ⟨0, maxStreamData⟩) .oneRTT
  { s with conn := conn, shouldResume := true }

/-- Leaving the `select` for a closed stream does not leave the loop. -/
def handlePacket (s : State τ) : State τ :=
  let stream := s.conn.streams.get 0
  let limit := maxStreamDataBidiLocal s.conn
  let s :=
    if stream.readOffset > limit then
      { s with trace := s.trace.markError hostSentMoreThanLimit "" }
    else
      s
  if stream.readClosed then
    { s with registered := false }
  else if stream.readOffset = limit ∧ ¬ s.shouldResume then
    raiseLimits s
  else
    s

def step (s : State τ) (p : Packet) : Option (State τ) := do
  let conn ← readPacket s.conn p
  let s := { s with conn := conn }
  return if s.registered then handlePacket s else s

def verdict (s : State τ) : Trace :=
  let readOffset := (s.conn.streams.get 0).readOffset
  let limit := maxStreamDataBidiLocal s.conn
  if readOffset = limit then
    { s.trace with errorCode := 0 }
  else if s.shouldResume ∧ readOffset = limit / 2 then
    { s.trace with errorCode := hostDidNotResumeSending }
  else if readOffset < limit then
    { s.trace with errorCode := notEnoughDataAvailable }
  else if readOffset > limit then
    { s.trace with errorCode := hostSentMoreThanLimit }
  else
    s.trace

/--
The request is sent, with `preferredUrl` as a string of bytes. `conn` is the connection after the handshake, the
limit is set before it.
-/
def start (conn : Client τ) (trace : Trace) (preferredUrl : List UInt8) : Option (State τ) := do
  let conn := withLimits conn conn.tlsTPHandler.quicTransportParameters.maxData 80
  let conn ← conn.sendHTTPGETRequest preferredUrl 0
  return ⟨conn, trace, false, true⟩

def run (conn : Client τ) (trace : Trace) (status : Option HandshakeStatus) (preferredUrl : List UInt8)
    (packets : List Packet) : Option Trace := do
  let (completed, trace) ← completeHandshake trace tlsHandshakeFailed status
  if completed then
    let s ← start conn trace preferredUrl
    let s ← packets.foldlM step s
    return verdict s
  else
    return trace

end FlowControl

end QuicTracker
