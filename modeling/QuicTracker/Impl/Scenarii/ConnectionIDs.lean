import QuicTracker.Impl.Scenarii.Scenario
import QuicTracker.Lib.Run

/-!
This module contains `scenarii/new_connection_id.go` and `scenarii/retire_connection_id.go`. The packets are the
ones that the channel of the scenario holds, including those of the handshake. The random bytes are arguments,
`alternativeConnectionIDs` is what is stored under `new_connection_ids` in the results of the trace.
-/

namespace QuicTracker

def encodeToString (src : List UInt8) : String :=
  String.ofList (src.flatMap fun b => [Nat.digitChar (b.toNat / 16), Nat.digitChar (b.toNat % 16)])

def NewConnectionIdFrame.hasInvalidLength (nci : NewConnectionIdFrame) : Bool :=
  nci.length < 4 ∨ nci.length > 18

def NewConnectionIdFrame.invalidLengthText (nci : NewConnectionIdFrame) : String :=
  "Connection ID length must be comprised between 4 and 18, it was " ++ toString nci.length.toNat

namespace NewConnectionID

variable {τ : Type}

def tlsHandshakeFailed : Nat := 1
def hostDidNotProvideCID : Nat := 2
def hostDidNotAnswerToNewCID : Nat := 3
def hostDidNotAdaptCID : Nat := 4
def hostSentInvalidCIDLength : Nat := 5

structure State (τ : Type) where
  conn : Client τ
  trace : Trace
  expectingResponse : Bool
  alternativeConnectionIDs : List String

structure Config where
  scid : List UInt8
  resetToken : Vector UInt8 16
  preferredUrl : List UInt8

def switchConnectionIDs (config : Config) (conn : Client τ) (nci : NewConnectionIdFrame) :
    Option (Client τ) :=
  let conn := { conn with destinationCID := nci.connectionId, sourceCID := config.scid }
  let conn := conn.submitFrame
    (.newConnectionId ⟨1, UInt8.ofNat config.scid.length, config.scid, config.resetToken⟩) .best
  conn.sendHTTPGETRequest config.preferredUrl 0

/-- The type assertion holds for the frames that `GetAll` returns. -/
def handleFrame (config : Config) (s : State τ) (frame : Frame) : Option (State τ) :=
  match frame with
  | .newConnectionId nci => do
    let trace :=
      if nci.hasInvalidLength then
        s.trace.markError hostSentInvalidCIDLength nci.invalidLengthText
      else
        s.trace
    let alternativeConnectionIDs := s.alternativeConnectionIDs ++ [encodeToString nci.connectionId]
    if ¬ s.expectingResponse then
      let conn ← switchConnectionIDs config s.conn nci
      return ⟨conn, { trace with errorCode := hostDidNotAnswerToNewCID }, true, alternativeConnectionIDs⟩
    else
      return ⟨s.conn, trace, true, alternativeConnectionIDs⟩
  | _ => none

def judgeResponse (s : State τ) (p : Packet) : Option (State τ) := do
  let header ← p.header
  if header.destinationConnectionID ≠ s.conn.sourceCID then
    return { s with trace := s.trace.markError hostDidNotAdaptCID "" }
  else
    return { s with trace := { s.trace with errorCode := 0 } }

def step (config : Config) (s : State τ) (p : Packet) : Option (State τ) :=
  if s.expectingResponse then
    judgeResponse s p
  else
    match p.protectedPacket with
    | some pp => (pp.getAll FrameType.newConnectionId).foldlM (handleFrame config) s
    | none => some s

def start (conn : Client τ) (trace : Trace) : State τ where
  conn := conn
  trace := { trace with errorCode := hostDidNotProvideCID }
  expectingResponse := false
  alternativeConnectionIDs := []

def run (config : Config) (conn : Client τ) (trace : Trace) (status : Option HandshakeStatus)
    (packets : List Packet) : Option (Trace × List String) := do
  let (completed, trace) ← completeHandshake trace tlsHandshakeFailed status
  if completed then
    let s ← Run.run (step config) (start conn trace) packets
    return (s.trace, s.alternativeConnectionIDs)
  else
    return (trace, [])

end NewConnectionID

namespace RetireConnectionID

variable {τ : Type}

def tlsHandshakeFailed : Nat := 1
def hostDidNotProvideCID : Nat := 2
def hostDidNotProvideNewCID : Nat := 3
def hostSentInvalidCIDLength : Nat := 4

structure State (τ : Type) where
  conn : Client τ
  trace : Trace
  hasRetiredCIDs : Bool
  alternativeConnectionIDs : List String

def handleFrame (s : State τ) (frame : Frame) : Option (State τ) :=
  match frame with
  | .newConnectionId nci =>
    let trace :=
      if nci.hasInvalidLength then
        s.trace.markError hostSentInvalidCIDLength nci.invalidLengthText
      else
        s.trace
    let alternativeConnectionIDs := s.alternativeConnectionIDs ++ [encodeToString nci.connectionId]
    if ¬ s.hasRetiredCIDs then
      let conn := s.conn.submitFrame (.retireConnectionId ⟨nci.sequence⟩) .oneRTT
      some ⟨conn, trace, false, alternativeConnectionIDs⟩
    else
      some ⟨s.conn, { trace with errorCode := 0 }, true, alternativeConnectionIDs⟩
  | _ => none

def handlePacket (s : State τ) (pp : FramePacket) : Option (State τ) := do
  let s ← (pp.getAll FrameType.newConnectionId).foldlM handleFrame s
  if ¬ s.hasRetiredCIDs ∧ pp.contains FrameType.newConnectionId then
    return { s with
      hasRetiredCIDs := true
      trace := { s.trace with errorCode := hostDidNotProvideNewCID } }
  else
    return s

def step (s : State τ) (p : Packet) : Option (State τ) :=
  match p.protectedPacket with
  | some pp => handlePacket s pp
  | none => some s

def start (conn : Client τ) (trace : Trace) : State τ where
  conn := conn
  trace := { trace with errorCode := hostDidNotProvideCID }
  hasRetiredCIDs := false
  alternativeConnectionIDs := []

def run (conn : Client τ) (trace : Trace) (status : Option HandshakeStatus) (packets : List Packet) :
    Option (Client τ × Trace × List String) := do
  let (completed, trace) ← completeHandshake trace tlsHandshakeFailed status
  if completed then
    let s ← Run.run step (start conn trace) packets
    return (s.conn, s.trace, s.alternativeConnectionIDs)
  else
    return (conn, trace, [])

end RetireConnectionID

end QuicTracker
