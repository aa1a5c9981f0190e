import QuicTracker.Impl.Scenarii.Scenario

/-!
This module contains `scenarii/http_get_and_wait.go`. What the agents make of the packets is an argument: the
parameters received from the server, and stream 0 when the timer expires.
-/

namespace QuicTracker

namespace SimpleGetAndWait

def tlsHandshakeFailed : Nat := 1
def emptyStreamFrameNoFinBit : Nat := 2
def wrongStreamIDReceived : Nat := 4
def didNotCloseTheConnection : Nat := 6
def multipleErrors : Nat := 7
def tooLowStreamIdBidiToSendRequest : Nat := 8
def didntReceiveTheRequestedData : Nat := 9
def answeredOnUnannouncedStream : Nat := 10

structure State where
  trace : Trace
  errors : ErrorMap
  connectionCloseReceived : Bool
  deriving DecidableEq

def State.note (s : State) (code : Nat) (message : String) : State :=
  { s with errors := s.errors.set code message, trace := s.trace.markError code "" }

def handleStreamFrame (s : State) (f : StreamFrame) : State :=
  let s :=
    if f.streamId ≠ 0 then
      s.note wrongStreamIDReceived ("received StreamID " ++ toString f.streamId)
    else
      s
  if f.length = 0 ∧ ¬ f.finBit then
    s.note emptyStreamFrameNoFinBit
      ("received an empty STREAM frame with no FIN bit set for stream " ++ toString f.streamId)
  else
    s

def handleFrame (s : State) (f : Frame) : State :=
  match f with
  | .stream f => handleStreamFrame s f
  | .connectionClose _ => { s with connectionCloseReceived := true }
  | .applicationClose _ => { s with connectionCloseReceived := true }
  | _ => s

/-- Only the frames of a `ProtectedPacket` are looked at. -/
def handlePacket (s : State) (p : Packet) : State :=
  match p with
  | .frames p => if p.encryptionLevel = .oneRTT then p.frames.foldl handleFrame s else s
  | _ => s

def start (trace : Trace) (maxBidiStreams : Nat) : State where
  trace :=
    if maxBidiStreams = 0 then
      trace.markError tooLowStreamIdBidiToSendRequest "cannot open bidi stream"
    else
      trace
  errors := .empty
  connectionCloseReceived := false

def judgeResponse (s : State) (maxBidiStreams : Nat) (stream : Stream) : ErrorMap :=
  if maxBidiStreams = 0 then
    if stream.readOffset > 0 then
      s.errors.set answeredOnUnannouncedStream
        "data was received on stream 0 despite not being announced in TP"
    else if ¬ s.connectionCloseReceived then
      s.errors.set didNotCloseTheConnection ""
    else
      s.errors
  else if ¬ stream.readClosed ∨ stream.readOffset = 0 then
    s.errors.set didntReceiveTheRequestedData "the response to the request was not complete"
  else
    s.errors

def finish (s : State) (maxBidiStreams : Nat) (stream : Stream) : State :=
  let errors := judgeResponse s maxBidiStreams stream
  if errors.length > 1 then
    { s with errors := errors, trace := ⟨multipleErrors, some (.errors errors)⟩ }
  else
    { s with errors := errors }

def afterHandshake (trace : Trace) (maxBidiStreams : Nat) (packets : List Packet) (stream : Stream) : State :=
  finish (packets.foldl handlePacket (start trace maxBidiStreams)) maxBidiStreams stream

/--
What the scenario leaves, with an empty map where it has not come to make one. The parameters have not been
received if the pointer to them is nil.
-/
def run (trace : Trace) (status : Option HandshakeStatus) (receivedParameters : Option QuicTransportParameters)
    (packets : List Packet) (stream : Stream) : Option State := do
  let (completed, trace) ← completeHandshake trace tlsHandshakeFailed status
  if completed then
    let receivedParameters ← receivedParameters
    return afterHandshake trace receivedParameters.maxBidiStreams packets stream
  else
    return ⟨trace, .empty, false⟩

end SimpleGetAndWait

end QuicTracker
