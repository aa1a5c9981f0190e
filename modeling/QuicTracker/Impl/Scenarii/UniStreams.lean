import QuicTracker.Impl.Scenarii.Scenario
import QuicTracker.Lib.Watch

/-!
This module contains `scenarii/http_get_on_uni_stream.go` and `scenarii/stop_sending_frame_on_receive_stream.go`.
Both send a request on stream 2 and leave their loop when the peer reacts to it. The parameters received from the
peer are an argument.
-/

namespace QuicTracker

def errStreamLimitError : Nat := 0x04
def errStreamStateError : Nat := 0x05
def errProtocolViolation : Nat := 0x0a

namespace GetOnStream2

variable {τ : Type}

def tlsHandshakeFailed : Nat := 1
def tooLowStreamIdUniToSendRequest : Nat := 2
def receivedDataOnStream2 : Nat := 3
def receivedDataOnUnauthorizedStream : Nat := 4
def didNotCloseTheConnection : Nat := 6

def handleStreamFrame (trace : Trace) (f : StreamFrame) : ForInStep Trace :=
  if f.streamId = 2 then
    .done (trace.markError receivedDataOnStream2 "")
  else if f.streamId > 3 then
    .done (trace.markError receivedDataOnUnauthorizedStream "")
  else
    .yield trace

/-- The `&&` of the condition binds stronger. -/
def handleConnectionClose (trace : Trace) (f : ConnectionCloseFrame) : Trace :=
  if (trace.errorCode = didNotCloseTheConnection ∧ f.errorCode = errStreamLimitError) ∨
      f.errorCode = errProtocolViolation then
    { trace with errorCode := tooLowStreamIdUniToSendRequest }
  else
    trace

def handleFrame (trace : Trace) (f : Frame) : Option (ForInStep Trace) :=
  match f with
  | .stream f => some (handleStreamFrame trace f)
  | .connectionClose f => some (.done (handleConnectionClose trace f))
  | _ => some (.yield trace)

def step (trace : Trace) (p : Packet) : Option (ForInStep Trace) :=
  match p with
  | .frames p => Watch.scan handleFrame trace p.frames
  | _ => some (.yield trace)

def start (trace : Trace) (maxUniStreams : Nat) : Trace :=
  if maxUniStreams = 0 then { trace with errorCode := didNotCloseTheConnection } else trace

def run (conn : Client τ) (trace : Trace) (status : Option HandshakeStatus)
    (receivedParameters : Option QuicTransportParameters) (preferredUrl : List UInt8) (packets : List Packet) :
    Option (Client τ × Trace) := do
  let (completed, trace) ← completeHandshake trace tlsHandshakeFailed status
  if completed then
    let receivedParameters ← receivedParameters
    let conn ← conn.sendHTTPGETRequest preferredUrl 2
    let trace ← Watch.watch step (start trace receivedParameters.maxUniStreams) packets
    return (conn, trace)
  else
    return (conn, trace)

end GetOnStream2

namespace StopSendingOnReceiveStream

variable {τ : Type}

def tlsHandshakeFailed : Nat := 1
def didNotCloseTheConnection : Nat := 2
def closeTheConnectionWithWrongError : Nat := 3
def maxStreamUniTooLow : Nat := 4

def hexNumber (n : Nat) : List Char :=
  if n < 16 then '0' :: Nat.toDigits 16 n else Nat.toDigits 16 n

def wrongErrorText (errorCode : Nat) : String :=
  "Expected 0x" ++ String.ofList (hexNumber errStreamStateError) ++ ", got 0x" ++
    String.ofList (hexNumber errorCode)

def judgeClose (trace : Trace) (cc : ConnectionCloseFrame) : Trace :=
  if cc.errorCode ≠ errStreamStateError then
    trace.markError closeTheConnectionWithWrongError (wrongErrorText cc.errorCode)
  else
    { trace with errorCode := 0 }

/-- The type assertion holds for the frame that `GetFirst` returns. -/
def step (trace : Trace) (p : Packet) : Option (ForInStep Trace) :=
  match p with
  | .frames p =>
    if p.contains FrameType.connectionClose then
      match p.getFirst FrameType.connectionClose with
      | some (.connectionClose cc) => some (.done (judgeClose trace cc))
      | _ => none
    else
      some (.yield trace)
  | _ => some (.yield trace)

def run (conn : Client τ) (trace : Trace) (status : Option HandshakeStatus)
    (receivedParameters : Option QuicTransportParameters) (preferredUrl : List UInt8) (packets : List Packet) :
    Option (Client τ × Trace) := do
  let (completed, trace) ← completeHandshake trace tlsHandshakeFailed status
  if completed then
    let receivedParameters ← receivedParameters
    if receivedParameters.maxUniStreams = 0 then
      return (conn, trace.markError maxStreamUniTooLow "")
    else
      let conn ← conn.sendHTTPGETRequest preferredUrl 2
      let conn := conn.submitFrame (.stopSending ⟨2, 0⟩) .oneRTT
      let trace ← Watch.watch step { trace with errorCode := didNotCloseTheConnection } packets
      return (conn, trace)
  else
    return (conn, trace)

end StopSendingOnReceiveStream

end QuicTracker
