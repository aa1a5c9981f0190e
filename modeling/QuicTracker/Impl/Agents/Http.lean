import QuicTracker.Impl.Http3

/-!
This module contains the part of `agents/http_agent.go` that turns the data of one response stream into
an `HTTPResponse`: the goroutine that pipes the data to the agent, the loop of the agent, and the
completion of a header block by the QPACK agent. Each of them is one step, a channel is a list. A panic
is `none`.
-/

namespace QuicTracker

open ByteReader

namespace HTTPAgent

open HTTP3

structure HTTPHeader where
  name : String
  value : String
  deriving DecidableEq, Repr

structure HTTPResponse where
  headers : List HTTPHeader := []
  body : List UInt8 := []
  fin : Bool := false
  headersRemaining : Int := 0
  totalProcessed : Nat := 0
  totalReceived : Nat := 0
  deriving DecidableEq, Repr

def HTTPResponse.complete (r : HTTPResponse) : Bool :=
  r.fin ∧ r.totalReceived > 0 ∧ r.totalProcessed = r.totalReceived ∧ r.headersRemaining = 0

/-- The bytes `spare` lie in the backing array of the buffer behind the bytes that were written. -/
def peekVarInt (buffer spare : List UInt8) : Option (Option VarInt) :=
  if buffer.length = 0 then
    some none
  else if 4 ≤ buffer.length + spare.length then
    some (readVarInt ((buffer ++ spare).take 4)).1
  else
    none

/-- Every frame has a length and a type byte, so `fuel` bounds the frames. -/
def attemptDecoding (fuel : Nat) (buffer spare : List UInt8) :
    Option (List HTTPFrame × List UInt8) :=
  match fuel with
  | 0 => none
  | fuel + 1 => do
    match ← peekVarInt buffer spare with
    | none => return ([], buffer)
    | some l =>
      let n := l.length + 1 + l.value
      if buffer.length ≥ n then
        let (frame, _) ← readHTTPFrame (buffer.take n)
        let (frames, buffer) ← attemptDecoding fuel (buffer.drop n) spare
        return (frame :: frames, buffer)
      else
        return ([], buffer)

/--
All that was submitted to `ReadChan` of the stream is kept, `piped` of these chunks were taken by the
goroutine of `SendRequest`. The header blocks that the QPACK agent has not completed are `decodeHeaders`,
and the ones submitted to `HTTPResponseReceived` are `responses`.
-/
structure State where
  stream : Stream
  piped : Nat
  streamData : List (List UInt8)
  streamDataBuffer : List UInt8
  frameReceived : List HTTPFrame
  decodeHeaders : List (List UInt8)
  decodedHeaders : List (List HTTPHeader)
  response : HTTPResponse
  responses : List HTTPResponse

def initial : State where
  stream := newStream
  piped := 0
  streamData := []
  streamDataBuffer := []
  frameReceived := []
  decodeHeaders := []
  decodedHeaders := []
  response := {}
  responses := []

def checkResponse (s : State) : State :=
  if s.response.complete then
    { s with responses := s.responses ++ [s.response] }
  else
    s

def addToRead (s : State) (f : StreamFrame) : Option State := do
  let stream ← s.stream.addToRead f
  return { s with stream := stream }

/-- The goroutine of `SendRequest` waits when there is no chunk. -/
def pipe (s : State) : State :=
  match s.stream.readChan[s.piped]? with
  | none => s
  | some data =>
    let totalReceived := u64 (s.response.totalReceived + data.length)
    let s := { s with
      piped := s.piped + 1
      streamData := s.streamData ++ [data]
      response := { s.response with totalReceived := totalReceived } }
    if s.stream.readClosed ∨ totalReceived = s.stream.readCloseOffset then
      checkResponse { s with response := { s.response with fin := true } }
    else
      s

def handleStreamData (s : State) (spare : List UInt8) : Option State :=
  match s.streamData with
  | [] => some s
  | data :: streamData => do
    let buffer := s.streamDataBuffer ++ data
    let (frames, buffer) ← attemptDecoding (buffer.length + 1) buffer spare
    return { s with
      streamData := streamData
      streamDataBuffer := buffer
      frameReceived := s.frameReceived ++ frames }

/-- A SETTINGS frame only changes the QPACK encoder, the other frames are dumped. -/
def handleFrame (s : State) (frame : HTTPFrame) : State :=
  match frame with
  | .headers header headerBlock =>
    { s with
      decodeHeaders := s.decodeHeaders ++ [headerBlock]
      response := { s.response with
        headersRemaining := s.response.headersRemaining + 1
        totalProcessed := u64 (s.response.totalProcessed + header.wireLength) } }
  | .data header payload =>
    checkResponse { s with
      response := { s.response with
        body := s.response.body ++ payload
        totalProcessed := u64 (s.response.totalProcessed + header.wireLength) } }
  | _ => s

def handleFrameReceived (s : State) : State :=
  match s.frameReceived with
  | [] => s
  | frame :: frameReceived => handleFrame { s with frameReceived := frameReceived } frame

def handleDecodedHeaders (s : State) : State :=
  match s.decodedHeaders with
  | [] => s
  | headers :: decodedHeaders =>
    checkResponse { s with
      decodedHeaders := decodedHeaders
      response := { s.response with
        headersRemaining := s.response.headersRemaining - 1
        headers := s.response.headers ++ headers } }

/--
The method `checkForDecodedHeaders` of the QPACK agent for one block. A block without headers is not
submitted.
-/
def completeHeaders (s : State) (block : Nat) (headers : List HTTPHeader) : State :=
  if block < s.decodeHeaders.length then
    let s := { s with decodeHeaders := s.decodeHeaders.eraseIdx block }
    if headers.length > 0 then
      { s with decodedHeaders := s.decodedHeaders ++ [headers] }
    else
      s
  else
    s

inductive Event where
  | addToRead (f : StreamFrame)
  | pipe
  | streamData (spare : List UInt8)
  | frameReceived
  | decodedHeaders
  | qpack (block : Nat) (headers : List HTTPHeader)
  deriving DecidableEq, Repr

def step (s : State) (event : Event) : Option State :=
  match event with
  | .addToRead f => addToRead s f
  | .pipe => some (pipe s)
  | .streamData spare => handleStreamData s spare
  | .frameReceived => some (handleFrameReceived s)
  | .decodedHeaders => some (handleDecodedHeaders s)
  | .qpack block headers => some (completeHeaders s block headers)

end HTTPAgent

end QuicTracker
