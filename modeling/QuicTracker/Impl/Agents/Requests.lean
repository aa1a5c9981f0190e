import QuicTracker.Impl.Agents.Http
import QuicTracker.Impl.Agents.PeerStreams
import QuicTracker.Impl.Client

/-!
This module contains `agents/http_agent.go` and `agents/qpack_agent.go` as a whole: any number of
requests, the streams of the agents and the ones of the peer, and the channels that all of them share.
Each case of a `select` is one step, except that an agent which opens a stream of the peer does so statement
by statement, and so is each iteration of a goroutine of `SendRequest`. What the QPACK library makes of its
input is a part of the input of the step. A panic is `none`.
-/

namespace QuicTracker

namespace HTTPAgent

open HTTP3

namespace Requests

def controlStreamID : Nat := 2
def encoderStreamID : Nat := 6
def decoderStreamID : Nat := 10

namespace SettingID

def headerTableSize : Nat := 0x01
def qpackBlockedStreams : Nat := 0x07

end SettingID

structure EncoderSettings where
  headerTableSize : Nat := 4096
  qpackBlockedStreams : Nat := 100
  deriving DecidableEq, Repr

/--
An element of a channel comes with the stream it is for. `piped` counts the chunks of `ReadChan` that were
submitted before a request or taken by its goroutine. `decodeHeaders` are the blocks that the QPACK decoder
has not completed, `initEncoder` are the calls of `InitEncoder`.
-/
structure State where
  peer : PeerStreams.State
  frameQueue : List StreamFrame
  nextRequestStream : Nat
  peerControlStreamBuffer : List UInt8
  piped : Nat → Nat
  streamData : List (Nat × List UInt8)
  streamDataBuffer : Nat → Option (List UInt8)
  responseBuffer : Nat → Option HTTPResponse
  frameReceived : List (Nat × HTTPFrame)
  settingsReceived : Bool
  initEncoder : List EncoderSettings
  encodeHeaders : List (Nat × List HTTPHeader)
  encodedHeaders : List (Nat × List UInt8)
  decodeHeaders : List (Nat × List UInt8)
  decodedHeaders : List (Nat × List HTTPHeader)
  httpResponseReceived : List (Nat × HTTPResponse)

def State.streams (s : State) : Streams := s.peer.streams

def sendOnStream (s : State) (streamID : Nat) (data : List UInt8) (fin : Bool) : Option State := do
  let (frame, stream) ← newStreamFrame streamID (s.streams.get streamID) data fin
  return { s with
    peer := { s.peer with streams := Function.update s.streams streamID (some stream) }
    frameQueue := s.frameQueue ++ [frame] }

def sendFrameOnStream (s : State) (frame : Option HTTPFrame) (streamID : Nat) (fin : Bool) :
    Option State := do
  let frame ← frame
  let buf ← frame.writeTo []
  sendOnStream s streamID buf fin

def fresh (streams : Streams) : State where
  peer := { PeerStreams.initial with streams := streams }
  frameQueue := []
  nextRequestStream := 0
  peerControlStreamBuffer := []
  piped := fun _ => 0
  streamData := []
  streamDataBuffer := fun _ => none
  responseBuffer := fun _ => none
  frameReceived := []
  settingsReceived := false
  initEncoder := []
  encodeHeaders := []
  encodedHeaders := []
  decodeHeaders := []
  decodedHeaders := []
  httpResponseReceived := []

/-- The QPACK agent is started before the HTTP agent. -/
def start (streams : Streams) : Option State := do
  let s ← sendOnStream (fresh streams) encoderStreamID ['H'.toUInt8] false
  let s ← sendOnStream s decoderStreamID ['h'.toUInt8] false
  let s ← sendOnStream s controlStreamID ['C'.toUInt8] false
  sendFrameOnStream s (newSETTINGS []) controlStreamID false

/-- The entries of the map `headers` are in the order in which they are ranged over. -/
structure Request where
  path : String
  method : String
  authority : String
  headers : List HTTPHeader
  gitCommit : String
  deriving DecidableEq, Repr

def Request.hdrs (r : Request) : List HTTPHeader :=
  let headers :=
    if r.headers.any (·.name = "user-agent") then
      r.headers
    else
      r.headers ++ [⟨"user-agent", "RohitPanda/" ++ r.gitCommit⟩]
  [⟨":method", r.method⟩, ⟨":scheme", "https"⟩, ⟨":authority", r.authority⟩, ⟨":path", r.path⟩] ++ headers

def sendRequest (s : State) (r : Request) : State :=
  let streamID := s.nextRequestStream
  let stream := s.streams.get streamID
  { s with
    peer := { s.peer with streams := Function.update s.streams streamID (some stream) }
    piped := Function.update s.piped streamID stream.readChan.length
    streamDataBuffer := Function.update s.streamDataBuffer streamID (some [])
    responseBuffer := Function.update s.responseBuffer streamID (some {})
    encodeHeaders := s.encodeHeaders ++ [(streamID, r.hdrs)]
    nextRequestStream := u64 (streamID + 4) }

def checkResponse (s : State) (streamID : Nat) (response : HTTPResponse) : State :=
  if response.complete then
    { s with httpResponseReceived := s.httpResponseReceived ++ [(streamID, response)] }
  else
    s

def setResponse (s : State) (streamID : Nat) (response : HTTPResponse) : State :=
  { s with responseBuffer := Function.update s.responseBuffer streamID (some response) }

def handOver (s : State) (streamID : Nat) (data : List UInt8) : State :=
  { s with
    piped := Function.update s.piped streamID (s.piped streamID + 1)
    streamData := s.streamData ++ [(streamID, data)] }

def addReceived (response : HTTPResponse) (data : List UInt8) : HTTPResponse :=
  { response with totalReceived := u64 (response.totalReceived + data.length) }

def noteFin (s : State) (streamID : Nat) (response : HTTPResponse) : State :=
  let stream := s.streams.get streamID
  if stream.readClosed ∨ response.totalReceived = stream.readCloseOffset then
    let response := { response with fin := true }
    checkResponse (setResponse s streamID response) streamID response
  else
    setResponse s streamID response

/-- One iteration of the goroutine that `SendRequest` starts for the stream. -/
def pipe (s : State) (streamID : Nat) : State :=
  match s.responseBuffer streamID with
  | none => s
  | some response =>
    match (s.streams.get streamID).readChan[s.piped streamID]? with
    | none => s
    | some data => noteFin (handOver s streamID data) streamID (addReceived response data)

def receivedOn (streamID : Nat) (frames : List HTTPFrame) : List (Nat × HTTPFrame) :=
  frames.map fun frame => (streamID, frame)

/-- A stream without a buffer is a nil pointer. -/
def handleStreamData (s : State) (spare : List UInt8) : Option State :=
  match s.streamData with
  | [] => some s
  | (streamID, data) :: streamData => do
    let streamBuffer ← s.streamDataBuffer streamID
    let buffer := streamBuffer ++ data
    let (frames, buffer) ← attemptDecoding (buffer.length + 1) buffer spare
    return { s with
      streamData := streamData
      streamDataBuffer := Function.update s.streamDataBuffer streamID (some buffer)
      frameReceived := s.frameReceived ++ receivedOn streamID frames }

def handlePeerControlStream (s : State) (spare : List UInt8) : Option State :=
  match (s.peer.subscriptions .control).chan with
  | [] => some s
  | data :: _ => do
    let peerControlStreamID := (s.peer.subscriptions .control).streamID.getD maxUint64
    let buffer := s.peerControlStreamBuffer ++ data
    let (frames, buffer) ← attemptDecoding (buffer.length + 1) buffer spare
    return { s with
      peer := PeerStreams.takeChunk s.peer .control
      peerControlStreamBuffer := buffer
      frameReceived := s.frameReceived ++ receivedOn peerControlStreamID frames }

def noteSetting (e : EncoderSettings) (s : Setting) : EncoderSettings :=
  if s.identifier = SettingID.headerTableSize then
    { e with headerTableSize := s.value.value }
  else if s.identifier = SettingID.qpackBlockedStreams then
    { e with qpackBlockedStreams := s.value.value }
  else
    e

def handleFrame (s : State) (streamID : Nat) (frame : HTTPFrame) : State :=
  match frame with
  | .headers header headerBlock =>
    let s := { s with decodeHeaders := s.decodeHeaders ++ [(streamID, headerBlock)] }
    match s.responseBuffer streamID with
    | none => s
    | some response =>
      setResponse s streamID { response with
        headersRemaining := response.headersRemaining + 1
        totalProcessed := u64 (response.totalProcessed + header.wireLength) }
  | .data header payload =>
    match s.responseBuffer streamID with
    | none => s
    | some response =>
      let response := { response with
        body := response.body ++ payload
        totalProcessed := u64 (response.totalProcessed + header.wireLength) }
      checkResponse (setResponse s streamID response) streamID response
  | .settings _ settings =>
    if s.settingsReceived then
      s
    else
      { s with
        settingsReceived := true
        initEncoder := s.initEncoder ++ [settings.foldl noteSetting {}] }
  | _ => s

def handleFrameReceived (s : State) : State :=
  match s.frameReceived with
  | [] => s
  | (streamID, frame) :: frameReceived =>
    handleFrame { s with frameReceived := frameReceived } streamID frame

def handleDecodedHeaders (s : State) : State :=
  match s.decodedHeaders with
  | [] => s
  | (streamID, headers) :: decodedHeaders =>
    let s := { s with decodedHeaders := decodedHeaders }
    match s.responseBuffer streamID with
    | none => s
    | some response =>
      let response := { response with
        headersRemaining := response.headersRemaining - 1
        headers := response.headers ++ headers }
      checkResponse (setResponse s streamID response) streamID response

def handleEncodedHeaders (s : State) : Option State :=
  match s.encodedHeaders with
  | [] => some s
  | (streamID, headers) :: encodedHeaders =>
    sendFrameOnStream { s with encodedHeaders := encodedHeaders } (newHEADERS headers) streamID true

/-- The QPACK agent takes a list of headers, and the encoder makes `payload` and `encStream` of it. -/
def encode (s : State) (payload encStream : List UInt8) : Option State :=
  match s.encodeHeaders with
  | [] => some s
  | (streamID, _) :: encodeHeaders =>
    let s := { s with
      encodeHeaders := encodeHeaders
      encodedHeaders := s.encodedHeaders ++ [(streamID, payload)] }
    if encStream.length > 0 then
      sendOnStream s encoderStreamID encStream false
    else
      some s

def completeHeaders (s : State) (block : Nat) (headers : List HTTPHeader)
    (decoderStream : List UInt8) : Option State :=
  match s.decodeHeaders[block]? with
  | none => some s
  | some (streamID, _) =>
    let s := { s with decodeHeaders := s.decodeHeaders.eraseIdx block }
    if headers.length > 0 then
      let s := { s with decodedHeaders := s.decodedHeaders ++ [(streamID, headers)] }
      if decoderStream.length > 0 then
        sendOnStream s decoderStreamID decoderStream false
      else
        some s
    else
      some s

def withPeer (s : State) (event : PeerStreams.Event) : Option State := do
  let peer ← PeerStreams.step s.peer event
  return { s with peer := peer }

/-- The chunks of the encoder and the decoder stream go to the QPACK library. -/
inductive Event where
  | readStreamFrame (f : StreamFrame)
  | submitPacket (pnSpace : PNSpace)
  | handlePacket (agent : PeerStreams.Agent)
  | resume (agent : PeerStreams.Agent)
  | peerControlStream (spare : List UInt8)
  | peerEncoderStream
  | peerDecoderStream
  | sendRequest (r : Request)
  | pipe (streamID : Nat)
  | streamData (spare : List UInt8)
  | frameReceived
  | decodedHeaders
  | encodedHeaders
  | encode (payload encStream : List UInt8)
  | qpack (block : Nat) (headers : List HTTPHeader) (decoderStream : List UInt8)
  deriving DecidableEq, Repr

/-- The agent at whose `select` an event is taken. -/
def Event.select? (event : Event) : Option PeerStreams.Agent :=
  match event with
  | .handlePacket agent => some agent
  | .peerControlStream _ | .streamData _ | .frameReceived | .decodedHeaders | .encodedHeaders => some .http
  | .peerEncoderStream | .peerDecoderStream | .encode _ _ | .qpack _ _ _ => some .qpack
  | .readStreamFrame _ | .submitPacket _ | .resume _ | .sendRequest _ | .pipe _ => none

def execute (s : State) (event : Event) : Option State :=
  match event with
  | .readStreamFrame f => withPeer s (.readStreamFrame f)
  | .submitPacket pnSpace => withPeer s (.submitPacket pnSpace)
  | .handlePacket agent => withPeer s (.handlePacket agent)
  | .resume agent => withPeer s (.resume agent)
  | .peerControlStream spare => handlePeerControlStream s spare
  | .peerEncoderStream => withPeer s (.takeChunk .encoder)
  | .peerDecoderStream => withPeer s (.takeChunk .decoder)
  | .sendRequest r => some (sendRequest s r)
  | .pipe streamID => some (pipe s streamID)
  | .streamData spare => handleStreamData s spare
  | .frameReceived => some (handleFrameReceived s)
  | .decodedHeaders => some (handleDecodedHeaders s)
  | .encodedHeaders => handleEncodedHeaders s
  | .encode payload encStream => encode s payload encStream
  | .qpack block headers decoderStream => completeHeaders s block headers decoderStream

/-- An agent that handles a packet is not at its `select`. -/
def step (s : State) (event : Event) : Option State :=
  if ∀ agent ∈ event.select?, (s.peer.loops agent).atSelect then execute s event else some s

end Requests

end HTTPAgent

end QuicTracker
