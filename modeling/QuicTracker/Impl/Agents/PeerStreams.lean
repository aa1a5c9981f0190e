import QuicTracker.Impl.Connection

/-!
This module contains how `agents/http_agent.go` and `agents/qpack_agent.go` open and read the control,
encoder and decoder streams of the peer, next to the parser that fills these streams. Each statement of an
agent that the parser can come in between is one step. A channel is a list, a channel that is registered on
`ReadChan` receives what is submitted from then on. A panic is `none`.
-/

namespace QuicTracker

namespace PeerStreams

inductive Agent where
  | http
  | qpack
  deriving DecidableEq, Repr

inductive Kind where
  | control
  | encoder
  | decoder
  deriving DecidableEq, Repr

/--
What an agent knows of a stream of the peer. The id `none` stands for `HTTPNoStream` and `QPACKNoStream`, and
`registeredOn` is the stream on whose `ReadChan` the channel is registered.
-/
structure Subscription where
  streamID : Option Nat
  registeredOn : Option Nat
  chan : List (List UInt8)
  taken : List (List UInt8)
  deriving DecidableEq, Repr

structure IncomingPacket where
  pnSpace : PNSpace
  streamFrames : List StreamFrame
  deriving DecidableEq, Repr

/-- The statement that an agent which opens a stream executes next. -/
inductive Next where
  | register (kind : Kind) (f : StreamFrame)
  | push (kind : Kind) (f : StreamFrame)
  deriving DecidableEq, Repr

/-- Where an agent is in its loop. The frames are those of the packet at hand that it has not looked at. -/
structure Loop where
  frames : List StreamFrame
  next : Option Next
  deriving DecidableEq, Repr

def Loop.atSelect (loop : Loop) : Bool := loop.frames = [] ∧ loop.next = none

/-- The state of the parser and the agents. The parser has read the frames `parsed` of its packet. -/
structure State where
  streams : Streams
  parsed : List StreamFrame
  incomingPackets : Agent → List IncomingPacket
  loops : Agent → Loop
  subscriptions : Kind → Subscription

def initial : State where
  streams := fun _ => none
  parsed := []
  incomingPackets := fun _ => []
  loops := fun _ => ⟨[], none⟩
  subscriptions := fun _ => ⟨none, none, [], []⟩

def Subscription.submit (streamId : Nat) (chunks : List (List UInt8)) (sub : Subscription) :
    Subscription :=
  if sub.registeredOn = some streamId then
    { sub with chan := sub.chan ++ chunks }
  else
    sub

def readStreamFrame (s : State) (f : StreamFrame) : Option State := do
  let stream := s.streams.get f.streamId
  let stream' ← stream.addToRead f
  let chunks := stream'.readChan.drop stream.readChan.length
  return { s with
    streams := Function.update s.streams f.streamId (some stream')
    parsed := s.parsed ++ [f]
    subscriptions := fun kind => (s.subscriptions kind).submit f.streamId chunks }

def submitPacket (s : State) (pnSpace : PNSpace) : State :=
  { s with
    parsed := []
    incomingPackets := fun agent => s.incomingPackets agent ++ [⟨pnSpace, s.parsed⟩] }

def Agent.opens (agent : Agent) (first : UInt8) : Option Kind :=
  match agent with
  | .http => if first = 'C'.toUInt8 then some .control else none
  | .qpack =>
    if first = 'H'.toUInt8 then some .encoder
    else if first = 'h'.toUInt8 then some .decoder
    else none

/-- An agent that is not at its `select` takes nothing from a channel. -/
def handlePacket (s : State) (agent : Agent) : State :=
  match s.incomingPackets agent with
  | [] => s
  | packet :: incomingPackets =>
    if (s.loops agent).atSelect then
      { s with
        incomingPackets := Function.update s.incomingPackets agent incomingPackets
        loops := Function.update s.loops agent
          ⟨if packet.pnSpace = .appData then packet.streamFrames else [], none⟩ }
    else
      s

def setLoop (s : State) (agent : Agent) (loop : Loop) : State :=
  { s with loops := Function.update s.loops agent loop }

def setSubscription (s : State) (kind : Kind) (sub : Subscription) : State :=
  { s with subscriptions := Function.update s.subscriptions kind sub }

def openStream (s : State) (kind : Kind) (f : StreamFrame) : State :=
  setSubscription s kind { s.subscriptions kind with streamID := some f.streamId }

def register (s : State) (kind : Kind) (f : StreamFrame) : State :=
  setSubscription s kind { s.subscriptions kind with registeredOn := some f.streamId }

def push (s : State) (kind : Kind) (f : StreamFrame) : State :=
  setSubscription s kind
    { s.subscriptions kind with chan := (s.subscriptions kind).chan ++ [f.streamData.drop 1] }

/-- The statements up to the assignment of the stream id. -/
def handleStreamFrame (s : State) (agent : Agent) (f : StreamFrame) (frames : List StreamFrame) :
    Option State :=
  let skipped := setLoop s agent ⟨frames, none⟩
  if f.offset = 0 ∧ f.streamId &&& 0x2 = 2 then
    match f.streamData with
    | [] => none
    | first :: _ =>
      match agent.opens first with
      | none => some skipped
      | some kind =>
        if (s.subscriptions kind).streamID ≠ none then
          some skipped
        else
          some (setLoop (openStream s kind f) agent ⟨frames, some (.register kind f)⟩)
  else
    some skipped

/-- The agent goes on with the packet that it handles. -/
def resume (s : State) (agent : Agent) : Option State :=
  let loop := s.loops agent
  match loop.next with
  | some (.register kind f) =>
    let next := if f.length > 1 then some (.push kind f) else none
    some (setLoop (register s kind f) agent { loop with next := next })
  | some (.push kind f) => some (setLoop (push s kind f) agent { loop with next := none })
  | none =>
    match loop.frames with
    | [] => some s
    | f :: frames => handleStreamFrame s agent f frames

def Kind.agent (kind : Kind) : Agent :=
  match kind with
  | .control => .http
  | .encoder => .qpack
  | .decoder => .qpack

def Subscription.take (sub : Subscription) : Subscription :=
  match sub.chan with
  | [] => sub
  | data :: chan => { sub with chan := chan, taken := sub.taken ++ [data] }

/-- The data is read on by `peerControlStream`, `peerEncoderStream` or `peerDecoderStream`. -/
def takeChunk (s : State) (kind : Kind) : State :=
  if (s.loops kind.agent).atSelect then
    setSubscription s kind (s.subscriptions kind).take
  else
    s

inductive Event where
  | readStreamFrame (f : StreamFrame)
  | submitPacket (pnSpace : PNSpace)
  | handlePacket (agent : Agent)
  | resume (agent : Agent)
  | takeChunk (kind : Kind)
  deriving DecidableEq, Repr

def step (s : State) (event : Event) : Option State :=
  match event with
  | .readStreamFrame f => readStreamFrame s f
  | .submitPacket pnSpace => some (submitPacket s pnSpace)
  | .handlePacket agent => some (handlePacket s agent)
  | .resume agent => resume s agent
  | .takeChunk kind => some (takeChunk s kind)

end PeerStreams

end QuicTracker
