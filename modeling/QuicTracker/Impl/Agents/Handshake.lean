import QuicTracker.Impl.Client

/-!
This module contains the loop of `agents/handshake_agent.go`, with the restart of the TLS agent. An input is
what the `select` of the loop takes from one of its channels. A panic is `none`.
-/

namespace QuicTracker

structure TLSStatus where
  completed : Bool
  packet : Packet
  error : Option String
  deriving DecidableEq, Repr

structure HandshakeStatus where
  completed : Bool
  packet : Option Packet
  error : Option String
  deriving DecidableEq, Repr

/-- The channels of the TLS agent are registered on the crypto streams, which are created if need be. -/
def TLSAgent.listen {τ : Type} (c : Client τ) (chan : CryptoChan) : Client τ :=
  let c := c.withCryptoStream chan.space (c.cryptoStreams.get chan.space)
  { c with readChans := Function.update c.readChans chan.space (c.readChans chan.space ++ [chan]) }

def TLSAgent.run {τ : Type} (c : Client τ) (run : Nat) : Client τ :=
  [PNSpace.initial, .handshake, .appData].foldl (fun c space => listen c ⟨run, space⟩) c

def FramePacket.contains (p : FramePacket) (frameType : Nat) : Bool :=
  p.frames.any (fun f => f.frameType = frameType)

namespace HandshakeAgent

/-- The starts of the TLS agent are counted in `tlsAgentRun`, and `handshakeStatus` holds what was submitted. -/
structure State (τ : Type) where
  globals : Globals
  conn : Client τ
  ignoreRetry : Bool
  receivedRetry : Bool
  firstInitialReceived : Bool
  tlsCompleted : Bool
  tlsPacket : Option Packet
  tlsAgentRun : Nat
  handshakeStatus : List HandshakeStatus
  returned : Bool

inductive Input where
  | sendInitial
  | incoming (p : Packet)
  | outgoing (p : FramePacket)
  | tlsStatus (s : TLSStatus)
  | socketStatus (err : String)
  | close
  deriving DecidableEq, Repr

variable {τ : Type} (lib : Libraries τ)

/-- The start of the agent, when the TLS agent listens to the streams of the connection. -/
def start (globals : Globals) (conn : Client τ) (ignoreRetry : Bool) : State τ where
  globals := globals
  conn := TLSAgent.run conn 0
  ignoreRetry := ignoreRetry
  receivedRetry := false
  firstInitialReceived := false
  tlsCompleted := false
  tlsPacket := none
  tlsAgentRun := 0
  handshakeStatus := []
  returned := false

def submit (s : State τ) (status : HandshakeStatus) : State τ :=
  { s with handshakeStatus := s.handshakeStatus ++ [status] }

def sendInitialPacket (s : State τ) : Option (State τ) := do
  let conn ← Client.sendInitialPacket lib s.conn
  return { s with conn := conn }

def handleVersionNegotiation (s : State τ) (p : VersionNegotiationPacket) : Option (State τ) :=
  match Client.processVersionNegotation lib s.conn p with
  | .error err =>
    some { submit s ⟨false, some (.versionNegotiation p), some err⟩ with returned := true }
  | .ok (globals, conn) => sendInitialPacket lib { s with globals := globals, conn := conn }

def acceptsRetry (s : State τ) (p : RetryPacket) : Bool :=
  ¬ s.ignoreRetry ∧ s.conn.destinationCID = p.originalDestinationCID ∧ ¬ s.receivedRetry

/-- The restart of the connection and of the TLS agent, up to the new Initial packet. -/
def restartOnRetry (s : State τ) (p : RetryPacket) : State τ :=
  let conn := { s.conn with destinationCID := p.header.sourceCID }
  let tlsTP := conn.tlsTPHandler
  let conn := Client.transitionTo lib s.globals conn s.globals.quicVersion s.globals.quicALPNToken
  let conn := { conn with tlsTPHandler := tlsTP, token := p.retryToken }
  { s with
    receivedRetry := true
    conn := TLSAgent.run conn (s.tlsAgentRun + 1)
    tlsAgentRun := s.tlsAgentRun + 1 }

def handleRetry (s : State τ) (p : RetryPacket) : Option (State τ) :=
  if acceptsRetry s p then
    sendInitialPacket lib (restartOnRetry lib s p)
  else
    some s

def closedText : String := "the connection was closed before the handshake completed"

def handleFramer (s : State τ) (p : FramePacket) : Option (State τ) :=
  if p.contains FrameType.connectionClose ∨ p.contains FrameType.applicationClose then
    some { submit s ⟨false, some (.frames p), some closedText⟩ with returned := true }
  -- Only an `InitialPacket` is in the space of the Initial packets.
  else if p.pnSpace = .initial ∧ ¬ s.firstInitialReceived then
    match p.header with
    | .long h =>
      some { s with
        firstInitialReceived := true
        conn := { s.conn with destinationCID := h.sourceCID } }
    | .short _ => none
  else
    some s

/-- The three kinds of packets are all there are, so the `default` of the switch is never taken. -/
def handleIncoming (s : State τ) (p : Packet) : Option (State τ) :=
  match p with
  | .versionNegotiation p => handleVersionNegotiation lib s p
  | .retry p => handleRetry lib s p
  | .frames p => handleFramer s p

/-- The loop over the CRYPTO frames. It panics on an empty one. -/
def sendsFinished (frames : List Frame) : Option Bool :=
  match frames with
  | [] => some false
  | .crypto cf :: frames => do
    let first ← cf.cryptoData.head?
    if first = 0x14 then
      return true
    else
      sendsFinished frames
  | _ :: frames => sendsFinished frames

def handleOutgoing (s : State τ) (p : FramePacket) : Option (State τ) :=
  if s.tlsCompleted ∧ p.pnSpace = .handshake then do
    if ← sendsFinished p.frames then
      return { submit s ⟨true, s.tlsPacket, none⟩ with returned := true }
    else
      return s
  else
    some s

def handleTLSStatus (s : State τ) (status : TLSStatus) : State τ :=
  let s :=
    if status.error.isSome then
      submit s ⟨status.completed, some status.packet, status.error⟩
    else
      s
  { s with tlsCompleted := status.completed, tlsPacket := some status.packet }

def connectionRefused (err : String) : Bool := "connection refused".toList <:+: err.toList

def handleSocketStatus (s : State τ) (err : String) : State τ :=
  if connectionRefused err then submit s ⟨false, none, some err⟩ else s

/-- An agent whose loop has returned takes nothing more. -/
def step (s : State τ) (input : Input) : Option (State τ) :=
  if s.returned then
    some s
  else
    match input with
    | .sendInitial => sendInitialPacket lib s
    | .incoming p => handleIncoming lib s p
    | .outgoing p => handleOutgoing s p
    | .tlsStatus status => some (handleTLSStatus s status)
    | .socketStatus err => some (handleSocketStatus s err)
    | .close => some { s with returned := true }

end HandshakeAgent

end QuicTracker
