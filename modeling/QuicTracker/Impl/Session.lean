import QuicTracker.Impl.Agents.Handshake
import QuicTracker.Impl.Agents.Retransmit

/-!
This module contains the client as a whole: the handshake agent, the recovery agent and the users of the
connection work on it in turns, in any order. `destinationCIDs` has the values of `DestinationCID` so far,
nothing reads it.
-/

namespace QuicTracker

namespace Session

structure State (τ : Type) where
  agent : HandshakeAgent.State τ
  recovery : RecoveryAgent
  destinationCIDs : List ConnectionID

inductive PacketKind where
  | initial
  | handshake
  | zeroRTTProtected
  | oneRTTProtected
  deriving DecidableEq, Repr

def PacketKind.pnSpace (kind : PacketKind) : PNSpace :=
  match kind with
  | .initial => .initial
  | .handshake => .handshake
  | .zeroRTTProtected => .appData
  | .oneRTTProtected => .appData

inductive Event where
  | handshake (i : HandshakeAgent.Input)
  | recovery (i : RecoveryAgent.Input)
  | write (streamId : Nat) (data : List UInt8) (fin : Bool)
  | create (kind : PacketKind)
  deriving DecidableEq, Repr

variable {τ : Type} (lib : Libraries τ)

def start (globals : Globals) (conn : Client τ) (ignoreRetry : Bool) : State τ where
  agent := HandshakeAgent.start globals conn ignoreRetry
  recovery := ⟨fun _ _ => none⟩
  destinationCIDs := [conn.destinationCID]

def State.conn (s : State τ) : Client τ := s.agent.conn

def withAgent (s : State τ) (agent : HandshakeAgent.State τ) : State τ :=
  { s with
    agent := agent
    destinationCIDs := s.destinationCIDs ++ [agent.conn.destinationCID] }

def withConn (s : State τ) (c : Client τ) : State τ := withAgent s { s.agent with conn := c }

def newPacket (kind : PacketKind) (c : Client τ) : Option (FramePacket × Client τ) :=
  match kind with
  | .initial => Client.newInitialPacket lib c
  | .handshake => Client.newHandshakePacket lib c
  | .zeroRTTProtected => Client.newZeroRTTProtectedPacket lib c
  | .oneRTTProtected => Client.newProtectedPacket lib c

def step (s : State τ) (e : Event) : Option (State τ) :=
  match e with
  | .handshake i => do
    let agent ← HandshakeAgent.step lib s.agent i
    return withAgent s agent
  | .recovery i => do
    let (recovery, c) ← RecoveryAgent.step lib (s.recovery, s.conn) i
    return withConn { s with recovery := recovery } c
  | .write streamId data fin => do
    let c ← s.conn.sendOnStream streamId data fin
    return withConn s c
  | .create kind => do
    let (_, c) ← newPacket lib kind s.conn
    return withConn s c

end Session

end QuicTracker
