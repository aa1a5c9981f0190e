import QuicTracker.Impl.Agents.Buffer
import QuicTracker.Impl.Agents.Parse
import QuicTracker.Impl.Agents.Tls

/-!
This module contains how a datagram gets from the socket to the packets of a connection: the parsing agent
and the buffer agent with the queues between them, and the keys that the TLS agent installs and announces.
Each iteration of an agent is one step, a queue is a list. A panic is `none`.
-/

namespace QuicTracker

namespace Arrivals

/--
The datagrams that the socket agent has not read are `network`. The channels of the buffer agent are
`unprocessedPayloads` and `encryptionLevelsAvailable`, and `buffer` is what its loop keeps. The levels that
the TLS agent has submitted are `announced`. The packets that were submitted are `incomingPackets`, each
with the cleartext that was saved for it.
-/
structure State where
  network : List (List UInt8)
  conn : Connection
  incomingPayloads : List (List UInt8)
  unprocessedPayloads : List UnprocessedPayload
  encryptionLevelsAvailable : List DirectionalEncryptionLevel
  buffer : BufferAgent.State
  announced : DirectionalEncryptionLevel → Bool
  incomingPackets : List (Packet × List UInt8)

def start (network : List (List UInt8)) (conn : Connection) : State where
  network := network
  conn := conn
  incomingPayloads := []
  unprocessedPayloads := []
  encryptionLevelsAvailable := []
  buffer := BufferAgent.initial
  announced := fun _ => false
  incomingPackets := []

def readSocket (s : State) : State :=
  match s.network with
  | [] => s
  | udpPayload :: network =>
    { s with network := network, incomingPayloads := s.incomingPayloads ++ [udpPayload] }

def parse (s : State) : Option State :=
  match s.incomingPayloads with
  | [] => some s
  | udpPayload :: incomingPayloads => do
    let progress ← ParsingAgent.receive s.conn udpPayload
    return { s with
      conn := progress.conn
      incomingPayloads := incomingPayloads
      unprocessedPayloads := s.unprocessedPayloads ++ progress.unprocessed.map fun u => ⟨u.1, u.2⟩
      incomingPackets := s.incomingPackets ++ progress.incoming }

/-- What the buffer agent submits is put back into the queue of the parsing agent. -/
def feedBuffer (s : State) (input : BufferAgent.Input) : State :=
  let buffer := BufferAgent.step s.buffer input
  let submitted := buffer.incomingPayloads.drop s.buffer.incomingPayloads.length
  { s with
    buffer := buffer
    incomingPayloads := s.incomingPayloads ++ submitted.map (·.payload) }

def handleUnprocessed (s : State) : State :=
  match s.unprocessedPayloads with
  | [] => s
  | u :: unprocessedPayloads =>
    feedBuffer { s with unprocessedPayloads := unprocessedPayloads } (.unprocessed u)

def handleAvailable (s : State) : State :=
  match s.encryptionLevelsAvailable with
  | [] => s
  | dEL :: encryptionLevelsAvailable =>
    feedBuffer { s with encryptionLevelsAvailable := encryptionLevelsAvailable } (.available dEL)

def install (s : State) (level : EncryptionLevel) (state : CryptoState) : State :=
  { s with conn := { s.conn with
      cryptoStates := Function.update s.conn.cryptoStates level (some state) } }

def announce (s : State) (e : DirectionalEncryptionLevel) : State :=
  let (announced, encryptionLevelsAvailable) := TLSAgent.announceLevel s.conn e s.announced
    s.encryptionLevelsAvailable
  { s with announced := announced, encryptionLevelsAvailable := encryptionLevelsAvailable }

/-- The levels that `GetInitialPacket` and a scenario submit on their own, only for writing. -/
def submitWrite (s : State) (level : EncryptionLevel) : State :=
  { s with encryptionLevelsAvailable := s.encryptionLevelsAvailable ++ [⟨level, false⟩] }

inductive Event where
  | readSocket
  | parse
  | unprocessed
  | available
  | install (level : EncryptionLevel) (state : CryptoState)
  | announce (e : DirectionalEncryptionLevel)
  | submitWrite (level : EncryptionLevel)

def step (s : State) (event : Event) : Option State :=
  match event with
  | .readSocket => some (readSocket s)
  | .parse => parse s
  | .unprocessed => some (handleUnprocessed s)
  | .available => some (handleAvailable s)
  | .install level state => some (install s level state)
  | .announce e => some (announce s e)
  | .submitWrite level => some (submitWrite s level)

end Arrivals

end QuicTracker
