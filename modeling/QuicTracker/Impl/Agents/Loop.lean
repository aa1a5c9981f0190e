import QuicTracker.Impl.Agents.Retransmit
import QuicTracker.Impl.Agents.Send

/-!
This module contains the loop that `agents/send_agent.go` and `agents/recovery_agent.go` form over a connection.
A frame that is queued is sent in a packet, the recovery agent sees the packet and queues the frame again
when no acknowledgement has come. `frameQueue` and `outgoingPackets` of the client are what the channels of
the two agents hold, and the agents take from them at any time.
-/

namespace QuicTracker

structure Loop (τ : Type) where
  sending : SendingAgent.State
  recovery : RecoveryAgent
  client : Client τ

namespace Loop

inductive Event where
  -- Another agent or a scenario queues a frame.
  | submit (frame : Frame) (level : EncryptionLevel)
  -- The sending agent takes a frame, or is woken up.
  | queue
  | timer (level : EncryptionLevel)
  | announce (level : EncryptionLevel) (read : Bool)
  -- The recovery agent takes a packet that was sent, or is woken up.
  | outgoing (now : Nat)
  | incoming (p : Packet)
  | tick (now : Nat) (order : List (PNSpace × Nat))
  | encryptionLevel (e : DirectionalEncryptionLevel)

variable {τ : Type} (lib : Libraries τ) (newHeader : EncryptionLevel → Nat → Header) (mtu : Nat)

def start (c : Client τ) : Loop τ where
  sending := SendingAgent.initial
  recovery := RecoveryAgent.initial
  client := c

def send (l : Loop τ) (event : SendingAgent.Event) : Option (Loop τ) := do
  let sending ← SendingAgent.step newHeader mtu l.sending event
  let packets := sending.sent.drop l.sending.sent.length
  let client ← packets.foldlM (fun c p => c.sendPacket p.1 p.2) l.client
  return { l with sending := sending, client := client }

def recover (l : Loop τ) (input : RecoveryAgent.Input) : Option (Loop τ) := do
  let (recovery, client) ← RecoveryAgent.step lib (l.recovery, l.client) input
  return { l with recovery := recovery, client := client }

def step (l : Loop τ) (event : Event) : Option (Loop τ) :=
  match event with
  | .submit frame level => some { l with client := l.client.submitFrame frame level }
  | .queue =>
    match l.client.frameQueue with
    | [] => none
    | q :: queue =>
      send newHeader mtu { l with client := { l.client with frameQueue := queue } }
        (.queue q.frame q.encryptionLevel)
  | .timer level => send newHeader mtu l (.timer level)
  | .announce level read => send newHeader mtu l (.announce level read)
  | .outgoing now =>
    match l.client.outgoingPackets with
    | [] => none
    | p :: packets =>
      recover lib { l with client := { l.client with outgoingPackets := packets } } (.outgoing now p)
  | .incoming p => recover lib l (.incoming p)
  | .tick now order => recover lib l (.tick now order)
  | .encryptionLevel e => recover lib l (.encryptionLevel e)

end Loop

end QuicTracker
