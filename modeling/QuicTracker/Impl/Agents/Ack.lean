import QuicTracker.Impl.Packets

/-!
This module contains the reaction of `agents/ack_agent.go` to a packet that carries frames. The frames it
submits to the queue of the connection are returned, the statistics it keeps are left out.
-/

namespace QuicTracker

structure QueuedFrame where
  frame : Frame
  encryptionLevel : EncryptionLevel
  deriving DecidableEq, Repr

structure AckAgent where
  disableAcks : PNSpace → Bool
  disablePathResponse : Bool

namespace AckAgent

def pathResponse (agent : AckAgent) (p : FramePacket) : List QueuedFrame :=
  match p.getFirst FrameType.pathChallenge with
  | some (.pathChallenge challenge) =>
    if agent.disablePathResponse then
      []
    else
      [⟨.pathResponse ⟨challenge.data⟩, p.encryptionLevel⟩]
  | _ => []

def receive (agent : AckAgent) (conn : Connection) (p : FramePacket) :
    Connection × List QueuedFrame :=
  if p.pnSpace ≠ .noSpace then
    let queue := conn.ackQueue p.pnSpace ++ [p.header.packetNumber]
    let conn := { conn with ackQueue := Function.update conn.ackQueue p.pnSpace queue }
    let queued := agent.pathResponse p
    if ¬ agent.disableAcks p.pnSpace ∧ p.shouldBeAcknowledged then
      let (ack, conn) := conn.getAckFrame p.pnSpace
      (conn, queued ++ (ack.toList.map fun ack => ⟨.ack ack, p.encryptionLevel⟩))
    else
      (conn, queued)
  else
    (conn, [])

def receiveAll (agent : AckAgent) (conn : Connection) (ps : List FramePacket) : Connection :=
  ps.foldl (fun conn p => (agent.receive conn p).1) conn

end AckAgent

end QuicTracker
