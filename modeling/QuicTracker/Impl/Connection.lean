import QuicTracker.Impl.Crypto
import QuicTracker.Impl.Streams
import Mathlib.Data.List.Sort

/-!
This module contains the state of a connection and the acknowledgements of `connection.go`. A Go map
is a function, a missing key has the zero value.
-/

namespace QuicTracker

abbrev Streams := Nat → Option Stream

def Streams.get (s : Streams) (streamId : Nat) : Stream :=
  match s streamId with
  | some stream => stream
  | none => newStream

abbrev CryptoStreams := PNSpace → Option Stream

def CryptoStreams.get (s : CryptoStreams) (space : PNSpace) : Stream :=
  match s space with
  | some stream => stream
  | none => newStream

structure Connection where
  streams : Streams := fun _ => none
  sourceCID : ConnectionID := []
  cryptoStates : EncryptionLevel → Option CryptoState := fun _ => none
  largestPNsReceived : PNSpace → Nat := fun _ => 0
  ackQueue : PNSpace → List Nat := fun _ => []
  cryptoStreams : CryptoStreams := fun _ => none

/-- The caller of `Streams.Get` changes the stream that was stored in place. -/
def Connection.setStream (conn : Connection) (streamId : Nat) (stream : Stream) : Connection :=
  { conn with streams := Function.update conn.streams streamId (some stream) }

def Connection.setCryptoStream (conn : Connection) (space : PNSpace) (stream : Stream) : Connection :=
  { conn with cryptoStreams := Function.update conn.cryptoStreams space (some stream) }

/--
Both `GetAckFrame` and `mergeAckFrames` have this loop over the packet numbers that follow `previous` in
decreasing order. They subtract a different `bias` to get the gap.
-/
def ackBlocksLoop (bias previous : Nat) (ackBlock : AckBlock) (packetNumbers : List Nat) :
    List AckBlock :=
  match packetNumbers with
  | [] => [ackBlock]
  | number :: packetNumbers =>
    if u64Sub previous number = 1 then
      ackBlocksLoop bias number { ackBlock with block := u64 (ackBlock.block + 1) } packetNumbers
    else
      ackBlock ::
        ackBlocksLoop bias number ⟨u64Sub (u64Sub previous number) bias, 0⟩ packetNumbers

def sortPacketNumberQueue (queue : List Nat) : List Nat := queue.insertionSort (· ≥ ·)

def Connection.getAckFrame (conn : Connection) (space : PNSpace) : Option AckFrame × Connection :=
  let packetNumbers := sortPacketNumberQueue (conn.ackQueue space)
  let conn := { conn with ackQueue := Function.update conn.ackQueue space packetNumbers }
  match packetNumbers with
  | [] => (none, conn)
  | largest :: rest =>
    let ackBlocks := ackBlocksLoop 2 largest ⟨0, 0⟩ rest
    (some ⟨largest, 0, ackBlocks.length - 1, ackBlocks⟩, conn)

end QuicTracker
