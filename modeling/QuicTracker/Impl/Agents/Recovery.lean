import QuicTracker.Impl.Packets
import Mathlib.Logic.Function.Iterate

/-!
This module contains the reaction of `agents/recovery_agent.go` to an acknowledgement. A retransmission
buffer is a partial function from packet numbers, an empty list of ranges panics and is `none`.
-/

namespace QuicTracker

structure RetransmittableFrames where
  frames : List Frame
  timestamp : Nat
  level : EncryptionLevel
  deriving DecidableEq, Repr

abbrev RetransmitBatch := List RetransmittableFrames

def RetransmitBatch.nFrames (batch : RetransmitBatch) : Nat :=
  batch.foldl (fun n b => n + b.frames.length) 0

abbrev RetransmissionBuffer := Nat → Option RetransmittableFrames

def RetransmissionBuffer.delete (buffer : RetransmissionBuffer) (number : Nat) :
    RetransmissionBuffer :=
  Function.update buffer number none

structure RecoveryAgent where
  retransmissionBuffer : PNSpace → RetransmissionBuffer

namespace RecoveryAgent

structure Sweep where
  currentPacketNumber : Nat
  buffer : RetransmissionBuffer
  frames : RetransmitBatch

def threshold : Nat := 1000

def Sweep.acknowledge (s : Sweep) : Sweep :=
  let currentPacketNumber := u64Sub s.currentPacketNumber 1
  ⟨currentPacketNumber, s.buffer.delete currentPacketNumber, s.frames⟩

def Sweep.skip (s : Sweep) : Sweep :=
  let frames :=
    match s.buffer s.currentPacketNumber with
    | some f => s.frames ++ [f]
    | none => s.frames
  let currentPacketNumber := u64Sub s.currentPacketNumber 1
  ⟨currentPacketNumber, s.buffer.delete currentPacketNumber, frames⟩

def Sweep.block (s : Sweep) (b : AckBlock) : Sweep :=
  -- The first loop runs while `i <= Gap`, the second one while `i < Block`.
  let s := Sweep.skip^[min (b.gap + 1) threshold] s
  Sweep.acknowledge^[min b.block threshold] s

def processAck (agent : RecoveryAgent) (ack : AckFrame) (space : PNSpace) :
    Option (RetransmitBatch × RecoveryAgent) :=
  match ack.ackBlocks with
  | [] => none
  | first :: blocks =>
    let buffer := agent.retransmissionBuffer space
    let s : Sweep := ⟨ack.largestAcknowledged, buffer.delete ack.largestAcknowledged, []⟩
    let s := Sweep.acknowledge^[min first.block threshold] s
    let s := blocks.foldl Sweep.block s
    some (s.frames, ⟨Function.update agent.retransmissionBuffer space s.buffer⟩)

end RecoveryAgent

end QuicTracker
