import QuicTracker.Impl.Common
import QuicTracker.Lib.GapRuns
import Mathlib.Logic.Function.Iterate

/-!
This module contains the frames of `frames.go` and their encoders. An encoder appends to a buffer,
the panic of `EncodeVarInt` is `none`.
-/

namespace QuicTracker

open ByteReader

def writeVarInt (buffer : List UInt8) (i : Nat) : Option (List UInt8) := do
  let bytes ← encodeVarInt i
  return buffer ++ bytes

namespace FrameType

def padding : Nat := 0x00
def ping : Nat := 0x01
def ack : Nat := 0x02
def ackECN : Nat := 0x03
def resetStream : Nat := 0x04
def stopSending : Nat := 0x05
def crypto : Nat := 0x06
def newToken : Nat := 0x07
def stream : Nat := 0x08
def maxData : Nat := 0x10
def maxStreamData : Nat := 0x11
def maxStreams : Nat := 0x12
def dataBlocked : Nat := 0x14
def streamDataBlocked : Nat := 0x15
def streamsBlocked : Nat := 0x16
def newConnectionId : Nat := 0x18
def retireConnectionId : Nat := 0x19
def pathChallenge : Nat := 0x1a
def pathResponse : Nat := 0x1b
def connectionClose : Nat := 0x1c
def applicationClose : Nat := 0x1d

end FrameType

abbrev AckBlock := GapRuns.Block

structure AckFrame where
  largestAcknowledged : Nat
  ackDelay : Nat
  ackBlockCount : Nat
  ackBlocks : List AckBlock
  deriving DecidableEq, Repr

def AckFrame.frameType (_ : AckFrame) : Nat := FrameType.ack

structure AckWalk where
  currentPacketNumber : Nat
  packets : List Nat
  deriving DecidableEq, Repr

def AckWalk.next (w : AckWalk) : AckWalk :=
  let currentPacketNumber := u64Sub w.currentPacketNumber 1
  ⟨currentPacketNumber, w.packets ++ [currentPacketNumber]⟩

def AckWalk.block (w : AckWalk) (b : AckBlock) : AckWalk :=
  -- The first loop runs while `i <= Gap`, the second one while `i < Block`.
  let w := AckWalk.next^[b.gap + 1] w
  AckWalk.next^[b.block] w

/-- An empty list of ranges panics. -/
def AckFrame.getAckedPackets (frame : AckFrame) : Option (List Nat) :=
  match frame.ackBlocks with
  | [] => none
  | first :: blocks =>
    let w : AckWalk := ⟨frame.largestAcknowledged, [frame.largestAcknowledged]⟩
    let w := AckWalk.next^[first.block] w
    some (blocks.foldl AckWalk.block w).packets

def AckFrame.writeBlocks (blocks : List AckBlock) (buffer : List UInt8) : Option (List UInt8) :=
  match blocks with
  | [] => some buffer
  | ack :: blocks => do
    let buffer ← writeVarInt buffer ack.gap
    let buffer ← writeVarInt buffer ack.block
    AckFrame.writeBlocks blocks buffer

def AckFrame.writeTo (frame : AckFrame) (buffer : List UInt8) : Option (List UInt8) := do
  let buffer ← writeVarInt buffer frame.frameType
  let buffer ← writeVarInt buffer frame.largestAcknowledged
  let buffer ← writeVarInt buffer frame.ackDelay
  let buffer ← writeVarInt buffer frame.ackBlockCount
  match frame.ackBlocks with
  | [] => some buffer
  | first :: blocks =>
    -- The gap of the first range is not on the wire.
    let buffer ← writeVarInt buffer first.block
    AckFrame.writeBlocks blocks buffer

structure AckECNFrame extends AckFrame where
  ect0Count : Nat
  ect1Count : Nat
  ectCECount : Nat
  deriving DecidableEq, Repr

def AckECNFrame.frameType (_ : AckECNFrame) : Nat := FrameType.ackECN

def AckECNFrame.writeTo (frame : AckECNFrame) (buffer : List UInt8) : Option (List UInt8) := do
  -- The embedded encoder runs with the embedded frame as its receiver.
  let buffer ← frame.toAckFrame.writeTo buffer
  let buffer ← writeVarInt buffer frame.ect0Count
  let buffer ← writeVarInt buffer frame.ect1Count
  writeVarInt buffer frame.ectCECount

structure ResetStream where
  streamId : Nat
  applicationErrorCode : Nat
  finalOffset : Nat
  deriving DecidableEq, Repr

def ResetStream.frameType (_ : ResetStream) : Nat := FrameType.resetStream

def ResetStream.writeTo (frame : ResetStream) (buffer : List UInt8) : Option (List UInt8) := do
  let buffer ← writeVarInt buffer frame.frameType
  let buffer ← writeVarInt buffer frame.streamId
  let buffer := buffer ++ beBytes 2 frame.applicationErrorCode
  writeVarInt buffer frame.finalOffset

structure StopSendingFrame where
  streamId : Nat
  applicationErrorCode : Nat
  deriving DecidableEq, Repr

def StopSendingFrame.frameType (_ : StopSendingFrame) : Nat := FrameType.stopSending

def StopSendingFrame.writeTo (frame : StopSendingFrame) (buffer : List UInt8) :
    Option (List UInt8) := do
  let buffer ← writeVarInt buffer frame.frameType
  let buffer ← writeVarInt buffer frame.streamId
  return buffer ++ beBytes 2 frame.applicationErrorCode

structure CryptoFrame where
  offset : Nat
  length : Nat
  cryptoData : List UInt8
  deriving DecidableEq, Repr

def CryptoFrame.frameType (_ : CryptoFrame) : Nat := FrameType.crypto

def CryptoFrame.writeTo (frame : CryptoFrame) (buffer : List UInt8) : Option (List UInt8) := do
  let buffer ← writeVarInt buffer frame.frameType
  let buffer ← writeVarInt buffer frame.offset
  let buffer ← writeVarInt buffer frame.length
  return buffer ++ frame.cryptoData

structure NewTokenFrame where
  token : List UInt8
  deriving DecidableEq, Repr

def NewTokenFrame.frameType (_ : NewTokenFrame) : Nat := FrameType.newToken

def NewTokenFrame.writeTo (frame : NewTokenFrame) (buffer : List UInt8) : Option (List UInt8) := do
  let buffer ← writeVarInt buffer frame.frameType
  let buffer ← writeVarInt buffer frame.token.length
  return buffer ++ frame.token

structure StreamFrame where
  finBit : Bool
  lenBit : Bool
  offBit : Bool
  streamId : Nat
  offset : Nat
  length : Nat
  streamData : List UInt8
  deriving DecidableEq, Repr

def StreamFrame.frameType (_ : StreamFrame) : Nat := FrameType.stream

def StreamFrame.typeByte (frame : StreamFrame) : Nat :=
  let typeByte := frame.frameType
  let typeByte := if frame.finBit then typeByte ||| 0x01 else typeByte
  let typeByte := if frame.lenBit then typeByte ||| 0x02 else typeByte
  if frame.offBit then typeByte ||| 0x04 else typeByte

def StreamFrame.writeTo (frame : StreamFrame) (buffer : List UInt8) : Option (List UInt8) := do
  let buffer ← writeVarInt buffer frame.typeByte
  let buffer ← writeVarInt buffer frame.streamId
  let buffer ← if frame.offBit then writeVarInt buffer frame.offset else some buffer
  let buffer ← if frame.lenBit then writeVarInt buffer frame.length else some buffer
  return buffer ++ frame.streamData

structure MaxDataFrame where
  maximumData : Nat
  deriving DecidableEq, Repr

def MaxDataFrame.frameType (_ : MaxDataFrame) : Nat := FrameType.maxData

structure MaxStreamDataFrame where
  streamId : Nat
  maximumStreamData : Nat
  deriving DecidableEq, Repr

def MaxStreamDataFrame.frameType (_ : MaxStreamDataFrame) : Nat := FrameType.maxStreamData

inductive StreamsType where
  | bidiStreams
  | uniStreams
  deriving DecidableEq, Repr

def StreamsType.frameType (base : Nat) (streamsType : StreamsType) : Nat :=
  match streamsType with
  | .bidiStreams => base
  | .uniStreams => base + 1

structure MaxStreamsFrame where
  streamsType : StreamsType
  maximumStreams : Nat
  deriving DecidableEq, Repr

def MaxStreamsFrame.frameType (frame : MaxStreamsFrame) : Nat :=
  frame.streamsType.frameType FrameType.maxStreams

structure DataBlockedFrame where
  dataLimit : Nat
  deriving DecidableEq, Repr

def DataBlockedFrame.frameType (_ : DataBlockedFrame) : Nat := FrameType.dataBlocked

structure StreamDataBlockedFrame where
  streamId : Nat
  streamDataLimit : Nat
  deriving DecidableEq, Repr

def StreamDataBlockedFrame.frameType (_ : StreamDataBlockedFrame) : Nat :=
  FrameType.streamDataBlocked

structure StreamsBlockedFrame where
  streamsType : StreamsType
  streamLimit : Nat
  deriving DecidableEq, Repr

def StreamsBlockedFrame.frameType (frame : StreamsBlockedFrame) : Nat :=
  frame.streamsType.frameType FrameType.streamsBlocked

def writeOne (frameType value : Nat) (buffer : List UInt8) : Option (List UInt8) := do
  let buffer ← writeVarInt buffer frameType
  writeVarInt buffer value

def writeTwo (frameType fst snd : Nat) (buffer : List UInt8) : Option (List UInt8) := do
  let buffer ← writeVarInt buffer frameType
  let buffer ← writeVarInt buffer fst
  writeVarInt buffer snd

def MaxDataFrame.writeTo (frame : MaxDataFrame) : List UInt8 → Option (List UInt8) :=
  writeOne frame.frameType frame.maximumData

def MaxStreamDataFrame.writeTo (frame : MaxStreamDataFrame) : List UInt8 → Option (List UInt8) :=
  writeTwo frame.frameType frame.streamId frame.maximumStreamData

def MaxStreamsFrame.writeTo (frame : MaxStreamsFrame) : List UInt8 → Option (List UInt8) :=
  writeOne frame.frameType frame.maximumStreams

def DataBlockedFrame.writeTo (frame : DataBlockedFrame) : List UInt8 → Option (List UInt8) :=
  writeOne frame.frameType frame.dataLimit

def StreamDataBlockedFrame.writeTo (frame : StreamDataBlockedFrame) :
    List UInt8 → Option (List UInt8) :=
  writeTwo frame.frameType frame.streamId frame.streamDataLimit

def StreamsBlockedFrame.writeTo (frame : StreamsBlockedFrame) :
    List UInt8 → Option (List UInt8) :=
  writeOne frame.frameType frame.streamLimit

structure NewConnectionIdFrame where
  sequence : Nat
  length : UInt8
  connectionId : List UInt8
  statelessResetToken : Vector UInt8 16
  deriving DecidableEq, Repr

def NewConnectionIdFrame.frameType (_ : NewConnectionIdFrame) : Nat := FrameType.newConnectionId

def NewConnectionIdFrame.writeTo (frame : NewConnectionIdFrame) (buffer : List UInt8) :
    Option (List UInt8) := do
  let buffer ← writeVarInt buffer frame.frameType
  let buffer ← writeVarInt buffer frame.sequence
  return buffer ++ [frame.length] ++ frame.connectionId ++ frame.statelessResetToken.toList

structure RetireConnectionId where
  sequenceNumber : Nat
  deriving DecidableEq, Repr

def RetireConnectionId.frameType (_ : RetireConnectionId) : Nat := FrameType.retireConnectionId

def RetireConnectionId.writeTo (frame : RetireConnectionId) : List UInt8 → Option (List UInt8) :=
  writeOne frame.frameType frame.sequenceNumber

structure PathChallenge where
  data : Vector UInt8 8
  deriving DecidableEq, Repr

def PathChallenge.frameType (_ : PathChallenge) : Nat := FrameType.pathChallenge

structure PathResponse where
  data : Vector UInt8 8
  deriving DecidableEq, Repr

def PathResponse.frameType (_ : PathResponse) : Nat := FrameType.pathResponse

def writePath (frameType : Nat) (data : Vector UInt8 8) (buffer : List UInt8) :
    Option (List UInt8) := do
  let buffer ← writeVarInt buffer frameType
  return buffer ++ data.toList

def PathChallenge.writeTo (frame : PathChallenge) : List UInt8 → Option (List UInt8) :=
  writePath frame.frameType frame.data

def PathResponse.writeTo (frame : PathResponse) : List UInt8 → Option (List UInt8) :=
  writePath frame.frameType frame.data

structure ConnectionCloseFrame where
  errorCode : Nat
  errorFrameType : Nat
  reasonPhraseLength : Nat
  reasonPhrase : List UInt8
  deriving DecidableEq, Repr

def ConnectionCloseFrame.frameType (_ : ConnectionCloseFrame) : Nat := FrameType.connectionClose

def writeReasonPhrase (length : Nat) (phrase : List UInt8) (buffer : List UInt8) :
    Option (List UInt8) := do
  let buffer ← writeVarInt buffer length
  return if length > 0 then buffer ++ phrase else buffer

def ConnectionCloseFrame.writeTo (frame : ConnectionCloseFrame) (buffer : List UInt8) :
    Option (List UInt8) := do
  let buffer ← writeVarInt buffer frame.frameType
  let buffer := buffer ++ beBytes 2 frame.errorCode
  let buffer ← writeVarInt buffer frame.errorFrameType
  writeReasonPhrase frame.reasonPhraseLength frame.reasonPhrase buffer

structure ApplicationCloseFrame where
  errorCode : Nat
  reasonPhraseLength : Nat
  reasonPhrase : List UInt8
  deriving DecidableEq, Repr

def ApplicationCloseFrame.frameType (_ : ApplicationCloseFrame) : Nat :=
  FrameType.applicationClose

def ApplicationCloseFrame.writeTo (frame : ApplicationCloseFrame) (buffer : List UInt8) :
    Option (List UInt8) := do
  let buffer ← writeVarInt buffer frame.frameType
  let buffer := buffer ++ beBytes 2 frame.errorCode
  writeReasonPhrase frame.reasonPhraseLength frame.reasonPhrase buffer

inductive Frame where
  | padding
  | ping
  | ack (frame : AckFrame)
  | ackECN (frame : AckECNFrame)
  | resetStream (frame : ResetStream)
  | stopSending (frame : StopSendingFrame)
  | crypto (frame : CryptoFrame)
  | newToken (frame : NewTokenFrame)
  | stream (frame : StreamFrame)
  | maxData (frame : MaxDataFrame)
  | maxStreamData (frame : MaxStreamDataFrame)
  | maxStreams (frame : MaxStreamsFrame)
  | dataBlocked (frame : DataBlockedFrame)
  | streamDataBlocked (frame : StreamDataBlockedFrame)
  | streamsBlocked (frame : StreamsBlockedFrame)
  | newConnectionId (frame : NewConnectionIdFrame)
  | retireConnectionId (frame : RetireConnectionId)
  | pathChallenge (frame : PathChallenge)
  | pathResponse (frame : PathResponse)
  | connectionClose (frame : ConnectionCloseFrame)
  | applicationClose (frame : ApplicationCloseFrame)
  deriving DecidableEq, Repr

def Frame.frameType (frame : Frame) : Nat :=
  match frame with
  | .padding => FrameType.padding
  | .ping => FrameType.ping
  | .ack frame => frame.frameType
  | .ackECN frame => frame.frameType
  | .resetStream frame => frame.frameType
  | .stopSending frame => frame.frameType
  | .crypto frame => frame.frameType
  | .newToken frame => frame.frameType
  | .stream frame => frame.frameType
  | .maxData frame => frame.frameType
  | .maxStreamData frame => frame.frameType
  | .maxStreams frame => frame.frameType
  | .dataBlocked frame => frame.frameType
  | .streamDataBlocked frame => frame.frameType
  | .streamsBlocked frame => frame.frameType
  | .newConnectionId frame => frame.frameType
  | .retireConnectionId frame => frame.frameType
  | .pathChallenge frame => frame.frameType
  | .pathResponse frame => frame.frameType
  | .connectionClose frame => frame.frameType
  | .applicationClose frame => frame.frameType

/-- The type assertion for an `*AckFrame`, which an ACK_ECN frame does not pass. -/
def Frame.ack? (frame : Frame) : Option AckFrame :=
  match frame with
  | .ack frame => some frame
  | _ => none

def Frame.shouldBeRetransmitted (frame : Frame) : Bool :=
  match frame with
  | .padding => false
  | .ping => false
  | .ack _ => false
  | .ackECN _ => false
  | .pathResponse _ => false
  | .connectionClose _ => false
  | .applicationClose _ => false
  | _ => true

def Frame.writeTo (frame : Frame) (buffer : List UInt8) : Option (List UInt8) :=
  match frame with
  | .padding => writeVarInt buffer FrameType.padding
  | .ping => writeVarInt buffer FrameType.ping
  | .ack frame => frame.writeTo buffer
  | .ackECN frame => frame.writeTo buffer
  | .resetStream frame => frame.writeTo buffer
  | .stopSending frame => frame.writeTo buffer
  | .crypto frame => frame.writeTo buffer
  | .newToken frame => frame.writeTo buffer
  | .stream frame => frame.writeTo buffer
  | .maxData frame => frame.writeTo buffer
  | .maxStreamData frame => frame.writeTo buffer
  | .maxStreams frame => frame.writeTo buffer
  | .dataBlocked frame => frame.writeTo buffer
  | .streamDataBlocked frame => frame.writeTo buffer
  | .streamsBlocked frame => frame.writeTo buffer
  | .newConnectionId frame => frame.writeTo buffer
  | .retireConnectionId frame => frame.writeTo buffer
  | .pathChallenge frame => frame.writeTo buffer
  | .pathResponse frame => frame.writeTo buffer
  | .connectionClose frame => frame.writeTo buffer
  | .applicationClose frame => frame.writeTo buffer

end QuicTracker
