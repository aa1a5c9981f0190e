import QuicTracker.Impl.Frames.Basic

/-!
This module contains `FrameLength` of the frames in `frames.go`. It is a 16 bit number, the panic of
`VarIntLen` is `none`.
-/

namespace QuicTracker

def AckFrame.addBlockLengths (length i : Nat) (blocks : List AckBlock) : Option Nat :=
  match blocks with
  | [] => some length
  | ack :: blocks => do
    let length ←
      if i > 0 then
        (do
          let gap ← varIntLen ack.gap
          return u16 (length + u16 gap))
      else
        some length
    let block ← varIntLen ack.block
    AckFrame.addBlockLengths (u16 (length + u16 block)) (i + 1) blocks

def AckFrame.frameLength (frame : AckFrame) : Option Nat := do
  let largestAcknowledged ← varIntLen frame.largestAcknowledged
  let ackDelay ← varIntLen frame.ackDelay
  let ackBlockCount ← varIntLen frame.ackBlockCount
  let length := u16 (1 + u16 (largestAcknowledged + ackDelay + ackBlockCount))
  AckFrame.addBlockLengths length 0 frame.ackBlocks

def AckECNFrame.frameLength (frame : AckECNFrame) : Option Nat := do
  let length ← frame.toAckFrame.frameLength
  let ect0Count ← varIntLen frame.ect0Count
  let ect1Count ← varIntLen frame.ect1Count
  let ectCECount ← varIntLen frame.ectCECount
  return u16 (length + u16 (ect0Count + ect1Count + ectCECount))

def ResetStream.frameLength (frame : ResetStream) : Option Nat := do
  let streamId ← varIntLen frame.streamId
  let finalOffset ← varIntLen frame.finalOffset
  return u16 (1 + u16 (streamId + 2 + finalOffset))

def StopSendingFrame.frameLength (frame : StopSendingFrame) : Option Nat := do
  let streamId ← varIntLen frame.streamId
  return u16 (1 + u16 streamId + 2)

def CryptoFrame.frameLength (frame : CryptoFrame) : Option Nat := do
  let offset ← varIntLen frame.offset
  let length ← varIntLen frame.length
  return u16 (1 + u16 (offset + length) + u16 frame.cryptoData.length)

def NewTokenFrame.frameLength (frame : NewTokenFrame) : Option Nat := do
  let tokenLength ← varIntLen frame.token.length
  return u16 (1 + u16 tokenLength + u16 frame.token.length)

def StreamFrame.frameLength (frame : StreamFrame) : Option Nat := do
  let streamId ← varIntLen frame.streamId
  let length := u16 (1 + u16 streamId)
  let length ←
    if frame.offBit then
      (do
        let offset ← varIntLen frame.offset
        return u16 (length + u16 offset))
    else
      some length
  let length ←
    if frame.lenBit then
      (do
        let len ← varIntLen frame.length
        return u16 (length + u16 len))
    else
      some length
  return u16 (length + u16 frame.streamData.length)

def lengthOne (value : Nat) : Option Nat := do
  let value ← varIntLen value
  return u16 (1 + u16 value)

def lengthTwo (fst snd : Nat) : Option Nat := do
  let fst ← varIntLen fst
  let snd ← varIntLen snd
  return u16 (1 + u16 (fst + snd))

def MaxDataFrame.frameLength (frame : MaxDataFrame) : Option Nat := lengthOne frame.maximumData

def MaxStreamDataFrame.frameLength (frame : MaxStreamDataFrame) : Option Nat :=
  lengthTwo frame.streamId frame.maximumStreamData

def MaxStreamsFrame.frameLength (frame : MaxStreamsFrame) : Option Nat :=
  lengthOne frame.maximumStreams

def DataBlockedFrame.frameLength (frame : DataBlockedFrame) : Option Nat :=
  lengthOne frame.dataLimit

def StreamDataBlockedFrame.frameLength (frame : StreamDataBlockedFrame) : Option Nat :=
  lengthTwo frame.streamId frame.streamDataLimit

def StreamsBlockedFrame.frameLength (frame : StreamsBlockedFrame) : Option Nat :=
  lengthOne frame.streamLimit

def NewConnectionIdFrame.frameLength (frame : NewConnectionIdFrame) : Option Nat := do
  let sequence ← varIntLen frame.sequence
  return u16 (1 + u16 sequence + 1 + u16 frame.connectionId.length + 16)

def RetireConnectionId.frameLength (frame : RetireConnectionId) : Option Nat :=
  lengthOne frame.sequenceNumber

def PathChallenge.frameLength (_ : PathChallenge) : Option Nat := some (1 + 8)

def PathResponse.frameLength (_ : PathResponse) : Option Nat := some (1 + 8)

/-- The declared length of the reason counts, not the one it has. -/
def ConnectionCloseFrame.frameLength (frame : ConnectionCloseFrame) : Option Nat := do
  let errorFrameType ← varIntLen frame.errorFrameType
  let reasonPhraseLength ← varIntLen frame.reasonPhraseLength
  return u16 (1 + 2 + u16 (errorFrameType + reasonPhraseLength) + u16 frame.reasonPhraseLength)

def ApplicationCloseFrame.frameLength (frame : ApplicationCloseFrame) : Option Nat := do
  let reasonPhraseLength ← varIntLen frame.reasonPhraseLength
  return u16 (1 + 2 + u16 reasonPhraseLength + u16 frame.reasonPhraseLength)

def Frame.frameLength (frame : Frame) : Option Nat :=
  match frame with
  | .padding => some 1
  | .ping => some 1
  | .ack frame => frame.frameLength
  | .ackECN frame => frame.frameLength
  | .resetStream frame => frame.frameLength
  | .stopSending frame => frame.frameLength
  | .crypto frame => frame.frameLength
  | .newToken frame => frame.frameLength
  | .stream frame => frame.frameLength
  | .maxData frame => frame.frameLength
  | .maxStreamData frame => frame.frameLength
  | .maxStreams frame => frame.frameLength
  | .dataBlocked frame => frame.frameLength
  | .streamDataBlocked frame => frame.frameLength
  | .streamsBlocked frame => frame.frameLength
  | .newConnectionId frame => frame.frameLength
  | .retireConnectionId frame => frame.frameLength
  | .pathChallenge frame => frame.frameLength
  | .pathResponse frame => frame.frameLength
  | .connectionClose frame => frame.frameLength
  | .applicationClose frame => frame.frameLength

end QuicTracker
