import QuicTracker.Impl.Connection

/-!
This module contains the decoders of `frames.go`. They discard the errors of the reader, so a field
that is cut off reads as zero.
-/

namespace QuicTracker

open ByteReader

def discardByte (buffer : List UInt8) : List UInt8 := (readByte buffer).2

def readUint16 (buffer : List UInt8) : Nat × List UInt8 :=
  let (bytes, buffer) := readFull 2 buffer
  ((bytes.map beNat).getD 0, buffer)

def readVarIntField (buffer : List UInt8) : Nat × List UInt8 :=
  let (v, buffer) := readVarIntValue buffer
  (v.getD 0, buffer)

def readArray (n : Nat) (buffer : List UInt8) : Vector UInt8 n × List UInt8 :=
  (⟨(readInto n buffer).1.toArray, by simp⟩, (readInto n buffer).2)

/-- A `binary.Read` into a fixed array stores nothing when it fails. -/
def readFullArray (n : Nat) (buffer : List UInt8) : Vector UInt8 n × List UInt8 :=
  if n ≤ buffer.length then
    readArray n buffer
  else
    (Vector.replicate n 0, [])

def readAckBlocks (count : Nat) (buffer : List UInt8) : List AckBlock × List UInt8 :=
  match count with
  | 0 => ([], buffer)
  | count + 1 =>
    let (gap, buffer) := readVarIntField buffer
    let (block, buffer) := readVarIntField buffer
    let (blocks, buffer) := readAckBlocks count buffer
    (⟨gap, block⟩ :: blocks, buffer)

def readAckFrame (buffer : List UInt8) : AckFrame × List UInt8 :=
  let buffer := discardByte buffer
  let (largestAcknowledged, buffer) := readPacketNumber buffer
  let (ackDelay, buffer) := readVarIntField buffer
  let (ackBlockCount, buffer) := readVarIntField buffer
  let (firstBlock, buffer) := readVarIntField buffer
  let (blocks, buffer) := readAckBlocks ackBlockCount buffer
  (⟨largestAcknowledged, ackDelay, ackBlockCount, ⟨0, firstBlock⟩ :: blocks⟩, buffer)

def readAckECNFrame (buffer : List UInt8) : AckECNFrame × List UInt8 :=
  let (ack, buffer) := readAckFrame buffer
  let (ect0Count, buffer) := readVarIntField buffer
  let (ect1Count, buffer) := readVarIntField buffer
  let (ectCECount, buffer) := readVarIntField buffer
  (⟨ack, ect0Count, ect1Count, ectCECount⟩, buffer)

def newResetStream (buffer : List UInt8) : ResetStream × List UInt8 :=
  let buffer := discardByte buffer
  let (streamId, buffer) := readVarIntField buffer
  let (applicationErrorCode, buffer) := readUint16 buffer
  let (finalOffset, buffer) := readVarIntField buffer
  (⟨streamId, applicationErrorCode, finalOffset⟩, buffer)

def newStopSendingFrame (buffer : List UInt8) : StopSendingFrame × List UInt8 :=
  let buffer := discardByte buffer
  let (streamId, buffer) := readVarIntField buffer
  let (applicationErrorCode, buffer) := readUint16 buffer
  (⟨streamId, applicationErrorCode⟩, buffer)

def readCryptoFrame (buffer : List UInt8) : CryptoFrame × List UInt8 :=
  let (_, buffer) := readVarIntValue buffer
  let (offset, buffer) := readVarIntField buffer
  let (length, buffer) := readVarIntField buffer
  let (cryptoData, buffer) := readInto length buffer
  (⟨offset, length, cryptoData⟩, buffer)

def readNewTokenFrame (buffer : List UInt8) : NewTokenFrame × List UInt8 :=
  let (_, buffer) := readVarIntValue buffer
  let (tokenLength, buffer) := readVarIntField buffer
  let (token, buffer) := readInto tokenLength buffer
  (⟨token⟩, buffer)

def parseStreamFrame (buffer : List UInt8) : StreamFrame × List UInt8 :=
  let (typeByte, buffer) := readByte buffer
  let typeByte := typeByte.getD 0
  let finBit := typeByte &&& 0x01 = 0x01
  let lenBit := typeByte &&& 0x02 = 0x02
  let offBit := typeByte &&& 0x04 = 0x04
  let (streamId, buffer) := readVarIntField buffer
  let (offset, buffer) := if offBit then readVarIntField buffer else (0, buffer)
  let (length, buffer) := if lenBit then readVarIntField buffer else (buffer.length, buffer)
  let (streamData, buffer) := readInto length buffer
  (⟨finBit, lenBit, offBit, streamId, offset, length, streamData⟩, buffer)

def readStreamFrame (buffer : List UInt8) (conn : Connection) :
    Option (StreamFrame × List UInt8 × Connection) := do
  let (frame, buffer) := parseStreamFrame buffer
  let stream ← (conn.streams.get frame.streamId).addToRead frame
  return (frame, buffer, conn.setStream frame.streamId stream)

def readOne (buffer : List UInt8) : Nat × List UInt8 :=
  readVarIntField (discardByte buffer)

def readTwo (buffer : List UInt8) : (Nat × Nat) × List UInt8 :=
  let buffer := discardByte buffer
  let (fst, buffer) := readVarIntField buffer
  let (snd, buffer) := readVarIntField buffer
  ((fst, snd), buffer)

def newMaxDataFrame (buffer : List UInt8) : MaxDataFrame × List UInt8 :=
  let (maximumData, buffer) := readOne buffer
  (⟨maximumData⟩, buffer)

def newMaxStreamDataFrame (buffer : List UInt8) : MaxStreamDataFrame × List UInt8 :=
  let ((streamId, maximumStreamData), buffer) := readTwo buffer
  (⟨streamId, maximumStreamData⟩, buffer)

def newMaxStreamIdFrame (buffer : List UInt8) : MaxStreamsFrame × List UInt8 :=
  let (maximumStreams, buffer) := readOne buffer
  -- The direction keeps its zero value.
  (⟨.bidiStreams, maximumStreams⟩, buffer)

def newBlockedFrame (buffer : List UInt8) : DataBlockedFrame × List UInt8 :=
  let (dataLimit, buffer) := readOne buffer
  (⟨dataLimit⟩, buffer)

def newStreamBlockedFrame (buffer : List UInt8) : StreamDataBlockedFrame × List UInt8 :=
  let ((streamId, streamDataLimit), buffer) := readTwo buffer
  (⟨streamId, streamDataLimit⟩, buffer)

def newStreamIdNeededFrame (buffer : List UInt8) : StreamsBlockedFrame × List UInt8 :=
  let (streamLimit, buffer) := readOne buffer
  (⟨.bidiStreams, streamLimit⟩, buffer)

def newNewConnectionIdFrame (buffer : List UInt8) : NewConnectionIdFrame × List UInt8 :=
  let buffer := discardByte buffer
  let (sequence, buffer) := readVarIntField buffer
  let (length, buffer) := readByte buffer
  let length := length.getD 0
  let (connectionId, buffer) := readInto length.toNat buffer
  let (statelessResetToken, buffer) := readFullArray 16 buffer
  (⟨sequence, length, connectionId, statelessResetToken⟩, buffer)

def readRetireConnectionId (buffer : List UInt8) : RetireConnectionId × List UInt8 :=
  let (sequenceNumber, buffer) := readOne buffer
  (⟨sequenceNumber⟩, buffer)

def readPathChallenge (buffer : List UInt8) : PathChallenge × List UInt8 :=
  let (data, buffer) := readArray 8 (discardByte buffer)
  (⟨data⟩, buffer)

def readPathResponse (buffer : List UInt8) : PathResponse × List UInt8 :=
  let (data, buffer) := readArray 8 (discardByte buffer)
  (⟨data⟩, buffer)

def readReasonPhrase (length : Nat) (buffer : List UInt8) : List UInt8 × List UInt8 :=
  if length > 0 then
    let (bytes, buffer) := readFull length buffer
    (bytes.getD (List.replicate length 0), buffer)
  else
    ([], buffer)

def newConnectionCloseFrame (buffer : List UInt8) : ConnectionCloseFrame × List UInt8 :=
  let buffer := discardByte buffer
  let (errorCode, buffer) := readUint16 buffer
  let (errorFrameType, buffer) := readVarIntField buffer
  let (reasonPhraseLength, buffer) := readVarIntField buffer
  let (reasonPhrase, buffer) := readReasonPhrase reasonPhraseLength buffer
  (⟨errorCode, errorFrameType, reasonPhraseLength, reasonPhrase⟩, buffer)

def newApplicationCloseFrame (buffer : List UInt8) : ApplicationCloseFrame × List UInt8 :=
  let buffer := discardByte buffer
  let (errorCode, buffer) := readUint16 buffer
  let (reasonPhraseLength, buffer) := readVarIntField buffer
  let (reasonPhrase, buffer) := readReasonPhrase reasonPhraseLength buffer
  (⟨errorCode, reasonPhraseLength, reasonPhrase⟩, buffer)

structure NewFrame where
  frame : Except String (Option Frame)
  buffer : List UInt8
  conn : Connection

def NewFrame.plain (conn : Connection) (frame : α → Frame) (res : α × List UInt8) :
    Option NewFrame :=
  some ⟨.ok (some (frame res.1)), res.2, conn⟩

def NewFrame.stream (res : Option (StreamFrame × List UInt8 × Connection)) : Option NewFrame := do
  let (frame, buffer, conn) ← res
  return ⟨.ok (some (.stream frame)), buffer, conn⟩

def newFrame (buffer : List UInt8) (conn : Connection) : Option NewFrame :=
  match buffer with
  | [] => some ⟨.ok none, [], conn⟩
  | typeByte :: _ =>
    let frameType := typeByte.toNat
    if frameType = FrameType.padding then
      some ⟨.ok (some .padding), discardByte buffer, conn⟩
    else if frameType = FrameType.ping then
      some ⟨.ok (some .ping), discardByte buffer, conn⟩
    else if frameType = FrameType.ack then
      NewFrame.plain conn .ack (readAckFrame buffer)
    else if frameType = FrameType.ackECN then
      NewFrame.plain conn .ackECN (readAckECNFrame buffer)
    else if frameType = FrameType.resetStream then
      NewFrame.plain conn .resetStream (newResetStream buffer)
    else if frameType = FrameType.stopSending then
      NewFrame.plain conn .stopSending (newStopSendingFrame buffer)
    else if frameType = FrameType.crypto then
      NewFrame.plain conn .crypto (readCryptoFrame buffer)
    else if frameType = FrameType.newToken then
      NewFrame.plain conn .newToken (readNewTokenFrame buffer)
    else if frameType &&& FrameType.stream = FrameType.stream ∧ frameType ≤ 0x0f then
      NewFrame.stream (readStreamFrame buffer conn)
    else if frameType = FrameType.maxData then
      NewFrame.plain conn .maxData (newMaxDataFrame buffer)
    else if frameType = FrameType.maxStreamData then
      NewFrame.plain conn .maxStreamData (newMaxStreamDataFrame buffer)
    else if frameType &&& 0xFE = FrameType.maxStreams then
      NewFrame.plain conn .maxStreams (newMaxStreamIdFrame buffer)
    else if frameType = FrameType.dataBlocked then
      NewFrame.plain conn .dataBlocked (newBlockedFrame buffer)
    else if frameType = FrameType.streamDataBlocked then
      NewFrame.plain conn .streamDataBlocked (newStreamBlockedFrame buffer)
    else if frameType &&& 0xFE = FrameType.streamsBlocked then
      NewFrame.plain conn .streamsBlocked (newStreamIdNeededFrame buffer)
    else if frameType = FrameType.newConnectionId then
      NewFrame.plain conn .newConnectionId (newNewConnectionIdFrame buffer)
    else if frameType = FrameType.retireConnectionId then
      NewFrame.plain conn .retireConnectionId (readRetireConnectionId buffer)
    else if frameType = FrameType.pathChallenge then
      NewFrame.plain conn .pathChallenge (readPathChallenge buffer)
    else if frameType = FrameType.pathResponse then
      NewFrame.plain conn .pathResponse (readPathResponse buffer)
    else if frameType = FrameType.connectionClose then
      NewFrame.plain conn .connectionClose (newConnectionCloseFrame buffer)
    else if frameType = FrameType.applicationClose then
      NewFrame.plain conn .applicationClose (newApplicationCloseFrame buffer)
    else
      some ⟨.error s!"Unknown frame type {typeByte}", buffer, conn⟩

def encodePayload (frames : List Frame) : Option (List UInt8) :=
  frames.foldlM (fun buffer frame => frame.writeTo buffer) []

/-- Every round of the loop in the packet readers consumes a byte, so `fuel` bounds the rounds. -/
def readFrames (fuel : Nat) (buffer : List UInt8) (conn : Connection) :
    Option (List Frame × List UInt8 × Connection) :=
  match fuel with
  | 0 => none
  | fuel + 1 => do
    let res ← newFrame buffer conn
    match res.frame with
    | .error _ => none
    | .ok none => return ([], res.buffer, res.conn)
    | .ok (some frame) =>
      let (frames, buffer, conn) ← readFrames fuel res.buffer res.conn
      return (frame :: frames, buffer, conn)

end QuicTracker
