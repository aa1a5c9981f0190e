import QuicTracker.Lemmas.Frames.Basic

/-!
This module contains the round trip of a frame through `NewFrame` and of a list of frames through the
payload of a packet.
-/

namespace QuicTracker

open ByteReader

structure AckECNFrame.WellFormed (f : AckECNFrame) : Prop where
  ack : f.toAckFrame.WellFormed
  ect0Count_lt : f.ect0Count < 2 ^ 62
  ect1Count_lt : f.ect1Count < 2 ^ 62
  ectCECount_lt : f.ectCECount < 2 ^ 62

def AckECNFrame.counterBytes (f : AckECNFrame) : List UInt8 :=
  varIntBytes f.ect0Count ++ (varIntBytes f.ect1Count ++ varIntBytes f.ectCECount)

theorem AckECNFrame.writeTo_eq (f : AckECNFrame) (h : f.WellFormed) (buffer : List UInt8)
    : f.writeTo buffer = some (buffer ++ (f.toAckFrame.bytes ++ f.counterBytes)) := by
  simp [writeTo, counterBytes, f.toAckFrame.writeTo_eq h.ack, writeVarInt_of_lt h.ect0Count_lt,
    writeVarInt_of_lt h.ect1Count_lt, writeVarInt_of_lt h.ectCECount_lt]

namespace Frame

def WellFormed (frame : Frame) : Prop :=
  match frame with
  | .padding => True
  | .ping => True
  | .ack f => f.WellFormed
  | .ackECN f => f.WellFormed
  | .resetStream f => f.WellFormed
  | .stopSending f => f.WellFormed
  | .crypto f => f.WellFormed
  | .newToken f => f.WellFormed
  | .stream f => f.WellFormed
  | .maxData f => f.maximumData < 2 ^ 62
  | .maxStreamData f => f.streamId < 2 ^ 62 ∧ f.maximumStreamData < 2 ^ 62
  | .maxStreams f => f.maximumStreams < 2 ^ 62
  | .dataBlocked f => f.dataLimit < 2 ^ 62
  | .streamDataBlocked f => f.streamId < 2 ^ 62 ∧ f.streamDataLimit < 2 ^ 62
  | .streamsBlocked f => f.streamLimit < 2 ^ 62
  | .newConnectionId f => f.WellFormed
  | .retireConnectionId f => f.sequenceNumber < 2 ^ 62
  | .pathChallenge _ => True
  | .pathResponse _ => True
  | .connectionClose f => f.WellFormed
  | .applicationClose f => f.WellFormed

def bytes (frame : Frame) : List UInt8 :=
  match frame with
  | .padding => [UInt8.ofNat FrameType.padding]
  | .ping => [UInt8.ofNat FrameType.ping]
  | .ack f => f.bytes
  | .ackECN f => f.toAckFrame.bytes ++ f.counterBytes
  | .resetStream f => f.bytes
  | .stopSending f => f.bytes
  | .crypto f => f.bytes
  | .newToken f => f.bytes
  | .stream f => f.bytes
  | .maxData f => UInt8.ofNat FrameType.maxData :: varIntBytes f.maximumData
  | .maxStreamData f => UInt8.ofNat FrameType.maxStreamData ::
      (varIntBytes f.streamId ++ varIntBytes f.maximumStreamData)
  | .maxStreams f => UInt8.ofNat f.frameType :: varIntBytes f.maximumStreams
  | .dataBlocked f => UInt8.ofNat FrameType.dataBlocked :: varIntBytes f.dataLimit
  | .streamDataBlocked f => UInt8.ofNat FrameType.streamDataBlocked ::
      (varIntBytes f.streamId ++ varIntBytes f.streamDataLimit)
  | .streamsBlocked f => UInt8.ofNat f.frameType :: varIntBytes f.streamLimit
  | .newConnectionId f => f.bytes
  | .retireConnectionId f =>
      UInt8.ofNat FrameType.retireConnectionId :: varIntBytes f.sequenceNumber
  | .pathChallenge f => UInt8.ofNat FrameType.pathChallenge :: f.data.toList
  | .pathResponse f => UInt8.ofNat FrameType.pathResponse :: f.data.toList
  | .connectionClose f => f.bytes
  | .applicationClose f => f.bytes

theorem frameType_lt (frame : Frame) : frame.frameType < 64 := by
  cases frame with
  | maxStreams f => cases h : f.streamsType <;> simp [frameType, MaxStreamsFrame.frameType, h] <;> decide
  | streamsBlocked f =>
    cases h : f.streamsType <;> simp [frameType, StreamsBlockedFrame.frameType, h] <;> decide
  | _ => exact Nat.le_of_ble_eq_true rfl

theorem writeTo_eq (frame : Frame) (h : frame.WellFormed) (buffer : List UInt8)
    : frame.writeTo buffer = some (buffer ++ frame.bytes) := by
  cases frame with
  | padding => apply writeVarInt_frameType (by decide)
  | ping => apply writeVarInt_frameType (by decide)
  | ack f => apply f.writeTo_eq h
  | ackECN f => apply f.writeTo_eq h
  | resetStream f => apply f.writeTo_eq h
  | stopSending f => apply f.writeTo_eq h
  | crypto f => apply f.writeTo_eq h
  | newToken f => apply f.writeTo_eq h
  | stream f => apply f.writeTo_eq h
  | maxData f => apply writeOne_eq (frameType_lt (.maxData f)) h
  | maxStreamData f => apply writeTwo_eq (frameType_lt (.maxStreamData f)) h.1 h.2
  | maxStreams f => apply writeOne_eq (frameType_lt (.maxStreams f)) h
  | dataBlocked f => apply writeOne_eq (frameType_lt (.dataBlocked f)) h
  | streamDataBlocked f => apply writeTwo_eq (frameType_lt (.streamDataBlocked f)) h.1 h.2
  | streamsBlocked f => apply writeOne_eq (frameType_lt (.streamsBlocked f)) h
  | newConnectionId f => apply f.writeTo_eq h
  | retireConnectionId f => apply writeOne_eq (frameType_lt (.retireConnectionId f)) h
  | pathChallenge f => apply writePath_eq (frameType_lt (.pathChallenge f))
  | pathResponse f => apply writePath_eq (frameType_lt (.pathResponse f))
  | connectionClose f => apply f.writeTo_eq h
  | applicationClose f => apply f.writeTo_eq h

/-- The encoder of a frame of these types is matched by the decoder that `NewFrame` selects. -/
def Symmetric (frame : Frame) : Prop :=
  match frame with
  | .ackECN _ => False
  | .maxStreams _ => False
  | .streamsBlocked _ => False
  | _ => True

def EndsPayload (frame : Frame) : Prop :=
  match frame with
  | .stream f => f.lenBit = false
  | _ => False

end Frame

theorem Streams.get_update (streams : Streams) (streamId : Nat) (stream : Stream) (id : Nat)
    : Streams.get (Function.update streams streamId (some stream)) id
        = if id = streamId then stream else streams.get id := by
  unfold Streams.get
  by_cases h : id = streamId
  . rw [h, Function.update_self, if_pos rfl]
  . rw [Function.update_of_ne h, if_neg h]

def Connection.StreamsShaped (conn : Connection) : Prop :=
  ∀ streamId, (conn.streams.get streamId).Shape

theorem Connection.StreamsShaped.setStream {conn : Connection} (h : conn.StreamsShaped)
    {stream : Stream} (hs : stream.Shape) (streamId : Nat)
    : (conn.setStream streamId stream).StreamsShaped := by
  intro i
  unfold Connection.setStream
  rw [Streams.get_update]
  split
  . exact hs
  . exact h i

theorem length_readByte_le (buffer : List UInt8) : (readByte buffer).2.length ≤ buffer.length := by
  cases buffer with
  | nil => simp
  | cons b buffer => simp

theorem fits_parseStreamFrame {buffer : List UInt8} (h : buffer.length < 2 ^ 62)
    : (parseStreamFrame buffer).1.Fits := by
  have htype := length_readByte_le buffer
  have hid := length_readVarIntField_le (readByte buffer).2
  unfold parseStreamFrame
  refine ⟨?_, ?_, ?_⟩
  . simp
  . dsimp only
    split
    . apply readVarIntField_lt
    . simp
  . dsimp only
    split
    . apply readVarIntField_lt
    . split
      . have := length_readVarIntField_le (readVarIntField (readByte buffer).2).2
        omega
      . dsimp only
        omega

theorem readStreamFrame_append (f : StreamFrame) (h : f.WellFormed) (rest : List UInt8)
    (hlast : f.lenBit = false → rest = []) (conn : Connection) (hconn : conn.StreamsShaped)
    : ∃ conn', conn'.StreamsShaped ∧
        readStreamFrame (f.bytes ++ rest) conn = some (f, rest, conn') := by
  rcases (hconn f.streamId).step h.fits with ⟨stream, hadd, hshape, _⟩
  refine ⟨conn.setStream f.streamId stream, ?_, ?_⟩
  . exact hconn.setStream hshape f.streamId
  . unfold readStreamFrame
    rw [f.parseStreamFrame_append h rest hlast]
    dsimp
    rw [hadd]
    rfl

theorem newFrame_streamType {t : Nat} (hle : FrameType.stream ≤ t) (hlt : t < 0x10)
    (buffer : List UInt8) (conn : Connection)
    : newFrame (UInt8.ofNat t :: buffer) conn
        = NewFrame.stream (readStreamFrame (UInt8.ofNat t :: buffer) conn) := by
  unfold FrameType.stream at hle
  interval_cases t <;> rfl

theorem newFrame_plain {α : Type} {mk : α → Frame} {read : List UInt8 → α × List UInt8}
    {bytes rest : List UInt8} {f : α} {conn : Connection} (hconn : conn.StreamsShaped)
    (htype : newFrame (bytes ++ rest) conn = NewFrame.plain conn mk (read (bytes ++ rest)))
    (hread : read (bytes ++ rest) = (f, rest))
    : ∃ conn', conn'.StreamsShaped ∧
        newFrame (bytes ++ rest) conn = some ⟨.ok (some (mk f)), rest, conn'⟩ := by
  refine ⟨conn, hconn, ?_⟩
  rw [htype]
  rw [hread]
  rfl

theorem newFrame_append (frame : Frame) (h : frame.WellFormed) (hsym : frame.Symmetric)
    (rest : List UInt8) (hlast : frame.EndsPayload → rest = []) (conn : Connection)
    (hconn : conn.StreamsShaped)
    : ∃ conn', conn'.StreamsShaped ∧
        newFrame (frame.bytes ++ rest) conn = some ⟨.ok (some frame), rest, conn'⟩ := by
  cases frame with
  | stream f =>
    rcases readStreamFrame_append f h rest hlast conn hconn with ⟨conn', hconn', hread⟩
    refine ⟨conn', hconn', ?_⟩
    have hbounds := f.typeByte_bounds
    calc
      newFrame (f.bytes ++ rest) conn
      _ = NewFrame.stream (readStreamFrame (f.bytes ++ rest) conn) := by
        apply newFrame_streamType hbounds.1 hbounds.2
      _ = some ⟨.ok (some (.stream f)), rest, conn'⟩ := by
        rw [hread]
        rfl
  | ackECN f => exact hsym.elim
  | maxStreams f => exact hsym.elim
  | streamsBlocked f => exact hsym.elim
  | padding => exact ⟨conn, hconn, rfl⟩
  | ping => exact ⟨conn, hconn, rfl⟩
  | ack f => apply newFrame_plain hconn rfl (f.readAckFrame_append h rest)
  | resetStream f => apply newFrame_plain hconn rfl (f.newResetStream_append h rest)
  | stopSending f => apply newFrame_plain hconn rfl (f.newStopSendingFrame_append h rest)
  | crypto f => apply newFrame_plain hconn rfl (f.readCryptoFrame_append h rest)
  | newToken f => apply newFrame_plain hconn rfl (f.readNewTokenFrame_append h rest)
  | newConnectionId f => apply newFrame_plain hconn rfl (f.newNewConnectionIdFrame_append h rest)
  | connectionClose f => apply newFrame_plain hconn rfl (f.newConnectionCloseFrame_append h rest)
  | applicationClose f => apply newFrame_plain hconn rfl (f.newApplicationCloseFrame_append h rest)
  | maxData f =>
    apply newFrame_plain hconn rfl
    simp [Frame.bytes, newMaxDataFrame, readOne_append (v := f.maximumData) h]
  | maxStreamData f =>
    apply newFrame_plain hconn rfl
    simp [Frame.bytes, newMaxStreamDataFrame, readTwo_append (v := f.streamId) h.1 h.2]
  | dataBlocked f =>
    apply newFrame_plain hconn rfl
    simp [Frame.bytes, newBlockedFrame, readOne_append (v := f.dataLimit) h]
  | streamDataBlocked f =>
    apply newFrame_plain hconn rfl
    simp [Frame.bytes, newStreamBlockedFrame, readTwo_append (v := f.streamId) h.1 h.2]
  | retireConnectionId f =>
    apply newFrame_plain hconn rfl
    simp [Frame.bytes, readRetireConnectionId, readOne_append (v := f.sequenceNumber) h]
  | pathChallenge f =>
    apply newFrame_plain hconn rfl
    simp [Frame.bytes, readPathChallenge, discardByte, readArray_append]
  | pathResponse f =>
    apply newFrame_plain hconn rfl
    simp [Frame.bytes, readPathResponse, discardByte, readArray_append]

structure PayloadWellFormed (frames : List Frame) : Prop where
  frame : ∀ frame ∈ frames, frame.WellFormed
  symmetric : ∀ frame ∈ frames, frame.Symmetric
  last : ∀ frame ∈ frames.dropLast, ¬ frame.EndsPayload

theorem PayloadWellFormed.tail {frame : Frame} {frames : List Frame}
    (h : PayloadWellFormed (frame :: frames))
    : PayloadWellFormed frames := by
  refine ⟨?_, ?_, ?_⟩
  . intro g hg
    apply h.frame
    simp [hg]
  . intro g hg
    apply h.symmetric
    simp [hg]
  . intro g hg
    apply h.last
    cases frames with
    | nil => simp at hg
    | cons next frames => simp [hg]

theorem PayloadWellFormed.nil_of_endsPayload {frame : Frame} {frames : List Frame}
    (h : PayloadWellFormed (frame :: frames)) (hends : frame.EndsPayload)
    : frames = [] := by
  cases frames with
  | nil => rfl
  | cons next frames => exact (h.last frame (by simp) hends).elim

theorem encodePayload_go (frames : List Frame) (h : ∀ frame ∈ frames, frame.WellFormed)
    (buffer : List UInt8)
    : frames.foldlM (fun buffer frame => frame.writeTo buffer) buffer
        = some (buffer ++ frames.flatMap Frame.bytes) := by
  induction frames generalizing buffer with
  | nil => simp
  | cons frame frames ih =>
    rw [List.foldlM_cons]
    rw [frame.writeTo_eq (h frame (by simp))]
    dsimp
    rw [ih]
    . simp
    . intro g hg
      apply h
      simp [hg]

theorem encodePayload_eq (frames : List Frame) (h : ∀ frame ∈ frames, frame.WellFormed)
    : encodePayload frames = some (frames.flatMap Frame.bytes) := by
  apply encodePayload_go frames h []

theorem readFrames_flatMap (frames : List Frame) (h : PayloadWellFormed frames)
    (conn : Connection) (hconn : conn.StreamsShaped)
    : ∃ conn', conn'.StreamsShaped ∧ ∀ fuel, frames.length < fuel →
        readFrames fuel (frames.flatMap Frame.bytes) conn = some (frames, [], conn') := by
  induction frames generalizing conn with
  | nil =>
    refine ⟨conn, hconn, ?_⟩
    intro fuel hfuel
    cases fuel with
    | zero => omega
    | succ fuel => rfl
  | cons frame frames ih =>
    have hlast : frame.EndsPayload → frames.flatMap Frame.bytes = [] := by
      intro hends
      rw [h.nil_of_endsPayload hends]
      rfl
    rcases newFrame_append frame (h.frame frame (by simp)) (h.symmetric frame (by simp)) _ hlast conn
      hconn with ⟨conn1, hconn1, hnew⟩
    rcases ih h.tail conn1 hconn1 with ⟨conn2, hconn2, hread⟩
    refine ⟨conn2, hconn2, ?_⟩
    intro fuel hfuel
    cases fuel with
    | zero => omega
    | succ fuel =>
      rw [List.flatMap_cons]
      unfold readFrames
      rw [hnew]
      dsimp
      rw [hread fuel (by simpa using hfuel)]
      rfl

theorem readFrames_encodePayload (frames : List Frame) (h : PayloadWellFormed frames)
    (conn : Connection) (hconn : conn.StreamsShaped)
    : ∃ bytes conn', encodePayload frames = some bytes ∧ ∀ fuel, frames.length < fuel →
        readFrames fuel bytes conn = some (frames, [], conn') := by
  rcases readFrames_flatMap frames h conn hconn with ⟨conn', _, hread⟩
  exact ⟨_, conn', encodePayload_eq frames h.frame, hread⟩

theorem readFrames_encodePayload_ack_stream
    : ∃ bytes conn',
        encodePayload
            [.ack ⟨9, 0, 1, [⟨0, 2⟩, ⟨1, 0⟩]⟩, .stream ⟨true, false, false, 4, 0, 2, [7, 8]⟩]
          = some bytes ∧
        ∀ fuel, 2 < fuel → readFrames fuel bytes {}
          = some ([.ack ⟨9, 0, 1, [⟨0, 2⟩, ⟨1, 0⟩]⟩,
              .stream ⟨true, false, false, 4, 0, 2, [7, 8]⟩], [], conn') := by
  have hack : AckFrame.WellFormed ⟨9, 0, 1, [⟨0, 2⟩, ⟨1, 0⟩]⟩ := by
    constructor <;> simp
  have hstream : StreamFrame.WellFormed ⟨true, false, false, 4, 0, 2, [7, 8]⟩ := by
    refine ⟨by simp, ⟨?_, ?_, ?_⟩, by simp⟩ <;> simp
  apply readFrames_encodePayload
  . constructor
    . simpa [Frame.WellFormed] using ⟨hack, hstream⟩
    . simp [Frame.Symmetric]
    . simp [Frame.EndsPayload]
  . intro streamId
    exact Stream.shape_newStream

end QuicTracker
