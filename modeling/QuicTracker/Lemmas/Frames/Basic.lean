import QuicTracker.Impl.Frames.Read
import QuicTracker.Lemmas.Common
import QuicTracker.Lemmas.Streams

/-!
This module contains the round trip of every frame through its own encoder and decoder.
-/

namespace QuicTracker

open ByteReader

theorem writeVarInt_of_lt {i : Nat} (h : i < 2 ^ 62) (buffer : List UInt8)
    : writeVarInt buffer i = some (buffer ++ varIntBytes i) := by
  unfold writeVarInt
  rw [encodeVarInt_of_lt h]
  rfl

theorem readVarIntField_append {i : Nat} (h : i < 2 ^ 62) (rest : List UInt8)
    : readVarIntField (varIntBytes i ++ rest) = (i, rest) := by
  unfold readVarIntField
  rw [readVarIntValue_varIntBytes h]
  rfl

theorem readVarIntField_lt (buffer : List UInt8) : (readVarIntField buffer).1 < 2 ^ 62 := by
  unfold readVarIntField
  dsimp only
  cases h : (readVarIntValue buffer).1 with
  | none => simp
  | some i => exact readVarIntValue_lt h

theorem length_readVarIntField_le (buffer : List UInt8)
    : (readVarIntField buffer).2.length ≤ buffer.length := by
  unfold readVarIntField
  cases readVarIntValue_cases buffer with
  | inl h => simp [h]
  | inr h =>
    rcases h with ⟨bytes, i, rest, hb, hvar⟩
    rw [hb]
    rw [hvar rest]
    simp

theorem readUint16_append {i : Nat} (h : i < 2 ^ 16) (rest : List UInt8)
    : readUint16 (beBytes 2 i ++ rest) = (i, rest) := by
  unfold readUint16
  rw [readFull_append _ _ (length_beBytes 2 i)]
  dsimp
  rw [beNat_beBytes_of_lt h]

theorem readArray_append {n : Nat} (data : Vector UInt8 n) (rest : List UInt8)
    : readArray n (data.toList ++ rest) = (data, rest) := by
  have hread := readInto_append data.toList rest (by simp : data.toList.length = n)
  unfold readArray
  apply Prod.ext
  . apply Vector.toArray_inj.mp
    simp only [hread]
    apply Array.toArray_toList
  . simp

theorem readFullArray_append {n : Nat} (data : Vector UInt8 n) (rest : List UInt8)
    : readFullArray n (data.toList ++ rest) = (data, rest) := by
  unfold readFullArray
  rw [if_pos (by simp)]
  apply readArray_append

theorem varIntBytes_frameType {t : Nat} (h : t < 64) (rest : List UInt8)
    : varIntBytes t ++ rest = UInt8.ofNat t :: rest := by
  rw [varIntBytes_of_lt_64 h]
  rfl

theorem writeVarInt_frameType {t : Nat} (h : t < 64) (buffer : List UInt8)
    : writeVarInt buffer t = some (buffer ++ [UInt8.ofNat t]) := by
  rw [writeVarInt_of_lt (by omega)]
  rw [varIntBytes_of_lt_64 h]

theorem readVarIntValue_frameType {t : Nat} (h : t < 64) (rest : List UInt8)
    : readVarIntValue (UInt8.ofNat t :: rest) = (some t, rest) := by
  rw [← varIntBytes_frameType h]
  apply readVarIntValue_varIntBytes
  omega

namespace AckFrame

structure WellFormed (f : AckFrame) : Prop where
  largestAcknowledged_lt : f.largestAcknowledged < 2 ^ 62
  ackDelay_lt : f.ackDelay < 2 ^ 62
  ackBlockCount_lt : f.ackBlockCount < 2 ^ 62
  ackBlocks_lt : ∀ b ∈ f.ackBlocks, b.gap < 2 ^ 62 ∧ b.block < 2 ^ 62
  ackBlocks_length : f.ackBlocks.length = f.ackBlockCount + 1
  first_gap : ∀ b ∈ f.ackBlocks.head?, b.gap = 0

def blockBytes (blocks : List AckBlock) : List UInt8 :=
  blocks.flatMap (fun b => varIntBytes b.gap ++ varIntBytes b.block)

def bytes (f : AckFrame) : List UInt8 :=
  varIntBytes FrameType.ack ++ varIntBytes f.largestAcknowledged ++ varIntBytes f.ackDelay ++
    varIntBytes f.ackBlockCount ++
    match f.ackBlocks with
    | [] => []
    | first :: blocks => varIntBytes first.block ++ blockBytes blocks

theorem writeBlocks_eq (blocks : List AckBlock)
    (h : ∀ b ∈ blocks, b.gap < 2 ^ 62 ∧ b.block < 2 ^ 62) (buffer : List UInt8)
    : writeBlocks blocks buffer = some (buffer ++ blockBytes blocks) := by
  induction blocks generalizing buffer with
  | nil => simp [writeBlocks, blockBytes]
  | cons b blocks ih =>
    have hb := h b (by simp)
    unfold writeBlocks
    rw [writeVarInt_of_lt hb.1]
    dsimp
    rw [writeVarInt_of_lt hb.2]
    dsimp
    rw [ih]
    . simp [blockBytes]
    . intro b' hb'
      apply h
      simp [hb']

theorem readAckBlocks_append (blocks : List AckBlock)
    (h : ∀ b ∈ blocks, b.gap < 2 ^ 62 ∧ b.block < 2 ^ 62) (rest : List UInt8)
    : readAckBlocks blocks.length (blockBytes blocks ++ rest) = (blocks, rest) := by
  induction blocks with
  | nil => rfl
  | cons b blocks ih =>
    have hb := h b (by simp)
    have hbytes : blockBytes (b :: blocks) ++ rest
        = varIntBytes b.gap ++ (varIntBytes b.block ++ (blockBytes blocks ++ rest)) := by
      simp [blockBytes]
    rw [hbytes]
    rw [List.length_cons]
    unfold readAckBlocks
    rw [readVarIntField_append hb.1]
    dsimp
    rw [readVarIntField_append hb.2]
    dsimp
    rw [ih]
    intro b' hb'
    apply h
    simp [hb']

theorem writeTo_eq (f : AckFrame) (h : f.WellFormed) (buffer : List UInt8)
    : f.writeTo buffer = some (buffer ++ f.bytes) := by
  have hblocks := h.ackBlocks_lt
  unfold writeTo bytes frameType
  rw [writeVarInt_of_lt (by decide)]
  dsimp
  rw [writeVarInt_of_lt h.largestAcknowledged_lt]
  dsimp
  rw [writeVarInt_of_lt h.ackDelay_lt]
  dsimp
  rw [writeVarInt_of_lt h.ackBlockCount_lt]
  dsimp
  generalize f.ackBlocks = l at hblocks
  cases l with
  | nil => simp
  | cons first blocks =>
    dsimp
    rw [writeVarInt_of_lt (hblocks first (by simp)).2]
    dsimp
    rw [writeBlocks_eq]
    . simp
    . intro b hb
      apply hblocks
      simp [hb]

theorem readAckFrame_append (f : AckFrame) (h : f.WellFormed) (rest : List UInt8)
    : readAckFrame (f.bytes ++ rest) = (f, rest) := by
  rcases f with ⟨largest, delay, count, blocks⟩
  rcases h with ⟨hlargest, hdelay, hcount, hblocks, hlen, hgap⟩
  dsimp at *
  cases blocks with
  | nil => simp at hlen
  | cons first blocks =>
    have hcount' : count = blocks.length := by simpa using hlen.symm
    have hfirst : first = ⟨0, first.block⟩ := by
      rcases first with ⟨gap, block⟩
      simpa using hgap
    have hbytes : bytes ⟨largest, delay, count, first :: blocks⟩ ++ rest
        = UInt8.ofNat FrameType.ack :: (varIntBytes largest ++ (varIntBytes delay ++
          (varIntBytes count ++ (varIntBytes first.block ++ (blockBytes blocks ++ rest))))) := by
      rw [← varIntBytes_frameType (by decide)]
      simp [bytes]
    rw [hbytes]
    have hlist : readAckBlocks count (blockBytes blocks ++ rest) = (blocks, rest) := by
      rw [hcount']
      apply readAckBlocks_append
      intro b hb
      apply hblocks
      simp [hb]
    simp only [readAckFrame, discardByte, readByte_cons, readPacketNumber,
      readVarIntValue_varIntBytes hlargest, Option.getD_some, readVarIntField_append hdelay,
      readVarIntField_append hcount, readVarIntField_append (hblocks first (by simp)).2, hlist]
    rw [← hfirst]

end AckFrame

theorem writeOne_eq {t v : Nat} (ht : t < 64) (hv : v < 2 ^ 62) (buffer : List UInt8)
    : writeOne t v buffer = some (buffer ++ (UInt8.ofNat t :: varIntBytes v)) := by
  unfold writeOne
  rw [writeVarInt_frameType ht]
  dsimp
  rw [writeVarInt_of_lt hv]
  simp

theorem readOne_append {v : Nat} (hv : v < 2 ^ 62) (t : UInt8) (rest : List UInt8)
    : readOne (t :: (varIntBytes v ++ rest)) = (v, rest) := by
  unfold readOne discardByte
  rw [readByte_cons]
  apply readVarIntField_append hv

theorem writeTwo_eq {t v w : Nat} (ht : t < 64) (hv : v < 2 ^ 62) (hw : w < 2 ^ 62)
    (buffer : List UInt8)
    : writeTwo t v w buffer = some (buffer ++ (UInt8.ofNat t :: (varIntBytes v ++ varIntBytes w))) := by
  unfold writeTwo
  rw [writeVarInt_frameType ht]
  dsimp
  rw [writeVarInt_of_lt hv]
  dsimp
  rw [writeVarInt_of_lt hw]
  simp

theorem readTwo_append {v w : Nat} (hv : v < 2 ^ 62) (hw : w < 2 ^ 62) (t : UInt8)
    (rest : List UInt8)
    : readTwo (t :: (varIntBytes v ++ (varIntBytes w ++ rest))) = ((v, w), rest) := by
  simp only [readTwo, discardByte, readByte_cons, readVarIntField_append hv,
    readVarIntField_append hw]

theorem writePath_eq {t : Nat} (ht : t < 64) (data : Vector UInt8 8) (buffer : List UInt8)
    : writePath t data buffer = some (buffer ++ (UInt8.ofNat t :: data.toList)) := by
  unfold writePath
  rw [writeVarInt_frameType ht]
  simp

theorem writeReasonPhrase_eq {length : Nat} {phrase : List UInt8} (hlen : phrase.length = length)
    (h : length < 2 ^ 62) (buffer : List UInt8)
    : writeReasonPhrase length phrase buffer = some (buffer ++ (varIntBytes length ++ phrase)) := by
  unfold writeReasonPhrase
  rw [writeVarInt_of_lt h]
  cases phrase with
  | nil => simp [← hlen]
  | cons b phrase => simp [← hlen]

theorem readReasonPhrase_append {length : Nat} {phrase : List UInt8}
    (hlen : phrase.length = length) (rest : List UInt8)
    : readReasonPhrase length (phrase ++ rest) = (phrase, rest) := by
  unfold readReasonPhrase
  rw [readFull_append _ _ hlen]
  cases phrase with
  | nil => simp [← hlen]
  | cons b phrase => simp [← hlen]

namespace ResetStream

structure WellFormed (f : ResetStream) : Prop where
  streamId_lt : f.streamId < 2 ^ 62
  applicationErrorCode_lt : f.applicationErrorCode < 2 ^ 16
  finalOffset_lt : f.finalOffset < 2 ^ 62

def bytes (f : ResetStream) : List UInt8 :=
  UInt8.ofNat FrameType.resetStream ::
    (varIntBytes f.streamId ++ (beBytes 2 f.applicationErrorCode ++ varIntBytes f.finalOffset))

theorem writeTo_eq (f : ResetStream) (h : f.WellFormed) (buffer : List UInt8)
    : f.writeTo buffer = some (buffer ++ f.bytes) := by
  simp [writeTo, bytes, frameType, writeVarInt_frameType, FrameType.resetStream,
    writeVarInt_of_lt h.streamId_lt, writeVarInt_of_lt h.finalOffset_lt]

theorem newResetStream_append (f : ResetStream) (h : f.WellFormed) (rest : List UInt8)
    : newResetStream (f.bytes ++ rest) = (f, rest) := by
  simp only [newResetStream, bytes, List.cons_append, List.append_assoc, discardByte,
    readByte_cons, readVarIntField_append h.streamId_lt,
    readUint16_append h.applicationErrorCode_lt, readVarIntField_append h.finalOffset_lt]

end ResetStream

namespace StopSendingFrame

structure WellFormed (f : StopSendingFrame) : Prop where
  streamId_lt : f.streamId < 2 ^ 62
  applicationErrorCode_lt : f.applicationErrorCode < 2 ^ 16

def bytes (f : StopSendingFrame) : List UInt8 :=
  UInt8.ofNat FrameType.stopSending ::
    (varIntBytes f.streamId ++ beBytes 2 f.applicationErrorCode)

theorem writeTo_eq (f : StopSendingFrame) (h : f.WellFormed) (buffer : List UInt8)
    : f.writeTo buffer = some (buffer ++ f.bytes) := by
  simp [writeTo, bytes, frameType, writeVarInt_frameType, FrameType.stopSending,
    writeVarInt_of_lt h.streamId_lt]

theorem newStopSendingFrame_append (f : StopSendingFrame) (h : f.WellFormed) (rest : List UInt8)
    : newStopSendingFrame (f.bytes ++ rest) = (f, rest) := by
  simp only [newStopSendingFrame, bytes, List.cons_append, List.append_assoc, discardByte,
    readByte_cons, readVarIntField_append h.streamId_lt,
    readUint16_append h.applicationErrorCode_lt]

end StopSendingFrame

namespace CryptoFrame

structure WellFormed (f : CryptoFrame) : Prop where
  offset_lt : f.offset < 2 ^ 62
  length_lt : f.length < 2 ^ 62
  length_eq : f.cryptoData.length = f.length

def bytes (f : CryptoFrame) : List UInt8 :=
  UInt8.ofNat FrameType.crypto ::
    (varIntBytes f.offset ++ (varIntBytes f.length ++ f.cryptoData))

theorem writeTo_eq (f : CryptoFrame) (h : f.WellFormed) (buffer : List UInt8)
    : f.writeTo buffer = some (buffer ++ f.bytes) := by
  simp [writeTo, bytes, frameType, writeVarInt_frameType, FrameType.crypto,
    writeVarInt_of_lt h.offset_lt, writeVarInt_of_lt h.length_lt]

theorem readCryptoFrame_append (f : CryptoFrame) (h : f.WellFormed) (rest : List UInt8)
    : readCryptoFrame (f.bytes ++ rest) = (f, rest) := by
  simp only [readCryptoFrame, bytes, List.cons_append, List.append_assoc,
    readVarIntValue_frameType (by decide : FrameType.crypto < 64),
    readVarIntField_append h.offset_lt, readVarIntField_append h.length_lt,
    readInto_append _ _ h.length_eq]

end CryptoFrame

namespace NewTokenFrame

structure WellFormed (f : NewTokenFrame) : Prop where
  length_lt : f.token.length < 2 ^ 62

def bytes (f : NewTokenFrame) : List UInt8 :=
  UInt8.ofNat FrameType.newToken :: (varIntBytes f.token.length ++ f.token)

theorem writeTo_eq (f : NewTokenFrame) (h : f.WellFormed) (buffer : List UInt8)
    : f.writeTo buffer = some (buffer ++ f.bytes) := by
  simp [writeTo, bytes, frameType, writeVarInt_frameType, FrameType.newToken,
    writeVarInt_of_lt h.length_lt]

theorem readNewTokenFrame_append (f : NewTokenFrame) (h : f.WellFormed) (rest : List UInt8)
    : readNewTokenFrame (f.bytes ++ rest) = (f, rest) := by
  simp only [readNewTokenFrame, bytes, List.cons_append, List.append_assoc,
    readVarIntValue_frameType (by decide : FrameType.newToken < 64),
    readVarIntField_append h.length_lt, readInto_append f.token rest rfl]

end NewTokenFrame

namespace StreamFrame

structure WellFormed (f : StreamFrame) : Prop where
  streamId_lt : f.streamId < 2 ^ 62
  fits : f.Fits
  offset_eq : f.offBit = false → f.offset = 0

def bytes (f : StreamFrame) : List UInt8 :=
  UInt8.ofNat f.typeByte ::
    (varIntBytes f.streamId ++ ((if f.offBit then varIntBytes f.offset else []) ++
      ((if f.lenBit then varIntBytes f.length else []) ++ f.streamData)))

theorem typeByte_bounds (f : StreamFrame)
    : FrameType.stream ≤ f.typeByte ∧ f.typeByte < 0x10 := by
  unfold typeByte frameType
  cases f.finBit <;> cases f.lenBit <;> cases f.offBit <;> decide

theorem typeByte_flags (f : StreamFrame)
    : (UInt8.ofNat f.typeByte &&& 0x01 = 0x01 ↔ f.finBit) ∧
      (UInt8.ofNat f.typeByte &&& 0x02 = 0x02 ↔ f.lenBit) ∧
      (UInt8.ofNat f.typeByte &&& 0x04 = 0x04 ↔ f.offBit) := by
  unfold typeByte frameType
  cases f.finBit <;> cases f.lenBit <;> cases f.offBit <;> decide

theorem writeTo_eq (f : StreamFrame) (h : f.WellFormed) (buffer : List UInt8)
    : f.writeTo buffer = some (buffer ++ f.bytes) := by
  have htype := f.typeByte_bounds
  unfold writeTo bytes
  rw [writeVarInt_frameType (by omega)]
  dsimp
  rw [writeVarInt_of_lt h.streamId_lt]
  dsimp
  cases f.offBit <;> cases f.lenBit <;>
    simp [writeVarInt_of_lt h.fits.offset_lt, writeVarInt_of_lt h.fits.length_lt]

theorem readOffset_append (f : StreamFrame) (h : f.WellFormed) (tail : List UInt8)
    : (if f.offBit then
        readVarIntField ((if f.offBit then varIntBytes f.offset else []) ++ tail)
      else
        (0, (if f.offBit then varIntBytes f.offset else []) ++ tail)) = (f.offset, tail) := by
  cases hoff : f.offBit with
  | false => simp [h.offset_eq hoff]
  | true => simp [readVarIntField_append h.fits.offset_lt]

theorem readLength_append (f : StreamFrame) (h : f.WellFormed) (rest : List UInt8)
    (hlast : f.lenBit = false → rest = [])
    : (if f.lenBit then
        readVarIntField ((if f.lenBit then varIntBytes f.length else []) ++ (f.streamData ++ rest))
      else
        (((if f.lenBit then varIntBytes f.length else []) ++ (f.streamData ++ rest)).length,
          (if f.lenBit then varIntBytes f.length else []) ++ (f.streamData ++ rest)))
      = (f.length, f.streamData ++ rest) := by
  cases hlen : f.lenBit with
  | false => simp [hlast hlen, h.fits.length_eq]
  | true => simp [readVarIntField_append h.fits.length_lt]

theorem parseStreamFrame_append (f : StreamFrame) (h : f.WellFormed) (rest : List UInt8)
    (hlast : f.lenBit = false → rest = [])
    : parseStreamFrame (f.bytes ++ rest) = (f, rest) := by
  obtain ⟨hfin, hlen, hoff⟩ := f.typeByte_flags
  simp only [parseStreamFrame, bytes, List.cons_append, List.append_assoc, readByte_cons,
    Option.getD_some, readVarIntField_append h.streamId_lt, hfin, hlen, hoff,
    readOffset_append f h, readLength_append f h rest hlast,
    readInto_append _ _ h.fits.length_eq.symm, Bool.decide_eq_true]

end StreamFrame

namespace NewConnectionIdFrame

structure WellFormed (f : NewConnectionIdFrame) : Prop where
  sequence_lt : f.sequence < 2 ^ 62
  length_eq : f.connectionId.length = f.length.toNat

def bytes (f : NewConnectionIdFrame) : List UInt8 :=
  UInt8.ofNat FrameType.newConnectionId ::
    (varIntBytes f.sequence ++
      (f.length :: (f.connectionId ++ f.statelessResetToken.toList)))

theorem writeTo_eq (f : NewConnectionIdFrame) (h : f.WellFormed) (buffer : List UInt8)
    : f.writeTo buffer = some (buffer ++ f.bytes) := by
  simp [writeTo, bytes, frameType, writeVarInt_frameType, FrameType.newConnectionId,
    writeVarInt_of_lt h.sequence_lt]

theorem newNewConnectionIdFrame_append (f : NewConnectionIdFrame) (h : f.WellFormed)
    (rest : List UInt8)
    : newNewConnectionIdFrame (f.bytes ++ rest) = (f, rest) := by
  simp only [newNewConnectionIdFrame, bytes, List.cons_append, List.append_assoc, discardByte,
    readByte_cons, readVarIntField_append h.sequence_lt, Option.getD_some,
    readInto_append _ _ h.length_eq, readFullArray_append]

end NewConnectionIdFrame

namespace ConnectionCloseFrame

structure WellFormed (f : ConnectionCloseFrame) : Prop where
  errorCode_lt : f.errorCode < 2 ^ 16
  errorFrameType_lt : f.errorFrameType < 2 ^ 62
  reasonPhraseLength_lt : f.reasonPhraseLength < 2 ^ 62
  reasonPhrase_length : f.reasonPhrase.length = f.reasonPhraseLength

def bytes (f : ConnectionCloseFrame) : List UInt8 :=
  UInt8.ofNat FrameType.connectionClose ::
    (beBytes 2 f.errorCode ++ (varIntBytes f.errorFrameType ++
      (varIntBytes f.reasonPhraseLength ++ f.reasonPhrase)))

theorem writeTo_eq (f : ConnectionCloseFrame) (h : f.WellFormed) (buffer : List UInt8)
    : f.writeTo buffer = some (buffer ++ f.bytes) := by
  simp [writeTo, bytes, frameType, writeVarInt_frameType, FrameType.connectionClose,
    writeVarInt_of_lt h.errorFrameType_lt,
    writeReasonPhrase_eq h.reasonPhrase_length h.reasonPhraseLength_lt]

theorem newConnectionCloseFrame_append (f : ConnectionCloseFrame) (h : f.WellFormed)
    (rest : List UInt8)
    : newConnectionCloseFrame (f.bytes ++ rest) = (f, rest) := by
  simp only [newConnectionCloseFrame, bytes, List.cons_append, List.append_assoc, discardByte,
    readByte_cons, readUint16_append h.errorCode_lt, readVarIntField_append h.errorFrameType_lt,
    readVarIntField_append h.reasonPhraseLength_lt, readReasonPhrase_append h.reasonPhrase_length]

end ConnectionCloseFrame

namespace ApplicationCloseFrame

structure WellFormed (f : ApplicationCloseFrame) : Prop where
  errorCode_lt : f.errorCode < 2 ^ 16
  reasonPhraseLength_lt : f.reasonPhraseLength < 2 ^ 62
  reasonPhrase_length : f.reasonPhrase.length = f.reasonPhraseLength

def bytes (f : ApplicationCloseFrame) : List UInt8 :=
  UInt8.ofNat FrameType.applicationClose ::
    (beBytes 2 f.errorCode ++ (varIntBytes f.reasonPhraseLength ++ f.reasonPhrase))

theorem writeTo_eq (f : ApplicationCloseFrame) (h : f.WellFormed) (buffer : List UInt8)
    : f.writeTo buffer = some (buffer ++ f.bytes) := by
  simp [writeTo, bytes, frameType, writeVarInt_frameType, FrameType.applicationClose,
    writeReasonPhrase_eq h.reasonPhrase_length h.reasonPhraseLength_lt]

theorem newApplicationCloseFrame_append (f : ApplicationCloseFrame) (h : f.WellFormed)
    (rest : List UInt8)
    : newApplicationCloseFrame (f.bytes ++ rest) = (f, rest) := by
  simp only [newApplicationCloseFrame, bytes, List.cons_append, List.append_assoc, discardByte,
    readByte_cons, readUint16_append h.errorCode_lt,
    readVarIntField_append h.reasonPhraseLength_lt, readReasonPhrase_append h.reasonPhrase_length]

end ApplicationCloseFrame

end QuicTracker
