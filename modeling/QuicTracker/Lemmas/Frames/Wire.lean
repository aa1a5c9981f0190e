import QuicTracker.Lemmas.Frames.Layout

/-!
This module contains what the decoders return on bytes that may be cut off. A decoded frame is the one
on the wire exactly when none of the fields that its type byte calls for is cut off and the type byte
does not announce a direction.
-/

namespace QuicTracker

open ByteReader

open Wire

def AckFrame.fields (f : AckFrame) (tail : List Field) : List Field :=
  .varInt f.largestAcknowledged :: .varInt f.ackDelay :: .varInt f.ackBlockCount ::
    match f.ackBlocks with
    | [] => tail
    | first :: blocks => .varInt first.block :: (pairFields blocks ++ tail)

def StreamFrame.headFields (f : StreamFrame) : List Field :=
  .varInt f.streamId :: ((if f.offBit then [.varInt f.offset] else []) ++
    (if f.lenBit then [.varInt f.length] else []))

namespace Frame

def typeByte (frame : Frame) : UInt8 :=
  match frame with
  | .stream f => UInt8.ofNat f.typeByte
  | frame => UInt8.ofNat frame.frameType

def fields (frame : Frame) : List Field :=
  match frame with
  | .padding => []
  | .ping => []
  | .ack f => f.fields []
  | .ackECN f => f.toAckFrame.fields [.varInt f.ect0Count, .varInt f.ect1Count, .varInt f.ectCECount]
  | .resetStream f => [.varInt f.streamId, .uint16 f.applicationErrorCode, .varInt f.finalOffset]
  | .stopSending f => [.varInt f.streamId, .uint16 f.applicationErrorCode]
  | .crypto f => [.varInt f.offset, .varInt f.length, .bytes f.cryptoData]
  | .newToken f => [.varInt f.token.length, .bytes f.token]
  | .stream f => f.headFields ++ [.bytes f.streamData]
  | .maxData f => [.varInt f.maximumData]
  | .maxStreamData f => [.varInt f.streamId, .varInt f.maximumStreamData]
  | .maxStreams f => [.varInt f.maximumStreams]
  | .dataBlocked f => [.varInt f.dataLimit]
  | .streamDataBlocked f => [.varInt f.streamId, .varInt f.streamDataLimit]
  | .streamsBlocked f => [.varInt f.streamLimit]
  | .newConnectionId f =>
    [.varInt f.sequence, .bytes [f.length], .bytes f.connectionId,
      .bytes f.statelessResetToken.toList]
  | .retireConnectionId f => [.varInt f.sequenceNumber]
  | .pathChallenge f => [.bytes f.data.toList]
  | .pathResponse f => [.bytes f.data.toList]
  | .connectionClose f =>
    [.uint16 f.errorCode, .varInt f.errorFrameType, .varInt f.reasonPhraseLength,
      .bytes f.reasonPhrase]
  | .applicationClose f =>
    [.uint16 f.errorCode, .varInt f.reasonPhraseLength, .bytes f.reasonPhrase]

/-- There are as many ranges and bytes as the frame declares, and nothing that is not on the wire. -/
def Counted (frame : Frame) : Prop :=
  match frame with
  | .ack f => ∃ first blocks, f.ackBlocks = ⟨0, first⟩ :: blocks ∧ blocks.length = f.ackBlockCount
  | .ackECN f =>
    ∃ first blocks, f.ackBlocks = ⟨0, first⟩ :: blocks ∧ blocks.length = f.ackBlockCount
  | .crypto f => f.cryptoData.length = f.length
  | .stream f => f.streamData.length = f.length ∧ (f.offBit = false → f.offset = 0)
  | .newConnectionId f => f.connectionId.length = f.length.toNat
  | .connectionClose f => f.reasonPhrase.length = f.reasonPhraseLength
  | .applicationClose f => f.reasonPhrase.length = f.reasonPhraseLength
  | _ => True

/-- A complete encoding of the frame, whose integers may take more bytes than they need. -/
def OnWire (frame : Frame) (w : List UInt8) : Prop :=
  ∃ body, w = frame.typeByte :: body ∧ Encoding frame.fields body ∧ frame.Counted

end Frame

theorem StreamFrame.layout_typeByte (f : StreamFrame)
    : layout (UInt8.ofNat f.typeByte) = streamLayout f.offBit f.lenBit := by
  unfold typeByte frameType
  cases f.finBit <;> cases f.lenBit <;> cases f.offBit <;> rfl

theorem StreamFrame.skipAll_layout {f : StreamFrame} (h : f.streamData.length = f.length)
    {w : List UInt8} (hw : Encoding (Frame.stream f).fields w) (rest : List UInt8)
    : (skipAll (layout (UInt8.ofNat f.typeByte)) (w ++ rest)).isSome := by
  rw [f.layout_typeByte]
  unfold streamLayout
  cases hlen : f.lenBit with
  | true =>
    have hshape : Shape (.varInt :: ((if f.offBit then [.varInt] else []) ++ [.counted]))
        (Frame.stream f).fields := by
      simp only [Frame.fields, headFields, hlen]
      cases f.offBit with
      | true => exact .varInt _ (.varInt _ (.counted _ h .nil))
      | false => exact .varInt _ (.counted _ h .nil)
    rw [if_pos rfl]
    rw [skipAll_append hshape hw]
    rfl
  | false =>
    rcases encoding_append.mp hw with ⟨w₁, w₂, heq, hhead, _⟩
    have hshape : Shape (.varInt :: ((if f.offBit then [.varInt] else []) ++ [])) f.headFields := by
      simp only [headFields, hlen]
      cases f.offBit with
      | true => exact .varInt _ (.varInt _ .nil)
      | false => exact .varInt _ .nil
    rw [if_neg Bool.false_ne_true]
    rw [heq]
    rw [List.append_assoc]
    rw [skipAll_append hshape hhead]
    rfl

theorem AckFrame.shape_fields {f : AckFrame}
    (h : ∃ first blocks, f.ackBlocks = ⟨0, first⟩ :: blocks ∧ blocks.length = f.ackBlockCount)
    {items : List Item} {tail : List Field} (htail : Shape items tail)
    : Shape (.varInt :: .varInt :: .ackRanges :: items) (f.fields tail) := by
  rcases h with ⟨first, blocks, hblocks, hcount⟩
  unfold fields
  rw [hblocks]
  exact .varInt _ (.varInt _ (.ackRanges _ _ hcount htail))

theorem Frame.shape_fields {frame : Frame} (h : frame.Counted) (hstream : ∀ f, frame ≠ .stream f)
    : Shape (layout frame.typeByte) frame.fields := by
  cases frame with
  | padding => exact .nil
  | ping => exact .nil
  | ack f => exact AckFrame.shape_fields h .nil
  | ackECN f => exact AckFrame.shape_fields h (.varInt _ (.varInt _ (.varInt _ .nil)))
  | resetStream f => exact .varInt _ (.uint16 _ (.varInt _ .nil))
  | stopSending f => exact .varInt _ (.uint16 _ .nil)
  | crypto f => exact .varInt _ (.counted _ h .nil)
  | newToken f => exact .counted _ rfl .nil
  | stream f => exact absurd rfl (hstream f)
  | maxData f => exact .varInt _ .nil
  | maxStreamData f => exact .varInt _ (.varInt _ .nil)
  | maxStreams f =>
    rcases f with ⟨streamsType, maximumStreams⟩
    cases streamsType <;> exact .varInt _ .nil
  | dataBlocked f => exact .varInt _ .nil
  | streamDataBlocked f => exact .varInt _ (.varInt _ .nil)
  | streamsBlocked f =>
    rcases f with ⟨streamsType, streamLimit⟩
    cases streamsType <;> exact .varInt _ .nil
  | newConnectionId f => exact .varInt _ (.byteCounted _ _ h (.fixed _ (by simp) .nil))
  | retireConnectionId f => exact .varInt _ .nil
  | pathChallenge f => exact .fixed _ (by simp) .nil
  | pathResponse f => exact .fixed _ (by simp) .nil
  | connectionClose f => exact .uint16 _ (.varInt _ (.counted _ h .nil))
  | applicationClose f => exact .uint16 _ (.counted _ h .nil)

theorem Frame.OnWire.untruncated {frame : Frame} {w : List UInt8} (h : frame.OnWire w)
    (rest : List UInt8)
    : Untruncated (w ++ rest) := by
  rcases h with ⟨body, heq, hbody, hcounted⟩
  rw [heq]
  by_cases hstream : ∃ f, frame = .stream f
  . rcases hstream with ⟨f, hf⟩
    subst hf
    exact StreamFrame.skipAll_layout hcounted.1 hbody rest
  . have hshape := Frame.shape_fields hcounted (not_exists.mp hstream)
    unfold Untruncated
    dsimp only [List.cons_append]
    rw [skipAll_append hshape hbody]
    rfl

namespace Wire

theorem readVarIntField_form {w : List UInt8} {i : Nat} (h : VarIntForm w i) (rest : List UInt8)
    : readVarIntField (w ++ rest) = (i, rest) := by
  unfold readVarIntField
  rw [h.isVarInt rest]
  rfl

theorem readPacketNumber_form {w : List UInt8} {i : Nat} (h : VarIntForm w i) (rest : List UInt8)
    : readPacketNumber (w ++ rest) = (i, rest) := by
  unfold readPacketNumber
  rw [h.isVarInt rest]
  rfl

theorem readUint16_form {w : List UInt8} {i : Nat} (h : w.length = 2 ∧ beNat w = i)
    (rest : List UInt8)
    : readUint16 (w ++ rest) = (i, rest) := by
  unfold readUint16
  rw [readFull_append _ _ h.1]
  simp [h.2]

theorem readAckBlocks_form {blocks : List AckBlock} {w : List UInt8}
    (h : Encoding (pairFields blocks) w) (rest : List UInt8)
    : readAckBlocks blocks.length (w ++ rest) = (blocks, rest) := by
  induction blocks generalizing w with
  | nil =>
    rw [encoding_nil.mp h]
    rfl
  | cons ack blocks ih =>
    rcases encoding_cons.mp h with ⟨w₁, w', heq, hgap, h'⟩
    rcases encoding_cons.mp h' with ⟨w₂, w₃, heq', hblock, h''⟩
    simp [heq, heq', readAckBlocks, readVarIntField_form hgap, readVarIntField_form hblock, ih h'']

end Wire

/-- The frame that `read` returns has the given type byte and exactly the fields that are found. -/
def Decodes (typeByte : UInt8) (read : List UInt8 → Frame × List UInt8) : Prop :=
  ∀ b, (skipAll (layout typeByte) b).isSome →
    ∃ w, typeByte :: b = w ++ (read (typeByte :: b)).2 ∧ (read (typeByte :: b)).1.OnWire w

theorem decodes_of_shape {typeByte : UInt8} {read : List UInt8 → Frame × List UInt8}
    (h : ∀ fields w, Shape (layout typeByte) fields → Encoding fields w → ∃ frame,
      (∀ rest, read (typeByte :: (w ++ rest)) = (frame, rest)) ∧ frame.typeByte = typeByte ∧
        frame.fields = fields ∧ frame.Counted)
    : Decodes typeByte read := by
  intro b hb
  rcases Option.isSome_iff_exists.mp hb with ⟨rest, hrest⟩
  rcases skipAll_eq_some hrest with ⟨fields, w, hshape, heq, hw⟩
  rcases h fields w hshape hw with ⟨frame, hread, htype, hfields, hcounted⟩
  rw [heq]
  rw [hread rest]
  refine ⟨typeByte :: w, rfl, w, ?_, ?_, hcounted⟩
  . rw [htype]
  . rw [hfields]
    exact hw

def reader (mk : α → Frame) (read : List UInt8 → α × List UInt8) (b : List UInt8) :
    Frame × List UInt8 :=
  (mk (read b).1, (read b).2)

theorem decodes_one {typeByte : UInt8} (mk : Nat → Frame) (hlayout : layout typeByte = [.varInt])
    (htype : ∀ i, (mk i).typeByte = typeByte) (hfields : ∀ i, (mk i).fields = [.varInt i])
    (hcounted : ∀ i, (mk i).Counted)
    : Decodes typeByte (reader mk readOne) := by
  apply decodes_of_shape
  intro fields w hshape hw
  rw [hlayout] at hshape
  rcases hshape.inv_varInt hw with ⟨i, _, w₁, _, rfl, rfl, h₁, hshape₁, hw₁⟩
  rcases hshape₁.inv_nil hw₁ with ⟨rfl, rfl⟩
  refine ⟨mk i, ?_, htype i, hfields i, hcounted i⟩
  intro rest
  simp [reader, readOne, discardByte, readVarIntField_form h₁]

theorem decodes_two {typeByte : UInt8} (mk : Nat × Nat → Frame)
    (hlayout : layout typeByte = [.varInt, .varInt])
    (htype : ∀ p, (mk p).typeByte = typeByte)
    (hfields : ∀ p, (mk p).fields = [.varInt p.1, .varInt p.2]) (hcounted : ∀ p, (mk p).Counted)
    : Decodes typeByte (reader mk readTwo) := by
  apply decodes_of_shape
  intro fields w hshape hw
  rw [hlayout] at hshape
  rcases hshape.inv_varInt hw with ⟨i, _, w₁, _, rfl, rfl, h₁, hshape₁, hw₁⟩
  rcases hshape₁.inv_varInt hw₁ with ⟨j, _, w₂, _, rfl, rfl, h₂, hshape₂, hw₂⟩
  rcases hshape₂.inv_nil hw₂ with ⟨rfl, rfl⟩
  refine ⟨mk (i, j), ?_, htype _, hfields _, hcounted _⟩
  intro rest
  simp [reader, readTwo, discardByte, readVarIntField_form h₁, readVarIntField_form h₂]

theorem decodes_path {typeByte : UInt8} (mk : Vector UInt8 8 → Frame)
    (hlayout : layout typeByte = [.fixed 8]) (htype : ∀ data, (mk data).typeByte = typeByte)
    (hfields : ∀ data, (mk data).fields = [.bytes data.toList])
    (hcounted : ∀ data, (mk data).Counted)
    : Decodes typeByte (reader mk (fun b => readArray 8 (discardByte b))) := by
  apply decodes_of_shape
  intro fields w hshape hw
  rw [hlayout] at hshape
  rcases hshape.inv_fixed hw with ⟨data, _, _, rfl, rfl, hlen, hshape₁, hw₁⟩
  rcases hshape₁.inv_nil hw₁ with ⟨rfl, rfl⟩
  have hsize : data.toArray.size = 8 := by
    rw [List.size_toArray]
    exact hlen
  refine ⟨mk ⟨data.toArray, hsize⟩, ?_, htype _, hfields _, hcounted _⟩
  intro rest
  have hread : readArray 8 (data ++ rest) = (⟨data.toArray, hsize⟩, rest) :=
    readArray_append ⟨data.toArray, hsize⟩ rest
  simp [reader, discardByte, hread]

theorem decodes_resetStream : Decodes 0x04 (reader .resetStream newResetStream) := by
  apply decodes_of_shape
  intro fields w hshape hw
  rcases hshape.inv_varInt hw with ⟨streamId, _, w₁, _, rfl, rfl, h₁, hshape₁, hw₁⟩
  rcases hshape₁.inv_uint16 hw₁ with ⟨errorCode, _, w₂, _, rfl, rfl, h₂, hshape₂, hw₂⟩
  rcases hshape₂.inv_varInt hw₂ with ⟨finalOffset, _, w₃, _, rfl, rfl, h₃, hshape₃, hw₃⟩
  rcases hshape₃.inv_nil hw₃ with ⟨rfl, rfl⟩
  refine ⟨.resetStream ⟨streamId, errorCode, finalOffset⟩, ?_, rfl, rfl, trivial⟩
  intro rest
  simp [reader, newResetStream, discardByte, readVarIntField_form h₁, readUint16_form h₂,
    readVarIntField_form h₃]

theorem decodes_stopSending : Decodes 0x05 (reader .stopSending newStopSendingFrame) := by
  apply decodes_of_shape
  intro fields w hshape hw
  rcases hshape.inv_varInt hw with ⟨streamId, _, w₁, _, rfl, rfl, h₁, hshape₁, hw₁⟩
  rcases hshape₁.inv_uint16 hw₁ with ⟨errorCode, _, w₂, _, rfl, rfl, h₂, hshape₂, hw₂⟩
  rcases hshape₂.inv_nil hw₂ with ⟨rfl, rfl⟩
  refine ⟨.stopSending ⟨streamId, errorCode⟩, ?_, rfl, rfl, trivial⟩
  intro rest
  simp [reader, newStopSendingFrame, discardByte, readVarIntField_form h₁, readUint16_form h₂]

theorem readAckFrame_form {largest delay count first : Nat} {blocks : List AckBlock}
    {w₁ w₂ w₃ w₄ w₅ : List UInt8} (h₁ : VarIntForm w₁ largest) (h₂ : VarIntForm w₂ delay)
    (h₃ : VarIntForm w₃ count) (h₄ : VarIntForm w₄ first) (h₅ : Encoding (pairFields blocks) w₅)
    (hlen : blocks.length = count) (typeByte : UInt8) (rest : List UInt8)
    : readAckFrame (typeByte :: (w₁ ++ (w₂ ++ (w₃ ++ (w₄ ++ (w₅ ++ rest))))))
        = (⟨largest, delay, count, ⟨0, first⟩ :: blocks⟩, rest) := by
  subst hlen
  simp [readAckFrame, discardByte, readPacketNumber_form h₁, readVarIntField_form h₂,
    readVarIntField_form h₃, readVarIntField_form h₄, readAckBlocks_form h₅]

theorem decodes_ack : Decodes 0x02 (reader .ack readAckFrame) := by
  apply decodes_of_shape
  intro fields w hshape hw
  rcases hshape.inv_varInt hw with ⟨largest, _, w₁, _, rfl, rfl, h₁, hshape₁, hw₁⟩
  rcases hshape₁.inv_varInt hw₁ with ⟨delay, _, w₂, _, rfl, rfl, h₂, hshape₂, hw₂⟩
  rcases hshape₂.inv_ackRanges hw₂ with
    ⟨count, first, blocks, _, w₃, w₄, w₅, _, rfl, rfl, h₃, h₄, h₅, hlen, hshape₃, hw₃⟩
  rcases hshape₃.inv_nil hw₃ with ⟨rfl, rfl⟩
  refine ⟨.ack ⟨largest, delay, count, ⟨0, first⟩ :: blocks⟩, ?_, rfl, rfl, first, blocks, rfl, hlen⟩
  intro rest
  simp [reader, readAckFrame_form h₁ h₂ h₃ h₄ h₅ hlen]

theorem decodes_ackECN : Decodes 0x03 (reader .ackECN readAckECNFrame) := by
  apply decodes_of_shape
  intro fields w hshape hw
  rcases hshape.inv_varInt hw with ⟨largest, _, w₁, _, rfl, rfl, h₁, hshape₁, hw₁⟩
  rcases hshape₁.inv_varInt hw₁ with ⟨delay, _, w₂, _, rfl, rfl, h₂, hshape₂, hw₂⟩
  rcases hshape₂.inv_ackRanges hw₂ with
    ⟨count, first, blocks, _, w₃, w₄, w₅, _, rfl, rfl, h₃, h₄, h₅, hlen, hshape₃, hw₃⟩
  rcases hshape₃.inv_varInt hw₃ with ⟨ect0, _, w₆, _, rfl, rfl, h₆, hshape₄, hw₄⟩
  rcases hshape₄.inv_varInt hw₄ with ⟨ect1, _, w₇, _, rfl, rfl, h₇, hshape₅, hw₅⟩
  rcases hshape₅.inv_varInt hw₅ with ⟨ectCE, _, w₈, _, rfl, rfl, h₈, hshape₆, hw₆⟩
  rcases hshape₆.inv_nil hw₆ with ⟨rfl, rfl⟩
  refine ⟨.ackECN ⟨⟨largest, delay, count, ⟨0, first⟩ :: blocks⟩, ect0, ect1, ectCE⟩, ?_, rfl, rfl,
    first, blocks, rfl, hlen⟩
  intro rest
  simp [reader, readAckECNFrame, readAckFrame_form h₁ h₂ h₃ h₄ h₅ hlen, readVarIntField_form h₆,
    readVarIntField_form h₇, readVarIntField_form h₈]

theorem decodes_crypto : Decodes 0x06 (reader .crypto readCryptoFrame) := by
  apply decodes_of_shape
  intro fields w hshape hw
  rcases hshape.inv_varInt hw with ⟨offset, _, w₁, _, rfl, rfl, h₁, hshape₁, hw₁⟩
  rcases hshape₁.inv_counted hw₁ with ⟨n, data, _, w₂, _, rfl, rfl, h₂, hlen, hshape₂, hw₂⟩
  rcases hshape₂.inv_nil hw₂ with ⟨rfl, rfl⟩
  refine ⟨.crypto ⟨offset, n, data⟩, ?_, rfl, rfl, hlen⟩
  intro rest
  have htype : ∀ rest, readVarIntValue (6 :: rest) = (some 6, rest) :=
    readVarIntValue_frameType (by decide)
  simp [reader, readCryptoFrame, htype, readVarIntField_form h₁, readVarIntField_form h₂,
    readInto_append _ _ hlen]

theorem decodes_newToken : Decodes 0x07 (reader .newToken readNewTokenFrame) := by
  apply decodes_of_shape
  intro fields w hshape hw
  rcases hshape.inv_counted hw with ⟨n, token, _, w₁, _, rfl, rfl, h₁, rfl, hshape₁, hw₁⟩
  rcases hshape₁.inv_nil hw₁ with ⟨rfl, rfl⟩
  refine ⟨.newToken ⟨token⟩, ?_, rfl, rfl, trivial⟩
  intro rest
  have htype : ∀ rest, readVarIntValue (7 :: rest) = (some 7, rest) :=
    readVarIntValue_frameType (by decide)
  simp [reader, readNewTokenFrame, htype, readVarIntField_form h₁, readInto_append _ _ rfl]

theorem decodes_newConnectionId
    : Decodes 0x18 (reader .newConnectionId newNewConnectionIdFrame) := by
  apply decodes_of_shape
  intro fields w hshape hw
  rcases hshape.inv_varInt hw with ⟨sequence, _, w₁, _, rfl, rfl, h₁, hshape₁, hw₁⟩
  rcases hshape₁.inv_byteCounted hw₁ with ⟨n, cid, _, _, rfl, rfl, hlen, hshape₂, hw₂⟩
  rcases hshape₂.inv_fixed hw₂ with ⟨token, _, _, rfl, rfl, htoken, hshape₃, hw₃⟩
  rcases hshape₃.inv_nil hw₃ with ⟨rfl, rfl⟩
  have hsize : token.toArray.size = 16 := by
    rw [List.size_toArray]
    exact htoken
  refine ⟨.newConnectionId ⟨sequence, n, cid, ⟨token.toArray, hsize⟩⟩, ?_, rfl, rfl, hlen⟩
  intro rest
  have hread : readFullArray 16 (token ++ rest) = (⟨token.toArray, hsize⟩, rest) :=
    readFullArray_append ⟨token.toArray, hsize⟩ rest
  simp [reader, newNewConnectionIdFrame, discardByte, readVarIntField_form h₁,
    readInto_append _ _ hlen, hread]

theorem decodes_connectionClose
    : Decodes 0x1c (reader .connectionClose newConnectionCloseFrame) := by
  apply decodes_of_shape
  intro fields w hshape hw
  rcases hshape.inv_uint16 hw with ⟨errorCode, _, w₁, _, rfl, rfl, h₁, hshape₁, hw₁⟩
  rcases hshape₁.inv_varInt hw₁ with ⟨frameType, _, w₂, _, rfl, rfl, h₂, hshape₂, hw₂⟩
  rcases hshape₂.inv_counted hw₂ with ⟨n, phrase, _, w₃, _, rfl, rfl, h₃, hlen, hshape₃, hw₃⟩
  rcases hshape₃.inv_nil hw₃ with ⟨rfl, rfl⟩
  refine ⟨.connectionClose ⟨errorCode, frameType, n, phrase⟩, ?_, rfl, rfl, hlen⟩
  intro rest
  simp [reader, newConnectionCloseFrame, discardByte, readUint16_form h₁, readVarIntField_form h₂,
    readVarIntField_form h₃, readReasonPhrase_append hlen]

theorem decodes_applicationClose
    : Decodes 0x1d (reader .applicationClose newApplicationCloseFrame) := by
  apply decodes_of_shape
  intro fields w hshape hw
  rcases hshape.inv_uint16 hw with ⟨errorCode, _, w₁, _, rfl, rfl, h₁, hshape₁, hw₁⟩
  rcases hshape₁.inv_counted hw₁ with ⟨n, phrase, _, w₂, _, rfl, rfl, h₂, hlen, hshape₂, hw₂⟩
  rcases hshape₂.inv_nil hw₂ with ⟨rfl, rfl⟩
  refine ⟨.applicationClose ⟨errorCode, n, phrase⟩, ?_, rfl, rfl, hlen⟩
  intro rest
  simp [reader, newApplicationCloseFrame, discardByte, readUint16_form h₁, readVarIntField_form h₂,
    readReasonPhrase_append hlen]

theorem StreamFrame.typeByte_of_flags {t : UInt8} (h : t.toNat &&& 8 = 8 ∧ t.toNat ≤ 0x0f)
    {f : StreamFrame} (hfin : f.finBit = decide (t &&& 0x01 = 0x01))
    (hlen : f.lenBit = decide (t &&& 0x02 = 0x02)) (hoff : f.offBit = decide (t &&& 0x04 = 0x04))
    : UInt8.ofNat f.typeByte = t := by
  have hbyte : ∀ n : Fin 16, n.val &&& 8 = 8 →
      UInt8.ofNat (StreamFrame.typeByte ⟨decide (UInt8.ofNat n &&& 0x01 = 0x01),
        decide (UInt8.ofNat n &&& 0x02 = 0x02), decide (UInt8.ofNat n &&& 0x04 = 0x04), 0, 0, 0, []⟩)
      = UInt8.ofNat n := by
    decide
  have ht := hbyte ⟨t.toNat, by omega⟩ h.1
  simp only [UInt8.ofNat_toNat, ← hfin, ← hlen, ← hoff] at ht
  exact ht

theorem StreamFrame.parseStreamFrame_form {f : StreamFrame} (h : (Frame.stream f).Counted)
    {w : List UInt8} (hw : Encoding f.headFields w) (rest : List UInt8)
    (hlast : f.lenBit = false → rest = [])
    : parseStreamFrame (UInt8.ofNat f.typeByte :: (w ++ (f.streamData ++ rest))) = (f, rest) := by
  rcases h with ⟨hdata, hoffset⟩
  rcases f.typeByte_flags with ⟨hfin, hlen, hoff⟩
  rcases encoding_cons.mp hw with ⟨w₁, _, rfl, h₁, hw₁⟩
  rcases encoding_append.mp hw₁ with ⟨w₂, w₃, rfl, h₂, h₃⟩
  have hreadOff : (if f.offBit then readVarIntField (w₂ ++ (w₃ ++ (f.streamData ++ rest)))
      else (0, w₂ ++ (w₃ ++ (f.streamData ++ rest))))
        = (f.offset, w₃ ++ (f.streamData ++ rest)) := by
    cases hbit : f.offBit with
    | false =>
      rw [hbit] at h₂
      simp [encoding_nil.mp h₂, hoffset hbit]
    | true =>
      rw [hbit] at h₂
      rcases encoding_cons.mp h₂ with ⟨w₄, _, heq, h₄, hnil⟩
      simp [heq, encoding_nil.mp hnil, readVarIntField_form h₄]
  have hreadLen : (if f.lenBit then readVarIntField (w₃ ++ (f.streamData ++ rest))
      else ((w₃ ++ (f.streamData ++ rest)).length, w₃ ++ (f.streamData ++ rest)))
        = (f.length, f.streamData ++ rest) := by
    cases hbit : f.lenBit with
    | false =>
      rw [hbit] at h₃
      simp [encoding_nil.mp h₃, hlast hbit, hdata]
    | true =>
      rw [hbit] at h₃
      rcases encoding_cons.mp h₃ with ⟨w₄, _, heq, h₄, hnil⟩
      simp [heq, encoding_nil.mp hnil, readVarIntField_form h₄]
  simp only [parseStreamFrame, List.append_assoc, readByte_cons, Option.getD_some,
    readVarIntField_form h₁, hfin, hlen, hoff, hreadOff, hreadLen, readInto_append _ _ hdata,
    Bool.decide_eq_true]

theorem exists_headFields (finBit lenBit offBit : Bool) {b : List UInt8}
    (h : (skipAll (streamLayout offBit lenBit) b).isSome)
    : ∃ (f : StreamFrame) (w rest : List UInt8), f.finBit = finBit ∧ f.lenBit = lenBit ∧
        f.offBit = offBit ∧ b = w ++ (f.streamData ++ rest) ∧ Encoding f.headFields w ∧
        (Frame.stream f).Counted ∧ (f.lenBit = false → rest = []) := by
  rcases Option.isSome_iff_exists.mp h with ⟨b', hb'⟩
  rcases skipAll_eq_some hb' with ⟨fields, w, hshape, rfl, hw⟩
  rcases hshape.inv_varInt hw with ⟨streamId, _, w₁, _, rfl, rfl, h₁, hshape₁, hw₁⟩
  cases offBit with
  | false =>
    cases lenBit with
    | false =>
      rcases hshape₁.inv_nil hw₁ with ⟨rfl, rfl⟩
      refine ⟨⟨finBit, false, false, streamId, 0, b'.length, b'⟩, w₁, [], rfl, rfl, rfl, ?_, ?_,
        ⟨rfl, fun _ => rfl⟩, fun _ => rfl⟩
      . simp
      . exact .single h₁
    | true =>
      rcases hshape₁.inv_counted hw₁ with ⟨n, data, _, w₂, _, rfl, rfl, h₂, hlen, hshape₂, hw₂⟩
      rcases hshape₂.inv_nil hw₂ with ⟨rfl, rfl⟩
      refine ⟨⟨finBit, true, false, streamId, 0, n, data⟩, w₁ ++ w₂, b', rfl, rfl, rfl, ?_, ?_,
        ⟨hlen, fun _ => rfl⟩, nofun⟩
      . simp
      . exact .cons h₁ (.single h₂)
  | true =>
    rcases hshape₁.inv_varInt hw₁ with ⟨offset, _, w₂, _, rfl, rfl, h₂, hshape₂, hw₂⟩
    cases lenBit with
    | false =>
      rcases hshape₂.inv_nil hw₂ with ⟨rfl, rfl⟩
      refine ⟨⟨finBit, false, true, streamId, offset, b'.length, b'⟩, w₁ ++ w₂, [], rfl, rfl, rfl,
        ?_, ?_, ⟨rfl, nofun⟩, fun _ => rfl⟩
      . simp
      . exact .cons h₁ (.single h₂)
    | true =>
      rcases hshape₂.inv_counted hw₂ with ⟨n, data, _, w₃, _, rfl, rfl, h₃, hlen, hshape₃, hw₃⟩
      rcases hshape₃.inv_nil hw₃ with ⟨rfl, rfl⟩
      refine ⟨⟨finBit, true, true, streamId, offset, n, data⟩, w₁ ++ (w₂ ++ w₃), b', rfl, rfl, rfl,
        ?_, ?_, ⟨hlen, nofun⟩, nofun⟩
      . simp
      . exact .cons h₁ (.cons h₂ (.single h₃))

theorem decodes_stream {t : UInt8} (ht : t.toNat &&& 8 = 8 ∧ t.toNat ≤ 0x0f)
    : Decodes t (reader .stream parseStreamFrame) := by
  intro b hb
  have hlayout : layout t = streamLayout (t &&& 0x04 = 0x04) (t &&& 0x02 = 0x02) := by
    have htype := StreamFrame.typeByte_of_flags ht (f := ⟨t &&& 0x01 = 0x01, t &&& 0x02 = 0x02,
      t &&& 0x04 = 0x04, 0, 0, 0, []⟩) rfl rfl rfl
    rw [← htype]
    rw [StreamFrame.layout_typeByte]
    rw [htype]
  rw [hlayout] at hb
  rcases exists_headFields (t &&& 0x01 = 0x01) _ _ hb with
    ⟨f, w, rest, hfin, hlen, hoff, heq, hw, hcounted, hlast⟩
  have htype := StreamFrame.typeByte_of_flags ht hfin hlen hoff
  have hparse := StreamFrame.parseStreamFrame_form hcounted hw rest hlast
  rw [heq]
  rw [htype] at hparse
  simp only [reader, hparse]
  refine ⟨t :: (w ++ f.streamData), by simp, w ++ f.streamData, ?_, ?_, hcounted⟩
  . rw [← htype]
    rfl
  . exact hw.append (.single rfl)

theorem decodes_empty {typeByte : UInt8} (frame : Frame) (hlayout : layout typeByte = [])
    (htype : frame.typeByte = typeByte) (hfields : frame.fields = []) (hcounted : frame.Counted)
    : Decodes typeByte (reader (fun _ => frame) (fun b => ((), discardByte b))) := by
  apply decodes_of_shape
  intro fields w hshape hw
  rw [hlayout] at hshape
  rcases hshape.inv_nil hw with ⟨rfl, rfl⟩
  refine ⟨frame, ?_, htype, hfields, hcounted⟩
  intro rest
  simp [reader, discardByte]

def Unidirectional (b : List UInt8) : Prop := b.head? = some 0x13 ∨ b.head? = some 0x17

instance (b : List UInt8) : Decidable (Unidirectional b) := inferInstanceAs (Decidable (_ ∨ _))

theorem unidirectional_cons (t : UInt8) (b : List UInt8)
    : Unidirectional (t :: b) ↔ t = 0x13 ∨ t = 0x17 := by
  simp [Unidirectional]

/-- A frame that `res` holds is read field by field, or its direction is lost. -/
def ReadBy (t : UInt8) (b : List UInt8) (res : Option NewFrame) : Prop :=
  ∀ frame rest conn', res = some ⟨.ok (some frame), rest, conn'⟩ →
    (¬ Unidirectional (t :: b) ∧ ∃ read, Decodes t read ∧ read (t :: b) = (frame, rest)) ∨
    (Unidirectional (t :: b) ∧ frame.typeByte ≠ t)

theorem readStreamFrame_parse {b rest : List UInt8} {conn conn' : Connection} {f : StreamFrame}
    (h : readStreamFrame b conn = some (f, rest, conn'))
    : parseStreamFrame b = (f, rest) := by
  unfold readStreamFrame at h
  dsimp only at h
  cases hadd : (conn.streams.get (parseStreamFrame b).1.streamId).addToRead (parseStreamFrame b).1 with
  | none => simp [hadd] at h
  | some stream =>
    simp only [hadd, Option.bind_eq_bind, Option.bind_some, Option.pure_def, Option.some.injEq,
      Prod.mk.injEq] at h
    rw [← h.1, ← h.2.1]

namespace ReadBy

variable {t : UInt8} {b : List UInt8} {conn : Connection} {res : Option NewFrame}

theorem plain {α : Type} {mk : α → Frame} {read : List UInt8 → α × List UInt8}
    (ht : ¬ Unidirectional (t :: b)) (h : Decodes t (reader mk read))
    : ReadBy t b (NewFrame.plain conn mk (read (t :: b))) := by
  intro frame rest conn' hres
  injection hres with hres
  injection hres with hframe hrest _
  injection hframe with hframe
  injection hframe with hframe
  refine Or.inl ⟨ht, _, h, ?_⟩
  unfold reader
  rw [hframe, hrest]

theorem typed {α : Type} {mk : α → Frame} {read : List UInt8 → α × List UInt8} (n : UInt8)
    (hn : ¬ Unidirectional [n]) (h : Decodes n (reader mk read)) (h' : ReadBy t b res)
    : ReadBy t b (if t.toNat = n.toNat then NewFrame.plain conn mk (read (t :: b)) else res) := by
  split
  . next ht =>
    rw [UInt8.toNat_inj.mp ht]
    exact plain hn h
  . exact h'

theorem limit {mk : Nat → Frame} (n : UInt8) (hn : Decodes n (reader mk readOne))
    (hn' : ¬ Unidirectional [n])
    (hmask : ∀ t : UInt8, t.toNat &&& 0xFE = n.toNat → t = n ∨ Unidirectional [t] ∧ t ≠ n)
    (htype : ∀ i, (mk i).typeByte = n) (h' : ReadBy t b res)
    : ReadBy t b (if t.toNat &&& 0xFE = n.toNat then NewFrame.plain conn mk (readOne (t :: b))
        else res) := by
  split
  . next ht =>
    cases hmask t ht with
    | inl heq =>
      rw [heq]
      exact plain hn' hn
    | inr huni =>
      intro frame rest conn' hres
      injection hres with hres
      injection hres with hframe _ _
      injection hframe with hframe
      injection hframe with hframe
      refine Or.inr ⟨huni.1, ?_⟩
      rw [← hframe]
      rw [htype]
      exact huni.2.symm
  . exact h'

theorem stream (h' : ReadBy t b res)
    : ReadBy t b (if t.toNat &&& 8 = 8 ∧ t.toNat ≤ 0x0f then
        NewFrame.stream (readStreamFrame (t :: b) conn) else res) := by
  split
  . next ht =>
    intro frame rest conn' hres
    rcases Option.bind_eq_some_iff.mp hres with ⟨⟨f, rest', conn''⟩, hread, hres'⟩
    injection hres' with hres'
    injection hres' with hframe hrest _
    injection hframe with hframe
    injection hframe with hframe
    refine Or.inl ⟨?_, _, decodes_stream ht, ?_⟩
    . rw [unidirectional_cons]
      intro huni
      rcases huni with heq | heq <;> rw [heq] at ht <;> exact absurd ht.2 (by decide)
    . unfold reader
      rw [readStreamFrame_parse hread]
      rw [hframe, hrest]
  . exact h'

theorem error (msg : String) (rest : List UInt8)
    : ReadBy t b (some ⟨.error msg, rest, conn⟩) := by
  intro frame rest' conn' hres
  injection hres with hres
  injection hres with hframe _ _
  contradiction

end ReadBy

theorem eq_or_unidirectional {n : UInt8} (hn : n = 0x12 ∨ n = 0x16) (t : UInt8)
    (h : t.toNat &&& 0xFE = n.toNat)
    : t = n ∨ Unidirectional [t] ∧ t ≠ n := by
  revert t
  apply forall_byte
  rcases hn with rfl | rfl
  . decide +kernel
  . decide +kernel

theorem newFrame_readBy (t : UInt8) (b : List UInt8) (conn : Connection)
    : ReadBy t b (newFrame (t :: b) conn) := by
  unfold newFrame
  dsimp only
  refine .typed 0x00 (by decide) (decodes_empty .padding rfl rfl rfl trivial) ?_
  refine .typed 0x01 (by decide) (decodes_empty .ping rfl rfl rfl trivial) ?_
  refine .typed 0x02 (by decide) decodes_ack ?_
  refine .typed 0x03 (by decide) decodes_ackECN ?_
  refine .typed 0x04 (by decide) decodes_resetStream ?_
  refine .typed 0x05 (by decide) decodes_stopSending ?_
  refine .typed 0x06 (by decide) decodes_crypto ?_
  refine .typed 0x07 (by decide) decodes_newToken ?_
  refine .stream ?_
  refine .typed 0x10 (by decide)
    (decodes_one (fun i => .maxData ⟨i⟩) rfl (fun _ => rfl) (fun _ => rfl) (fun _ => trivial)) ?_
  refine .typed 0x11 (by decide)
    (decodes_two (fun i => .maxStreamData ⟨i.1, i.2⟩) rfl (fun _ => rfl) (fun _ => rfl) (fun _ => trivial)) ?_
  refine .limit 0x12
    (decodes_one (fun i => .maxStreams ⟨.bidiStreams, i⟩) rfl (fun _ => rfl) (fun _ => rfl) (fun _ => trivial))
    (by decide) (eq_or_unidirectional (Or.inl rfl)) (fun _ => rfl) ?_
  refine .typed 0x14 (by decide)
    (decodes_one (fun i => .dataBlocked ⟨i⟩) rfl (fun _ => rfl) (fun _ => rfl) (fun _ => trivial)) ?_
  refine .typed 0x15 (by decide)
    (decodes_two (fun i => .streamDataBlocked ⟨i.1, i.2⟩) rfl (fun _ => rfl) (fun _ => rfl) (fun _ => trivial)) ?_
  refine .limit 0x16
    (decodes_one (fun i => .streamsBlocked ⟨.bidiStreams, i⟩) rfl (fun _ => rfl) (fun _ => rfl) (fun _ => trivial))
    (by decide) (eq_or_unidirectional (Or.inr rfl)) (fun _ => rfl) ?_
  refine .typed 0x18 (by decide) decodes_newConnectionId ?_
  refine .typed 0x19 (by decide)
    (decodes_one (fun i => .retireConnectionId ⟨i⟩) rfl (fun _ => rfl) (fun _ => rfl) (fun _ => trivial)) ?_
  refine .typed 0x1a (by decide)
    (decodes_path (fun i => .pathChallenge ⟨i⟩) rfl (fun _ => rfl) (fun _ => rfl) (fun _ => trivial)) ?_
  refine .typed 0x1b (by decide)
    (decodes_path (fun i => .pathResponse ⟨i⟩) rfl (fun _ => rfl) (fun _ => rfl) (fun _ => trivial)) ?_
  refine .typed 0x1c (by decide) decodes_connectionClose ?_
  refine .typed 0x1d (by decide) decodes_applicationClose ?_
  apply ReadBy.error

theorem newFrame_onWire_iff (b : List UInt8) (conn : Connection) (frame : Frame)
    (rest : List UInt8) (conn' : Connection)
    (h : newFrame b conn = some ⟨.ok (some frame), rest, conn'⟩)
    : (∃ w, b = w ++ rest ∧ frame.OnWire w) ↔ Untruncated b ∧ ¬ Unidirectional b := by
  cases b with
  | nil =>
    injection h with h
    injection h with h
    injection h with h
    contradiction
  | cons t b =>
    apply Iff.intro
    . intro hwire
      rcases hwire with ⟨w, heq, hw⟩
      have huntruncated := hw.untruncated rest
      rw [← heq] at huntruncated
      refine ⟨huntruncated, ?_⟩
      intro huni
      rcases hw with ⟨body, hbody, _⟩
      rw [hbody] at heq
      injection heq with htype _
      cases newFrame_readBy t b conn frame rest conn' h with
      | inl hread => exact hread.1 huni
      | inr hread => exact hread.2 htype.symm
    . intro hcond
      cases newFrame_readBy t b conn frame rest conn' h with
      | inl hread =>
        rcases hread with ⟨_, read, hdecodes, hread⟩
        rcases hdecodes b hcond.1 with ⟨w, heq, hw⟩
        rw [hread] at heq hw
        exact ⟨w, heq, hw⟩
      | inr hread => exact absurd hread.1 hcond.2

theorem newFrame_onWire_iff_resetStream
    : newFrame [0x04, 0x40, 0x05, 0x01, 0x02, 0x07, 0xff] {}
        = some ⟨.ok (some (.resetStream ⟨5, 0x0102, 7⟩)), [0xff], {}⟩ ∧
      ∃ w, [0x04, 0x40, 0x05, 0x01, 0x02, 0x07, 0xff] = w ++ [0xff] ∧
        (Frame.resetStream ⟨5, 0x0102, 7⟩).OnWire w := by
  refine ⟨rfl, ?_⟩
  apply (newFrame_onWire_iff [0x04, 0x40, 0x05, 0x01, 0x02, 0x07, 0xff] {} _ [0xff] {} rfl).mpr
  decide

/-- The data of a CRYPTO frame is padded with zero bytes. -/
theorem exists_newFrame_not_onWire
    : newFrame [0x06, 0x00, 0x04, 0xaa] {}
        = some ⟨.ok (some (.crypto ⟨0, 4, [0xaa, 0, 0, 0]⟩)), [], {}⟩ ∧
      ¬ ∃ w, [0x06, 0x00, 0x04, 0xaa] = w ++ [] ∧
        (Frame.crypto ⟨0, 4, [0xaa, 0, 0, 0]⟩).OnWire w := by
  refine ⟨rfl, ?_⟩
  intro hwire
  rcases hwire with ⟨w, heq, hw⟩
  have huntruncated := hw.untruncated []
  rw [← heq] at huntruncated
  revert huntruncated
  decide

end QuicTracker
