import QuicTracker.Lemmas.Frames.Payload

/-!
This module contains the frames whose encoder and decoder disagree on the type byte: the ECN variant
of the acknowledgement and the two frames that carry a direction.
-/

namespace QuicTracker

open ByteReader

namespace AckECNFrame

def RoundTrips (f : AckECNFrame) (rest : List UInt8) (conn : Connection) : Prop :=
  ∃ bytes g conn', f.writeTo [] = some bytes ∧
    newFrame (bytes ++ rest) conn = some ⟨.ok (some (.ackECN g)), rest, conn'⟩ ∧
    g.largestAcknowledged = f.largestAcknowledged ∧ g.ackBlocks = f.ackBlocks ∧
    g.ect0Count = f.ect0Count ∧ g.ect1Count = f.ect1Count ∧ g.ectCECount = f.ectCECount

/-- The receiver sees a plain acknowledgement and takes the counters for the next frame. -/
theorem newFrame_writeTo (f : AckECNFrame) (h : f.WellFormed) (rest : List UInt8)
    (conn : Connection)
    : newFrame (f.toAckFrame.bytes ++ f.counterBytes ++ rest) conn
        = some ⟨.ok (some (.ack f.toAckFrame)), f.counterBytes ++ rest, conn⟩ := by
  rw [List.append_assoc]
  calc
    newFrame (f.toAckFrame.bytes ++ (f.counterBytes ++ rest)) conn
    _ = NewFrame.plain conn .ack (readAckFrame (f.toAckFrame.bytes ++ (f.counterBytes ++ rest))) := by
      rfl
    _ = some ⟨.ok (some (.ack f.toAckFrame)), f.counterBytes ++ rest, conn⟩ := by
      rw [f.toAckFrame.readAckFrame_append h.ack]
      rfl

theorem newFrame_ne_ackECN (f : AckECNFrame) (h : f.WellFormed) (rest : List UInt8)
    (conn : Connection) {bytes : List UInt8} (hwrite : f.writeTo [] = some bytes)
    (g : AckECNFrame) (buffer : List UInt8) (conn' : Connection)
    : newFrame (bytes ++ rest) conn ≠ some ⟨.ok (some (.ackECN g)), buffer, conn'⟩ := by
  rw [f.writeTo_eq h] at hwrite
  injection hwrite with hwrite
  rw [← hwrite]
  rw [List.nil_append]
  rw [f.newFrame_writeTo h]
  simp

theorem not_roundTrips_of_wellFormed (f : AckECNFrame) (h : f.WellFormed) (rest : List UInt8)
    (conn : Connection)
    : ¬ f.RoundTrips rest conn := by
  intro hround
  rcases hround with ⟨bytes, g, conn', hwrite, hnew, _⟩
  apply f.newFrame_ne_ackECN h rest conn hwrite g rest conn' hnew

theorem wellFormed_single_range : WellFormed ⟨⟨7, 0, 0, [⟨0, 2⟩]⟩, 1, 0, 3⟩ := by
  refine ⟨?_, by decide, by decide, by decide⟩
  constructor <;> simp

theorem not_roundTrips_single_range : ¬ RoundTrips ⟨⟨7, 0, 0, [⟨0, 2⟩]⟩, 1, 0, 3⟩ [1] {} := by
  apply not_roundTrips_of_wellFormed
  apply wellFormed_single_range

theorem exists_not_roundTrips
    : ∃ f : AckECNFrame, f.WellFormed ∧ f.writeTo [] = some [2, 7, 0, 0, 2, 1, 0, 3] ∧
        ¬ f.RoundTrips [] {} := by
  refine ⟨_, wellFormed_single_range, by decide, ?_⟩
  intro hround
  rcases hround with ⟨bytes, g, conn', hwrite, hnew, _⟩
  apply newFrame_ne_ackECN _ wellFormed_single_range [] {} hwrite g [] conn' hnew

end AckECNFrame

def Frame.RoundTrips (frame : Frame) (rest : List UInt8) (conn : Connection) : Prop :=
  ∃ bytes conn', frame.writeTo [] = some bytes ∧
    newFrame (bytes ++ rest) conn = some ⟨.ok (some frame), rest, conn'⟩

/-- The bytes start with a frame that is encoded the same way again once it is decoded. -/
def Reencodes (bytes rest : List UInt8) (conn : Connection) : Prop :=
  ∃ frame conn', newFrame (bytes ++ rest) conn = some ⟨.ok (some frame), rest, conn'⟩ ∧
    frame.writeTo [] = some bytes

inductive StreamLimit where
  | maxStreams
  | streamsBlocked
  deriving DecidableEq

namespace StreamLimit

def frame (kind : StreamLimit) (streamsType : StreamsType) (limit : Nat) : Frame :=
  match kind with
  | .maxStreams => .maxStreams ⟨streamsType, limit⟩
  | .streamsBlocked => .streamsBlocked ⟨streamsType, limit⟩

def typeByte (kind : StreamLimit) (streamsType : StreamsType) : UInt8 :=
  match kind with
  | .maxStreams => UInt8.ofNat (streamsType.frameType FrameType.maxStreams)
  | .streamsBlocked => UInt8.ofNat (streamsType.frameType FrameType.streamsBlocked)

def minimalEncoding (kind : StreamLimit) (streamsType : StreamsType) (limit : Nat) : List UInt8 :=
  kind.typeByte streamsType :: varIntBytes limit

theorem writeTo_frame (kind : StreamLimit) (t : StreamsType) {limit : Nat} (h : limit < 2 ^ 62)
    : (kind.frame t limit).writeTo [] = some (kind.minimalEncoding t limit) := by
  rw [Frame.writeTo_eq]
  . cases kind <;> rfl
  . cases kind <;> exact h

theorem typeByte_inj (kind : StreamLimit) {t t' : StreamsType}
    (h : kind.typeByte t = kind.typeByte t')
    : t = t' := by
  revert h
  cases kind <;> cases t <;> cases t' <;> decide

theorem frame_inj (kind : StreamLimit) {t t' : StreamsType} {limit : Nat}
    (h : kind.frame t limit = kind.frame t' limit)
    : t = t' := by
  cases kind <;> injection h with h <;> injection h

/-- The decoders drop the direction, whatever the type byte says. -/
theorem newFrame_minimalEncoding (kind : StreamLimit) (t : StreamsType) {limit : Nat}
    (h : limit < 2 ^ 62) (rest : List UInt8) (conn : Connection)
    : newFrame (kind.minimalEncoding t limit ++ rest) conn
        = some ⟨.ok (some (kind.frame .bidiStreams limit)), rest, conn⟩ := by
  have hread := readOne_append h (kind.typeByte t) rest
  cases kind with
  | maxStreams =>
    have hdecode : newMaxStreamIdFrame (typeByte .maxStreams t :: (varIntBytes limit ++ rest))
        = (⟨.bidiStreams, limit⟩, rest) := by
      unfold newMaxStreamIdFrame
      rw [hread]
    cases t <;> apply congrArg (NewFrame.plain conn .maxStreams) hdecode
  | streamsBlocked =>
    have hdecode : newStreamIdNeededFrame (typeByte .streamsBlocked t :: (varIntBytes limit ++ rest))
        = (⟨.bidiStreams, limit⟩, rest) := by
      unfold newStreamIdNeededFrame
      rw [hread]
    cases t <;> apply congrArg (NewFrame.plain conn .streamsBlocked) hdecode

theorem roundTrips_iff (kind : StreamLimit) (t : StreamsType) {limit : Nat} (h : limit < 2 ^ 62)
    (rest : List UInt8) (conn : Connection)
    : (kind.frame t limit).RoundTrips rest conn ↔ t = .bidiStreams := by
  apply Iff.intro
  . intro hround
    rcases hround with ⟨bytes, conn', hwrite, hnew⟩
    rw [kind.writeTo_frame t h] at hwrite
    injection hwrite with hwrite
    rw [← hwrite] at hnew
    rw [kind.newFrame_minimalEncoding t h] at hnew
    simp only [Option.some.injEq, NewFrame.mk.injEq, Except.ok.injEq] at hnew
    exact (kind.frame_inj hnew.1).symm
  . intro hbidi
    rw [hbidi]
    exact ⟨_, conn, kind.writeTo_frame _ h, kind.newFrame_minimalEncoding _ h rest conn⟩

theorem reencodes_iff (kind : StreamLimit) (t : StreamsType) {limit : Nat} (h : limit < 2 ^ 62)
    (rest : List UInt8) (conn : Connection)
    : Reencodes (kind.minimalEncoding t limit) rest conn ↔ t = .bidiStreams := by
  apply Iff.intro
  . intro hre
    rcases hre with ⟨frame, conn', hnew, hwrite⟩
    rw [kind.newFrame_minimalEncoding t h] at hnew
    simp only [Option.some.injEq, NewFrame.mk.injEq, Except.ok.injEq] at hnew
    rw [← hnew.1] at hwrite
    rw [kind.writeTo_frame _ h] at hwrite
    injection hwrite with hwrite
    injection hwrite with hwrite
    exact (kind.typeByte_inj hwrite).symm
  . intro hbidi
    rw [hbidi]
    exact ⟨_, conn, kind.newFrame_minimalEncoding _ h rest conn, kind.writeTo_frame _ h⟩

theorem keeps_direction_iff_bidi (kind : StreamLimit) (t : StreamsType) (limit : Nat)
    (h : limit < 2 ^ 62) (rest : List UInt8) (conn : Connection)
    : ((kind.frame t limit).RoundTrips rest conn ↔ t = .bidiStreams) ∧
      (Reencodes (kind.minimalEncoding t limit) rest conn ↔ t = .bidiStreams) := by
  apply And.intro
  . apply kind.roundTrips_iff t h
  . apply kind.reencodes_iff t h

theorem keeps_direction_iff_bidi_five
    : (frame .maxStreams .bidiStreams 5).RoundTrips [1] {} ∧
      Reencodes [0x12, 5] [1] {} := by
  have hiff := keeps_direction_iff_bidi .maxStreams .bidiStreams 5 (by decide) [1] {}
  exact ⟨hiff.1.mpr rfl, hiff.2.mpr rfl⟩

theorem not_roundTrips_uni
    : ¬ (frame .maxStreams .uniStreams 5).RoundTrips [] {} ∧ ¬ Reencodes [0x13, 5] [] {} := by
  apply And.intro
  . rw [roundTrips_iff _ _ (by decide)]
    decide
  . intro hre
    have hbidi := (reencodes_iff .maxStreams .uniStreams (by decide : 5 < 2 ^ 62) [] {}).mp hre
    cases hbidi

end StreamLimit

end QuicTracker
