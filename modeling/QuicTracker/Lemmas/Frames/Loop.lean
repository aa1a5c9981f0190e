import QuicTracker.Impl.Packets
import QuicTracker.Lemmas.Frames.Direction

/-!
This module contains what one call of `NewFrame` does to the buffer and to the connection, and the loop
over it in the readers of a packet. The connection does not decide which frames are read, and the loop
ends because every frame takes a byte.
-/

namespace QuicTracker

open ByteReader

theorem length_readFull_le (n : Nat) (b : List UInt8) : (readFull n b).2.length ≤ b.length := by
  unfold readFull
  split
  . simp
  . simp

theorem length_readInto_le (n : Nat) (b : List UInt8) : (readInto n b).2.length ≤ b.length := by
  simp

theorem length_readUint16_le (b : List UInt8) : (readUint16 b).2.length ≤ b.length := by
  apply length_readFull_le

theorem length_readArray_le (n : Nat) (b : List UInt8) : (readArray n b).2.length ≤ b.length := by
  apply length_readInto_le

theorem length_readFullArray_le (n : Nat) (b : List UInt8)
    : (readFullArray n b).2.length ≤ b.length := by
  unfold readFullArray
  split
  . apply length_readArray_le
  . simp

theorem length_readReasonPhrase_le (n : Nat) (b : List UInt8)
    : (readReasonPhrase n b).2.length ≤ b.length := by
  unfold readReasonPhrase
  split
  . apply length_readFull_le
  . simp

theorem length_readAckBlocks_le (n : Nat) (b : List UInt8)
    : (readAckBlocks n b).2.length ≤ b.length := by
  induction n generalizing b with
  | zero => simp [readAckBlocks]
  | succ n ih =>
    have h1 := length_readVarIntField_le b
    have h2 := length_readVarIntField_le (readVarIntField b).2
    have h3 := ih (readVarIntField (readVarIntField b).2).2
    unfold readAckBlocks
    dsimp only
    omega

theorem length_readPacketNumber_le (b : List UInt8) : (readPacketNumber b).2.length ≤ b.length := by
  apply length_readVarIntField_le

theorem length_readVarIntValue_cons_le (t : UInt8) (b : List UInt8)
    : (readVarIntValue (t :: b)).2.length ≤ b.length := by
  cases readVarIntValue_cases (t :: b) with
  | inl h => simp [h]
  | inr h =>
    rcases h with ⟨bytes, i, rest, hb, hvar⟩
    rw [hb]
    rw [hvar rest]
    cases bytes with
    | nil => exact absurd (hvar []) (by simp [readVarIntValue])
    | cons t' bytes =>
      injection hb with _ hb
      simp [hb]

/-- At least the type byte is taken by `read`. -/
def Consumes (read : List UInt8 → α × List UInt8) : Prop :=
  ∀ t b, (read (t :: b)).2.length ≤ b.length

theorem consumes_readAckFrame : Consumes readAckFrame := by
  intro t b
  simp only [readAckFrame, discardByte, readByte_cons]
  grind [length_readPacketNumber_le, length_readVarIntField_le, length_readAckBlocks_le]

theorem consumes_readAckECNFrame : Consumes readAckECNFrame := by
  intro t b
  have hack := consumes_readAckFrame t b
  simp only [readAckECNFrame]
  grind [length_readVarIntField_le]

theorem consumes_newResetStream : Consumes newResetStream := by
  intro t b
  simp only [newResetStream, discardByte, readByte_cons]
  grind [length_readVarIntField_le, length_readUint16_le]

theorem consumes_newStopSendingFrame : Consumes newStopSendingFrame := by
  intro t b
  simp only [newStopSendingFrame, discardByte, readByte_cons]
  grind [length_readVarIntField_le, length_readUint16_le]

theorem consumes_readCryptoFrame : Consumes readCryptoFrame := by
  intro t b
  simp only [readCryptoFrame]
  grind [length_readVarIntValue_cons_le, length_readVarIntField_le, length_readInto_le]

theorem consumes_readNewTokenFrame : Consumes readNewTokenFrame := by
  intro t b
  simp only [readNewTokenFrame]
  grind [length_readVarIntValue_cons_le, length_readVarIntField_le, length_readInto_le]

theorem consumes_parseStreamFrame : Consumes parseStreamFrame := by
  intro t b
  simp only [parseStreamFrame, readByte_cons]
  grind [length_readVarIntField_le, length_readInto_le]

theorem consumes_readOne : Consumes readOne := by
  intro t b
  simp only [readOne, discardByte, readByte_cons]
  grind [length_readVarIntField_le]

theorem consumes_readTwo : Consumes readTwo := by
  intro t b
  simp only [readTwo, discardByte, readByte_cons]
  grind [length_readVarIntField_le]

theorem consumes_newNewConnectionIdFrame : Consumes newNewConnectionIdFrame := by
  intro t b
  simp only [newNewConnectionIdFrame, discardByte, readByte_cons]
  grind [length_readVarIntField_le, length_readByte_le, length_readInto_le, length_readFullArray_le]

theorem consumes_readPath (n : Nat) : Consumes (fun b => readArray n (discardByte b)) := by
  intro t b
  simp only [discardByte, readByte_cons]
  grind [length_readArray_le]

theorem consumes_newConnectionCloseFrame : Consumes newConnectionCloseFrame := by
  intro t b
  simp only [newConnectionCloseFrame, discardByte, readByte_cons]
  grind [length_readUint16_le, length_readVarIntField_le, length_readReasonPhrase_le]

theorem consumes_newApplicationCloseFrame : Consumes newApplicationCloseFrame := by
  intro t b
  simp only [newApplicationCloseFrame, discardByte, readByte_cons]
  grind [length_readUint16_le, length_readVarIntField_le, length_readReasonPhrase_le]

def CryptoFrame.toStream (f : CryptoFrame) : StreamFrame :=
  ⟨false, false, false, 0, f.offset, f.length, f.cryptoData⟩

theorem fits_readCryptoFrame (b : List UInt8) : (readCryptoFrame b).1.toStream.Fits := by
  refine ⟨?_, ?_, ?_⟩
  . simp [CryptoFrame.toStream, readCryptoFrame]
  . apply readVarIntField_lt
  . apply readVarIntField_lt

def Frame.CryptoFits (frame : Frame) : Prop := ∀ f, frame = .crypto f → f.toStream.Fits

namespace Connection

/-- A frame changes the streams and, when it is fed to the reader's loop, the crypto streams. -/
structure ReadOn (conn conn' : Connection) : Prop where
  sourceCID : conn'.sourceCID = conn.sourceCID
  cryptoStates : conn'.cryptoStates = conn.cryptoStates
  largestPNsReceived : conn'.largestPNsReceived = conn.largestPNsReceived

theorem ReadOn.refl (conn : Connection) : conn.ReadOn conn := ⟨rfl, rfl, rfl⟩

theorem ReadOn.trans {a b c : Connection} (h : a.ReadOn b) (h' : b.ReadOn c) : a.ReadOn c := by
  refine ⟨?_, ?_, ?_⟩
  . rw [h'.sourceCID, h.sourceCID]
  . rw [h'.cryptoStates, h.cryptoStates]
  . rw [h'.largestPNsReceived, h.largestPNsReceived]

def CryptoShaped (conn : Connection) : Prop :=
  ∀ space, (conn.cryptoStreams.get space).Shape

theorem CryptoShaped.setCryptoStream {conn : Connection} (h : conn.CryptoShaped)
    {stream : Stream} (hs : stream.Shape) (space : PNSpace)
    : (conn.setCryptoStream space stream).CryptoShaped := by
  intro i
  cases decEq i space with
  | isTrue heq => simpa [Connection.setCryptoStream, CryptoStreams.get, heq] using hs
  | isFalse hne => simpa [Connection.setCryptoStream, CryptoStreams.get, hne] using h i

/-- The streams of the connection, whatever was received and written on them. -/
structure Readable (conn : Connection) : Prop where
  streams : conn.StreamsShaped
  cryptoStreams : conn.CryptoShaped

theorem readable_empty : Connection.Readable {} :=
  ⟨fun _ => Stream.shape_newStream, fun _ => Stream.shape_newStream⟩

end Connection

/-- A call returns an error, or a frame that takes a byte and that the connection does not decide. -/
def Steps (buffer : List UInt8) (call : Connection → Option NewFrame) : Prop :=
  (∃ msg, ∀ conn, call conn = some ⟨.error msg, buffer, conn⟩) ∨
  (∃ frame rest, frame.CryptoFits ∧ rest.length < buffer.length ∧
    ∀ conn, conn.Readable → ∃ conn', conn.ReadOn conn' ∧ conn'.Readable ∧
      call conn = some ⟨.ok (some frame), rest, conn'⟩)

namespace Steps

variable {buffer : List UInt8}

theorem error (msg : String) : Steps buffer (fun conn => some ⟨.error msg, buffer, conn⟩) :=
  Or.inl ⟨msg, fun _ => rfl⟩

theorem ite {c : Prop} [Decidable c] {call call' : Connection → Option NewFrame}
    (h : Steps buffer call) (h' : Steps buffer call')
    : Steps buffer (fun conn => if c then call conn else call' conn) := by
  split
  . exact h
  . exact h'

theorem plain (mk : α → Frame) (res : α × List UInt8) (hlt : res.2.length < buffer.length)
    (hfits : (mk res.1).CryptoFits)
    : Steps buffer (fun conn => NewFrame.plain conn mk res) := by
  refine Or.inr ⟨mk res.1, res.2, hfits, hlt, ?_⟩
  intro conn hconn
  exact ⟨conn, .refl conn, hconn, rfl⟩

theorem read {t : UInt8} {b : List UInt8} {mk : α → Frame} {read : List UInt8 → α × List UInt8}
    (h : Consumes read) (hmk : ∀ res f, mk res ≠ .crypto f)
    : Steps (t :: b) (fun conn => NewFrame.plain conn mk (read (t :: b))) := by
  apply plain
  . apply Nat.lt_succ_of_le
    apply h
  . intro f hf
    exact absurd hf (hmk _ f)

theorem stream (t : UInt8) (b : List UInt8) (hlen : (t :: b).length < 2 ^ 62)
    : Steps (t :: b) (fun conn => NewFrame.stream (readStreamFrame (t :: b) conn)) := by
  have hlt := consumes_parseStreamFrame t b
  refine Or.inr ⟨.stream (parseStreamFrame (t :: b)).1, _, ?_, Nat.lt_succ_of_le hlt, ?_⟩
  . intro f hf
    contradiction
  . intro conn hconn
    have hfits := fits_parseStreamFrame hlen
    have hs := hconn.streams (parseStreamFrame (t :: b)).1.streamId
    rcases hs.step hfits with ⟨stream, hadd, hshape, _⟩
    refine ⟨conn.setStream (parseStreamFrame (t :: b)).1.streamId stream, ⟨rfl, rfl, rfl⟩, ?_, ?_⟩
    . exact ⟨hconn.streams.setStream hshape _, hconn.cryptoStreams⟩
    . simp [readStreamFrame, hadd, NewFrame.stream]

end Steps

theorem newFrame_steps (t : UInt8) (b : List UInt8) (hlen : (t :: b).length < 2 ^ 62)
    : Steps (t :: b) (newFrame (t :: b)) := by
  have hone : (discardByte (t :: b)).length < (t :: b).length := by simp [discardByte]
  unfold newFrame
  dsimp only
  refine .ite (.plain (fun _ : Unit => .padding) ((), discardByte (t :: b)) hone ?_) ?_
  . intro f hf
    contradiction
  refine .ite (.plain (fun _ : Unit => .ping) ((), discardByte (t :: b)) hone ?_) ?_
  . intro f hf
    contradiction
  refine .ite (.read consumes_readAckFrame (by simp)) ?_
  refine .ite (.read consumes_readAckECNFrame (by simp)) ?_
  refine .ite (.read consumes_newResetStream (by simp)) ?_
  refine .ite (.read consumes_newStopSendingFrame (by simp)) ?_
  refine .ite (.plain _ _ (Nat.lt_succ_of_le (consumes_readCryptoFrame t b)) ?_) ?_
  . intro f hf
    injection hf with hf
    rw [← hf]
    apply fits_readCryptoFrame
  refine .ite (.read consumes_readNewTokenFrame (by simp)) ?_
  refine .ite (.stream t b hlen) ?_
  refine .ite (.read consumes_readOne (by simp)) ?_
  refine .ite (.read consumes_readTwo (by simp)) ?_
  refine .ite (.read consumes_readOne (by simp)) ?_
  refine .ite (.read consumes_readOne (by simp)) ?_
  refine .ite (.read consumes_readTwo (by simp)) ?_
  refine .ite (.read consumes_readOne (by simp)) ?_
  refine .ite (.read consumes_newNewConnectionIdFrame (by simp)) ?_
  refine .ite (.read consumes_readOne (by simp)) ?_
  refine .ite (.read (consumes_readPath 8) (by simp)) ?_
  refine .ite (.read (consumes_readPath 8) (by simp)) ?_
  refine .ite (.read consumes_newConnectionCloseFrame (by simp)) ?_
  refine .ite (.read consumes_newApplicationCloseFrame (by simp)) ?_
  apply Steps.error

theorem Connection.Readable.readCrypto {conn : Connection} (h : conn.Readable) {frame : Frame}
    (hf : frame.CryptoFits) (space : PNSpace)
    : ∃ conn', conn.readCrypto space frame = some conn' ∧ conn.ReadOn conn' ∧ conn'.Readable := by
  unfold Connection.readCrypto
  split
  . next f =>
    have hfits := hf f rfl
    have hs := h.cryptoStreams space
    rcases hs.step hfits with ⟨stream, hadd, hshape, _⟩
    refine ⟨conn.setCryptoStream space stream, ?_, ⟨rfl, rfl, rfl⟩, h.streams, ?_⟩
    . unfold CryptoFrame.toStream at hadd
      rw [hadd]
      rfl
    . exact h.cryptoStreams.setCryptoStream hshape space
  . exact ⟨conn, rfl, .refl conn, h⟩

/-- The loop over `NewFrame` gets to the end of the payload without an unknown frame type. -/
def ReadsToEnd (payload : List UInt8) : Prop :=
  (readFrames (payload.length + 1) payload {}).isSome

instance (payload : List UInt8) : Decidable (ReadsToEnd payload) :=
  inferInstanceAs (Decidable (_ = true))

/--
The two loops go through the same frames. The induction is on the fuel, which both have more of than there
are bytes.
-/
theorem readPacketFrames_isSome_iff (space : PNSpace) (n : Nat) {buffer : List UInt8}
    (hn : buffer.length < n) (hlen : buffer.length < 2 ^ 62) {conn conn' : Connection}
    (hconn : conn.Readable) (hconn' : conn'.Readable)
    : (readPacketFrames space n buffer conn).isSome ↔ (readFrames n buffer conn').isSome := by
  induction n generalizing buffer conn conn' with
  | zero => omega
  | succ n ih =>
    cases buffer with
    | nil => simp [readPacketFrames, readFrames, newFrame]
    | cons t b =>
      unfold readPacketFrames readFrames
      cases newFrame_steps t b hlen with
      | inl herror =>
        rcases herror with ⟨msg, herror⟩
        simp [herror]
      | inr hframe =>
        rcases hframe with ⟨frame, rest, hfits, hlt, hcall⟩
        rcases hcall conn hconn with ⟨conn1, _, hconn1, hnew⟩
        rcases hcall conn' hconn' with ⟨conn1', _, hconn1', hnew'⟩
        rcases hconn1.readCrypto hfits space with ⟨conn2, hcrypto, _, hconn2⟩
        have hn' : rest.length < n := by
          rw [List.length_cons] at hn hlt
          omega
        have hrest := ih hn' (by omega) hconn2 hconn1'
        rw [hnew]
        rw [hnew']
        dsimp only [Option.bind_eq_bind, Option.bind_some]
        rw [hcrypto]
        dsimp only [Option.bind_some]
        cases hread : readPacketFrames space n rest conn2 with
        | none =>
          rw [hread] at hrest
          cases hread' : readFrames n rest conn1' with
          | none => simp
          | some res => simp [hread'] at hrest
        | some res =>
          rw [hread] at hrest
          rcases Option.isSome_iff_exists.mp (hrest.mp rfl) with ⟨res', hread'⟩
          simp [hread']

theorem readPacketFrames_readOn {space : PNSpace} {n : Nat} {buffer : List UInt8}
    (hlen : buffer.length < 2 ^ 62) {conn conn' : Connection} (hconn : conn.Readable)
    {frames : List Frame} (h : readPacketFrames space n buffer conn = some (frames, conn'))
    : conn.ReadOn conn' ∧ conn'.Readable := by
  induction n generalizing buffer conn frames with
  | zero => simp [readPacketFrames] at h
  | succ n ih =>
    cases buffer with
    | nil =>
      simp [readPacketFrames, newFrame] at h
      rw [← h.2]
      exact ⟨.refl conn, hconn⟩
    | cons t b =>
      unfold readPacketFrames at h
      cases newFrame_steps t b hlen with
      | inl herror =>
        rcases herror with ⟨msg, herror⟩
        simp [herror] at h
      | inr hframe =>
        rcases hframe with ⟨frame, rest, hfits, hlt, hcall⟩
        rcases hcall conn hconn with ⟨conn1, hon1, hconn1, hnew⟩
        rcases hconn1.readCrypto hfits space with ⟨conn2, hcrypto, hon2, hconn2⟩
        rw [hnew] at h
        simp only [Option.bind_eq_bind, Option.bind_some, hcrypto] at h
        rcases Option.bind_eq_some_iff.mp h with ⟨⟨frames', conn3⟩, hread, hres⟩
        injection hres with hres
        injection hres with _ hres
        dsimp only at hres
        rw [hres] at hread
        rcases ih (hlt.trans hlen) hconn2 hread with ⟨hon3, hconn3⟩
        exact ⟨(hon1.trans hon2).trans hon3, hconn3⟩

/-- Every encoder but the one of ACK_ECN writes what `NewFrame` reads as one frame. -/
theorem newFrame_known (frame : Frame) (h : frame.WellFormed) (hecn : ∀ f, frame ≠ .ackECN f)
    (rest : List UInt8) (hlast : frame.EndsPayload → rest = []) (conn : Connection)
    (hconn : conn.StreamsShaped)
    : ∃ frame' conn', conn'.StreamsShaped ∧
        newFrame (frame.bytes ++ rest) conn = some ⟨.ok (some frame'), rest, conn'⟩ := by
  by_cases hsym : frame.Symmetric
  . rcases newFrame_append frame h hsym rest hlast conn hconn with ⟨conn', hconn', hnew⟩
    exact ⟨frame, conn', hconn', hnew⟩
  . cases frame with
    | ackECN f => exact absurd rfl (hecn f)
    | maxStreams f =>
      exact ⟨_, conn, hconn, StreamLimit.newFrame_minimalEncoding .maxStreams f.streamsType h rest conn⟩
    | streamsBlocked f =>
      exact ⟨_, conn, hconn, StreamLimit.newFrame_minimalEncoding .streamsBlocked f.streamsType h rest conn⟩
    | _ => exact absurd trivial hsym

theorem Frame.bytes_ne_nil (frame : Frame) (h : frame.WellFormed) (hecn : ∀ f, frame ≠ .ackECN f)
    : frame.bytes ≠ [] := by
  intro hnil
  rcases newFrame_known frame h hecn [] (fun _ => rfl) {} Connection.readable_empty.streams with ⟨_, _, _, hnew⟩
  rw [hnil] at hnew
  injection hnew with hnew
  injection hnew with hnew
  injection hnew with hnew
  contradiction

theorem readsToEnd_flatMap (frames : List Frame) (h : ∀ frame ∈ frames, frame.WellFormed)
    (hecn : ∀ frame ∈ frames, ∀ f, frame ≠ .ackECN f)
    (hlast : ∀ frame ∈ frames.dropLast, ¬ frame.EndsPayload) {conn : Connection}
    (hconn : conn.StreamsShaped) {n : Nat} (hn : (frames.flatMap Frame.bytes).length < n)
    : (readFrames n (frames.flatMap Frame.bytes) conn).isSome := by
  induction frames generalizing conn n with
  | nil =>
    cases n with
    | zero => omega
    | succ n => rfl
  | cons frame frames ih =>
    cases n with
    | zero => omega
    | succ n =>
      have hends : frame.EndsPayload → frames.flatMap Frame.bytes = [] := by
        intro hends
        cases frames with
        | nil => rfl
        | cons next frames => exact absurd hends (hlast frame (by simp))
      rcases newFrame_known frame (h frame (by simp)) (hecn frame (by simp)) _ hends conn hconn with
        ⟨frame', conn', hconn', hnew⟩
      have hpos := List.length_pos_iff.mpr (frame.bytes_ne_nil (h frame (by simp)) (hecn frame (by simp)))
      have hlast' : ∀ f ∈ frames.dropLast, ¬ f.EndsPayload := by
        intro f hf
        apply hlast
        cases frames with
        | nil => simp at hf
        | cons next frames => simp [hf]
      rw [List.flatMap_cons] at hn ⊢
      rw [List.length_append] at hn
      have hrest := ih (fun f hf => h f (by simp [hf])) (fun f hf => hecn f (by simp [hf])) hlast' hconn'
        (n := n) (by omega)
      unfold readFrames
      rw [hnew]
      rcases Option.isSome_iff_exists.mp hrest with ⟨res, hres⟩
      dsimp only [Option.bind_eq_bind, Option.bind_some]
      rw [hres]
      rfl

end QuicTracker
