import QuicTracker.Impl.Frames.Length
import QuicTracker.Lemmas.Frames.Payload

/-!
This module contains the bytes that a frame writes and their number. A frame whose length can be
computed can be written, whatever its other fields are, and the length is the number of bytes as far
as 16 bits hold it.
-/

namespace QuicTracker

open ByteReader

/-- The writer appends the same bytes to every buffer. -/
def Writes (write : List UInt8 → Option (List UInt8)) : Prop :=
  ∃ bytes, ∀ buffer, write buffer = some (buffer ++ bytes)

def Appends (write : List UInt8 → Option (List UInt8)) (n : Nat) : Prop :=
  ∃ bytes, (∀ buffer, write buffer = some (buffer ++ bytes)) ∧ bytes.length = n

namespace Appends

theorem writes {write : List UInt8 → Option (List UInt8)} {n : Nat} (h : Appends write n)
    : Writes write := by
  rcases h with ⟨bytes, h, _⟩
  exact ⟨bytes, h⟩

theorem bytes (data : List UInt8) : Appends (fun buffer => some (buffer ++ data)) data.length :=
  ⟨data, fun _ => rfl, rfl⟩

theorem nothing : Appends some 0 :=
  ⟨[], fun buffer => by rw [List.append_nil], rfl⟩

theorem bind {write write' : List UInt8 → Option (List UInt8)} {n n' : Nat} (h : Appends write n)
    (h' : Appends write' n')
    : Appends (fun buffer => write buffer >>= write') (n + n') := by
  rcases h with ⟨bytes, h, rfl⟩
  rcases h' with ⟨bytes', h', rfl⟩
  refine ⟨bytes ++ bytes', ?_, List.length_append⟩
  intro buffer
  dsimp only
  rw [h buffer]
  rw [Option.bind_eq_bind, Option.bind_some]
  rw [h']
  rw [List.append_assoc]

theorem after (data : List UInt8) {write : List UInt8 → Option (List UInt8)} {n : Nat}
    (h : Appends write n)
    : Appends (fun buffer => write (buffer ++ data)) (data.length + n) := by
  rcases h with ⟨bytes, h, rfl⟩
  refine ⟨data ++ bytes, ?_, List.length_append⟩
  intro buffer
  dsimp only
  rw [h]
  rw [List.append_assoc]

theorem varInt {i n : Nat} (h : varIntLen i = some n) : Appends (writeVarInt · i) n := by
  have hlt := lt_of_varIntLen h
  rw [varIntLen_of_lt hlt] at h
  injection h with h
  exact ⟨varIntBytes i, writeVarInt_of_lt hlt, h⟩

theorem frameType {t : Nat} (h : t < 64) : Appends (writeVarInt · t) 1 :=
  ⟨[UInt8.ofNat t], writeVarInt_frameType h, rfl⟩

end Appends

def Measured (write : List UInt8 → Option (List UInt8)) (length : Nat) : Prop :=
  ∃ n, Appends write n ∧ length = u16 n

namespace AckFrame

theorem appends_blocks {blocks : List AckBlock} {length i total : Nat} (hi : 0 < i)
    (hlength : length < 2 ^ 16) (h : addBlockLengths length i blocks = some total)
    : ∃ n, Appends (writeBlocks blocks) n ∧ total = u16 (length + n) := by
  induction blocks generalizing length i with
  | nil =>
    injection h with h
    refine ⟨0, .nothing, ?_⟩
    unfold u16
    omega
  | cons ack blocks ih =>
    unfold addBlockLengths at h
    rw [if_pos hi] at h
    rcases Option.bind_eq_some_iff.mp h with ⟨length', hgap, h₁⟩
    rcases Option.bind_eq_some_iff.mp hgap with ⟨gap, hgap', hlength'⟩
    rcases Option.bind_eq_some_iff.mp h₁ with ⟨block, hblock, h₂⟩
    rcases ih (Nat.succ_pos i) (Nat.mod_lt _ (by decide)) h₂ with ⟨n, hblocks, htotal⟩
    injection hlength' with hlength'
    refine ⟨_, .bind (.varInt hgap') (.bind (.varInt hblock) hblocks), ?_⟩
    unfold u16 at hlength' htotal ⊢
    omega

theorem appends_ranges {blocks : List AckBlock} {length total : Nat}
    (hlength : length < 2 ^ 16) (h : addBlockLengths length 0 blocks = some total)
    : ∃ n, Appends (fun buffer =>
        match blocks with
        | [] => some buffer
        | first :: blocks => writeVarInt buffer first.block >>= writeBlocks blocks) n ∧
        total = u16 (length + n) := by
  cases blocks with
  | nil =>
    injection h with h
    refine ⟨0, .nothing, ?_⟩
    unfold u16
    omega
  | cons first blocks =>
    unfold addBlockLengths at h
    rcases Option.bind_eq_some_iff.mp h with ⟨_, hfirst, h₁⟩
    rcases appends_blocks (Nat.succ_pos 0) (Nat.mod_lt _ (by decide)) h₁ with ⟨n, hblocks, htotal⟩
    refine ⟨_, .bind (.varInt hfirst) hblocks, ?_⟩
    unfold u16 at htotal ⊢
    omega

theorem measured {f : AckFrame} {length : Nat} (h : f.frameLength = some length)
    : Measured f.writeTo length := by
  rcases Option.bind_eq_some_iff.mp h with ⟨_, hlargest, h₁⟩
  rcases Option.bind_eq_some_iff.mp h₁ with ⟨_, hdelay, h₂⟩
  rcases Option.bind_eq_some_iff.mp h₂ with ⟨_, hcount, h₃⟩
  have htype : f.frameType < 64 := Frame.frameType_lt (.ack f)
  rcases appends_ranges (Nat.mod_lt _ (by decide)) h₃ with ⟨n, hblocks, hlength⟩
  refine ⟨_, .bind (.frameType htype) (.bind (.varInt hlargest) (.bind (.varInt hdelay)
    (.bind (.varInt hcount) hblocks))), ?_⟩
  unfold u16 at hlength ⊢
  omega

end AckFrame

theorem AckECNFrame.measured {f : AckECNFrame} {length : Nat} (h : f.frameLength = some length)
    : Measured f.writeTo length := by
  rcases Option.bind_eq_some_iff.mp h with ⟨_, hack, h₁⟩
  rcases Option.bind_eq_some_iff.mp h₁ with ⟨_, hect0, h₂⟩
  rcases Option.bind_eq_some_iff.mp h₂ with ⟨_, hect1, h₃⟩
  rcases Option.bind_eq_some_iff.mp h₃ with ⟨_, hectCE, hlength⟩
  rcases AckFrame.measured hack with ⟨n, happends, hn⟩
  injection hlength with hlength
  refine ⟨_, .bind happends (.bind (.varInt hect0) (.bind (.varInt hect1) (.varInt hectCE))), ?_⟩
  unfold u16 at hn hlength ⊢
  omega

theorem measured_one {t i length : Nat} (ht : t < 64) (h : lengthOne i = some length)
    : Measured (writeOne t i) length := by
  rcases Option.bind_eq_some_iff.mp h with ⟨_, hi, hlength⟩
  injection hlength with hlength
  refine ⟨_, .bind (.frameType ht) (.varInt hi), ?_⟩
  unfold u16 at hlength ⊢
  omega

theorem measured_two {t i j length : Nat} (ht : t < 64) (h : lengthTwo i j = some length)
    : Measured (writeTwo t i j) length := by
  rcases Option.bind_eq_some_iff.mp h with ⟨_, hi, h₁⟩
  rcases Option.bind_eq_some_iff.mp h₁ with ⟨_, hj, hlength⟩
  injection hlength with hlength
  refine ⟨_, .bind (.frameType ht) (.bind (.varInt hi) (.varInt hj)), ?_⟩
  unfold u16 at hlength ⊢
  omega

theorem appends_reasonPhrase {length n : Nat} (h : varIntLen length = some n) (phrase : List UInt8)
    : Appends (writeReasonPhrase length phrase) (n + if length > 0 then phrase.length else 0) := by
  refine .bind (.varInt h) ?_
  by_cases hpos : length > 0
  . rw [show (fun buffer : List UInt8 => pure (if length > 0 then buffer ++ phrase else buffer))
      = fun buffer => some (buffer ++ phrase) from funext fun _ => by rw [if_pos hpos]; rfl]
    rw [if_pos hpos]
    exact .bytes phrase
  . rw [show (fun buffer : List UInt8 => pure (if length > 0 then buffer ++ phrase else buffer))
      = some from funext fun _ => by rw [if_neg hpos]; rfl]
    rw [if_neg hpos]
    exact .nothing

theorem StreamFrame.measured {f : StreamFrame} {length : Nat} (h : f.frameLength = some length)
    : Measured f.writeTo length := by
  have htype := f.typeByte_bounds
  rcases f with ⟨fin, len, off, streamId, offset, declared, streamData⟩
  rcases Option.bind_eq_some_iff.mp h with ⟨_, hstreamId, h₁⟩
  cases off with
  | true =>
    rcases Option.bind_eq_some_iff.mp h₁ with ⟨_, hoff, h₂⟩
    rcases Option.bind_eq_some_iff.mp hoff with ⟨_, hoffset, hstart⟩
    injection hstart with hstart
    cases len with
    | true =>
      rcases Option.bind_eq_some_iff.mp h₂ with ⟨_, hdeclared, hlength⟩
      rcases Option.bind_eq_some_iff.mp hdeclared with ⟨_, hlen, hsum⟩
      injection hlength with hlength
      injection hsum with hsum
      refine ⟨_, .bind (.frameType (by omega)) (.bind (.varInt hstreamId) (.bind (.varInt hoffset)
        (.bind (.varInt hlen) (.bytes _)))), ?_⟩
      unfold u16 at hstart hsum hlength ⊢
      omega
    | false =>
      injection h₂ with hlength
      refine ⟨_, .bind (.frameType (by omega)) (.bind (.varInt hstreamId) (.bind (.varInt hoffset)
        (.bytes _))), ?_⟩
      unfold u16 at hstart hlength ⊢
      omega
  | false =>
    cases len with
    | true =>
      rcases Option.bind_eq_some_iff.mp h₁ with ⟨_, hdeclared, hlength⟩
      rcases Option.bind_eq_some_iff.mp hdeclared with ⟨_, hlen, hsum⟩
      injection hlength with hlength
      injection hsum with hsum
      refine ⟨_, .bind (.frameType (by omega)) (.bind (.varInt hstreamId) (.bind .nothing
        (.bind (.varInt hlen) (.bytes _)))), ?_⟩
      unfold u16 at hsum hlength ⊢
      omega
    | false =>
      injection h₁ with hlength
      refine ⟨_, .bind (.frameType (by omega)) (.bind (.varInt hstreamId) (.bytes _)), ?_⟩
      unfold u16 at hlength ⊢
      omega

/-- The reason of a closing frame is as long as it is declared to be. -/
def Frame.ReasonDeclared (frame : Frame) : Prop :=
  match frame with
  | .connectionClose f => f.reasonPhraseLength = f.reasonPhrase.length
  | .applicationClose f => f.reasonPhraseLength = f.reasonPhrase.length
  | _ => True

theorem Frame.appends {frame : Frame} {length : Nat} (h : frame.frameLength = some length)
    : ∃ n, Appends frame.writeTo n ∧ (frame.ReasonDeclared → length = u16 n) := by
  have hmeasured {write : List UInt8 → Option (List UInt8)} (h : Measured write length)
      : ∃ n, Appends write n ∧ (frame.ReasonDeclared → length = u16 n) := by
    rcases h with ⟨n, happends, hlength⟩
    exact ⟨n, happends, fun _ => hlength⟩
  have htype := frameType_lt frame
  cases frame with
  | padding =>
    injection h with h
    exact ⟨1, .frameType htype, fun _ => h.symm⟩
  | ping =>
    injection h with h
    exact ⟨1, .frameType htype, fun _ => h.symm⟩
  | ack f => exact hmeasured (f.measured h)
  | ackECN f => exact hmeasured (f.measured h)
  | resetStream f =>
    rcases Option.bind_eq_some_iff.mp h with ⟨_, hstreamId, h₁⟩
    rcases Option.bind_eq_some_iff.mp h₁ with ⟨_, hoffset, hlength⟩
    injection hlength with hlength
    refine hmeasured ⟨_, .bind (.frameType htype) (.bind (.varInt hstreamId)
      (.bind (.bytes (beBytes 2 f.applicationErrorCode)) (.varInt hoffset))), ?_⟩
    rw [length_beBytes]
    unfold u16 at hlength ⊢
    omega
  | stopSending f =>
    rcases Option.bind_eq_some_iff.mp h with ⟨_, hstreamId, hlength⟩
    injection hlength with hlength
    refine hmeasured ⟨_, .bind (.frameType htype) (.bind (.varInt hstreamId) (.bytes _)), ?_⟩
    rw [length_beBytes]
    unfold u16 at hlength ⊢
    omega
  | crypto f =>
    rcases Option.bind_eq_some_iff.mp h with ⟨_, hoffset, h₁⟩
    rcases Option.bind_eq_some_iff.mp h₁ with ⟨_, hdeclared, hlength⟩
    injection hlength with hlength
    refine hmeasured ⟨_, .bind (.frameType htype) (.bind (.varInt hoffset)
      (.bind (.varInt hdeclared) (.bytes _))), ?_⟩
    unfold u16 at hlength ⊢
    omega
  | newToken f =>
    rcases Option.bind_eq_some_iff.mp h with ⟨_, hdeclared, hlength⟩
    injection hlength with hlength
    refine hmeasured ⟨_, .bind (.frameType htype) (.bind (.varInt hdeclared) (.bytes _)), ?_⟩
    unfold u16 at hlength ⊢
    omega
  | stream f => exact hmeasured (f.measured h)
  | maxData f => exact hmeasured (measured_one htype h)
  | maxStreamData f => exact hmeasured (measured_two htype h)
  | maxStreams f => exact hmeasured (measured_one htype h)
  | dataBlocked f => exact hmeasured (measured_one htype h)
  | streamDataBlocked f => exact hmeasured (measured_two htype h)
  | streamsBlocked f => exact hmeasured (measured_one htype h)
  | newConnectionId f =>
    rcases Option.bind_eq_some_iff.mp h with ⟨_, hsequence, hlength⟩
    injection hlength with hlength
    have htail : Appends (fun buffer => some (buffer ++ [f.length] ++ f.connectionId ++
        f.statelessResetToken.toList)) (1 + f.connectionId.length + 16) :=
      ⟨[f.length] ++ f.connectionId ++ f.statelessResetToken.toList, by simp, by simp; omega⟩
    refine hmeasured ⟨_, .bind (.frameType htype) (.bind (.varInt hsequence) htail), ?_⟩
    unfold u16 at hlength ⊢
    omega
  | retireConnectionId f => exact hmeasured (measured_one htype h)
  | pathChallenge f =>
    injection h with h
    exact hmeasured ⟨_, .bind (.frameType htype) (.bytes _), by simp [u16, ← h]⟩
  | pathResponse f =>
    injection h with h
    exact hmeasured ⟨_, .bind (.frameType htype) (.bytes _), by simp [u16, ← h]⟩
  | connectionClose f =>
    rcases Option.bind_eq_some_iff.mp h with ⟨_, herrorType, h₁⟩
    rcases Option.bind_eq_some_iff.mp h₁ with ⟨_, hdeclared, hlength⟩
    injection hlength with hlength
    refine ⟨_, .bind (.frameType htype) (.after _ (.bind (.varInt herrorType)
      (appends_reasonPhrase hdeclared _))), ?_⟩
    intro hreason
    have hreason : f.reasonPhraseLength = f.reasonPhrase.length := hreason
    rw [length_beBytes]
    unfold u16 at hlength ⊢
    split
    . omega
    . omega
  | applicationClose f =>
    rcases Option.bind_eq_some_iff.mp h with ⟨_, hdeclared, hlength⟩
    injection hlength with hlength
    refine ⟨_, .bind (.frameType htype) (.after _ (appends_reasonPhrase hdeclared _)), ?_⟩
    intro hreason
    have hreason : f.reasonPhraseLength = f.reasonPhrase.length := hreason
    rw [length_beBytes]
    unfold u16 at hlength ⊢
    split
    . omega
    . omega

theorem Frame.writes {frame : Frame} (h : frame.frameLength.isSome) : Writes frame.writeTo := by
  rcases Option.isSome_iff_exists.mp h with ⟨length, h⟩
  rcases appends h with ⟨n, happends, _⟩
  exact happends.writes

def Frame.size (frame : Frame) : Nat := ((frame.writeTo []).getD []).length

theorem Frame.size_of_writes {frame : Frame} {bytes : List UInt8}
    (h : ∀ buffer, frame.writeTo buffer = some (buffer ++ bytes))
    : frame.size = bytes.length := by
  unfold size
  rw [h []]
  rfl

theorem encodePayload_writes {frames : List Frame} (h : ∀ frame ∈ frames, Writes frame.writeTo)
    : ∃ bytes, encodePayload frames = some bytes ∧ bytes.length = (frames.map Frame.size).sum := by
  have hgo : ∀ buffer, ∃ bytes,
      frames.foldlM (fun buffer frame => frame.writeTo buffer) buffer = some (buffer ++ bytes) ∧
        bytes.length = (frames.map Frame.size).sum := by
    induction frames with
    | nil => exact fun buffer => ⟨[], by simp, rfl⟩
    | cons frame frames ih =>
      intro buffer
      rcases h frame List.mem_cons_self with ⟨bytes, hbytes⟩
      rcases ih (fun f hf => h f (List.mem_cons_of_mem frame hf)) (buffer ++ bytes) with
        ⟨bytes', hbytes', hlength⟩
      refine ⟨bytes ++ bytes', ?_, ?_⟩
      . rw [List.foldlM_cons]
        rw [hbytes buffer]
        rw [← List.append_assoc]
        exact hbytes'
      . simp [Frame.size_of_writes hbytes, hlength]
  rcases hgo [] with ⟨bytes, hbytes, hlength⟩
  exact ⟨bytes, hbytes, hlength⟩

def AckFrame.InRange (f : AckFrame) : Prop :=
  f.largestAcknowledged < 2 ^ 62 ∧ f.ackDelay < 2 ^ 62 ∧ f.ackBlockCount < 2 ^ 62 ∧
    ∀ b ∈ f.ackBlocks, b.gap < 2 ^ 62 ∧ b.block < 2 ^ 62

def Frame.InRange (frame : Frame) : Prop :=
  match frame with
  | .padding => True
  | .ping => True
  | .ack f => f.InRange
  | .ackECN f => f.InRange ∧ f.ect0Count < 2 ^ 62 ∧ f.ect1Count < 2 ^ 62 ∧ f.ectCECount < 2 ^ 62
  | .resetStream f => f.streamId < 2 ^ 62 ∧ f.finalOffset < 2 ^ 62
  | .stopSending f => f.streamId < 2 ^ 62
  | .crypto f => f.offset < 2 ^ 62 ∧ f.length < 2 ^ 62
  | .newToken f => f.token.length < 2 ^ 62
  | .stream f => f.streamId < 2 ^ 62 ∧ f.offset < 2 ^ 62 ∧ f.length < 2 ^ 62
  | .maxData f => f.maximumData < 2 ^ 62
  | .maxStreamData f => f.streamId < 2 ^ 62 ∧ f.maximumStreamData < 2 ^ 62
  | .maxStreams f => f.maximumStreams < 2 ^ 62
  | .dataBlocked f => f.dataLimit < 2 ^ 62
  | .streamDataBlocked f => f.streamId < 2 ^ 62 ∧ f.streamDataLimit < 2 ^ 62
  | .streamsBlocked f => f.streamLimit < 2 ^ 62
  | .newConnectionId f => f.sequence < 2 ^ 62
  | .retireConnectionId f => f.sequenceNumber < 2 ^ 62
  | .pathChallenge _ => True
  | .pathResponse _ => True
  | .connectionClose f => f.errorFrameType < 2 ^ 62 ∧ f.reasonPhraseLength < 2 ^ 62
  | .applicationClose f => f.reasonPhraseLength < 2 ^ 62

theorem bind_varIntLen {α : Type} {i : Nat} (h : i < 2 ^ 62) {f : Nat → Option α}
    (hf : ∀ n, (f n).isSome)
    : (varIntLen i >>= f).isSome := by
  rw [varIntLen_of_lt h]
  exact hf _

theorem AckFrame.addBlockLengths_isSome {blocks : List AckBlock}
    (h : ∀ b ∈ blocks, b.gap < 2 ^ 62 ∧ b.block < 2 ^ 62) (length i : Nat)
    : (addBlockLengths length i blocks).isSome := by
  induction blocks generalizing length i with
  | nil => rfl
  | cons ack blocks ih =>
    have hack := h ack List.mem_cons_self
    have hblocks := ih (fun b hb => h b (List.mem_cons_of_mem ack hb))
    unfold addBlockLengths
    by_cases hi : i > 0
    . rw [if_pos hi]
      rw [varIntLen_of_lt hack.1]
      exact bind_varIntLen hack.2 (fun _ => hblocks _ _)
    . rw [if_neg hi]
      exact bind_varIntLen hack.2 (fun _ => hblocks _ _)

theorem AckFrame.frameLength_isSome {f : AckFrame} (h : f.InRange) : f.frameLength.isSome :=
  bind_varIntLen h.1 (fun _ => bind_varIntLen h.2.1 (fun _ => bind_varIntLen h.2.2.1
    (fun _ => addBlockLengths_isSome h.2.2.2 _ _)))

theorem StreamFrame.frameLength_isSome {f : StreamFrame} (hstreamId : f.streamId < 2 ^ 62)
    (hoffset : f.offset < 2 ^ 62) (hlength : f.length < 2 ^ 62)
    : f.frameLength.isSome := by
  unfold frameLength
  rw [varIntLen_of_lt hstreamId, varIntLen_of_lt hoffset, varIntLen_of_lt hlength]
  cases f.offBit with
  | true =>
    cases f.lenBit with
    | true => rfl
    | false => rfl
  | false =>
    cases f.lenBit with
    | true => rfl
    | false => rfl

theorem lengthOne_isSome {i : Nat} (h : i < 2 ^ 62) : (lengthOne i).isSome :=
  bind_varIntLen h (fun _ => rfl)

theorem lengthTwo_isSome {i j : Nat} (hi : i < 2 ^ 62) (hj : j < 2 ^ 62)
    : (lengthTwo i j).isSome :=
  bind_varIntLen hi (fun _ => bind_varIntLen hj (fun _ => rfl))

theorem Frame.frameLength_isSome {frame : Frame} (h : frame.InRange)
    : frame.frameLength.isSome := by
  cases frame with
  | padding => rfl
  | ping => rfl
  | ack f => exact f.frameLength_isSome h
  | ackECN f =>
    rcases h with ⟨hack, hect0, hect1, hectCE⟩
    rcases Option.isSome_iff_exists.mp (f.frameLength_isSome hack) with ⟨n, hn⟩
    unfold frameLength AckECNFrame.frameLength
    dsimp only
    rw [hn]
    exact bind_varIntLen hect0 (fun _ => bind_varIntLen hect1 (fun _ => bind_varIntLen hectCE
      (fun _ => rfl)))
  | resetStream f => exact bind_varIntLen h.1 (fun _ => bind_varIntLen h.2 (fun _ => rfl))
  | stopSending f => exact bind_varIntLen h (fun _ => rfl)
  | crypto f => exact bind_varIntLen h.1 (fun _ => bind_varIntLen h.2 (fun _ => rfl))
  | newToken f => exact bind_varIntLen h (fun _ => rfl)
  | stream f => exact f.frameLength_isSome h.1 h.2.1 h.2.2
  | maxData f => exact lengthOne_isSome h
  | maxStreamData f => exact lengthTwo_isSome h.1 h.2
  | maxStreams f => exact lengthOne_isSome h
  | dataBlocked f => exact lengthOne_isSome h
  | streamDataBlocked f => exact lengthTwo_isSome h.1 h.2
  | streamsBlocked f => exact lengthOne_isSome h
  | newConnectionId f => exact bind_varIntLen h (fun _ => rfl)
  | retireConnectionId f => exact lengthOne_isSome h
  | pathChallenge f => rfl
  | pathResponse f => rfl
  | connectionClose f => exact bind_varIntLen h.1 (fun _ => bind_varIntLen h.2 (fun _ => rfl))
  | applicationClose f => exact bind_varIntLen h (fun _ => rfl)

theorem Frame.frameLength_predicts (frame : Frame) (hrange : frame.InRange)
    (hreason : frame.ReasonDeclared)
    : ∃ n bytes, frame.frameLength = some n ∧
        (∀ buffer, frame.writeTo buffer = some (buffer ++ bytes)) ∧ n = bytes.length % 2 ^ 16 ∧
        (bytes.length < 65536 → n = bytes.length) := by
  rcases Option.isSome_iff_exists.mp (frameLength_isSome hrange) with ⟨n, hn⟩
  rcases appends hn with ⟨m, ⟨bytes, hbytes, hlength⟩, hmeasured⟩
  have hmod : n = bytes.length % 2 ^ 16 := by
    rw [hlength]
    exact hmeasured hreason
  refine ⟨n, bytes, hn, hbytes, hmod, ?_⟩
  intro hlt
  rw [hmod]
  exact Nat.mod_eq_of_lt hlt

theorem Frame.frameLength_predicts_ack
    : ∃ n bytes, frameLength (.ack ⟨70, 2, 1, [⟨0, 3⟩, ⟨500, 7⟩]⟩) = some n ∧
        (∀ buffer, writeTo (.ack ⟨70, 2, 1, [⟨0, 3⟩, ⟨500, 7⟩]⟩) buffer = some (buffer ++ bytes)) ∧
        n = bytes.length % 2 ^ 16 ∧ (bytes.length < 65536 → n = bytes.length) :=
  frameLength_predicts _ (by simp [InRange, AckFrame.InRange]) trivial

end QuicTracker
