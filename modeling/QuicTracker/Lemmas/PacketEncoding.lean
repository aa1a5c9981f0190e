import QuicTracker.Lemmas.HeaderCodec
import QuicTracker.Lemmas.Agents.Parse

/-!
This module contains the encoders of the packets that carry no frames. What they write is never read as
the packet again.
-/

namespace QuicTracker

open ByteReader

theorem readVarInt_getD_lt (b : List UInt8) : ((readVarInt b).1.getD ⟨0, 0⟩).value < 2 ^ 62 := by
  have h := readAsAnnounced b
  unfold ReadAsAnnounced at h
  cases hread : readVarInt b with
  | mk v rest =>
    rw [hread] at h
    cases v with
    | none => exact (by decide : 0 < 2 ^ 62)
    | some v => exact h.2.2.2.2.1

theorem cil_bounds (cidl : UInt8)
    : (3 ≤ dcil cidl ∧ dcil cidl ≤ 18) ∧ 3 ≤ scil cidl ∧ scil cidl ≤ 18 := by
  revert cidl
  apply forall_byte
  decide +kernel

namespace LongHeader

/-- What holds of every header that was read, be it cut off or not. -/
structure FromWire (h : LongHeader) : Prop where
  destinationCID : 3 ≤ h.destinationCID.length ∧ h.destinationCID.length ≤ 18
  sourceCID : 3 ≤ h.sourceCID.length ∧ h.sourceCID.length ≤ 18
  tokenLength : h.tokenLength.value = h.token.length ∧ h.token.length < 2 ^ 62
  length : h.length.value < 2 ^ 62
  truncatedPN : h.packetType ≠ PacketType.retry →
    1 ≤ h.truncatedPN.length ∧ h.truncatedPN.length ≤ 4

theorem fromWire_readToken (packetType : UInt8) (b : List UInt8)
    : let header := (readToken packetType b).header
      header.tokenLength.value = header.token.length ∧ header.token.length < 2 ^ 62 := by
  unfold readToken
  split
  . dsimp only
    rw [length_readInto_fst]
    exact ⟨rfl, readVarInt_getD_lt b⟩
  . exact ⟨rfl, (by decide : 0 < 2 ^ 62)⟩

theorem fromWire_readLengthAndPN (packetType typeByte : UInt8) (b : List UInt8) (conn : Connection)
    : (readLengthAndPN packetType typeByte b conn).header.length.value < 2 ^ 62 ∧
      (packetType ≠ PacketType.retry →
        1 ≤ (readLengthAndPN packetType typeByte b conn).header.truncatedPN.length ∧
        (readLengthAndPN packetType typeByte b conn).header.truncatedPN.length ≤ 4) := by
  unfold readLengthAndPN
  split
  . refine ⟨readVarInt_getD_lt b, ?_⟩
    intro _
    have hpn := ParsingAgent.pnLength_le typeByte
    dsimp only [readTruncatedPN]
    omega
  . next htype => exact ⟨(by decide : 0 < 2 ^ 62), fun h => absurd h htype⟩

theorem fromWire_readLongHeader (b : List UInt8) (conn : Connection)
    : (readLongHeader b conn).header.FromWire := by
  unfold readLongHeader
  refine ⟨?_, ?_, ?_, ?_, ?_⟩
  . dsimp only
    rw [length_readConnectionID]
    exact (cil_bounds _).1
  . dsimp only
    rw [length_readConnectionID]
    exact (cil_bounds _).2
  . apply fromWire_readToken
  . exact (fromWire_readLengthAndPN _ _ _ conn).1
  . exact (fromWire_readLengthAndPN _ _ _ conn).2

theorem typeByte_of_lt {h : LongHeader} (hh : h.FromWire) (htype : h.packetType.toNat < 4)
    : (h.typeByte - 0xC0) >>> 4 = h.packetType ∧
      (h.packetType ≠ PacketType.retry → (h.typeByte &&& 0x3).toNat + 1 = h.truncatedPN.length) := by
  have hpn := hh.truncatedPN
  unfold typeByte
  generalize h.packetType = t at htype hpn
  generalize h.truncatedPN.length = n at hpn
  have ht : t = 0 ∨ t = 1 ∨ t = 2 ∨ t = PacketType.retry := by
    revert htype
    clear hpn
    revert t
    apply forall_byte
    decide +kernel
  by_cases hretry : t = PacketType.retry
  . subst hretry
    refine ⟨?_, fun h => absurd rfl h⟩
    generalize UInt8.ofNat n - 1 = x
    clear hpn ht htype
    revert x
    apply forall_byte
    decide +kernel
  . have hn := hpn hretry
    have hn : n = 1 ∨ n = 2 ∨ n = 3 ∨ n = 4 := by omega
    rcases ht with rfl | rfl | rfl | rfl
    all_goals rcases hn with rfl | rfl | rfl | rfl
    all_goals decide

theorem typeByte_type_lt (h : LongHeader) : ((h.typeByte - 0xC0) >>> 4).toNat < 4 := by
  unfold typeByte
  rw [UInt8.or_assoc]
  generalize (h.packetType <<< 4) ||| (UInt8.ofNat h.truncatedPN.length - 1) = x
  revert x
  apply forall_byte
  decide +kernel

def parts (h : LongHeader) (payload : List UInt8) : LongParts where
  typeByte := h.typeByte
  version := beBytes 4 h.version
  cidl := h.cidlByte
  destinationCID := h.destinationCID
  sourceCID := h.sourceCID
  tokenLength := if h.packetType = PacketType.initial then varIntBytes h.token.length else []
  token := if h.packetType = PacketType.initial then h.token else []
  length := if h.packetType = PacketType.retry then [] else varIntBytes h.length.value
  lengthValue := h.length.value
  rest := (if h.packetType = PacketType.retry then [] else h.truncatedPN.encode) ++ payload

theorem encode_append {h : LongHeader} (hh : h.FromWire) (payload : List UInt8)
    : ∃ bytes, h.encode = some bytes ∧ bytes ++ payload = (h.parts payload).bytes := by
  unfold encode LongParts.bytes LongParts.fields parts
  rw [VarInt.encode, VarInt.encode, hh.tokenLength.1]
  rw [encodeVarInt_of_lt hh.tokenLength.2, encodeVarInt_of_lt hh.length]
  by_cases hinitial : h.packetType = PacketType.initial
  . have hretry : ¬ PacketType.initial = PacketType.retry := by decide
    simp [hinitial, hretry, typeByte, cidlByte, uint32ToBEBytes]
  . by_cases hretry : h.packetType = PacketType.retry
    . have hinitial' : ¬ PacketType.retry = PacketType.initial := by decide
      simp [hretry, hinitial', typeByte, cidlByte, uint32ToBEBytes]
    . simp [hinitial, hretry, typeByte, cidlByte, uint32ToBEBytes]

theorem cil_cidlByte {h : LongHeader} (hh : h.FromWire)
    : h.destinationCID.length = dcil h.cidlByte ∧ h.sourceCID.length = scil h.cidlByte := by
  rcases hh.destinationCID with ⟨hd3, hd18⟩
  rcases hh.sourceCID with ⟨hs3, hs18⟩
  have hnibbles := ConnectionID.nibbles (by omega : h.destinationCID.length < 19)
    (by omega : h.sourceCID.length < 19) (Or.inr hd3) (Or.inr hs3)
  have hd : ¬ h.destinationCID.length = 0 := by omega
  have hs : ¬ h.sourceCID.length = 0 := by omega
  unfold cidlByte
  rw [ConnectionID.cidl_eq, ConnectionID.cidl_eq]
  simp only [if_neg hd, if_neg hs] at hnibbles ⊢
  exact ⟨hnibbles.1.symm, hnibbles.2.symm⟩

theorem framed_parts {h : LongHeader} (hh : h.FromWire) (htype : h.packetType.toNat < 4)
    (payload : List UInt8)
    : (h.parts payload).Framed := by
  have hparts : (h.parts payload).packetType = h.packetType := (typeByte_of_lt hh htype).1
  refine ⟨length_beBytes 4 h.version, (cil_cidlByte hh).1, (cil_cidlByte hh).2, ?_, ?_, ?_, ?_⟩
  . rw [hparts]
    intro hinitial
    dsimp only [parts]
    rw [if_pos hinitial, if_pos hinitial]
    exact isVarInt_varIntBytes hh.tokenLength.2
  . rw [hparts]
    intro hinitial
    exact ⟨if_neg hinitial, if_neg hinitial⟩
  . rw [hparts]
    intro hretry
    dsimp only [parts]
    rw [if_neg hretry]
    exact isVarInt_varIntBytes hh.length
  . rw [hparts]
    intro hretry
    exact if_pos hretry

theorem drop_pnLength_parts {h : LongHeader} (hh : h.FromWire) (htype : h.packetType.toNat < 4)
    (payload : List UInt8)
    : (h.parts payload).rest.drop (h.parts payload).pnLength = payload := by
  rcases typeByte_of_lt hh htype with ⟨hpacketType, hpn⟩
  have hparts : (h.parts payload).packetType = h.packetType := hpacketType
  unfold LongParts.pnLength
  rw [hparts]
  dsimp only [parts]
  by_cases hretry : h.packetType = PacketType.retry
  . rw [if_pos hretry, if_pos hretry]
    rfl
  . rcases hh.truncatedPN hretry with ⟨h1, h4⟩
    rw [if_neg hretry, if_neg hretry]
    rw [hpn hretry, ← TruncatedPN.length_encode_of_le h1 h4]
    apply List.drop_left

end LongHeader

/-- The length of the original destination connection ID is in the first byte. -/
def odcil (lowerBits : UInt8) : Nat :=
  let ocidl := lowerBits &&& 0x0f
  (if ocidl > 0 then ocidl + 3 else ocidl).toNat

theorem readRetryPacket_eq (b : List UInt8) (conn : Connection)
    : let res := readLongHeader b conn
      readRetryPacket b conn = ⟨res.header, (readInto (odcil res.header.lowerBits) res.buffer).1,
        res.buffer.drop (odcil res.header.lowerBits)⟩ :=
  rfl

/-- Encoded and read again by `conn` the packet is the same. -/
def RetryPacket.Faithful (conn : Connection) (p : RetryPacket) : Prop :=
  ∃ bytes, p.encode p.encodePayload = some bytes ∧ readRetryPacket bytes conn = p

def VersionNegotiationPacket.Faithful (p : VersionNegotiationPacket) : Prop :=
  (∃ makes, readVersionNegotationPacket p.encodePayload = some (p, makes)) ∧
    ∃ first rest, p.encodePayload = first :: rest ∧ first &&& 0x80 = 0x80

theorem RetryPacket.not_faithful (b : List UInt8) (conn : Connection)
    : ¬ (readRetryPacket b conn).Faithful conn := by
  rintro ⟨bytes, hencode, hread⟩
  have hodcid : (readRetryPacket b conn).originalDestinationCID.length
      = odcil (readRetryPacket b conn).header.lowerBits := by
    rw [readRetryPacket_eq]
    apply length_readInto_fst
  have hh : (readRetryPacket b conn).header.FromWire :=
    LongHeader.fromWire_readLongHeader b conn
  generalize readRetryPacket b conn = p at hencode hread hodcid hh
  rcases LongHeader.encode_append hh p.encodePayload with ⟨front, hfront, happend⟩
  unfold encode at hencode
  rw [hfront] at hencode
  injection hencode with hbytes
  have hbytes : bytes = (p.header.parts p.encodePayload).bytes := hbytes.symm.trans happend
  rw [hbytes, readRetryPacket_eq] at hread
  by_cases htype : p.header.packetType.toNat < 4
  . -- the header takes what it was written with, the length byte is one too many after it
    have hframed := LongHeader.framed_parts hh htype p.encodePayload
    rcases LongParts.readLongHeader_eq _ hframed conn with ⟨makes, _, hheader⟩
    rw [hheader] at hread
    rw [LongHeader.drop_pnLength_parts hh htype] at hread
    have hsame := congrArg RetryPacket.header hread
    dsimp only at hsame
    have htoken := congrArg (List.length ∘ RetryPacket.retryToken) hread
    dsimp only [Function.comp_apply] at htoken
    rw [hsame, ← hodcid] at htoken
    unfold encodePayload at htoken
    simp only [List.length_drop, List.length_cons, List.length_append] at htoken
    omega
  . have hlt := p.header.typeByte_type_lt
    have hsame := congrArg (fun p : RetryPacket => p.header.packetType) hread
    have hsame : (p.header.typeByte - 0xC0) >>> 4 = p.header.packetType := hsame
    rw [hsame] at hlt
    exact htype hlt

theorem VersionNegotiationPacket.not_faithful {p : VersionNegotiationPacket}
    (h : p.unusedField.toNat < 128)
    : ¬ p.Faithful := by
  rintro ⟨_, first, rest, hpayload, hlong⟩
  unfold encodePayload at hpayload
  injection hpayload with hfirst _
  rw [← hfirst] at hlong
  revert h hlong
  generalize p.unusedField = unused
  revert unused
  apply forall_byte
  decide +kernel

theorem reencoding_never_faithful (p : VersionNegotiationPacket) (conn : Connection) (b : List UInt8)
    : (p.unusedField.toNat < 128 → p.version = 0 → p.destinationCID.Allowed → p.sourceCID.Allowed →
        ¬ p.Faithful) ∧
      ¬ (readRetryPacket b conn).Faithful conn := by
  constructor
  . intro h _ _ _
    exact VersionNegotiationPacket.not_faithful h
  . apply RetryPacket.not_faithful

/-- The first byte of the one is zero, the other one is read again with a connection ID of 18 bytes. -/
theorem reencoding_sample
    : ¬ VersionNegotiationPacket.Faithful ⟨0x2a, 0, [1, 2, 3, 4], [5, 6, 7, 8], [0xff00000f]⟩ ∧
      ¬ (readRetryPacket
          [0xF1, 0xff, 0, 0, 0x0f, 0x11, 1, 2, 3, 4, 5, 6, 7, 8, 9, 10, 11, 12, 0xaa, 0xbb]
          (ParsingAgent.probe 4 (fun _ => false) 0)).Faithful
        (ParsingAgent.probe 4 (fun _ => false) 0) := by
  constructor
  . rintro ⟨_, first, rest, hpayload, hlong⟩
    have hfirst : some (0 : UInt8) = some first := congrArg List.head? hpayload
    injection hfirst with hfirst
    rw [← hfirst] at hlong
    exact absurd hlong (by decide)
  . rintro ⟨bytes, hencode, hread⟩
    have hlength := congrArg (fun p : RetryPacket => p.originalDestinationCID.length) hread
    have hmap := congrArg (Option.map (fun bytes => (readRetryPacket bytes
      (ParsingAgent.probe 4 (fun _ => false) 0)).originalDestinationCID.length)) hencode
    rw [Option.map_some] at hmap
    rw [hlength] at hmap
    exact absurd hmap (by decide +kernel)

end QuicTracker
