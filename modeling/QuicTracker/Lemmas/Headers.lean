import QuicTracker.Impl.Headers
import QuicTracker.Lemmas.Varint

/-!
This module contains what the header readers return. They read every field that a complete header has,
and they allocate more than is left exactly when the header is cut off.
-/

namespace QuicTracker

open ByteReader

def Fits (makes : List Make) : Prop := ∀ m ∈ makes, m.size ≤ m.left

instance (makes : List Make) : Decidable (Fits makes) :=
  inferInstanceAs (Decidable (∀ m ∈ makes, _))

theorem fits_cons (m : Make) (makes : List Make)
    : Fits (m :: makes) ↔ m.size ≤ m.left ∧ Fits makes := by
  unfold Fits
  simp

theorem fits_append (makes makes' : List Make)
    : Fits (makes ++ makes') ↔ Fits makes ∧ Fits makes' := by
  unfold Fits
  simp only [List.mem_append]
  apply Iff.intro
  . intro h
    exact ⟨fun m hm => h m (Or.inl hm), fun m hm => h m (Or.inr hm)⟩
  . intro h m hm
    cases hm with
    | inl hm => exact h.1 m hm
    | inr hm => exact h.2 m hm

@[simp]
theorem fits_nil : Fits [] := by
  simp [Fits]

/-- A long header and what follows its length, cut into the fields on the wire. -/
structure LongParts where
  typeByte : UInt8
  version : List UInt8
  cidl : UInt8
  destinationCID : List UInt8
  sourceCID : List UInt8
  tokenLength : List UInt8
  token : List UInt8
  length : List UInt8
  lengthValue : Nat
  rest : List UInt8

namespace LongParts

def packetType (p : LongParts) : UInt8 := (p.typeByte - 0xC0) >>> 4

def fields (p : LongParts) : List UInt8 :=
  p.version ++ (p.cidl :: (p.destinationCID ++ (p.sourceCID ++
    (p.tokenLength ++ (p.token ++ p.length)))))

def bytes (p : LongParts) : List UInt8 := p.typeByte :: (p.fields ++ p.rest)

def pnOffset (p : LongParts) : Nat := 1 + p.fields.length

/-- Every field before the packet number is there in full. -/
structure Framed (p : LongParts) : Prop where
  version : p.version.length = 4
  destinationCID : p.destinationCID.length = dcil p.cidl
  sourceCID : p.sourceCID.length = scil p.cidl
  token : p.packetType = PacketType.initial → IsVarInt p.tokenLength p.token.length
  no_token : p.packetType ≠ PacketType.initial → p.tokenLength = [] ∧ p.token = []
  length : p.packetType ≠ PacketType.retry → IsVarInt p.length p.lengthValue
  no_length : p.packetType = PacketType.retry → p.length = []

/-- So are the four bytes that the packet number is read from. -/
structure Complete (p : LongParts) : Prop extends p.Framed where
  rest : p.packetType ≠ PacketType.retry → 4 ≤ p.rest.length

end LongParts

theorem readUint32_append {version : List UInt8} (h : version.length = 4) (rest : List UInt8)
    : readUint32 (version ++ rest) = (beNat version, rest) := by
  unfold readUint32
  rw [readFull_append _ _ h]
  rfl

theorem readConnectionID_append {cid : List UInt8} {n : Nat} (h : cid.length = n)
    (rest : List UInt8)
    : readConnectionID n (cid ++ rest) = (cid, rest) := by
  unfold readConnectionID
  rw [readFull_append _ _ h]
  rfl

namespace LongParts

def pnLength (p : LongParts) : Nat :=
  if p.packetType = PacketType.retry then 0 else (p.typeByte &&& 0x3).toNat + 1

def header (p : LongParts) (conn : Connection) : LongHeader :=
  let truncatedPN := (readTruncatedPN p.rest p.pnLength).1
  { packetType := p.packetType
    lowerBits := p.typeByte &&& 0x0F
    version := beNat p.version
    destinationCID := p.destinationCID
    sourceCID := p.sourceCID
    tokenLength := ⟨p.token.length, p.tokenLength.length⟩
    token := p.token
    length := ⟨if p.packetType = PacketType.retry then 0 else p.lengthValue, p.length.length⟩
    packetNumber :=
      if p.packetType = PacketType.retry then 0
      else truncatedPN.join (conn.largestPNsReceived (PacketType.pnSpace p.packetType))
    truncatedPN := truncatedPN }

def tokenMakes (p : LongParts) (left : Nat) : List Make :=
  if p.packetType = PacketType.initial then [⟨p.token.length, p.token.length + left⟩] else []

def pnMakes (p : LongParts) : List Make :=
  if p.packetType = PacketType.retry then [] else [⟨4, p.rest.length⟩]

theorem readToken_eq (p : LongParts) (h : p.Framed) (buffer : List UInt8)
    : readToken p.packetType (p.tokenLength ++ (p.token ++ buffer))
        = ⟨⟨⟨p.token.length, p.tokenLength.length⟩, p.token⟩, buffer, p.tokenMakes buffer.length⟩ := by
  unfold readToken tokenMakes
  split
  . next htype =>
    rw [(h.token htype).readVarInt]
    dsimp only [Option.getD_some]
    rw [readInto_append _ _ rfl]
    rw [List.length_append]
  . next htype =>
    rcases h.no_token htype with ⟨hlen, htoken⟩
    rw [hlen, htoken]
    rfl

theorem readLengthAndPN_eq (p : LongParts) (h : p.Framed) (conn : Connection)
    : readLengthAndPN p.packetType p.typeByte (p.length ++ p.rest) conn
        = ⟨⟨(p.header conn).length, (p.header conn).truncatedPN, (p.header conn).packetNumber⟩,
          p.rest.drop p.pnLength, p.pnMakes⟩ := by
  unfold readLengthAndPN header pnMakes pnLength
  by_cases htype : p.packetType = PacketType.retry
  . simp [htype, h.no_length htype, readTruncatedPN, readInto, beNat]
  . simp [htype, (h.length htype).readVarInt, readTruncatedPN, readTruncatedPN.make]

theorem readLongHeader_eq (p : LongParts) (h : p.Framed) (conn : Connection)
    : ∃ makes, Fits makes ∧ readLongHeader p.bytes conn
        = ⟨p.header conn, p.rest.drop p.pnLength, makes ++ p.pnMakes⟩ := by
  have hbytes : p.bytes = p.typeByte :: (p.version ++ (p.cidl :: (p.destinationCID ++ (p.sourceCID ++
      (p.tokenLength ++ (p.token ++ (p.length ++ p.rest))))))) := by
    simp [bytes, fields]
  have htoken := p.readToken_eq h (p.length ++ p.rest)
  have htail := p.readLengthAndPN_eq h conn
  have hfits : Fits (p.tokenMakes (p.length ++ p.rest).length) := by
    unfold tokenMakes
    split
    . simp [Fits]
    . exact fits_nil
  unfold packetType at htoken htail
  rw [hbytes]
  simp only [readLongHeader, readByte_cons, Option.getD_some, readUint32_append h.version,
    readConnectionID_append h.destinationCID, readConnectionID_append h.sourceCID, htoken, htail]
  refine ⟨⟨dcil p.cidl, _⟩ :: ⟨scil p.cidl, _⟩ :: p.tokenMakes _, ?_, rfl⟩
  simp only [fits_cons]
  refine ⟨?_, ?_, hfits⟩
  . simp [h.destinationCID]
  . simp [h.sourceCID]

theorem header_headerLength (p : LongParts) (h : p.Framed) (conn : Connection)
    : (p.header conn).headerLength = p.pnOffset + p.pnLength := by
  have hfields : p.fields.length = 5 + p.destinationCID.length + p.sourceCID.length +
      p.tokenLength.length + p.token.length + p.length.length := by
    simp only [fields, List.length_append, List.length_cons, h.version]
    omega
  have hlength : (p.header conn).headerLength =
      let length := 6 + p.destinationCID.length + p.sourceCID.length + p.length.length + p.pnLength
      if p.packetType = PacketType.initial then
        length + p.tokenLength.length + p.token.length
      else
        length := rfl
  rw [hlength]
  unfold pnOffset
  dsimp only
  split
  . omega
  . next htype =>
    rcases h.no_token htype with ⟨hnil, hnil'⟩
    rw [hnil, hnil', List.length_nil] at hfields
    omega

structure ReadAs (p : LongParts) (header : LongHeader) : Prop where
  packetType : header.packetType = p.packetType
  version : header.version = beNat p.version
  headerLength : header.headerLength = p.pnOffset + header.truncatedPN.length
  length : p.packetType ≠ PacketType.retry →
    header.length.value = p.lengthValue ∧
    header.truncatedPN.length = (p.typeByte &&& 0x3).toNat + 1

theorem readLongHeader_bytes (p : LongParts) (h : p.Complete) (conn : Connection)
    : p.ReadAs (readLongHeader p.bytes conn).header ∧ Fits (readLongHeader p.bytes conn).makes := by
  rcases p.readLongHeader_eq h.toFramed conn with ⟨makes, hfits, hread⟩
  rw [hread]
  constructor
  . refine ⟨rfl, rfl, p.header_headerLength h.toFramed conn, ?_⟩
    intro htype
    exact ⟨if_neg htype, if_neg htype⟩
  . rw [fits_append]
    refine ⟨hfits, ?_⟩
    unfold pnMakes
    split
    . exact fits_nil
    . next htype => simp [Fits, h.rest htype]

end LongParts

theorem not_fits_readLengthAndPN_nil {packetType : UInt8} (htype : packetType ≠ PacketType.retry)
    (typeByte : UInt8) (conn : Connection)
    : ¬ Fits (readLengthAndPN packetType typeByte [] conn).makes := by
  unfold readLengthAndPN
  rw [if_pos htype]
  simp [readVarInt, readVarIntValue, Fits, readTruncatedPN.make]

theorem readVarInt_cases (b : List UInt8)
    : readVarInt b = (none, []) ∨ ∃ bytes i rest, b = bytes ++ rest ∧ IsVarInt bytes i := by
  cases readVarIntValue_cases b with
  | inl h =>
    apply Or.inl
    unfold readVarInt
    rw [h]
  | inr h => apply Or.inr h

theorem parts_of_fits_lengthAndPN {packetType typeByte : UInt8} {b : List UInt8} {conn : Connection}
    (h : Fits (readLengthAndPN packetType typeByte b conn).makes)
    : ∃ length i rest, b = length ++ rest ∧
        (packetType ≠ PacketType.retry → IsVarInt length i ∧ 4 ≤ rest.length) ∧
        (packetType = PacketType.retry → length = []) := by
  cases decEq packetType PacketType.retry with
  | isTrue htype => exact ⟨[], 0, b, rfl, fun hne => absurd htype hne, fun _ => rfl⟩
  | isFalse htype =>
    unfold readLengthAndPN at h
    rw [if_pos htype] at h
    cases readVarInt_cases b with
    | inl hnone => simp [hnone, Fits, readTruncatedPN.make] at h
    | inr hsome =>
      rcases hsome with ⟨length, i, rest, hb, hvar⟩
      rw [hb] at h
      simp only [hvar.readVarInt] at h
      refine ⟨length, i, rest, hb, fun _ => ⟨hvar, ?_⟩, fun heq => absurd heq htype⟩
      simpa [Fits, readTruncatedPN.make] using h

theorem parts_of_fits_token {packetType typeByte : UInt8} {b : List UInt8} {conn : Connection}
    (h : Fits (readToken packetType b).makes)
    (h' : Fits (readLengthAndPN packetType typeByte (readToken packetType b).buffer conn).makes)
    : ∃ tokenLength token rest, b = tokenLength ++ (token ++ rest) ∧
        (readToken packetType b).buffer = rest ∧
        (packetType = PacketType.initial → IsVarInt tokenLength token.length) ∧
        (packetType ≠ PacketType.initial → tokenLength = [] ∧ token = []) := by
  cases decEq packetType PacketType.initial with
  | isFalse htype =>
    refine ⟨[], [], b, rfl, ?_, fun heq => absurd heq htype, fun _ => ⟨rfl, rfl⟩⟩
    unfold readToken
    rw [if_neg htype]
  | isTrue htype =>
    have hretry : packetType ≠ PacketType.retry := by
      rw [htype]
      decide
    unfold readToken at h h' ⊢
    rw [if_pos htype] at h h' ⊢
    cases readVarInt_cases b with
    | inl hnone =>
      simp only [hnone] at h'
      exact absurd h' (not_fits_readLengthAndPN_nil hretry typeByte conn)
    | inr hsome =>
      rcases hsome with ⟨tokenLength, i, rest, hb, hvar⟩
      rw [hb] at h ⊢
      simp only [hvar.readVarInt, Option.getD_some] at h ⊢
      have hle : i ≤ rest.length := by simpa [Fits] using h
      refine ⟨tokenLength, rest.take i, rest.drop i, ?_, rfl, ?_, fun hne => absurd htype hne⟩
      . rw [List.take_append_drop]
      . intro _
        rw [List.length_take]
        rw [Nat.min_eq_left hle]
        exact hvar

theorem exists_append_of_le {n : Nat} {b : List UInt8} (h : n ≤ b.length)
    : ∃ front rest, b = front ++ rest ∧ front.length = n := by
  refine ⟨b.take n, b.drop n, (List.take_append_drop n b).symm, ?_⟩
  rw [List.length_take]
  omega

theorem parts_of_fits_readLongHeader {typeByte : UInt8} {b : List UInt8} {conn : Connection}
    (h : Fits (readLongHeader (typeByte :: b) conn).makes)
    : ∃ p : LongParts, p.bytes = typeByte :: b ∧ p.typeByte = typeByte ∧ p.Complete := by
  have hversion : 4 ≤ b.length := by
    by_contra hlt
    simp [readLongHeader, readUint32, readFull_of_lt (not_le.mp hlt), fits_cons, dcil] at h
  rcases exists_append_of_le hversion with ⟨version, b1, hb, hversion⟩
  rw [hb] at h
  cases b1 with
  | nil =>
    simp only [readLongHeader, readUint32_append hversion, readByte_cons, readByte_nil,
      fits_cons] at h
    exact absurd h.1 (by decide)
  | cons cidl b2 =>
    simp only [readLongHeader, readByte_cons, Option.getD_some, readUint32_append hversion,
      fits_cons] at h
    rcases exists_append_of_le h.1 with ⟨destinationCID, b3, hb2, hdcid⟩
    rw [hb2] at h
    simp only [readConnectionID_append hdcid] at h
    rcases exists_append_of_le h.2.1 with ⟨sourceCID, b4, hb3, hscid⟩
    rw [hb3] at h
    simp only [readConnectionID_append hscid, fits_append] at h
    rcases parts_of_fits_token h.2.2.1 h.2.2.2 with
      ⟨tokenLength, token, b5, hb4, hbuffer, htoken, hno_token⟩
    rw [hbuffer] at h
    rcases parts_of_fits_lengthAndPN h.2.2.2 with ⟨length, i, rest, hb5, hlength, hno_length⟩
    refine ⟨⟨typeByte, version, cidl, destinationCID, sourceCID, tokenLength, token, length, i, rest⟩,
      ?_, rfl, ⟨hversion, hdcid, hscid, htoken, hno_token, fun htype => (hlength htype).1, hno_length⟩,
      fun htype => (hlength htype).2⟩
    simp [LongParts.bytes, LongParts.fields, hb, hb2, hb3, hb4, hb5]

theorem readHeader_long {typeByte : UInt8} {b : List UInt8} (hlong : typeByte &&& 0x80 = 0x80)
    (conn : Connection)
    : readHeader (typeByte :: b) conn =
        ⟨.long (readLongHeader (typeByte :: b) conn).header,
          (readLongHeader (typeByte :: b) conn).buffer, (readLongHeader (typeByte :: b) conn).makes⟩ :=
  if_pos hlong

theorem readHeader_short {typeByte : UInt8} {b : List UInt8} (hshort : ¬ typeByte &&& 0x80 = 0x80)
    (conn : Connection)
    : readHeader (typeByte :: b) conn =
        ⟨.short (readShortHeader (typeByte :: b) conn).header,
          (readShortHeader (typeByte :: b) conn).buffer,
          (readShortHeader (typeByte :: b) conn).makes⟩ :=
  if_neg hshort

theorem fits_readShortHeader_iff (typeByte : UInt8) (b : List UInt8) (conn : Connection)
    : Fits (readShortHeader (typeByte :: b) conn).makes ↔ conn.sourceCID.length + 4 ≤ b.length := by
  simp only [readShortHeader, readByte_cons, readTruncatedPN.make, Fits, List.mem_cons,
    List.not_mem_nil, or_false, forall_eq_or_imp, forall_eq, readInto_snd, List.length_drop]
  omega

end QuicTracker
