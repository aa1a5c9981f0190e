import QuicTracker.Lemmas.Agents.Parse

/-!
This module contains the positions in a packet that are computed from its header. They are those at
which the reader has been.
-/

namespace QuicTracker

open ByteReader

namespace LongParts

theorem length_bytes (p : LongParts) : p.bytes.length = p.pnOffset + p.rest.length := by
  unfold bytes pnOffset
  rw [List.length_cons, List.length_append]
  omega

theorem drop_pnOffset (p : LongParts) : p.bytes.drop p.pnOffset = p.rest := by
  unfold bytes pnOffset
  rw [Nat.add_comm]
  rw [List.drop_succ_cons]
  apply List.drop_left

theorem pnOffset_header (p : LongParts) (h : p.Framed) (conn : Connection)
    : (Header.long (p.header conn)).pnOffset = p.pnOffset := by
  have hlength := p.header_headerLength h conn
  have hpn : (p.header conn).truncatedPN.length = p.pnLength := rfl
  unfold Header.pnOffset
  dsimp only
  rw [hlength, hpn]
  apply Nat.add_sub_cancel

end LongParts

theorem typeByte_high_bits (a : UInt8)
    : (a - 0xC0) >>> 4 = ((a &&& 0xFC) - 0xC0) >>> 4 ∧ a &&& 0x80 = (a &&& 0xFC) &&& 0x80 := by
  revert a
  apply forall_byte
  decide +kernel

theorem LongParts.Framed.of_high_bits {p : LongParts} (h : p.Framed) {typeByte : UInt8}
    (hbits : typeByte &&& 0xFC = p.typeByte &&& 0xFC)
    : Framed { p with typeByte := typeByte } := by
  have htype : LongParts.packetType { p with typeByte := typeByte } = p.packetType := by
    unfold packetType
    rw [(typeByte_high_bits typeByte).1, hbits, ← (typeByte_high_bits p.typeByte).1]
  rcases h with ⟨hversion, hdcid, hscid, htoken, hno_token, hlength, hno_length⟩
  refine ⟨hversion, hdcid, hscid, ?_, ?_, ?_, ?_⟩
  . rw [htype]
    exact htoken
  . rw [htype]
    exact hno_token
  . rw [htype]
    exact hlength
  . rw [htype]
    exact hno_length

/-- The bytes are there for every field that the first byte asks for. -/
def InFull (conn : Connection) (typeByte : UInt8) (b : List UInt8) : Prop :=
  if typeByte &&& 0x80 = 0x80 then
    ∃ p : LongParts, p.bytes = typeByte :: b ∧ p.Framed ∧ p.pnLength ≤ p.rest.length
  else
    conn.sourceCID.length + ((typeByte &&& 0x3).toNat + 1) ≤ b.length

/-- The packet number was read from `pnOffset` on, whatever the low bits of the first byte are. -/
structure StartsPN (conn : Connection) (typeByte : UInt8) (b : List UInt8) (pnOffset : Nat) : Prop where
  le : pnOffset ≤ (typeByte :: b).length
  make : (readHeader (typeByte :: b) conn).makes.getLast? =
    some (readTruncatedPN.make ((typeByte :: b).drop pnOffset))
  read : readTruncatedPN ((typeByte :: b).drop pnOffset) ((typeByte &&& 0x3).toNat + 1) =
    ((readHeader (typeByte :: b) conn).header.truncatedPN, (readHeader (typeByte :: b) conn).buffer)
  sample : ∀ first, first &&& 0xFC = typeByte &&& 0xFC →
    ∃ sample, getPacketSample (readHeader (first :: b) conn).header (first :: b)
      = some (sample, pnOffset)

theorem exists_sample {header : Header} {pnOffset : Nat} (h : header.pnOffset = pnOffset)
    (bytes : List UInt8)
    : ∃ sample, getPacketSample header bytes = some (sample, pnOffset) := by
  rw [← h]
  apply getPacketSample_eq

namespace LongParts

theorem startsPN (p : LongParts) (h : p.Framed) (hlong : p.typeByte &&& 0x80 = 0x80)
    (hretry : p.packetType ≠ PacketType.retry) (conn : Connection)
    : StartsPN conn p.typeByte (p.fields ++ p.rest) p.pnOffset := by
  have hpn : p.pnLength = (p.typeByte &&& 0x3).toNat + 1 := if_neg hretry
  rcases p.readLongHeader_eq h conn with ⟨makes, _, hread⟩
  have hdrop := p.drop_pnOffset
  have hlength := p.length_bytes
  unfold bytes at hread hdrop hlength
  refine ⟨?_, ?_, ?_, ?_⟩
  . rw [hlength]
    omega
  . rw [readHeader_long hlong]
    rw [hread, hdrop]
    unfold pnMakes
    rw [if_neg hretry]
    apply List.getLast?_concat
  . rw [readHeader_long hlong]
    rw [hread, hdrop, ← hpn]
    rfl
  . intro first hbits
    have hlong' : first &&& 0x80 = 0x80 := by
      rw [(typeByte_high_bits first).2, hbits, ← (typeByte_high_bits p.typeByte).2]
      exact hlong
    have hframed := h.of_high_bits hbits
    rcases readLongHeader_eq { p with typeByte := first } hframed conn with ⟨_, _, hread'⟩
    unfold bytes at hread'
    apply exists_sample
    rw [readHeader_long hlong']
    dsimp only [fields] at hread' ⊢
    rw [hread']
    exact pnOffset_header { p with typeByte := first } hframed conn

end LongParts

theorem pnOffset_readShortHeader (typeByte : UInt8) (b : List UInt8) (conn : Connection)
    : (Header.short (readShortHeader (typeByte :: b) conn).header).pnOffset
        = conn.sourceCID.length + 1 := by
  unfold Header.pnOffset readShortHeader
  dsimp only
  rw [length_readInto_fst]
  apply Nat.add_comm

theorem startsPN_short {typeByte : UInt8} (hshort : ¬ typeByte &&& 0x80 = 0x80) {b : List UInt8}
    {conn : Connection} (hlen : conn.sourceCID.length ≤ b.length)
    : StartsPN conn typeByte b (conn.sourceCID.length + 1) := by
  refine ⟨?_, ?_, ?_, ?_⟩
  . rw [List.length_cons]
    omega
  . rw [readHeader_short hshort]
    rfl
  . rw [readHeader_short hshort]
    rfl
  . intro first hbits
    have hshort' : ¬ first &&& 0x80 = 0x80 := by
      rw [(typeByte_high_bits first).2, hbits, ← (typeByte_high_bits typeByte).2]
      exact hshort
    apply exists_sample
    rw [readHeader_short hshort']
    apply pnOffset_readShortHeader

def HeaderConsumes (conn : Connection) (b : List UInt8) (n : Nat) : Prop :=
  n ≤ b.length ∧ (readHeader b conn).buffer = b.drop n

theorem LongParts.consumes (p : LongParts) (h : p.Framed) (hlong : p.typeByte &&& 0x80 = 0x80)
    (hpn : p.pnLength ≤ p.rest.length) (conn : Connection)
    : HeaderConsumes conn p.bytes (readHeader p.bytes conn).header.headerLength := by
  rcases p.readLongHeader_eq h conn with ⟨makes, _, hread⟩
  have hlength := p.length_bytes
  have hheader := p.header_headerLength h conn
  have hdrop := p.drop_pnOffset
  unfold HeaderConsumes
  unfold bytes at hread hlength hdrop ⊢
  rw [readHeader_long hlong]
  rw [hread]
  dsimp only [Header.headerLength]
  rw [hheader]
  constructor
  . omega
  . rw [← List.drop_drop, hdrop]

theorem consumes_short {typeByte : UInt8} (hshort : ¬ typeByte &&& 0x80 = 0x80) {b : List UInt8}
    {conn : Connection} (hlen : conn.sourceCID.length + ((typeByte &&& 0x3).toNat + 1) ≤ b.length)
    : HeaderConsumes conn (typeByte :: b) (readHeader (typeByte :: b) conn).header.headerLength := by
  have hheader : (readShortHeader (typeByte :: b) conn).header.headerLength
      = conn.sourceCID.length + ((typeByte &&& 0x3).toNat + 1) + 1 := by
    change 1 + (readInto conn.sourceCID.length b).1.length + ((typeByte &&& 0x3).toNat + 1) = _
    rw [length_readInto_fst]
    omega
  unfold HeaderConsumes
  rw [readHeader_short hshort]
  dsimp only [Header.headerLength]
  rw [hheader]
  constructor
  . rw [List.length_cons]
    omega
  . rw [List.drop_succ_cons]
    apply List.drop_drop

theorem headerLength_matches (conn : Connection) (typeByte : UInt8) (b : List UInt8)
    (h : InFull conn typeByte b)
    : HeaderConsumes conn (typeByte :: b) (readHeader (typeByte :: b) conn).header.headerLength ∧
      ((readHeader (typeByte :: b) conn).header.packetType ≠ PacketType.retry →
        ∃ pnOffset, StartsPN conn typeByte b pnOffset) := by
  unfold InFull at h
  split at h
  . next hlong =>
    rcases h with ⟨p, hbytes, hframed, hpn⟩
    unfold LongParts.bytes at hbytes
    injection hbytes with htype hrest
    subst htype hrest
    refine ⟨p.consumes hframed hlong hpn conn, ?_⟩
    intro hretry
    rcases p.readLongHeader_eq hframed conn with ⟨makes, _, hread⟩
    unfold LongParts.bytes at hread
    rw [readHeader_long hlong, hread] at hretry
    exact ⟨p.pnOffset, p.startsPN hframed hlong hretry conn⟩
  . next hshort =>
    refine ⟨consumes_short hshort h, ?_⟩
    intro _
    exact ⟨_, startsPN_short hshort (by omega)⟩

def sampleParts : LongParts where
  typeByte := 0xC1
  version := [0, 0, 0, 1]
  cidl := 0x00
  destinationCID := [1, 2, 3]
  sourceCID := [4, 5, 6]
  tokenLength := [0x40, 0x02]
  token := [7, 8]
  length := [0x80, 0, 0, 5]
  lengthValue := 5
  rest := [9, 10, 11]

theorem headerLength_matches_initial
    : HeaderConsumes (ParsingAgent.probe 0 (fun _ => true) 0) sampleParts.bytes
        (readHeader sampleParts.bytes (ParsingAgent.probe 0 (fun _ => true) 0)).header.headerLength ∧
      ∃ pnOffset, StartsPN (ParsingAgent.probe 0 (fun _ => true) 0) 0xC1
        (sampleParts.fields ++ sampleParts.rest) pnOffset := by
  have hframed : sampleParts.Framed :=
    ⟨rfl, rfl, rfl, fun _ _ => rfl, fun h => absurd rfl h, fun _ _ => rfl, fun h => absurd h (by decide)⟩
  have h := headerLength_matches (ParsingAgent.probe 0 (fun _ => true) 0) 0xC1
    (sampleParts.fields ++ sampleParts.rest) ⟨sampleParts, rfl, hframed, by decide⟩
  exact ⟨h.1, h.2 (by decide)⟩

end QuicTracker
