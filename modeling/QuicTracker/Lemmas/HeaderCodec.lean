import QuicTracker.Lemmas.Headers
import QuicTracker.Lemmas.Common

/-!
This module contains the round trip of the packet headers. A header with an empty connection ID is
read with three bytes of what follows in its place.
-/

namespace QuicTracker

open ByteReader

namespace ConnectionID

def Allowed (c : ConnectionID) : Prop := c.length = 0 ∨ 4 ≤ c.length ∧ c.length ≤ 18

theorem cidl_eq (c : ConnectionID)
    : c.cidl = if c.length = 0 then 0 else UInt8.ofNat c.length - 3 := by
  rfl

theorem nibbles {m n : Nat} (hm : m < 19) (hn : n < 19) (hm3 : m = 0 ∨ 3 ≤ m) (hn3 : n = 0 ∨ 3 ≤ n)
    : let byte := ((if m = 0 then 0 else UInt8.ofNat m - 3) <<< 4) |||
        (if n = 0 then 0 else UInt8.ofNat n - 3)
      dcil byte = (if m = 0 then 3 else m) ∧ scil byte = (if n = 0 then 3 else n) := by
  have hall : ∀ m n : Fin 19, (m.val = 0 ∨ 3 ≤ m.val) → (n.val = 0 ∨ 3 ≤ n.val) →
      dcil (((if m.val = 0 then 0 else UInt8.ofNat m - 3) <<< 4) |||
        (if n.val = 0 then 0 else UInt8.ofNat n - 3)) = (if m.val = 0 then 3 else m.val) ∧
      scil (((if m.val = 0 then 0 else UInt8.ofNat m - 3) <<< 4) |||
        (if n.val = 0 then 0 else UInt8.ofNat n - 3)) = (if n.val = 0 then 3 else n.val) := by
    decide +kernel
  exact hall ⟨m, hm⟩ ⟨n, hn⟩ hm3 hn3

theorem Allowed.lt {c : ConnectionID} (h : c.Allowed) : c.length < 19 ∧ (c.length = 0 ∨ 3 ≤ c.length) := by
  unfold Allowed at h
  omega

theorem dcil_cidl {d s : ConnectionID} (hd : d.Allowed) (hs : s.Allowed)
    : dcil ((d.cidl <<< 4) ||| s.cidl) = if d = [] then 3 else d.length := by
  have h := nibbles hd.lt.1 hs.lt.1 hd.lt.2 hs.lt.2
  rw [cidl_eq]
  rw [cidl_eq]
  rw [h.1]
  simp only [List.length_eq_zero_iff]

theorem scil_cidl {d s : ConnectionID} (hd : d.Allowed) (hs : s.Allowed)
    : scil ((d.cidl <<< 4) ||| s.cidl) = if s = [] then 3 else s.length := by
  have h := nibbles hd.lt.1 hs.lt.1 hd.lt.2 hs.lt.2
  rw [cidl_eq]
  rw [cidl_eq]
  rw [h.2]
  simp only [List.length_eq_zero_iff]

end ConnectionID

theorem length_readConnectionID (n : Nat) (b : List UInt8) : (readConnectionID n b).1.length = n := by
  by_cases h : n ≤ b.length
  . simp [readConnectionID, readFull, h]
  . simp [readConnectionID, readFull, h]

namespace LongHeader

def typeByte (h : LongHeader) : UInt8 :=
  (0xC0 : UInt8) ||| (h.packetType <<< 4) ||| (UInt8.ofNat h.truncatedPN.length - 1)

def cidlByte (h : LongHeader) : UInt8 := (h.destinationCID.cidl <<< 4) ||| h.sourceCID.cidl

def tokenBytes (h : LongHeader) : List UInt8 :=
  if h.packetType = PacketType.initial then varIntBytes h.token.length ++ h.token else []

def bytes (h : LongHeader) : List UInt8 :=
  h.typeByte :: (beBytes 4 h.version ++ (h.cidlByte :: (h.destinationCID ++
    (h.sourceCID ++ (h.tokenBytes ++ (varIntBytes h.length.value ++ h.truncatedPN.encode))))))

structure Encodable (h : LongHeader) : Prop where
  packetType : h.packetType = PacketType.initial ∨ h.packetType = PacketType.zeroRTTProtected ∨
    h.packetType = PacketType.handshake
  version : h.version < 2 ^ 32
  destinationCID : h.destinationCID.Allowed
  sourceCID : h.sourceCID.Allowed
  tokenLength : newVarInt h.token.length = some h.tokenLength
  length : ∃ n, newVarInt n = some h.length
  truncatedPN : h.truncatedPN.WellFormed

theorem Encodable.not_retry {h : LongHeader} (hh : h.Encodable) : h.packetType ≠ PacketType.retry := by
  intro heq
  have htype := hh.packetType
  rw [heq] at htype
  exact absurd htype (by decide)

theorem typeByte_eq {h : LongHeader} (hh : h.Encodable)
    : h.typeByte &&& 0x80 = 0x80 ∧ (h.typeByte - 0xC0) >>> 4 = h.packetType ∧
      (h.typeByte &&& 0x3).toNat + 1 = h.truncatedPN.length := by
  have htype := hh.packetType
  rcases hh.truncatedPN with ⟨h1, h4, _⟩
  unfold typeByte
  generalize h.packetType = t at htype
  generalize h.truncatedPN.length = n at h1 h4
  have hn : n = 1 ∨ n = 2 ∨ n = 3 ∨ n = 4 := by omega
  rcases htype with rfl | rfl | rfl
  all_goals rcases hn with rfl | rfl | rfl | rfl
  all_goals decide

theorem Encodable.length_eq {h : LongHeader} (hh : h.Encodable)
    : h.length.value < 2 ^ 62 ∧ h.length.length = (varIntBytes h.length.value).length := by
  rcases hh.length with ⟨n, hn⟩
  have hlt := lt_of_newVarInt hn
  rw [eq_of_newVarInt hn]
  exact ⟨hlt, rfl⟩

theorem encode_eq {h : LongHeader} (hh : h.Encodable)
    : h.encode = some h.bytes := by
  have htoken := eq_of_newVarInt hh.tokenLength
  unfold encode bytes tokenBytes
  simp only [VarInt.encode, encodeVarInt_of_lt hh.length_eq.1, ne_eq, hh.not_retry, htoken,
    encodeVarInt_of_lt (lt_of_newVarInt hh.tokenLength)]
  split
  . simp [typeByte, cidlByte, uint32ToBEBytes]
  . simp [typeByte, cidlByte, uint32ToBEBytes]

theorem readLongHeader_cidl {h : LongHeader} (hh : h.Encodable) (b : List UInt8) (conn : Connection)
    : let res := readLongHeader (h.typeByte :: (beBytes 4 h.version ++ (h.cidlByte :: b))) conn
      res.header.packetType = h.packetType ∧
      res.header.destinationCID.length = dcil h.cidlByte ∧
      res.header.sourceCID.length = scil h.cidlByte ∧
      (h.packetType ≠ PacketType.initial → res.header.token = []) := by
  simp only [readLongHeader, readByte_cons, Option.getD_some, readUint32_append (length_beBytes 4 _),
    (typeByte_eq hh).2.1, length_readConnectionID, true_and]
  intro hne
  unfold readToken
  rw [if_neg hne]

structure Readable (h : LongHeader) : Prop where
  destinationCID : h.destinationCID ≠ []
  sourceCID : h.sourceCID ≠ []
  token : h.packetType = PacketType.initial ∨ h.token = []

theorem readToken_tokenBytes {h : LongHeader} (hh : h.Encodable) (hr : h.Readable) (b : List UInt8)
    : (readToken h.packetType (h.tokenBytes ++ b)).header.token = h.token ∧
      (readToken h.packetType (h.tokenBytes ++ b)).buffer = b ∧
      (h.packetType = PacketType.initial →
        (readToken h.packetType (h.tokenBytes ++ b)).header.tokenLength = h.tokenLength) := by
  unfold readToken tokenBytes
  split
  . have hlt := lt_of_newVarInt hh.tokenLength
    rw [List.append_assoc]
    rw [(isVarInt_varIntBytes hlt).readVarInt]
    dsimp
    rw [readInto_append _ _ rfl]
    exact ⟨rfl, rfl, fun _ => (eq_of_newVarInt hh.tokenLength).symm⟩
  . next hne =>
    cases hr.token with
    | inl heq => exact absurd heq hne
    | inr hnil => exact ⟨hnil.symm, rfl, fun heq => absurd heq hne⟩

theorem readLengthAndPN_encode {h : LongHeader} (hh : h.Encodable) (rest : List UInt8)
    (conn : Connection)
    : let res := readLengthAndPN h.packetType h.typeByte
        (varIntBytes h.length.value ++ (h.truncatedPN.encode ++ rest)) conn
      res.header.length = h.length ∧ res.header.truncatedPN = h.truncatedPN ∧
      res.header.packetNumber
        = h.truncatedPN.join (conn.largestPNsReceived (PacketType.pnSpace h.packetType)) ∧
      res.buffer = rest := by
  have hlen := hh.length_eq
  have heq : h.length = ⟨h.length.value, (varIntBytes h.length.value).length⟩ := by
    rw [← hlen.2]
  unfold readLengthAndPN
  rw [if_pos hh.not_retry]
  dsimp
  rw [(isVarInt_varIntBytes hlen.1).readVarInt]
  dsimp
  rw [(typeByte_eq hh).2.2]
  rw [readTruncatedPN_encode _ hh.truncatedPN]
  exact ⟨heq.symm, rfl, rfl, rfl⟩

/-- The low bits and the packet number of a header that is read are not those of the writer. -/
structure ReadBack (h : LongHeader) (conn : Connection) (header : LongHeader) : Prop where
  packetType : header.packetType = h.packetType
  version : header.version = h.version
  destinationCID : header.destinationCID = h.destinationCID
  sourceCID : header.sourceCID = h.sourceCID
  token : header.token = h.token
  tokenLength : h.packetType = PacketType.initial → header.tokenLength = h.tokenLength
  length : header.length = h.length
  truncatedPN : header.truncatedPN = h.truncatedPN
  packetNumber : header.packetNumber
    = h.truncatedPN.join (conn.largestPNsReceived (PacketType.pnSpace h.packetType))

theorem readLongHeader_bytes {h : LongHeader} (hh : h.Encodable) (hr : h.Readable)
    (rest : List UInt8) (conn : Connection)
    : h.ReadBack conn (readLongHeader (h.bytes ++ rest) conn).header ∧
      (readLongHeader (h.bytes ++ rest) conn).buffer = rest := by
  have hd : h.destinationCID.length = dcil h.cidlByte := by
    unfold cidlByte
    rw [ConnectionID.dcil_cidl hh.destinationCID hh.sourceCID]
    rw [if_neg hr.destinationCID]
  have hs : h.sourceCID.length = scil h.cidlByte := by
    unfold cidlByte
    rw [ConnectionID.scil_cidl hh.destinationCID hh.sourceCID]
    rw [if_neg hr.sourceCID]
  have hbytes : h.bytes ++ rest = h.typeByte :: (beBytes 4 h.version ++ (h.cidlByte ::
      (h.destinationCID ++ (h.sourceCID ++ (h.tokenBytes ++ (varIntBytes h.length.value ++
        (h.truncatedPN.encode ++ rest))))))) := by
    simp [bytes]
  rcases readToken_tokenBytes hh hr (varIntBytes h.length.value ++ (h.truncatedPN.encode ++ rest))
    with ⟨htoken, hbuffer, htokenLength⟩
  rcases readLengthAndPN_encode hh rest conn with ⟨hlength, hpn, hnumber, hrest⟩
  rw [hbytes]
  simp only [readLongHeader, readByte_cons, Option.getD_some, readUint32_append (length_beBytes 4 _),
    (typeByte_eq hh).2.1, readConnectionID_append hd, readConnectionID_append hs, hbuffer]
  refine ⟨⟨rfl, ?_, rfl, rfl, htoken, htokenLength, hlength, hpn, hnumber⟩, hrest⟩
  apply beNat_beBytes_of_lt
  exact hh.version

end LongHeader

namespace ShortHeader

def typeByte (h : ShortHeader) : UInt8 :=
  (if h.keyPhase then (0x44 : UInt8) else 0x40) ||| (UInt8.ofNat h.truncatedPN.length - 1)

theorem typeByte_eq {h : ShortHeader} (hh : h.truncatedPN.WellFormed)
    : ¬ h.typeByte &&& 0x80 = 0x80 ∧ decide (h.typeByte &&& 0x04 = 0x04) = h.keyPhase ∧
      (h.typeByte &&& 0x3).toNat + 1 = h.truncatedPN.length := by
  rcases hh with ⟨h1, h4, _⟩
  unfold typeByte
  generalize h.keyPhase = k
  generalize h.truncatedPN.length = n at h1 h4
  have hn : n = 1 ∨ n = 2 ∨ n = 3 ∨ n = 4 := by omega
  cases k
  all_goals rcases hn with rfl | rfl | rfl | rfl
  all_goals decide

theorem encode_eq (h : ShortHeader)
    : h.encode = h.typeByte :: (h.destinationCID ++ h.truncatedPN.encode) := by
  unfold encode typeByte
  cases h.keyPhase with
  | true => rfl
  | false => rfl

theorem readShortHeader_encode {h : ShortHeader} (hh : h.truncatedPN.WellFormed)
    {conn : Connection} (hcid : h.destinationCID.length = conn.sourceCID.length) (rest : List UInt8)
    : (readShortHeader (h.encode ++ rest) conn).header
        = { h with packetNumber := h.truncatedPN.join (conn.largestPNsReceived .appData) } ∧
      (readShortHeader (h.encode ++ rest) conn).buffer = rest := by
  rw [encode_eq]
  rw [List.cons_append]
  rw [List.append_assoc]
  simp only [readShortHeader, readByte_cons, Option.getD_some, readInto_append _ _ hcid,
    (typeByte_eq hh).2.2, readTruncatedPN_encode _ hh, (typeByte_eq hh).2.1, and_self]

end ShortHeader

namespace Header

/-- The fields that are on the wire, apart from the low bits that hold the packet number's length. -/
def Same (a b : Header) : Prop :=
  match a, b with
  | .long a, .long b =>
    a.packetType = b.packetType ∧ a.version = b.version ∧ a.destinationCID = b.destinationCID ∧
      a.sourceCID = b.sourceCID ∧ a.token = b.token ∧ a.length = b.length ∧
      a.truncatedPN = b.truncatedPN
  | .short a, .short b =>
    a.keyPhase = b.keyPhase ∧ a.destinationCID = b.destinationCID ∧ a.truncatedPN = b.truncatedPN
  | _, _ => False

def RoundTrips (h : Header) (conn : Connection) (rest : List UInt8) : Prop :=
  ∃ bytes, h.encode = some bytes ∧ (readHeader (bytes ++ rest) conn).header.Same h ∧
    (readHeader (bytes ++ rest) conn).buffer = rest

def Encodable (h : Header) (conn : Connection) : Prop :=
  match h with
  | .long h => h.Encodable
  | .short h => h.destinationCID.length = conn.sourceCID.length ∧ h.truncatedPN.WellFormed

def Readable (h : Header) : Prop :=
  match h with
  | .long h => h.Readable
  | .short _ => True

end Header

theorem readHeader_long_bytes {h : LongHeader} (hh : h.Encodable) (rest : List UInt8)
    (conn : Connection)
    : readHeader (h.bytes ++ rest) conn
        = ⟨.long (readLongHeader (h.bytes ++ rest) conn).header,
            (readLongHeader (h.bytes ++ rest) conn).buffer,
            (readLongHeader (h.bytes ++ rest) conn).makes⟩ := by
  apply if_pos
  exact (LongHeader.typeByte_eq hh).1

theorem readHeader_short_encode {h : ShortHeader} (hh : h.truncatedPN.WellFormed)
    (rest : List UInt8) (conn : Connection)
    : readHeader (h.encode ++ rest) conn
        = ⟨.short (readShortHeader (h.encode ++ rest) conn).header,
            (readShortHeader (h.encode ++ rest) conn).buffer,
            (readShortHeader (h.encode ++ rest) conn).makes⟩ := by
  rw [ShortHeader.encode_eq]
  apply if_neg
  exact (ShortHeader.typeByte_eq hh).1

namespace LongHeader

theorem readable_of_same {h : LongHeader} (hh : h.Encodable) (rest : List UInt8) (conn : Connection)
    (hsame : Header.Same (.long (readLongHeader (h.bytes ++ rest) conn).header) (.long h))
    : h.Readable := by
  rcases hsame with ⟨_, _, hdcid, hscid, htoken, _, _⟩
  rcases readLongHeader_cidl hh (h.destinationCID ++ (h.sourceCID ++ (h.tokenBytes ++
    (varIntBytes h.length.value ++ h.truncatedPN.encode))) ++ rest) conn with ⟨_, hd, hs, ht⟩
  have hbytes : h.bytes ++ rest = h.typeByte :: (beBytes 4 h.version ++ (h.cidlByte ::
      (h.destinationCID ++ (h.sourceCID ++ (h.tokenBytes ++
        (varIntBytes h.length.value ++ h.truncatedPN.encode))) ++ rest))) := by
    simp [bytes]
  rw [← hbytes] at hd hs ht
  rw [hdcid] at hd
  rw [hscid] at hs
  unfold cidlByte at hd hs
  rw [ConnectionID.dcil_cidl hh.destinationCID hh.sourceCID] at hd
  rw [ConnectionID.scil_cidl hh.destinationCID hh.sourceCID] at hs
  refine ⟨?_, ?_, ?_⟩
  . intro hnil
    simp [hnil] at hd
  . intro hnil
    simp [hnil] at hs
  . by_cases htype : h.packetType = PacketType.initial
    . exact Or.inl htype
    . rw [htoken] at ht
      exact Or.inr (ht htype)

end LongHeader

theorem Header.roundTrips_iff_readable (h : Header) (conn : Connection) (hh : h.Encodable conn)
    (rest : List UInt8)
    : h.RoundTrips conn rest ↔ h.Readable := by
  cases h with
  | long h =>
    have hencode : (Header.long h).encode = some h.bytes := LongHeader.encode_eq hh
    apply Iff.intro
    . intro hround
      rcases hround with ⟨bytes, hbytes, hsame, _⟩
      rw [hencode] at hbytes
      injection hbytes with hbytes
      rw [← hbytes] at hsame
      rw [readHeader_long_bytes hh] at hsame
      exact LongHeader.readable_of_same hh rest conn hsame
    . intro hread
      rcases LongHeader.readLongHeader_bytes hh hread rest conn with ⟨hback, hrest⟩
      refine ⟨h.bytes, hencode, ?_⟩
      rw [readHeader_long_bytes hh]
      exact ⟨⟨hback.packetType, hback.version, hback.destinationCID, hback.sourceCID, hback.token,
        hback.length, hback.truncatedPN⟩, hrest⟩
  | short h =>
    rcases hh with ⟨hcid, hpn⟩
    rcases ShortHeader.readShortHeader_encode hpn hcid rest with ⟨hheader, hrest⟩
    apply iff_of_true
    . refine ⟨h.encode, rfl, ?_⟩
      rw [readHeader_short_encode hpn]
      dsimp only
      rw [hheader]
      exact ⟨⟨rfl, rfl, rfl⟩, hrest⟩
    . trivial

theorem Header.encodable_initial
    : Header.Encodable (.long ⟨PacketType.initial, 0, 0xff000011, [1, 2, 3, 4], [5, 6, 7, 8], ⟨2, 1⟩,
        [9, 9], ⟨300, 2⟩, 7, ⟨7, 1⟩⟩) {} := by
  refine ⟨Or.inl rfl, by decide, Or.inr (by decide), Or.inr (by decide), by decide, ⟨300, by decide⟩, ?_⟩
  exact ⟨by decide, by decide, by decide⟩

theorem Header.roundTrips_iff_readable_initial
    : Header.RoundTrips (.long ⟨PacketType.initial, 0, 0xff000011, [1, 2, 3, 4], [5, 6, 7, 8], ⟨2, 1⟩,
        [9, 9], ⟨300, 2⟩, 7, ⟨7, 1⟩⟩) {} [1] := by
  apply (Header.roundTrips_iff_readable _ {} Header.encodable_initial [1]).mpr
  exact ⟨by decide, by decide, Or.inl rfl⟩

/-- The three bytes after an empty destination connection ID are read as one. -/
theorem Header.not_roundTrips_empty
    : Header.Encodable (.long ⟨PacketType.handshake, 0, 0xff000011, [], [5, 6, 7, 8], ⟨0, 1⟩, [],
        ⟨20, 1⟩, 7, ⟨7, 1⟩⟩) {} ∧
      ¬ Header.RoundTrips (.long ⟨PacketType.handshake, 0, 0xff000011, [], [5, 6, 7, 8], ⟨0, 1⟩, [],
        ⟨20, 1⟩, 7, ⟨7, 1⟩⟩) {} [] := by
  apply And.intro
  . refine ⟨Or.inr (Or.inr rfl), by decide, Or.inl rfl, Or.inr (by decide), by decide,
      ⟨20, by decide⟩, ?_⟩
    exact ⟨by decide, by decide, by decide⟩
  . intro hround
    rcases hround with ⟨bytes, hbytes, hsame, _⟩
    have heq : some [0xE0, 0xff, 0, 0, 0x11, 0x01, 5, 6, 7, 8, 20, 7] = some bytes := by
      rw [← hbytes]
      decide
    injection heq with heq
    rw [← heq] at hsame
    have hcid := hsame.2.2.1
    revert hcid
    decide

end QuicTracker
