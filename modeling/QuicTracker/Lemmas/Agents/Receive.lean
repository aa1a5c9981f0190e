import QuicTracker.Lemmas.Frames.Loop
import QuicTracker.Lemmas.Protection

/-!
This module contains that the loop of the parsing agent takes a datagram of coalesced packets apart into
the packets that `SendPacket` put into it. The agent panics on a payload whose frames it cannot tell
apart, which a well-formed payload only is when it carries an ACK_ECN frame.
-/

namespace QuicTracker

open ByteReader ParsingAgent

structure Keys where
  aead : AEAD
  mask : List UInt8 → Fin 5 → UInt8
  decrypt : Decrypt
  decrypt_encrypt : ∀ payload number header,
    decrypt (aead.encrypt payload number header) number header = some payload
  length_encrypt : ∀ payload number header,
    (aead.encrypt payload number header).length = payload.length + aead.overhead

namespace Keys

def write (keys : Keys) : CryptoState := { write := some keys.aead, headerWrite := some keys.mask }

def MirroredBy (keys : Keys) (cryptoState : Option CryptoState) : Prop :=
  ∃ s, cryptoState = some s ∧ s.read = some keys.decrypt ∧ s.headerRead = some keys.mask

theorem MirroredBy.headerCipher {keys : Keys} {cryptoState : Option CryptoState}
    (h : keys.MirroredBy cryptoState)
    : headerCipher cryptoState = some keys.mask := by
  rcases h with ⟨s, hs, hread, hheader⟩
  rw [hs]
  exact headerCipher_eq hheader hread

theorem MirroredBy.read {keys : Keys} {cryptoState : Option CryptoState}
    (h : keys.MirroredBy cryptoState)
    : cryptoState.bind CryptoState.read = some keys.decrypt := by
  rcases h with ⟨s, hs, hread, hheader⟩
  rw [hs]
  exact hread

end Keys

namespace FramePacket

structure IsLong (p : FramePacket) (h : LongHeader) : Prop where
  header : p.header = .long h
  kind : h.packetType = PacketType.initial ∧ p.pnSpace = .initial ∧ p.encryptionLevel = .initial ∨
    h.packetType = PacketType.handshake ∧ p.pnSpace = .handshake ∧ p.encryptionLevel = .handshake
  version : h.version ≠ 0 ∧ h.version < 2 ^ 32
  destinationCID : 4 ≤ h.destinationCID.length ∧ h.destinationCID.length ≤ 18
  sourceCID : 4 ≤ h.sourceCID.length ∧ h.sourceCID.length ≤ 18
  tokenLength : newVarInt h.token.length = some h.tokenLength
  token : h.packetType = PacketType.initial ∨ h.token = []

structure IsShort (p : FramePacket) (cid : ConnectionID) (h : ShortHeader) : Prop where
  header : p.header = .short h
  kind : p.pnSpace = .appData ∧ p.encryptionLevel = .oneRTT
  destinationCID : h.destinationCID.length = cid.length

/-- The number that is sent has the high bytes of the largest one that was received. -/
structure Numbered (p : FramePacket) (largest : Nat) : Prop where
  truncated : p.header.truncatedPN.WellFormed
  low : p.header.packetNumber % 256 ^ p.header.truncatedPN.length = p.header.truncatedPN.value
  high : p.header.packetNumber / 256 ^ p.header.truncatedPN.length
    = largest / 256 ^ p.header.truncatedPN.length

theorem Numbered.join {p : FramePacket} {largest : Nat} (h : p.Numbered largest)
    (hlargest : largest < 2 ^ 64)
    : p.header.truncatedPN.join largest = p.header.packetNumber := by
  rw [TruncatedPN.join_eq _ h.truncated _ hlargest]
  rw [← h.high]
  rw [← h.low]
  exact Nat.div_add_mod' _ _

theorem Numbered.lt {p : FramePacket} {largest : Nat} (h : p.Numbered largest)
    (hlargest : largest < 2 ^ 64)
    : p.header.packetNumber < 2 ^ 64 := by
  rcases h with ⟨⟨h1, h4, _⟩, _, hhigh⟩
  generalize p.header.truncatedPN.length = n at h1 h4 hhigh
  have hn : n = 1 ∨ n = 2 ∨ n = 3 ∨ n = 4 := by omega
  rcases hn with hn | hn | hn | hn
  all_goals
    rw [hn] at hhigh
    omega

/-- The header with its length, its bytes and the payload that `SendPacket` protects. -/
structure Unprotected (p : FramePacket) (overhead : Nat) (header : Header)
    (headerBytes payload : List UInt8) : Prop where
  encodePayload : encodePayload p.frames = some payload
  withLength : p.header.withLength payload.length overhead = some header
  encode : header.encode = some headerBytes

theorem Unprotected.unique {p : FramePacket} {overhead : Nat} {header header' : Header}
    {headerBytes headerBytes' payload payload' : List UInt8}
    (h : p.Unprotected overhead header headerBytes payload)
    (h' : p.Unprotected overhead header' headerBytes' payload')
    : header = header' := by
  have hpayload := h.encodePayload.symm.trans h'.encodePayload
  injection hpayload with hpayload
  have hheader := h.withLength
  rw [hpayload] at hheader
  have heq := hheader.symm.trans h'.withLength
  injection heq

end FramePacket

def sendKeys (keys : EncryptionLevel → Keys) (level : EncryptionLevel) : Option CryptoState :=
  some (keys level).write

/-- The packet on the wire, with a sample that lies inside of it. -/
structure FramePacket.Sent (p : FramePacket) (keys : EncryptionLevel → Keys) (bytes : List UInt8) :
    Prop where
  sent : sendPacket (sendKeys keys) p p.encryptionLevel = some bytes
  sample : ∀ header headerBytes payload,
    p.Unprotected (keys p.encryptionLevel).aead.overhead header headerBytes payload →
    header.pnOffset + 4 + 16 ≤ bytes.length

theorem FramePacket.Sent.of_unprotected {p : FramePacket} {keys : EncryptionLevel → Keys}
    {bytes : List UInt8} {header : Header} {headerBytes payload : List UInt8}
    (hu : p.Unprotected (keys p.encryptionLevel).aead.overhead header headerBytes payload)
    (hsent : sendPacket (sendKeys keys) p p.encryptionLevel = some bytes)
    (hsample : header.pnOffset + 4 + 16 ≤ bytes.length)
    : p.Sent keys bytes := by
  refine ⟨hsent, ?_⟩
  intro header' headerBytes' payload' hu'
  rw [hu'.unique hu]
  exact hsample

theorem FramePacket.Sent.unprotected {p : FramePacket} {keys : EncryptionLevel → Keys}
    {bytes : List UInt8} (h : p.Sent keys bytes)
    : ∃ header headerBytes payload,
        p.Unprotected (keys p.encryptionLevel).aead.overhead header headerBytes payload ∧
        protectHeader (keys p.encryptionLevel).mask header (headerBytes ++
          (keys p.encryptionLevel).aead.encrypt payload header.packetNumber headerBytes)
            = some bytes := by
  have hsent := h.sent
  unfold sendPacket at hsent
  rcases Option.bind_eq_some_iff.mp hsent with ⟨cryptoState, hstate, hsent⟩
  injection hstate with hstate
  rcases Option.bind_eq_some_iff.mp hsent with ⟨payload, hpayload, hsent⟩
  rw [← hstate] at hsent
  dsimp only [Keys.write, Option.bind_eq_bind, Option.bind_some] at hsent
  rcases Option.bind_eq_some_iff.mp hsent with ⟨header, hheader, hsent⟩
  rcases Option.bind_eq_some_iff.mp hsent with ⟨headerBytes, hbytes, hsent⟩
  exact ⟨header, headerBytes, payload, ⟨hpayload, hheader, hbytes⟩, hsent⟩

/--
What a pass makes of the packet at the front of `bytes ++ later`: the cleartext that was protected, and a
packet whose header has the number and the length of the one that was sent.
-/
def FramePacket.Opened (p : FramePacket) (conn : Connection) (bytes later cleartext : List UInt8)
    (headerLength : Nat) : Prop :=
  ∃ header packetHeader : Header,
    (pass conn (bytes ++ later)).outcome = some (.decrypted header cleartext bytes.length) ∧
    readCleartext header cleartext conn
      = readFramePacket p.pnSpace p.encryptionLevel packetHeader (cleartext.drop headerLength) conn ∧
    packetHeader.packetNumber = p.header.packetNumber ∧
    packetHeader.headerLength = headerLength

namespace FramePacket

variable {p : FramePacket} {conn : Connection} {keys : EncryptionLevel → Keys} {bytes : List UInt8}

theorem IsLong.encodable {h : LongHeader} (hp : p.IsLong h) (hpn : h.truncatedPN.WellFormed) {n : Nat}
    {length : VarInt} (hlength : newVarInt n = some length)
    : LongHeader.Encodable { h with length := length } ∧
      LongHeader.Readable { h with length := length } := by
  apply And.intro
  . refine ⟨?_, hp.version.2, Or.inr hp.destinationCID, Or.inr hp.sourceCID, hp.tokenLength,
      ⟨n, hlength⟩, hpn⟩
    rcases hp.kind with hkind | hkind
    . exact Or.inl hkind.1
    . exact Or.inr (Or.inr hkind.1)
  . refine ⟨?_, ?_, hp.token⟩
    . intro hnil
      have hlen := hp.destinationCID.1
      rw [hnil] at hlen
      contradiction
    . intro hnil
      have hlen := hp.sourceCID.1
      rw [hnil] at hlen
      contradiction

theorem readCleartext_long {h header : LongHeader} (hh : h.Encodable) (hr : h.Readable)
    (hp : h.packetType = PacketType.initial ∧ p.pnSpace = .initial ∧ p.encryptionLevel = .initial ∨
      h.packetType = PacketType.handshake ∧ p.pnSpace = .handshake ∧ p.encryptionLevel = .handshake)
    (hback : h.ReadBack conn header) (payload : List UInt8)
    : ∃ packetHeader, h.ReadBack conn packetHeader ∧
        readCleartext (.long header) (h.bytes ++ payload) conn
          = readFramePacket p.pnSpace p.encryptionLevel (.long packetHeader) payload conn := by
  rcases LongHeader.readLongHeader_bytes hh hr payload conn with ⟨hback', hbuffer⟩
  refine ⟨_, hback', ?_⟩
  unfold readCleartext
  dsimp only
  rw [hback.packetType]
  rcases hp with ⟨htype, hspace, hlevel⟩ | ⟨htype, hspace, hlevel⟩
  . rw [if_pos htype]
    rw [hspace]
    rw [hlevel]
    unfold readInitialPacket
    dsimp only
    rw [hbuffer]
  . rw [if_neg (by rw [htype]; decide)]
    rw [hspace]
    rw [hlevel]
    unfold readHandshakePacket
    dsimp only
    rw [hbuffer]

theorem IsLong.level {h : LongHeader} (hp : p.IsLong h)
    : PacketType.encryptionLevel h.packetType = p.encryptionLevel ∧
      PacketType.pnSpace h.packetType = p.pnSpace := by
  rcases hp.kind with ⟨htype, hspace, hlevel⟩ | ⟨htype, hspace, hlevel⟩
  . rw [htype, hspace, hlevel]
    exact ⟨rfl, rfl⟩
  . rw [htype, hspace, hlevel]
    exact ⟨rfl, rfl⟩

theorem sample_inside {header : Header} {first : UInt8} {fields pn headerBytes encrypted : List UInt8}
    (h : header.Written first fields pn) (hencode : header.encode = some headerBytes)
    {mask : List UInt8 → Fin 5 → UInt8}
    (hprotect : protectHeader mask header (headerBytes ++ encrypted) = some bytes)
    (hsample : header.pnOffset + 4 + 16 ≤ bytes.length)
    : 20 ≤ header.truncatedPN.length + encrypted.length := by
  have hlen := length_protectHeader hprotect
  have hbytes : first :: (fields ++ pn) = headerBytes := by
    have := h.encode.symm.trans hencode
    injection this
  rw [← hbytes] at hlen
  simp only [List.length_append, List.length_cons] at hlen
  rw [h.pnOffset] at hsample
  rw [h.length_pn]
  omega

theorem opened_long {h : LongHeader} (hp : p.IsLong h) (hsent : p.Sent keys bytes)
    (hkeys : (keys p.encryptionLevel).MirroredBy (conn.cryptoStates p.encryptionLevel))
    (hjoin : p.header.truncatedPN.join (conn.largestPNsReceived p.pnSpace) = p.header.packetNumber)
    (hpn : p.header.truncatedPN.WellFormed) {header : Header} {headerBytes payload : List UInt8}
    (hu : p.Unprotected (keys p.encryptionLevel).aead.overhead header headerBytes payload)
    (hprotect : protectHeader (keys p.encryptionLevel).mask header (headerBytes ++
      (keys p.encryptionLevel).aead.encrypt payload header.packetNumber headerBytes) = some bytes)
    (later : List UInt8)
    : p.Opened conn bytes later (headerBytes ++ payload) headerBytes.length := by
  have hwith := hu.withLength
  have hsample := hsent.sample header headerBytes payload hu
  have hencode := hu.encode
  rw [hp.header] at hwith hpn hjoin
  rcases Option.bind_eq_some_iff.mp hwith with ⟨length, hlength, hheader⟩
  injection hheader with hheader
  rcases hp.encodable hpn hlength with ⟨hh, hr⟩
  rw [← hheader] at hencode hprotect hsample
  have hbytes : LongHeader.bytes { h with length := length } = headerBytes := by
    have henc : some (LongHeader.bytes { h with length := length }) = some headerBytes := by
      rw [← hencode]
      exact (LongHeader.encode_eq hh).symm
    injection henc
  have hvalue : length.value = h.truncatedPN.length + payload.length +
      (keys p.encryptionLevel).aead.overhead := by
    rw [eq_of_newVarInt hlength]
  have hencrypted := (keys p.encryptionLevel).length_encrypt payload h.packetNumber headerBytes
  have hdecrypt := (keys p.encryptionLevel).decrypt_encrypt payload h.packetNumber headerBytes
  have hinside : 20 ≤ h.truncatedPN.length +
      ((keys p.encryptionLevel).aead.encrypt payload h.packetNumber headerBytes).length := by
    apply sample_inside (LongHeader.written hh) hencode hprotect hsample
  rw [← hbytes] at hprotect hencrypted hdecrypt hinside
  have htype : h.packetType = PacketType.handshake ∨ h.packetType = PacketType.initial := by
    rcases hp.kind with hkind | hkind
    . exact Or.inr hkind.1
    . exact Or.inl hkind.1
  have hkeys' : (keys p.encryptionLevel).MirroredBy
      (conn.cryptoStates (PacketType.encryptionLevel h.packetType)) := by
    rw [hp.level.1]
    exact hkeys
  rw [← hp.level.2] at hjoin
  rcases pass_long_protected hh hr hp.version.1 htype hkeys'.headerCipher hkeys'.read hjoin
    (by rw [hencrypted]; exact hvalue.trans (Nat.add_assoc _ _ _)) hinside hdecrypt with
    ⟨bytes', hprotect', _, hpass⟩
  have heq : bytes' = bytes := by
    have := hprotect'.symm.trans hprotect
    injection this
  rw [heq] at hpass
  rcases hpass later with ⟨header', hback, houtcome⟩
  rcases readCleartext_long hh hr hp.kind hback payload with ⟨packetHeader, hback', hread⟩
  rw [hbytes] at houtcome hread
  refine ⟨.long header', .long packetHeader, houtcome, ?_, ?_, ?_⟩
  . rw [hread]
    rw [List.drop_left]
  . rw [hp.header]
    exact hback'.packetNumber.trans hjoin
  . rw [← hbytes]
    exact hback'.headerLength hh

theorem opened_short {h : ShortHeader} (hp : p.IsShort conn.sourceCID h) (hsent : p.Sent keys bytes)
    (hkeys : (keys p.encryptionLevel).MirroredBy (conn.cryptoStates p.encryptionLevel))
    (hjoin : p.header.truncatedPN.join (conn.largestPNsReceived p.pnSpace) = p.header.packetNumber)
    (hpn : p.header.truncatedPN.WellFormed) {header : Header} {headerBytes payload : List UInt8}
    (hu : p.Unprotected (keys p.encryptionLevel).aead.overhead header headerBytes payload)
    (hprotect : protectHeader (keys p.encryptionLevel).mask header (headerBytes ++
      (keys p.encryptionLevel).aead.encrypt payload header.packetNumber headerBytes) = some bytes)
    : p.Opened conn bytes [] (headerBytes ++ payload) headerBytes.length := by
  have hwith := hu.withLength
  have hsample := hsent.sample header headerBytes payload hu
  have hencode := hu.encode
  rcases hp.kind with ⟨hspace, hlevel⟩
  rw [hp.header] at hwith hpn hjoin
  rw [hspace] at hjoin
  dsimp only [Header.truncatedPN, Header.packetNumber] at hjoin
  injection hwith with hheader
  rw [← hheader] at hencode hprotect hsample
  have hbytes : h.encode = headerBytes := by
    injection hencode
  have hinside := sample_inside (ShortHeader.written hpn) hencode hprotect hsample
  have hdecrypt := (keys p.encryptionLevel).decrypt_encrypt payload h.packetNumber headerBytes
  rw [← hbytes] at hprotect hdecrypt hinside
  have hkeys' : (keys p.encryptionLevel).MirroredBy (conn.cryptoStates .oneRTT) := by
    rw [← hlevel]
    exact hkeys
  rcases pass_short_protected hpn hp.destinationCID hkeys'.headerCipher hkeys'.read hjoin hinside
    hdecrypt with ⟨bytes', hprotect', _, hpass⟩
  have heq : bytes' = bytes := by
    have := hprotect'.symm.trans hprotect
    injection this
  rw [heq] at hpass
  rcases ShortHeader.readShortHeader_encode hpn hp.destinationCID payload with ⟨hread, hbuffer⟩
  rw [hbytes] at hpass
  refine ⟨.short h, .short h, ?_, ?_, ?_, ?_⟩
  . rw [List.append_nil]
    exact hpass
  . rw [List.drop_left]
    rw [hspace]
    rw [hlevel]
    rw [← hbytes]
    unfold readCleartext readProtectedPacket
    dsimp only
    rw [readHeader_short_encode hpn]
    dsimp only
    rw [hread]
    rw [hbuffer]
    rw [hjoin]
  . rw [hp.header]
  . have hlen := TruncatedPN.length_encode hpn
    rw [← hbytes]
    rw [ShortHeader.encode_eq]
    simp only [Header.headerLength, ShortHeader.headerLength, List.length_cons, List.length_append]
    dsimp only [Header.truncatedPN] at hlen
    omega

end FramePacket

def raise (largest : PNSpace → Nat) (p : FramePacket) : PNSpace → Nat :=
  if p.header.packetNumber > largest p.pnSpace then
    Function.update largest p.pnSpace p.header.packetNumber
  else
    largest

/--
The packets of one datagram: Initial and Handshake packets, and then at most one packet with a short header.
Each number fits the largest ones that are known when the packet is its turn.
-/
inductive Coalesced (cid : ConnectionID) : (PNSpace → Nat) → List FramePacket → Prop where
  | nil (largest : PNSpace → Nat) : Coalesced cid largest []
  | long {largest : PNSpace → Nat} {p : FramePacket} {packets : List FramePacket} {h : LongHeader}
      (hp : p.IsLong h) (hnumber : p.Numbered (largest p.pnSpace))
      (hrest : Coalesced cid (raise largest p) packets)
      : Coalesced cid largest (p :: packets)
  | short {largest : PNSpace → Nat} {p : FramePacket} {h : ShortHeader}
      (hp : p.IsShort cid h) (hnumber : p.Numbered (largest p.pnSpace))
      : Coalesced cid largest [p]

/-- The agent has submitted the packet and saved the header and the payload that were sent. -/
def FramePacket.RecoveredAs (keys : EncryptionLevel → Keys) (p : FramePacket)
    (received : Packet × List UInt8) : Prop :=
  ∃ header headerBytes payload packet,
    p.Unprotected (keys p.encryptionLevel).aead.overhead header headerBytes payload ∧
    received = (.frames packet, headerBytes ++ payload) ∧
    packet.pnSpace = p.pnSpace ∧ packet.header.packetNumber = p.header.packetNumber ∧
    packet.header.headerLength = headerBytes.length

def FramePacket.FramesKnown (p : FramePacket) : Prop :=
  ∃ payload, encodePayload p.frames = some payload ∧ ReadsToEnd payload

theorem FramePacket.Unprotected.framesKnown_iff {p : FramePacket} {overhead : Nat} {header : Header}
    {headerBytes payload : List UInt8} (h : p.Unprotected overhead header headerBytes payload)
    : p.FramesKnown ↔ ReadsToEnd payload := by
  unfold FramesKnown
  rw [h.encodePayload]
  simp

structure FramePacket.WellFormed (p : FramePacket) : Prop where
  frame : ∀ frame ∈ p.frames, frame.WellFormed
  last : ∀ frame ∈ p.frames.dropLast, ¬ frame.EndsPayload

theorem FramePacket.WellFormed.framesKnown {p : FramePacket} (h : p.WellFormed)
    (hecn : ∀ frame ∈ p.frames, ∀ f, frame ≠ .ackECN f)
    : p.FramesKnown := by
  refine ⟨_, encodePayload_eq p.frames h.frame, ?_⟩
  apply readsToEnd_flatMap p.frames h.frame hecn h.last
  . exact Connection.readable_empty.streams
  . apply Nat.lt_succ_self

theorem raise_lt {largest : PNSpace → Nat} (hlargest : ∀ space, largest space < 2 ^ 64)
    {p : FramePacket} (hp : p.header.packetNumber < 2 ^ 64) (space : PNSpace)
    : raise largest p space < 2 ^ 64 := by
  unfold raise
  split
  . cases decEq space p.pnSpace with
    | isTrue heq => simpa [heq] using hp
    | isFalse hne => simpa [hne] using hlargest space
  . exact hlargest space

namespace ParsingAgent

def Recovers (keys : EncryptionLevel → Keys) (packets : List FramePacket) (conn : Connection)
    (udpPayload : List UInt8) : Prop :=
  ∃ s, receive conn udpPayload = some s ∧ s.off = udpPayload.length ∧ s.unprocessed = [] ∧
    List.Forall₂ (FramePacket.RecoveredAs keys) packets s.incoming

theorem noteLargestPN_eq (conn : Connection) (packet p : FramePacket)
    (hspace : packet.pnSpace = p.pnSpace) (hnumber : packet.header.packetNumber = p.header.packetNumber)
    : (noteLargestPN conn packet).largestPNsReceived = raise conn.largestPNsReceived p ∧
      (noteLargestPN conn packet).sourceCID = conn.sourceCID ∧
      (noteLargestPN conn packet).cryptoStates = conn.cryptoStates ∧
      (conn.Readable → (noteLargestPN conn packet).Readable) := by
  unfold noteLargestPN raise
  rw [hspace]
  rw [hnumber]
  split
  . exact ⟨rfl, rfl, rfl, fun h => ⟨h.streams, h.cryptoStreams⟩⟩
  . exact ⟨rfl, rfl, rfl, id⟩

theorem round_opened {p : FramePacket} {conn : Connection} {bytes later cleartext : List UInt8}
    {headerLength : Nat} (hopen : p.Opened conn bytes later cleartext headerLength)
    {payload : List UInt8} (hpayload : cleartext.drop headerLength = payload)
    (hlen : payload.length < 2 ^ 62) {s : Progress} (hconn : s.conn = conn) (hr : conn.Readable)
    {udpPayload : List UInt8} (hudp : udpPayload.drop s.off = bytes ++ later)
    : (¬ ReadsToEnd payload ∧ round udpPayload s = none) ∨
      (ReadsToEnd payload ∧ ∃ packet conn',
        packet.pnSpace = p.pnSpace ∧ packet.header.packetNumber = p.header.packetNumber ∧
        packet.header.headerLength = headerLength ∧ conn'.Readable ∧
        conn'.sourceCID = conn.sourceCID ∧ conn'.cryptoStates = conn.cryptoStates ∧
        conn'.largestPNsReceived = raise conn.largestPNsReceived p ∧
        round udpPayload s = some ({ s with
          conn := conn'
          off := s.off + bytes.length
          incoming := s.incoming ++ [(.frames packet, cleartext)] }, true)) := by
  rcases hopen with ⟨header, packetHeader, houtcome, hread, hnumber, hlength⟩
  rw [hpayload] at hread
  have hiff := readPacketFrames_isSome_iff p.pnSpace (payload.length + 1) (Nat.lt_succ_self _) hlen hr
    Connection.readable_empty
  unfold round
  rw [hudp]
  rw [hconn]
  dsimp only
  rw [houtcome]
  simp only [Option.bind_eq_bind, Option.bind_some, hread, readFramePacket]
  cases hframes : readPacketFrames p.pnSpace (payload.length + 1) payload conn with
  | none =>
    rw [hframes] at hiff
    refine Or.inl ⟨?_, rfl⟩
    intro hend
    exact absurd (hiff.mpr hend) (by simp)
  | some res =>
    rcases res with ⟨frames, conn'⟩
    rw [hframes] at hiff
    rcases readPacketFrames_readOn hlen hr hframes with ⟨hon, hr'⟩
    rcases noteLargestPN_eq conn' ⟨packetHeader, p.pnSpace, p.encryptionLevel, frames⟩ p rfl hnumber
      with ⟨hlargest, hcid, hstates, hreadable⟩
    refine Or.inr ⟨hiff.mp rfl, ⟨packetHeader, p.pnSpace, p.encryptionLevel, frames⟩, _, rfl, hnumber,
      hlength, hreadable hr', ?_, ?_, ?_, rfl⟩
    . rw [hcid]
      exact hon.sourceCID
    . rw [hstates]
      exact hon.cryptoStates
    . rw [hlargest]
      rw [hon.largestPNsReceived]

/-- What the rounds have left to do when `packets` are left of the datagram. -/
structure Ready (keys : EncryptionLevel → Keys) (cid : ConnectionID) (largest : PNSpace → Nat)
    (packets : List FramePacket) (s : Progress) : Prop where
  readable : s.conn.Readable
  sourceCID : s.conn.sourceCID = cid
  largestPNsReceived : s.conn.largestPNsReceived = largest
  largest_lt : ∀ space, largest space < 2 ^ 64
  keys : ∀ p ∈ packets, (keys p.encryptionLevel).MirroredBy (s.conn.cryptoStates p.encryptionLevel)

def Outcomes (keys : EncryptionLevel → Keys) (packets : List FramePacket) (udpPayload : List UInt8)
    (s : Progress) (res : Option Progress) : Prop :=
  (¬ (∀ p ∈ packets, p.FramesKnown) ∧ res = none) ∨
  ((∀ p ∈ packets, p.FramesKnown) ∧ ∃ s' received, res = some s' ∧ s'.off = udpPayload.length ∧
    s'.unprocessed = s.unprocessed ∧ s'.incoming = s.incoming ++ received ∧
    List.Forall₂ (FramePacket.RecoveredAs keys) packets received)

theorem Outcomes.cons {keys : EncryptionLevel → Keys} {p : FramePacket} {packets : List FramePacket}
    (hknown : p.FramesKnown) {received : Packet × List UInt8} (hp : p.RecoveredAs keys received)
    {s s' : Progress} (hunprocessed : s'.unprocessed = s.unprocessed)
    (hincoming : s'.incoming = s.incoming ++ [received]) {udpPayload : List UInt8}
    {res : Option Progress} (h : Outcomes keys packets udpPayload s' res)
    : Outcomes keys (p :: packets) udpPayload s res := by
  cases h with
  | inl h =>
    refine Or.inl ⟨?_, h.2⟩
    intro hall
    exact h.1 (fun q hq => hall q (List.mem_cons_of_mem p hq))
  | inr h =>
    rcases h with ⟨hall, s'', rest, hres, hoff, hunprocessed', hincoming', hrest⟩
    refine Or.inr ⟨?_, s'', received :: rest, hres, hoff, ?_, ?_, .cons hp hrest⟩
    . simp only [List.mem_cons, forall_eq_or_imp]
      exact ⟨hknown, hall⟩
    . rw [hunprocessed']
      exact hunprocessed
    . rw [hincoming']
      rw [hincoming]
      simp

theorem Outcomes.recovers_iff {keys : EncryptionLevel → Keys} {packets : List FramePacket}
    {conn : Connection} {udpPayload : List UInt8}
    (h : Outcomes keys packets udpPayload { conn := conn } (receive conn udpPayload))
    : Recovers keys packets conn udpPayload ↔ ∀ p ∈ packets, p.FramesKnown := by
  cases h with
  | inl h =>
    apply iff_of_false
    . intro hrec
      rcases hrec with ⟨s, hres, _⟩
      rw [h.2] at hres
      contradiction
    . exact h.1
  | inr h =>
    rcases h with ⟨hall, s, received, hres, hoff, hunprocessed, hincoming, hrec⟩
    apply iff_of_true
    . refine ⟨s, hres, hoff, hunprocessed, ?_⟩
      rw [hincoming]
      exact hrec
    . exact hall

theorem opened_front {keys : EncryptionLevel → Keys} {p : FramePacket} {packets : List FramePacket}
    {largest : PNSpace → Nat} {cid : ConnectionID} (hp : Coalesced cid largest (p :: packets))
    {s : Progress} (hs : Ready keys cid largest (p :: packets) s) {bytes : List UInt8}
    (hsent : p.Sent keys bytes) {later : List UInt8} (hlater : packets = [] → later = [])
    : Coalesced cid (raise largest p) packets ∧ p.header.packetNumber < 2 ^ 64 ∧
      ∃ header headerBytes payload,
        p.Unprotected (keys p.encryptionLevel).aead.overhead header headerBytes payload ∧
        payload.length ≤ bytes.length ∧
        p.Opened s.conn bytes later (headerBytes ++ payload) headerBytes.length := by
  have hkeys := hs.keys p List.mem_cons_self
  rcases hsent.unprotected with ⟨header, headerBytes, payload, hu, hprotect⟩
  have hlen : payload.length ≤ bytes.length := by
    rw [length_protectHeader hprotect]
    rw [List.length_append]
    rw [(keys p.encryptionLevel).length_encrypt]
    omega
  cases hp with
  | long hp hnumber hrest =>
    have hjoin := hnumber.join (hs.largest_lt p.pnSpace)
    rw [← hs.largestPNsReceived] at hjoin
    refine ⟨hrest, hnumber.lt (hs.largest_lt _), header, headerBytes, payload, hu, hlen, ?_⟩
    exact FramePacket.opened_long hp hsent hkeys hjoin hnumber.truncated hu hprotect later
  | short hp hnumber =>
    have hjoin := hnumber.join (hs.largest_lt p.pnSpace)
    rw [← hs.largestPNsReceived] at hjoin
    rw [← hs.sourceCID] at hp
    refine ⟨.nil _, hnumber.lt (hs.largest_lt _), header, headerBytes, payload, hu, hlen, ?_⟩
    rw [hlater rfl]
    exact FramePacket.opened_short hp hsent hkeys hjoin hnumber.truncated hu hprotect

theorem rounds_coalesced {keys : EncryptionLevel → Keys} {cid : ConnectionID}
    {packets : List FramePacket} {sent : List (List UInt8)}
    (hsent : List.Forall₂ (fun p bytes => p.Sent keys bytes) packets sent)
    {largest : PNSpace → Nat} (hp : Coalesced cid largest packets) {s : Progress}
    (hs : Ready keys cid largest packets s) {udpPayload : List UInt8}
    (hudp : udpPayload.drop s.off = sent.flatten) (hoff : s.off ≤ udpPayload.length)
    (hlen : udpPayload.length < 2 ^ 62) {n : Nat} (hn : sent.flatten.length ≤ n)
    : Outcomes keys packets udpPayload s (rounds n udpPayload s) := by
  induction hsent generalizing largest s n with
  | nil =>
    have hle := List.drop_eq_nil_iff.mp hudp
    refine Or.inr ⟨nofun, s, [], ?_, by omega, rfl, by simp, .nil⟩
    unfold rounds
    rw [if_neg (by omega)]
  | @cons p bytes packets sent hsent hrest ih =>
    have hlater : packets = [] → sent.flatten = [] := by
      intro hnil
      rw [hnil] at hrest
      cases hrest
      rfl
    rcases opened_front hp hs hsent hlater with ⟨hp', hlt, header, headerBytes, payload, hu, hle, hopen⟩
    have hpos : 20 ≤ bytes.length := by
      have := hsent.sample _ _ _ hu
      omega
    rw [List.flatten_cons] at hudp hn
    rw [List.length_append] at hn
    have hsize : bytes.length + sent.flatten.length = udpPayload.length - s.off := by
      rw [← List.length_append]
      rw [← hudp]
      rw [List.length_drop]
    cases n with
    | zero => omega
    | succ n =>
      unfold rounds
      rw [if_pos (by omega)]
      cases round_opened hopen List.drop_left (by omega) rfl hs.readable hudp with
      | inl hpanic =>
        rw [hpanic.2]
        refine Or.inl ⟨?_, rfl⟩
        intro hall
        exact hpanic.1 (hu.framesKnown_iff.mp (hall p List.mem_cons_self))
      | inr hround =>
        rcases hround with ⟨hend, packet, conn', hspace, hnumber, hheader, hreadable, hcid, hstates,
          hlargest, hround⟩
        rw [hround]
        dsimp only [Option.bind_eq_bind, Option.bind_some]
        rw [if_pos rfl]
        have hknown := hu.framesKnown_iff.mpr hend
        have hrecovered : p.RecoveredAs keys (.frames packet, headerBytes ++ payload) :=
          ⟨header, headerBytes, payload, packet, hu, rfl, hspace, hnumber, hheader⟩
        refine Outcomes.cons hknown hrecovered ?_ ?_ (ih hp' ?_ ?_ ?_ ?_)
        . rfl
        . rfl
        . refine ⟨hreadable, hcid.trans hs.sourceCID, ?_, raise_lt hs.largest_lt hlt, ?_⟩
          . rw [← hs.largestPNsReceived]
            exact hlargest
          . intro q hq
            rw [hstates]
            exact hs.keys q (List.mem_cons_of_mem p hq)
        . rw [← List.drop_drop]
          rw [hudp]
          exact List.drop_left
        . dsimp only
          omega
        . omega

theorem recovers_iff_framesKnown (keys : EncryptionLevel → Keys) (conn : Connection)
    (hconn : conn.Readable) (hlargest : ∀ space, conn.largestPNsReceived space < 2 ^ 64)
    (packets : List FramePacket) (hp : Coalesced conn.sourceCID conn.largestPNsReceived packets)
    (hkeys : ∀ p ∈ packets, (keys p.encryptionLevel).MirroredBy (conn.cryptoStates p.encryptionLevel))
    (sent : List (List UInt8))
    (hsent : List.Forall₂ (fun p bytes => p.Sent keys bytes) packets sent)
    (hlen : sent.flatten.length < 2 ^ 62)
    : (Recovers keys packets conn sent.flatten ↔ ∀ p ∈ packets, p.FramesKnown) ∧
      ((∀ p ∈ packets, p.WellFormed ∧ ∀ frame ∈ p.frames, ∀ f, frame ≠ .ackECN f) →
        Recovers keys packets conn sent.flatten) := by
  have hs : Ready keys conn.sourceCID conn.largestPNsReceived packets { conn := conn } :=
    ⟨hconn, rfl, rfl, hlargest, hkeys⟩
  have hiff := (rounds_coalesced hsent hp hs rfl (Nat.zero_le _) hlen (Nat.le_refl _)).recovers_iff
  refine ⟨hiff, ?_⟩
  intro hall
  apply hiff.mpr
  intro p hmem
  exact (hall p hmem).1.framesKnown (hall p hmem).2

/-- An AEAD that appends a tag, and a mask that does not depend on the sample. -/
def tagKeys : Keys where
  aead := ⟨fun payload _ _ => payload ++ List.replicate 16 0xAA, 16⟩
  mask := fun _ i => UInt8.ofNat (0x15 + i)
  decrypt := fun ciphertext _ _ => some (ciphertext.take (ciphertext.length - 16))
  decrypt_encrypt := by simp
  length_encrypt := by simp

def tagReader : Connection where
  sourceCID := [1, 2, 3, 4]
  cryptoStates := fun _ => some { read := some tagKeys.decrypt, headerRead := some tagKeys.mask }

def initialWith (frames : List Frame) : FramePacket where
  header := .long ⟨PacketType.initial, 0, 1, [1, 2, 3, 4], [5, 6, 7, 8], ⟨0, 1⟩, [], ⟨0, 0⟩, 7, ⟨7, 1⟩⟩
  pnSpace := .initial
  encryptionLevel := .initial
  frames := frames

def shortWith (frames : List Frame) : FramePacket where
  header := .short ⟨true, [1, 2, 3, 4], ⟨9, 2⟩, 9⟩
  pnSpace := .appData
  encryptionLevel := .oneRTT
  frames := frames

def tag : List UInt8 := List.replicate 16 0xAA

theorem coalesced_initial (frames : List Frame) {packets : List FramePacket}
    (h : Coalesced tagReader.sourceCID (raise (fun _ => 0) (initialWith frames)) packets)
    : Coalesced tagReader.sourceCID (fun _ => 0) (initialWith frames :: packets) := by
  refine .long ⟨rfl, Or.inl ⟨rfl, rfl, rfl⟩, by decide, by decide, by decide, by decide, Or.inl rfl⟩ ?_ h
  refine ⟨⟨?_, ?_, ?_⟩, ?_, ?_⟩
  all_goals simp [initialWith, Header.truncatedPN, Header.packetNumber]

theorem numbered_shortWith (frames : List Frame) : (shortWith frames).Numbered 0 := by
  refine ⟨⟨?_, ?_, ?_⟩, ?_, ?_⟩
  all_goals simp [shortWith, Header.truncatedPN, Header.packetNumber]

theorem mirroredBy_tagReader (level : EncryptionLevel)
    : tagKeys.MirroredBy (tagReader.cryptoStates level) :=
  ⟨_, rfl, rfl, rfl⟩

theorem recovers_iff_framesKnown_two
    : Recovers (fun _ => tagKeys)
        [initialWith [.ping, .ping, .ping], shortWith [.maxStreams ⟨.uniStreams, 5⟩]] tagReader
        ([0xC5, 0, 0, 0, 1, 0x11, 1, 2, 3, 4, 5, 6, 7, 8, 0, 20, 0x11, 1, 1, 1] ++ tag ++
          ([0x50, 1, 2, 3, 4, 0x16, 0x1E, 0x13, 5] ++ tag)) := by
  have hinitial : (initialWith [.ping, .ping, .ping]).Sent (fun _ => tagKeys)
      ([0xC5, 0, 0, 0, 1, 0x11, 1, 2, 3, 4, 5, 6, 7, 8, 0, 20, 0x11, 1, 1, 1] ++ tag) :=
    .of_unprotected ⟨rfl, rfl, rfl⟩ (by decide) (by decide)
  have hshort : (shortWith [.maxStreams ⟨.uniStreams, 5⟩]).Sent (fun _ => tagKeys)
      ([0x50, 1, 2, 3, 4, 0x16, 0x1E, 0x13, 5] ++ tag) :=
    .of_unprotected ⟨rfl, rfl, rfl⟩ (by decide) (by decide)
  have hcoalesced := coalesced_initial [.ping, .ping, .ping]
    (.short ⟨rfl, ⟨rfl, rfl⟩, rfl⟩ (numbered_shortWith [.maxStreams ⟨.uniStreams, 5⟩]))
  apply (recovers_iff_framesKnown (fun _ => tagKeys) tagReader
    ⟨fun _ => Stream.shape_newStream, fun _ => Stream.shape_newStream⟩
    (fun _ => Nat.two_pow_pos 64) _ hcoalesced (fun p _ => mirroredBy_tagReader p.encryptionLevel)
    [_, _] (.cons hinitial (.cons hshort .nil)) (by decide)).1.mpr
  simp only [List.mem_cons, List.not_mem_nil, or_false, forall_eq_or_imp, forall_eq]
  exact ⟨⟨_, rfl, by decide +kernel⟩, ⟨_, rfl, by decide +kernel⟩⟩

/-- The counters of the ACK_ECN frame are read as the next frame, and there is no type 63. -/
theorem not_recovers_ackECN
    : (initialWith [.ackECN ⟨⟨9, 0, 0, [⟨0, 0⟩]⟩, 63, 0, 0⟩]).WellFormed ∧
      Coalesced tagReader.sourceCID tagReader.largestPNsReceived
        [initialWith [.ackECN ⟨⟨9, 0, 0, [⟨0, 0⟩]⟩, 63, 0, 0⟩]] ∧
      (initialWith [.ackECN ⟨⟨9, 0, 0, [⟨0, 0⟩]⟩, 63, 0, 0⟩]).Sent (fun _ => tagKeys)
        ([0xC5, 0, 0, 0, 1, 0x11, 1, 2, 3, 4, 5, 6, 7, 8, 0, 25, 0x11, 2, 9, 0, 0, 0, 63, 0, 0] ++ tag) ∧
      ¬ Recovers (fun _ => tagKeys) [initialWith [.ackECN ⟨⟨9, 0, 0, [⟨0, 0⟩]⟩, 63, 0, 0⟩]] tagReader
        ([0xC5, 0, 0, 0, 1, 0x11, 1, 2, 3, 4, 5, 6, 7, 8, 0, 25, 0x11, 2, 9, 0, 0, 0, 63, 0, 0] ++ tag) := by
  refine ⟨⟨?_, ?_⟩, coalesced_initial _ (.nil _), .of_unprotected ⟨rfl, rfl, rfl⟩ (by decide) (by decide), ?_⟩
  . simp only [initialWith, List.mem_cons, List.not_mem_nil, or_false, forall_eq]
    refine ⟨?_, by decide, by decide, by decide⟩
    constructor <;> simp
  . simp [initialWith]
  . intro hrec
    rcases hrec with ⟨s, hres, _⟩
    have hnone : (receive tagReader
        ([0xC5, 0, 0, 0, 1, 0x11, 1, 2, 3, 4, 5, 6, 7, 8, 0, 25, 0x11, 2, 9, 0, 0, 0, 63, 0, 0] ++ tag)).isSome
          = false := by
      decide +kernel
    rw [hres] at hnone
    contradiction

end ParsingAgent

end QuicTracker
