import QuicTracker.Impl.Client

/-!
This module contains what the functions of the client do to its connection. The creation of a packet takes
a packet number, sending it changes nothing that the client reads later.
-/

namespace QuicTracker

namespace Client

variable {τ : Type} (lib : Libraries τ)

theorem newLongHeader_cases {c c' : Client τ} {packetType : UInt8} {space : PNSpace} {h : LongHeader}
    (hnew : newLongHeader lib packetType c space = some (h, c'))
    : c' = (c.nextPacketNumber space).2 := by
  unfold newLongHeader at hnew
  rcases Option.bind_eq_some_iff.mp hnew with ⟨_, _, hnew⟩
  rcases Option.bind_eq_some_iff.mp hnew with ⟨_, _, hnew⟩
  injection hnew with hnew
  injection hnew with _ hc
  exact hc.symm

theorem newShortHeader_cases {c c' : Client τ} {h : ShortHeader}
    (hnew : newShortHeader lib c = some (h, c'))
    : c' = (c.nextPacketNumber .appData).2 := by
  unfold newShortHeader at hnew
  rcases Option.bind_eq_some_iff.mp hnew with ⟨_, _, hnew⟩
  injection hnew with hnew
  injection hnew with _ hc
  exact hc.symm

theorem newInitialPacket_made {c c' : Client τ} {p : FramePacket}
    (hnew : newInitialPacket lib c = some (p, c'))
    : c' = (c.nextPacketNumber .initial).2 ∧ p.pnSpace = .initial ∧ p.encryptionLevel = .initial := by
  unfold newInitialPacket at hnew
  rcases Option.bind_eq_some_iff.mp hnew with ⟨⟨h, c₁⟩, hheader, hnew⟩
  rw [← newLongHeader_cases lib hheader]
  dsimp only at hnew
  split at hnew
  . rcases Option.bind_eq_some_iff.mp hnew with ⟨_, _, hnew⟩
    injection hnew with hnew
    injection hnew with hp hc
    rw [← hp]
    exact ⟨hc.symm, rfl, rfl⟩
  . injection hnew with hnew
    injection hnew with hp hc
    rw [← hp]
    exact ⟨hc.symm, rfl, rfl⟩

theorem newInitialPacket_cases {c c' : Client τ} {p : FramePacket}
    (hnew : newInitialPacket lib c = some (p, c'))
    : c' = (c.nextPacketNumber .initial).2 := by
  exact (newInitialPacket_made lib hnew).1

theorem header_cases {α : Type} (x : Option (α × Client τ)) (f : α → FramePacket) {p : FramePacket}
    {c' : Client τ} (h : (x.bind fun r => some (f r.1, r.2)) = some (p, c'))
    : ∃ header, x = some (header, c') := by
  rcases Option.bind_eq_some_iff.mp h with ⟨⟨header, c₁⟩, hheader, h⟩
  injection h with h
  injection h with _ hc
  exact ⟨header, hc ▸ hheader⟩

theorem newHandshakePacket_cases {c c' : Client τ} {p : FramePacket}
    (h : newHandshakePacket lib c = some (p, c'))
    : c' = (c.nextPacketNumber .handshake).2 := by
  rcases header_cases (newLongHeader lib PacketType.handshake c .handshake)
    (fun header => ⟨.long header, .handshake, .handshake, []⟩) h with ⟨_, hheader⟩
  exact newLongHeader_cases lib hheader

theorem newZeroRTTProtectedPacket_cases {c c' : Client τ} {p : FramePacket}
    (h : newZeroRTTProtectedPacket lib c = some (p, c'))
    : c' = (c.nextPacketNumber .appData).2 := by
  rcases header_cases (newLongHeader lib PacketType.zeroRTTProtected c .appData)
    (fun header => ⟨.long header, .appData, .zeroRTT, []⟩) h with ⟨_, hheader⟩
  exact newLongHeader_cases lib hheader

theorem newProtectedPacket_cases {c c' : Client τ} {p : FramePacket}
    (h : newProtectedPacket lib c = some (p, c'))
    : c' = (c.nextPacketNumber .appData).2 := by
  rcases header_cases (newShortHeader lib c)
    (fun header => ⟨.short header, .appData, .oneRTT, []⟩) h with ⟨_, hheader⟩
  exact newShortHeader_cases lib hheader

theorem sendPacket_sent {c c' : Client τ} {p : FramePacket} {level : EncryptionLevel}
    (h : c.sendPacket p level = some c')
    : (p.pnSpace = .noSpace ∧ c' = c) ∨
        ∃ packetBytes header, QuicTracker.sendPacket c.cryptoStates p level = some packetBytes ∧
          c' = { c with
            udpConnection := c.udpConnection ++ [packetBytes]
            outgoingPackets := c.outgoingPackets ++ [{ p with header := header }] } := by
  unfold sendPacket at h
  split at h
  . next hspace =>
    injection h with h
    exact Or.inl ⟨hspace, h.symm⟩
  . rcases Option.bind_eq_some_iff.mp h with ⟨_, _, h⟩
    rcases Option.bind_eq_some_iff.mp h with ⟨_, _, h⟩
    rcases Option.bind_eq_some_iff.mp h with ⟨_, _, h⟩
    rcases Option.bind_eq_some_iff.mp h with ⟨_, _, h⟩
    rcases Option.bind_eq_some_iff.mp h with ⟨_, hbytes, h⟩
    injection h with h
    exact Or.inr ⟨_, _, hbytes, h.symm⟩

theorem sendPacket_cases {c c' : Client τ} {p : FramePacket} {level : EncryptionLevel}
    (h : c.sendPacket p level = some c')
    : ∃ written submitted, c' =
        { c with udpConnection := written, outgoingPackets := submitted } := by
  rcases sendPacket_sent h with ⟨_, rfl⟩ | ⟨_, _, _, rfl⟩
  . exact ⟨_, _, rfl⟩
  . exact ⟨_, _, rfl⟩

theorem installZeroRTT_cases (c : Client τ)
    : ∃ states levels, installZeroRTT lib c =
        { c with cryptoStates := states, encryptionLevelsAvailable := levels } := by
  unfold installZeroRTT
  dsimp only
  split
  . exact ⟨_, _, rfl⟩
  . exact ⟨_, _, rfl⟩

/-- What an Initial packet with the client hello leaves as it is, and what it takes. -/
structure SentInitial (c c' : Client τ) : Prop where
  streams : c'.streams = c.streams
  cryptoStreams : ∃ stream, c'.cryptoStreams = Function.update c.cryptoStreams .initial (some stream)
  readChans : c'.readChans = c.readChans
  frameQueue : c'.frameQueue = c.frameQueue
  tlsTPHandler : c'.tlsTPHandler = c.tlsTPHandler
  version : c'.version = c.version
  alpn : c'.alpn = c.alpn
  destinationCID : c'.destinationCID = c.destinationCID
  initialKeys : c'.initialKeys = c.initialKeys
  largestPNsAcknowledged : c'.largestPNsAcknowledged = c.largestPNsAcknowledged
  packetNumber : c'.packetNumber
    = Function.update c.packetNumber .initial (u64 (c.packetNumber .initial + 1))
  numbersUsed : c'.numbersUsed
    = c.numbersUsed ++ [⟨.initial, c.packetNumber .initial, c.initialKeys⟩]

def clientHello (c : Client τ) : Option (List UInt8) := do
  let extensionData ← (c.tlsTPHandler.getExtensionData lib.marshal).join
  let (response, _) :=
    lib.handleMessage [] .initial (lib.setQUICTransportParameters extensionData c.tls)
  let clientHello ← response.output.head?
  return clientHello.data

def withHello (c : Client τ) (tls : τ) (stream : Stream) : Client τ :=
  installZeroRTT lib (withCryptoStream { c with tls := tls } .initial stream)

theorem getInitialPacket_eq_some {c c' : Client τ} {p : FramePacket}
    (h : getInitialPacket lib c = some (some p, c'))
    : ∃ hello tls stream p₀, clientHello lib c = some hello ∧
        newInitialPacket lib (withHello lib c tls stream) = some (p₀, c') ∧
        c'.padInitialPacket
          ⟨(c.cryptoStreams.get .initial).writeOffset, hello.length, hello⟩ p₀ = some p := by
  unfold getInitialPacket at h
  rcases Option.bind_eq_some_iff.mp h with ⟨extension, hextension, h⟩
  cases extension with
  | none =>
    injection h with h
    injection h with h
    contradiction
  | some extensionData =>
    dsimp only at h
    split at h
    . injection h with h
      injection h with h
      contradiction
    . split at h
      . contradiction
      . rcases Option.bind_eq_some_iff.mp h with ⟨hello, hhello, h⟩
        rcases Option.bind_eq_some_iff.mp h with ⟨⟨frame, stream⟩, hframe, h⟩
        rcases Option.bind_eq_some_iff.mp h with ⟨⟨p₀, c₁⟩, hpacket, h⟩
        rcases Option.bind_eq_some_iff.mp h with ⟨p₁, hpad, h⟩
        rcases Option.bind_eq_some_iff.mp hframe with ⟨_, _, hframe⟩
        injection hframe with hframe
        injection hframe with hframe _
        injection h with h
        injection h with hp hc
        injection hp with hp
        subst hp hc hframe
        refine ⟨hello.data, _, stream, p₀, ?_, hpacket, hpad⟩
        unfold clientHello
        rw [hextension, Option.join_some]
        dsimp only [Option.bind_eq_bind, Option.bind_some]
        rw [hhello]
        rfl

theorem getInitialPacket_cases {c c' : Client τ} {p : FramePacket}
    (h : getInitialPacket lib c = some (some p, c'))
    : SentInitial c c' := by
  rcases getInitialPacket_eq_some lib h with ⟨_, tls, stream, _, _, hpacket, _⟩
  rcases installZeroRTT_cases lib (withCryptoStream { c with tls := tls } .initial stream) with
    ⟨states, levels, hzero⟩
  rw [newInitialPacket_cases lib hpacket]
  unfold withHello
  rw [hzero]
  exact ⟨rfl, ⟨stream, rfl⟩, rfl, rfl, rfl, rfl, rfl, rfl, rfl, rfl, rfl, rfl⟩

theorem sendInitialPacket_cases {c c' : Client τ} (h : sendInitialPacket lib c = some c')
    : SentInitial c c' := by
  rcases Option.bind_eq_some_iff.mp h with ⟨⟨p, c₁⟩, hget, h⟩
  rcases Option.bind_eq_some_iff.mp h with ⟨p, hp, h⟩
  rw [hp] at hget
  have hsent := getInitialPacket_cases lib hget
  rcases sendPacket_cases h with ⟨written, submitted, rfl⟩
  exact ⟨hsent.streams, hsent.cryptoStreams, hsent.readChans, hsent.frameQueue, hsent.tlsTPHandler,
    hsent.version, hsent.alpn, hsent.destinationCID, hsent.initialKeys,
    hsent.largestPNsAcknowledged, hsent.packetNumber, hsent.numbersUsed⟩

end Client

/--
Libraries to run the client with. A TLS connection records whether it was given data. It starts with a
client hello of 1200 bytes, the first data completes the handshake and gives it a ticket. A secret is
derived by returning what it is derived from, and the ciphers add sixteen bytes.
-/
def sampleLibraries : Libraries Bool where
  baseLabel := "tls13 "
  quicBaseLabel := "quic "
  newConnection _ _ _ := false
  setQUICTransportParameters _ tls := tls
  handleMessage data _ tls :=
    if data.length = 0 then
      (⟨[⟨List.replicate 1200 1, .initial⟩], true, none⟩, tls)
    else
      (⟨[], false, none⟩, true)
  zeroRTTSecret _ := []
  handshakeReadSecret tls := if tls then [1] else []
  handshakeWriteSecret tls := if tls then [2] else []
  protectedReadSecret tls := if tls then [3] else []
  protectedWriteSecret tls := if tls then [4] else []
  exporterSecret _ := []
  receivedQUICTransportParameters _ := []
  resumptionTicket tls := if tls then [5] else []
  hkdfExtract _ _ ikm := ikm
  hkdfExpandLabel _ secret _ _ _ _ := secret
  hashDigestSize _ := 32
  aeadKeySize _ := 16
  newDecrypter _ _ ciphertext _ _ := some (ciphertext.take (ciphertext.length - 16))
  newEncrypter _ _ := ⟨fun cleartext _ _ => cleartext ++ List.replicate 16 0, 16⟩
  newCipher _ _ _ _ := 0
  log2 := Nat.log2
  marshal _ := some []
  unmarshal _ extensions := (none, extensions)

/-- The connection that `NewConnection` makes for an HTTP/3 server. -/
def sampleClient : Client Bool :=
  let cid := [0xc1, 0xc2, 0xc3, 0xc4, 0xc5, 0xc6, 0xc7, 0xc8]
  Client.transitionTo sampleLibraries {}
    { tls := false
      tlsTPHandler := newTLSTransportParameterHandler 0 0
      destinationCID := cid
      originalDestinationCID := cid }
    0xff000011 "h3-17"

end QuicTracker
