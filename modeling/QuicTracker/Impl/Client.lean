import QuicTracker.Impl.Agents.Ack
import QuicTracker.Impl.Pigotls
import QuicTracker.Impl.SendPacket
import QuicTracker.Impl.TransportParameters

/-!
This module contains the connection of `connection.go` as the client that sends packets uses it: the
numbering and creation of packets, the first Initial packet, and the restart of the connection by
`TransitionTo`. What is submitted to a broadcaster or written to the socket is kept in order. A panic is
`none`.
-/

namespace QuicTracker

/-- The libraries that the client calls, apart from the broadcasters and the socket. -/
structure Libraries (τ : Type) extends Pigotls τ where
  log2 : Nat → Nat
  marshal : ClientHelloTransportParameters → Option (List UInt8)
  unmarshal : List UInt8 → EncryptedExtensionsTransportParameters →
    Option String × EncryptedExtensionsTransportParameters

/-- The package variables that the client reads and that `ProcessVersionNegotation` sets. -/
structure Globals where
  quicVersion : Nat := 0xff000011
  quicALPNToken : String := "hq-17"
  deriving DecidableEq, Repr

def minimumInitialLength : Nat := 1252
def minimumInitialLengthv6 : Nat := 1232
def maximumVersion : Nat := 0xff000011
def minimumVersion : Nat := 0xff000011

/-- The channel that the TLS agent has made for a packet number space when it was started the `run`-th time. -/
structure CryptoChan where
  run : Nat
  space : PNSpace
  deriving DecidableEq, Repr

/-- A packet number that was given to a packet, with the connection ID of the Initial keys at that time. -/
structure NumberUsed where
  space : PNSpace
  number : Nat
  keys : ConnectionID
  deriving DecidableEq, Repr

/--
The channels registered on `ReadChan` of the stream in `cryptoStreams` are `readChans`. The fields
`initialKeys` and `numbersUsed` are not in the source. They are the connection ID that the Initial keys were
derived from, and the numbers of all the packets created.
-/
structure Client (τ : Type) extends Connection where
  serverName : String := ""
  useIPv6 : Bool := false
  tls : τ
  tlsTPHandler : TLSTransportParameterHandler
  keyPhaseIndex : Nat := 0
  exporterSecret : List UInt8 := []
  outgoingPackets : List FramePacket := []
  encryptionLevelsAvailable : List DirectionalEncryptionLevel := []
  frameQueue : List QueuedFrame := []
  udpConnection : List (List UInt8) := []
  originalDestinationCID : ConnectionID := []
  destinationCID : ConnectionID := []
  version : Nat := 0
  alpn : String := ""
  token : List UInt8 := []
  resumptionTicket : List UInt8 := []
  packetNumber : PNSpace → Nat := fun _ => 0
  largestPNsAcknowledged : PNSpace → Nat := fun _ => 0
  readChans : PNSpace → List CryptoChan := fun _ => []
  initialKeys : ConnectionID := []
  numbersUsed : List NumberUsed := []

def Stream.write (s : Stream) (data : List UInt8) : Option Stream :=
  if s.writeData.length + data.length < 2 ^ 63 then
    some { s with
      writeOffset := u64 (s.writeOffset + data.length)
      writeData := s.writeData ++ data }
  else
    none

def newStreamFrame (streamId : Nat) (stream : Stream) (data : List UInt8) (finBit : Bool) :
    Option (StreamFrame × Stream) := do
  let frame : StreamFrame := {
    finBit := finBit
    lenBit := true
    offBit := stream.writeOffset > 0
    streamId := streamId
    offset := stream.writeOffset
    length := data.length
    streamData := data }
  let stream ← stream.write data
  return (frame, { stream with writeClosed := finBit })

def newCryptoFrame (cryptoStream : Stream) (data : List UInt8) : Option (CryptoFrame × Stream) := do
  let frame : CryptoFrame := ⟨cryptoStream.writeOffset, data.length, data⟩
  let cryptoStream ← cryptoStream.write data
  return (frame, cryptoStream)

namespace Client

variable {τ : Type} (lib : Libraries τ)

def withStream (c : Client τ) (streamId : Nat) (stream : Stream) : Client τ :=
  { c with toConnection := c.toConnection.setStream streamId stream }

def withCryptoStream (c : Client τ) (space : PNSpace) (stream : Stream) : Client τ :=
  { c with toConnection := c.toConnection.setCryptoStream space stream }

def submitFrame (c : Client τ) (frame : Frame) (level : EncryptionLevel) : Client τ :=
  { c with frameQueue := c.frameQueue ++ [⟨frame, level⟩] }

/-- A STREAM frame is made and queued, as `SendHTTPGETRequest` and the HTTP and QPACK agents do it. -/
def sendOnStream (c : Client τ) (streamId : Nat) (data : List UInt8) (fin : Bool) :
    Option (Client τ) := do
  let (frame, stream) ← newStreamFrame streamId (c.streams.get streamId) data fin
  return (c.withStream streamId stream).submitFrame (.stream frame) .bestAppData

def sendHTTPGETRequest (c : Client τ) (path : List UInt8) (streamId : Nat) : Option (Client τ) :=
  c.sendOnStream streamId ([0x47, 0x45, 0x54, 0x20] ++ path ++ [0x0d, 0x0a]) true

def closeConnection (c : Client τ) (quicLayer : Bool) (errCode : Nat) (reasonPhrase : List UInt8) : Client τ :=
  if quicLayer then
    c.submitFrame (.connectionClose ⟨errCode, 0, reasonPhrase.length, reasonPhrase⟩) .best
  else
    c.submitFrame (.applicationClose ⟨errCode, reasonPhrase.length, reasonPhrase⟩) .best

def nextPacketNumber (c : Client τ) (space : PNSpace) : Nat × Client τ :=
  let pn := c.packetNumber space
  (pn, { c with
    packetNumber := Function.update c.packetNumber space (u64 (pn + 1))
    numbersUsed := c.numbersUsed ++ [⟨space, pn, c.initialKeys⟩] })

def newLongHeader (packetType : UInt8) (c : Client τ) (space : PNSpace) :
    Option (LongHeader × Client τ) := do
  let destinationCID :=
    if packetType = PacketType.zeroRTTProtected then c.originalDestinationCID else c.destinationCID
  let tokenLength ← newVarInt 0
  let (packetNumber, c) := c.nextPacketNumber space
  let truncatedPN ← PacketNumber.truncate lib.log2 packetNumber
    (c.largestPNsAcknowledged (PacketType.pnSpace packetType))
  return ({
    packetType := packetType
    lowerBits := 0
    version := c.version
    destinationCID := destinationCID
    sourceCID := c.sourceCID
    tokenLength := tokenLength
    token := []
    length := ⟨0, 0⟩
    packetNumber := packetNumber
    truncatedPN := truncatedPN }, c)

def newShortHeader (c : Client τ) : Option (ShortHeader × Client τ) := do
  let (packetNumber, c) := c.nextPacketNumber .appData
  let truncatedPN ← PacketNumber.truncate lib.log2 packetNumber (c.largestPNsAcknowledged .appData)
  return (⟨c.keyPhaseIndex % 2 = 1, c.destinationCID, truncatedPN, packetNumber⟩, c)

def newInitialPacket (c : Client τ) : Option (FramePacket × Client τ) := do
  let (header, c) ← newLongHeader lib PacketType.initial c .initial
  if c.token.length > 0 then
    let tokenLength ← newVarInt c.token.length
    let header := { header with token := c.token, tokenLength := tokenLength }
    return (⟨.long header, .initial, .initial, []⟩, c)
  else
    return (⟨.long header, .initial, .initial, []⟩, c)

def newHandshakePacket (c : Client τ) : Option (FramePacket × Client τ) := do
  let (header, c) ← newLongHeader lib PacketType.handshake c .handshake
  return (⟨.long header, .handshake, .handshake, []⟩, c)

def newZeroRTTProtectedPacket (c : Client τ) : Option (FramePacket × Client τ) := do
  let (header, c) ← newLongHeader lib PacketType.zeroRTTProtected c .appData
  return (⟨.long header, .appData, .zeroRTT, []⟩, c)

def newProtectedPacket (c : Client τ) : Option (FramePacket × Client τ) := do
  let (header, c) ← newShortHeader lib c
  return (⟨.short header, .appData, .oneRTT, []⟩, c)

/-- The length of the header is set in place, so the packet that is submitted has it too. -/
def sendPacket (c : Client τ) (packet : FramePacket) (level : EncryptionLevel) : Option (Client τ) :=
  match packet.pnSpace with
  | .noSpace => some c
  | _ => do
    let cryptoState ← c.cryptoStates level
    let write ← cryptoState.write
    let payload ← encodePayload packet.frames
    let header ← packet.header.withLength payload.length write.overhead
    let packetBytes ← QuicTracker.sendPacket c.cryptoStates packet level
    return { c with
      udpConnection := c.udpConnection ++ [packetBytes]
      outgoingPackets := c.outgoingPackets ++ [{ packet with header := header }] }

def installZeroRTT (c : Client τ) : Client τ :=
  let secret := lib.zeroRTTSecret c.tls
  if secret.length > 0 then
    let state := newProtectedCryptoState lib.toPigotls c.tls [] secret
    { c with
      cryptoStates := Function.update c.cryptoStates .zeroRTT (some state)
      encryptionLevelsAvailable := c.encryptionLevelsAvailable ++ [⟨.zeroRTT, false⟩] }
  else
    c

def padInitialPacket (c : Client τ) (cryptoFrame : CryptoFrame) (packet : FramePacket) :
    Option FramePacket := do
  let initialLength := if c.useIPv6 then minimumInitialLengthv6 else minimumInitialLength
  let frames := packet.frames ++ [.crypto cryptoFrame]
  let payload ← encodePayload frames
  let header ← packet.header.encode
  let lengthLen ← varIntLen payload.length
  let state ← c.cryptoStates .initial
  let write ← state.write
  -- A negative length adds no padding.
  let paddingLength := initialLength - (header.length + lengthLen + payload.length + write.overhead)
  return { packet with frames := frames ++ List.replicate paddingLength .padding }

/-- A failure of the libraries returns `nil`, which `SendPacket` does not survive. -/
def getInitialPacket (c : Client τ) : Option (Option FramePacket × Client τ) := do
  match ← c.tlsTPHandler.getExtensionData lib.marshal with
  | none => return (none, c)
  | some extensionData =>
    let (response, tls) :=
      lib.handleMessage [] .initial (lib.setQUICTransportParameters extensionData c.tls)
    let c := { c with tls := tls }
    if response.error.isSome then
      return (none, c)
    else if ¬ response.notCompleted then
      -- `err.Error()` on an error that is `nil`.
      none
    else
      let clientHello ← response.output.head?
      let (cryptoFrame, stream) ← newCryptoFrame (c.cryptoStreams.get .initial) clientHello.data
      let c := installZeroRTT lib (c.withCryptoStream .initial stream)
      let (packet, c) ← newInitialPacket lib c
      let packet ← c.padInitialPacket cryptoFrame packet
      return (some packet, c)

def sendInitialPacket (c : Client τ) : Option (Client τ) := do
  let (packet, c) ← getInitialPacket lib c
  let packet ← packet
  c.sendPacket packet .initial

def transitionTo (globals : Globals) (c : Client τ) (version : Nat) (alpn : String) : Client τ :=
  let prevVersion := if c.version = 0 then globals.quicVersion else c.version
  let tls := lib.newConnection c.serverName alpn c.resumptionTicket
  { c with
    tlsTPHandler := newTLSTransportParameterHandler version prevVersion
    version := version
    alpn := alpn
    tls := tls
    packetNumber := fun _ => 0
    largestPNsReceived := fun _ => 0
    largestPNsAcknowledged := fun _ => 0
    ackQueue := fun _ => []
    cryptoStates := Function.update (fun _ => none) .initial
      (some (newInitialPacketProtection lib.toPigotls tls c.destinationCID))
    cryptoStreams := fun _ => none
    readChans := fun _ => []
    initialKeys := c.destinationCID
    streams := fun _ => none }

/-- The loop keeps the last version that is supported. -/
def chooseVersion (supportedVersions : List Nat) : Nat :=
  supportedVersions.foldl
    (fun version v => if v ≥ minimumVersion ∧ v ≤ maximumVersion then v else version) 0

def alpnFamily (alpn : String) : List Char := alpn.toList.takeWhile (· ≠ '-')

def twoDigits (n : Nat) : List Char :=
  if n < 10 then '0' :: Nat.toDigits 10 n else Nat.toDigits 10 n

def alpnToken (alpn : String) (version : Nat) : String :=
  String.ofList (alpnFamily alpn ++ '-' :: twoDigits (version &&& 0xff))

def processVersionNegotation (c : Client τ) (vn : VersionNegotiationPacket) :
    Except String (Globals × Client τ) :=
  let version := chooseVersion vn.supportedVersions
  if version = 0 then
    .error "no appropriate version found"
  else
    let globals : Globals := ⟨version, alpnToken c.alpn version⟩
    .ok (globals, transitionTo lib globals c globals.quicVersion globals.quicALPNToken)

end Client

end QuicTracker
