import QuicTracker.Impl.Frames.Read
import QuicTracker.Impl.Headers

/-!
This module contains the packets of `packets.go`.
-/

namespace QuicTracker

open ByteReader

structure VersionNegotiationPacket where
  unusedField : UInt8
  version : Nat
  destinationCID : ConnectionID
  sourceCID : ConnectionID
  supportedVersions : List Nat
  deriving DecidableEq, Repr

def readSupportedVersions (buffer : List UInt8) : List Nat :=
  match buffer with
  | b0 :: b1 :: b2 :: b3 :: buffer => beNat [b0, b1, b2, b3] :: readSupportedVersions buffer
  | _ => []

def readVersionNegotationPacket (buffer : List UInt8) :
    Option (VersionNegotiationPacket × List Make) :=
  match buffer with
  | [] => none
  | b :: buffer =>
    let (version, buffer) := readUint32 buffer
    let (cidl, buffer) := readByte buffer
    let cidl := cidl.getD 0
    let makeDCID := ⟨dcil cidl, buffer.length⟩
    let (destinationCID, buffer) := readConnectionID (dcil cidl) buffer
    let makeSCID := ⟨scil cidl, buffer.length⟩
    let (sourceCID, buffer) := readConnectionID (scil cidl) buffer
    some (⟨b &&& 0x7f, version, destinationCID, sourceCID, readSupportedVersions buffer⟩,
      [makeDCID, makeSCID])

def VersionNegotiationPacket.encodePayload (p : VersionNegotiationPacket) : List UInt8 :=
  let cidl := (p.destinationCID.cidl <<< 4) ||| p.sourceCID.cidl
  (p.unusedField &&& 0x80) :: (uint32ToBEBytes p.version ++ cidl :: (p.destinationCID ++
    p.sourceCID ++ p.supportedVersions.flatMap uint32ToBEBytes))

/-- The packets that carry frames. The kind of packet fixes `pnSpace` and `encryptionLevel`. -/
structure FramePacket where
  header : Header
  pnSpace : PNSpace
  encryptionLevel : EncryptionLevel
  frames : List Frame
  deriving DecidableEq, Repr

namespace FramePacket

def getFirst (p : FramePacket) (frameType : Nat) : Option Frame :=
  p.frames.find? (fun f => f.frameType = frameType)

def getAll (p : FramePacket) (frameType : Nat) : List Frame :=
  p.frames.filter (fun f => f.frameType = frameType)

def shouldBeAcknowledged (p : FramePacket) : Bool :=
  p.frames.any fun f =>
    ¬ (f.frameType = FrameType.ack ∨ f.frameType = FrameType.padding ∨
      f.frameType = FrameType.connectionClose ∨ f.frameType = FrameType.applicationClose)

/-- An Initial packet is sent again with its padding. -/
def getRetransmittableFrames (p : FramePacket) : List Frame :=
  p.frames.filter fun f =>
    f.shouldBeRetransmitted ∨ (p.pnSpace = .initial ∧ f.frameType = FrameType.padding)

end FramePacket

def Connection.readCrypto (conn : Connection) (space : PNSpace) (frame : Frame) : Option Connection :=
  match frame with
  | .crypto f => do
    let stream ← (conn.cryptoStreams.get space).addToRead
      ⟨false, false, false, 0, f.offset, f.length, f.cryptoData⟩
    return conn.setCryptoStream space stream
  | _ => some conn

/--
The loop over `NewFrame` in the readers of a packet. Every round consumes a byte, `fuel` bounds the rounds.
The data of a CRYPTO frame goes to the crypto stream of the packet's space.
-/
def readPacketFrames (space : PNSpace) (fuel : Nat) (buffer : List UInt8) (conn : Connection) :
    Option (List Frame × Connection) :=
  match fuel with
  | 0 => none
  | fuel + 1 => do
    let res ← newFrame buffer conn
    match res.frame with
    | .error _ => none
    | .ok none => return ([], res.conn)
    | .ok (some frame) =>
      let conn ← res.conn.readCrypto space frame
      let (frames, conn) ← readPacketFrames space fuel res.buffer conn
      return (frame :: frames, conn)

def readFramePacket (space : PNSpace) (level : EncryptionLevel) (header : Header)
    (buffer : List UInt8) (conn : Connection) : Option (FramePacket × Connection) := do
  let (frames, conn) ← readPacketFrames space (buffer.length + 1) buffer conn
  return (⟨header, space, level, frames⟩, conn)

def readInitialPacket (buffer : List UInt8) (conn : Connection) :
    Option (FramePacket × Connection) :=
  let res := readLongHeader buffer conn
  readFramePacket .initial .initial (.long res.header) res.buffer conn

def readHandshakePacket (buffer : List UInt8) (conn : Connection) :
    Option (FramePacket × Connection) :=
  let res := readLongHeader buffer conn
  readFramePacket .handshake .handshake (.long res.header) res.buffer conn

def readProtectedPacket (buffer : List UInt8) (conn : Connection) :
    Option (FramePacket × Connection) :=
  let res := readHeader buffer conn
  readFramePacket .appData .oneRTT res.header res.buffer conn

structure RetryPacket where
  header : LongHeader
  originalDestinationCID : ConnectionID
  retryToken : List UInt8
  deriving DecidableEq, Repr

def readRetryPacket (buffer : List UInt8) (conn : Connection) : RetryPacket :=
  let res := readLongHeader buffer conn
  let ocidl := res.header.lowerBits &&& 0x0f
  let ocidl := if ocidl > 0 then ocidl + 3 else ocidl
  let (originalDestinationCID, retryToken) := readInto ocidl.toNat res.buffer
  ⟨res.header, originalDestinationCID, retryToken⟩

def RetryPacket.encodePayload (p : RetryPacket) : List UInt8 :=
  UInt8.ofNat p.originalDestinationCID.length :: (p.originalDestinationCID ++ p.retryToken)

def RetryPacket.encode (p : RetryPacket) (payload : List UInt8) : Option (List UInt8) := do
  let header ← p.header.encode
  return header ++ payload

inductive Packet where
  | versionNegotiation (p : VersionNegotiationPacket)
  | retry (p : RetryPacket)
  | frames (p : FramePacket)
  deriving DecidableEq, Repr

/-- The header of a Version Negotiation packet is `nil`. -/
def Packet.header (p : Packet) : Option Header :=
  match p with
  | .versionNegotiation _ => none
  | .retry p => some (.long p.header)
  | .frames p => some p.header

def Packet.protectedPacket (p : Packet) : Option FramePacket :=
  match p with
  | .frames p => if p.encryptionLevel = .oneRTT then some p else none
  | _ => none

end QuicTracker
