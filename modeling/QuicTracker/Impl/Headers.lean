import QuicTracker.Impl.Connection

/-!
This module contains the packet headers of `headers.go`. A reader also returns the allocations it makes,
each with the number of bytes that are still unread at that point.
-/

namespace QuicTracker

open ByteReader

namespace PacketType

def initial : UInt8 := 0x0
def zeroRTTProtected : UInt8 := 0x1
def handshake : UInt8 := 0x2
def retry : UInt8 := 0x3
def shortHeaderPacket : UInt8 := 0xff

/-- A type that is not in the map has the zero value of `PNSpace`. -/
def pnSpace (t : UInt8) : PNSpace :=
  if t = initial then .initial
  else if t = retry then .noSpace
  else if t = handshake then .handshake
  else if t = zeroRTTProtected then .appData
  else if t = shortHeaderPacket then .appData
  else .initial

def encryptionLevel (t : UInt8) : EncryptionLevel :=
  if t = initial then .initial
  else if t = retry then .none
  else if t = handshake then .handshake
  else if t = zeroRTTProtected then .zeroRTT
  else if t = shortHeaderPacket then .oneRTT
  else .none

end PacketType

structure LongHeader where
  packetType : UInt8
  lowerBits : UInt8
  version : Nat
  destinationCID : ConnectionID
  sourceCID : ConnectionID
  tokenLength : VarInt
  token : List UInt8
  length : VarInt
  packetNumber : Nat
  truncatedPN : TruncatedPN
  deriving DecidableEq, Repr

structure ShortHeader where
  keyPhase : Bool
  destinationCID : ConnectionID
  truncatedPN : TruncatedPN
  packetNumber : Nat
  deriving DecidableEq, Repr

inductive Header where
  | long (h : LongHeader)
  | short (h : ShortHeader)
  deriving DecidableEq, Repr

def LongHeader.headerLength (h : LongHeader) : Nat :=
  let length :=
    6 + h.destinationCID.length + h.sourceCID.length + h.length.length + h.truncatedPN.length
  if h.packetType = PacketType.initial then
    length + h.tokenLength.length + h.token.length
  else
    length

def ShortHeader.headerLength (h : ShortHeader) : Nat :=
  1 + h.destinationCID.length + h.truncatedPN.length

def LongHeader.encode (h : LongHeader) : Option (List UInt8) := do
  let typeByte : UInt8 := 0xC0
  let typeByte := typeByte ||| (h.packetType <<< 4)
  let typeByte := typeByte ||| (UInt8.ofNat h.truncatedPN.length - 1)
  let cidl := (h.destinationCID.cidl <<< 4) ||| h.sourceCID.cidl
  let buffer := typeByte :: (uint32ToBEBytes h.version ++ cidl :: (h.destinationCID ++ h.sourceCID))
  let buffer ←
    if h.packetType = PacketType.initial then do
      let tokenLength ← h.tokenLength.encode
      pure (buffer ++ tokenLength ++ h.token)
    else
      pure buffer
  if h.packetType ≠ PacketType.retry then
    let length ← h.length.encode
    return buffer ++ length ++ h.truncatedPN.encode
  else
    return buffer

def ShortHeader.encode (h : ShortHeader) : List UInt8 :=
  let typeByte : UInt8 := 0x40
  let typeByte := if h.keyPhase then typeByte ||| 0x04 else typeByte
  let typeByte := typeByte ||| (UInt8.ofNat h.truncatedPN.length - 1)
  typeByte :: (h.destinationCID ++ h.truncatedPN.encode)

namespace Header

def destinationConnectionID (h : Header) : ConnectionID :=
  match h with
  | .long h => h.destinationCID
  | .short h => h.destinationCID

def encode (h : Header) : Option (List UInt8) :=
  match h with
  | .long h => h.encode
  | .short h => some h.encode

def packetType (h : Header) : UInt8 :=
  match h with
  | .long h => h.packetType
  | .short _ => PacketType.shortHeaderPacket

def packetNumber (h : Header) : Nat :=
  match h with
  | .long h => h.packetNumber
  | .short h => h.packetNumber

def truncatedPN (h : Header) : TruncatedPN :=
  match h with
  | .long h => h.truncatedPN
  | .short h => h.truncatedPN

def encryptionLevel (h : Header) : EncryptionLevel := PacketType.encryptionLevel h.packetType

def headerLength (h : Header) : Nat :=
  match h with
  | .long h => h.headerLength
  | .short h => h.headerLength

end Header

structure Make where
  size : Nat
  left : Nat
  deriving DecidableEq, Repr

structure HeaderRead (α : Type) where
  header : α
  buffer : List UInt8
  makes : List Make

/-- The scratch space of `ReadTruncatedPN` always has four bytes. -/
def readTruncatedPN.make (buffer : List UInt8) : Make := ⟨4, buffer.length⟩

def dcil (cidl : UInt8) : Nat := ((3 : UInt8) + ((cidl &&& 0xf0) >>> 4)).toNat
def scil (cidl : UInt8) : Nat := ((3 : UInt8) + (cidl &&& 0xf)).toNat

def readConnectionID (length : Nat) (buffer : List UInt8) : ConnectionID × List UInt8 :=
  let (cid, buffer) := readFull length buffer
  (cid.getD (List.replicate length 0), buffer)

def readUint32 (buffer : List UInt8) : Nat × List UInt8 :=
  let (bytes, buffer) := readFull 4 buffer
  ((bytes.map beNat).getD 0, buffer)

structure Token where
  tokenLength : VarInt
  token : List UInt8

def readToken (packetType : UInt8) (buffer : List UInt8) : HeaderRead Token :=
  if packetType = PacketType.initial then
    let (tokenLength, buffer) := readVarInt buffer
    let tokenLength := tokenLength.getD ⟨0, 0⟩
    let make := ⟨tokenLength.value, buffer.length⟩
    let (token, buffer) := readInto tokenLength.value buffer
    ⟨⟨tokenLength, token⟩, buffer, [make]⟩
  else
    ⟨⟨⟨0, 0⟩, []⟩, buffer, []⟩

structure LengthAndPN where
  length : VarInt
  truncatedPN : TruncatedPN
  packetNumber : Nat

def readLengthAndPN (packetType typeByte : UInt8) (buffer : List UInt8) (conn : Connection) :
    HeaderRead LengthAndPN :=
  if packetType ≠ PacketType.retry then
    let (length, buffer) := readVarInt buffer
    let length := length.getD ⟨0, 0⟩
    let make := readTruncatedPN.make buffer
    let (truncatedPN, buffer) := readTruncatedPN buffer ((typeByte &&& 0x3).toNat + 1)
    let packetNumber := truncatedPN.join (conn.largestPNsReceived (PacketType.pnSpace packetType))
    ⟨⟨length, truncatedPN, packetNumber⟩, buffer, [make]⟩
  else
    ⟨⟨⟨0, 0⟩, ⟨0, 0⟩, 0⟩, buffer, []⟩

def readLongHeader (buffer : List UInt8) (conn : Connection) : HeaderRead LongHeader :=
  let (typeByte, buffer) := readByte buffer
  let typeByte := typeByte.getD 0
  let packetType := (typeByte - 0xC0) >>> 4
  let (version, buffer) := readUint32 buffer
  let (cidl, buffer) := readByte buffer
  let cidl := cidl.getD 0
  let makeDCID := ⟨dcil cidl, buffer.length⟩
  let (destinationCID, buffer) := readConnectionID (dcil cidl) buffer
  let makeSCID := ⟨scil cidl, buffer.length⟩
  let (sourceCID, buffer) := readConnectionID (scil cidl) buffer
  let token := readToken packetType buffer
  let tail := readLengthAndPN packetType typeByte token.buffer conn
  { header := {
      packetType := packetType
      lowerBits := typeByte &&& 0x0F
      version := version
      destinationCID := destinationCID
      sourceCID := sourceCID
      tokenLength := token.header.tokenLength
      token := token.header.token
      length := tail.header.length
      packetNumber := tail.header.packetNumber
      truncatedPN := tail.header.truncatedPN
    }
    buffer := tail.buffer
    makes := makeDCID :: makeSCID :: (token.makes ++ tail.makes) }

def readShortHeader (buffer : List UInt8) (conn : Connection) : HeaderRead ShortHeader :=
  let (typeByte, buffer) := readByte buffer
  let typeByte := typeByte.getD 0
  let makeDCID := ⟨conn.sourceCID.length, buffer.length⟩
  let (destinationCID, buffer) := readInto conn.sourceCID.length buffer
  let makePN := readTruncatedPN.make buffer
  let (truncatedPN, buffer) := readTruncatedPN buffer ((typeByte &&& 0x3).toNat + 1)
  { header := {
      keyPhase := typeByte &&& 0x04 = 0x04
      destinationCID := destinationCID
      truncatedPN := truncatedPN
      packetNumber := truncatedPN.join (conn.largestPNsReceived .appData)
    }
    buffer := buffer
    makes := [makeDCID, makePN] }

def readHeader (buffer : List UInt8) (conn : Connection) : HeaderRead Header :=
  let typeByte := (readByte buffer).1.getD 0
  if typeByte &&& 0x80 = 0x80 then
    let res := readLongHeader buffer conn
    ⟨.long res.header, res.buffer, res.makes⟩
  else
    let res := readShortHeader buffer conn
    ⟨.short res.header, res.buffer, res.makes⟩

end QuicTracker
