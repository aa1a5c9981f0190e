import QuicTracker.Impl.Packets

/-!
This module contains the loop of `agents/parse_agent.go`. A pass goes from the bytes that are left of a
datagram to the decryption of the first packet in them. An index or a slice that is out of range is
`none`, and so is the panic of a reader of frames.
-/

namespace QuicTracker

open ByteReader

def Header.pnOffset (h : Header) : Nat :=
  match h with
  | .long h => h.headerLength - h.truncatedPN.length
  | .short h => 1 + h.destinationCID.length

def getPacketSample (header : Header) (packetBytes : List UInt8) : Option (List UInt8 × Nat) :=
  let sampleLength := 16
  let pnOffset := header.pnOffset
  let sampleOffset := pnOffset + 4
  let packetBytes :=
    if sampleOffset + sampleLength > packetBytes.length then
      packetBytes ++ List.replicate (sampleOffset + sampleLength - packetBytes.length) 0
    else
      packetBytes
  if sampleOffset + sampleLength ≤ packetBytes.length then
    some ((packetBytes.drop sampleOffset).take sampleLength, pnOffset)
  else
    none

def slice (bytes : List UInt8) (low high : Int) : Option (List UInt8) :=
  if 0 ≤ low ∧ low ≤ high ∧ high ≤ bytes.length then
    some ((bytes.take high.toNat).drop low.toNat)
  else
    none

namespace ParsingAgent

def xorByte (bytes : List UInt8) (index : Nat) (mask : UInt8) : Option (List UInt8) := do
  let b ← bytes[index]?
  return bytes.set index (b ^^^ mask)

def decryptPN (encrypt : List UInt8 → Fin 5 → UInt8) (header : Header) (ciphertext : List UInt8) :
    Option (List UInt8) := do
  let first ← ciphertext[0]?
  let firstByteMask : UInt8 := if first &&& 0x80 = 0x80 then 0x0F else 0x1F
  let (sample, pnOffset) ← getPacketSample header ciphertext
  let mask := encrypt sample
  let ciphertext ← xorByte ciphertext 0 (mask 0 &&& firstByteMask)
  let first ← ciphertext[0]?
  let pnLength := (first &&& 0x3).toNat + 1
  ((List.finRange 4).take pnLength).foldlM
    (fun ciphertext (i : Fin 4) => xorByte ciphertext (pnOffset + i) (mask i.succ)) ciphertext

def firstMask (mask : Fin 5 → UInt8) : UInt8 := mask 0

inductive Outcome where
  | versionNegotiation (packet : VersionNegotiationPacket)
  | unprocessed (level : EncryptionLevel) (payload : List UInt8)
  | pastTheEnd
  | undecryptable
  | decrypted (header : Header) (cleartext : List UInt8) (consumed : Nat)
  | retry (header : Header)
  | unknownType (typeByte : UInt8)
  deriving DecidableEq, Repr

abbrev Decrypt := List UInt8 → Nat → List UInt8 → Option (List UInt8)

def decryptLong (decrypt : Decrypt) (header : LongHeader) (ciphertext : List UInt8) :
    Option Outcome :=
  let hLen : Int := header.headerLength
  let pLen : Int := header.length.value - header.truncatedPN.length
  if hLen + pLen > ciphertext.length then
    some .pastTheEnd
  else do
    let payload ← slice ciphertext hLen (hLen + pLen)
    let aad ← slice ciphertext 0 hLen
    match decrypt payload header.packetNumber aad with
    | none => return .undecryptable
    | some payload => return .decrypted (.long header) (aad ++ payload) (hLen + pLen).toNat

def decryptShort (decrypt : Decrypt) (header : ShortHeader) (ciphertext : List UInt8) :
    Option Outcome := do
  let hLen : Int := header.headerLength
  let payload ← slice ciphertext hLen ciphertext.length
  let aad ← slice ciphertext 0 hLen
  match decrypt payload header.packetNumber aad with
  | none => return .undecryptable
  | some payload => return .decrypted (.short header) (aad ++ payload) ciphertext.length

/-- The `switch` over the type of the header whose packet number is decrypted. -/
def decryptPayload (cryptoState : Option CryptoState) (header : Header) (ciphertext : List UInt8) :
    Option Outcome :=
  match header with
  | .long h =>
    if h.packetType = PacketType.handshake ∨ h.packetType = PacketType.initial then do
      let decrypt ← cryptoState.bind CryptoState.read
      decryptLong decrypt h ciphertext
    else if h.packetType = PacketType.retry then
      some (.retry header)
    else do
      let first ← ciphertext[0]?
      return .unknownType first
  | .short h => do
    let decrypt ← cryptoState.bind CryptoState.read
    decryptShort decrypt h ciphertext

def protectedType (t : UInt8) : Bool :=
  t = PacketType.initial ∨ t = PacketType.handshake ∨ t = PacketType.zeroRTTProtected ∨
    t = PacketType.shortHeaderPacket

def versionIsZero (header : Header) : Bool :=
  match header with
  | .long h => h.version = 0
  | .short _ => false

structure Pass where
  outcome : Option Outcome
  makes : List Make

def headerCipher (cryptoState : Option CryptoState) : Option (List UInt8 → Fin 5 → UInt8) := do
  let cryptoState ← cryptoState
  let headerRead ← cryptoState.headerRead
  let _ ← cryptoState.read
  return headerRead

def pass (conn : Connection) (ciphertext : List UInt8) : Pass :=
  let res := readHeader ciphertext conn
  let header := res.header
  let cryptoState := conn.cryptoStates header.encryptionLevel
  if versionIsZero header then
    match readVersionNegotationPacket ciphertext with
    | none => ⟨none, res.makes⟩
    | some (packet, makes) => ⟨some (.versionNegotiation packet), res.makes ++ makes⟩
  else if protectedType header.packetType then
    match headerCipher cryptoState with
    | none => ⟨some (.unprocessed header.encryptionLevel ciphertext), res.makes⟩
    | some headerRead =>
      match decryptPN headerRead header ciphertext with
      | none => ⟨none, res.makes⟩
      | some ciphertext =>
        let updated := readHeader ciphertext conn
        ⟨decryptPayload cryptoState updated.header ciphertext, res.makes ++ updated.makes⟩
  else
    ⟨decryptPayload cryptoState header ciphertext, res.makes⟩

/--
The loop over the packets of a datagram. `incoming` holds the packets that were submitted to
`IncomingPackets`, each with the cleartext that was saved for it.
-/
structure Progress where
  conn : Connection
  off : Nat := 0
  incoming : List (Packet × List UInt8) := []
  unprocessed : List (EncryptionLevel × List UInt8) := []

def noteLargestPN (conn : Connection) (packet : FramePacket) : Connection :=
  if packet.header.packetNumber > conn.largestPNsReceived packet.pnSpace then
    { conn with
      largestPNsReceived :=
        Function.update conn.largestPNsReceived packet.pnSpace packet.header.packetNumber }
  else
    conn

def readCleartext (header : Header) (cleartext : List UInt8) (conn : Connection) :
    Option (FramePacket × Connection) :=
  match header with
  | .long h =>
    if h.packetType = PacketType.initial then
      readInitialPacket cleartext conn
    else
      readHandshakePacket cleartext conn
  | .short _ => readProtectedPacket cleartext conn

/-- The bytes that were unmasked in place lie before the next offset. The flag asks for another round. -/
def round (udpPayload : List UInt8) (s : Progress) : Option (Progress × Bool) := do
  let ciphertext := udpPayload.drop s.off
  let outcome ← (pass s.conn ciphertext).outcome
  match outcome with
  | .versionNegotiation packet =>
    return ({ s with incoming := s.incoming ++ [(.versionNegotiation packet, ciphertext)] }, false)
  | .unprocessed level payload =>
    return ({ s with unprocessed := s.unprocessed ++ [(level, payload)] }, false)
  | .pastTheEnd => return (s, false)
  | .undecryptable => return (s, false)
  | .unknownType _ => return (s, false)
  | .decrypted header cleartext consumed =>
    let (packet, conn) ← readCleartext header cleartext s.conn
    return ({ s with
      conn := noteLargestPN conn packet
      off := s.off + consumed
      incoming := s.incoming ++ [(.frames packet, cleartext)] }, true)
  | .retry _ =>
    let packet := readRetryPacket ciphertext s.conn
    return ({ s with
      off := udpPayload.length
      incoming := s.incoming ++ [(.retry packet, ciphertext)] }, true)

def rounds (fuel : Nat) (udpPayload : List UInt8) (s : Progress) : Option Progress :=
  if s.off < udpPayload.length then
    match fuel with
    | 0 => none
    | fuel + 1 => do
      let (s, again) ← round udpPayload s
      if again then
        rounds fuel udpPayload s
      else
        return s
  else
    some s

def receive (conn : Connection) (udpPayload : List UInt8) : Option Progress :=
  rounds udpPayload.length udpPayload { conn := conn }

end ParsingAgent

end QuicTracker
