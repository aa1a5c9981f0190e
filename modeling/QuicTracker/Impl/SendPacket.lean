import QuicTracker.Impl.Agents.Parse

/-!
This module contains the protection of a packet by `SendPacket` of `connection.go`, up to the bytes that
are written to the UDP socket.
-/

namespace QuicTracker

open ParsingAgent (xorByte firstMask)

/-- The length of a long header is set in place by `SendPacket`. -/
def Header.withLength (h : Header) (payloadLength overhead : Nat) : Option Header :=
  match h with
  | .long h => do
    let length ← newVarInt (h.truncatedPN.length + payloadLength + overhead)
    return .long { h with length := length }
  | .short _ => some h

def protectHeader (encrypt : List UInt8 → Fin 5 → UInt8) (header : Header)
    (packetBytes : List UInt8) : Option (List UInt8) := do
  let firstByteMask : UInt8 :=
    if header.packetType ≠ PacketType.shortHeaderPacket then 0x0F else 0x1F
  let (sample, pnOffset) ← getPacketSample header packetBytes
  let mask := encrypt sample
  let packetBytes ← xorByte packetBytes 0 (firstMask mask &&& firstByteMask)
  let pnLength := header.truncatedPN.length
  -- The mask has four bytes for the packet number.
  if pnLength > 4 then
    none
  else
    ((List.finRange 4).take pnLength).foldlM
      (fun packetBytes (i : Fin 4) => xorByte packetBytes (pnOffset + i) (mask i.succ)) packetBytes

def sendPacket (cryptoStates : EncryptionLevel → Option CryptoState) (packet : FramePacket)
    (level : EncryptionLevel) : Option (List UInt8) := do
  let cryptoState ← cryptoStates level
  let payload ← encodePayload packet.frames
  let write ← cryptoState.write
  let header ← packet.header.withLength payload.length write.overhead
  let headerBytes ← header.encode
  let protectedPayload := write.encrypt payload header.packetNumber headerBytes
  let headerWrite ← cryptoState.headerWrite
  protectHeader headerWrite header (headerBytes ++ protectedPayload)

end QuicTracker
