import QuicTracker.Impl.Crypto

/-!
This module contains what the client uses of the TLS library `pigotls`, and the crypto states that
`crypto.go` makes with it. A connection of the library is a value of some type `τ`, its operations are
not known.
-/

namespace QuicTracker

inductive Epoch where
  | initial
  | zeroRTT
  | handshake
  | oneRTT
  deriving DecidableEq, Repr

def PNSpace.epoch (space : PNSpace) : Epoch :=
  match space with
  | .initial => .initial
  | .handshake => .handshake
  | .appData => .oneRTT
  -- This level is not in the map.
  | .noSpace => .initial

def Epoch.pnSpace (epoch : Epoch) : PNSpace :=
  match epoch with
  | .initial => .initial
  | .handshake => .handshake
  | .zeroRTT => .appData
  | .oneRTT => .appData

def Epoch.encryptionLevel (epoch : Epoch) : EncryptionLevel :=
  match epoch with
  | .initial => .initial
  | .zeroRTT => .zeroRTT
  | .handshake => .handshake
  | .oneRTT => .oneRTT

namespace Pigotls

structure Message where
  data : List UInt8
  epoch : Epoch
  deriving DecidableEq, Repr

structure Response where
  output : List Message
  notCompleted : Bool
  error : Option String
  deriving DecidableEq, Repr

end Pigotls

structure Pigotls (τ : Type) where
  baseLabel : String
  quicBaseLabel : String
  newConnection : (serverName alpn : String) → (resumptionTicket : List UInt8) → τ
  setQUICTransportParameters : List UInt8 → τ → τ
  handleMessage : List UInt8 → Epoch → τ → Pigotls.Response × τ
  zeroRTTSecret : τ → List UInt8
  handshakeReadSecret : τ → List UInt8
  handshakeWriteSecret : τ → List UInt8
  protectedReadSecret : τ → List UInt8
  protectedWriteSecret : τ → List UInt8
  exporterSecret : τ → List UInt8
  receivedQUICTransportParameters : τ → List UInt8
  resumptionTicket : τ → List UInt8
  hkdfExtract : τ → (salt ikm : List UInt8) → List UInt8
  hkdfExpandLabel : τ → (secret : List UInt8) → (label : String) → (hash : List UInt8) →
    (length : Nat) → (base : String) → List UInt8
  hashDigestSize : τ → Nat
  aeadKeySize : τ → Nat
  -- `NewAEAD(secret, false)` and `NewAEAD(secret, true)`
  newDecrypter : τ → (secret : List UInt8) → List UInt8 → Nat → List UInt8 → Option (List UInt8)
  newEncrypter : τ → (secret : List UInt8) → AEAD
  newCipher : τ → (key : List UInt8) → List UInt8 → Fin 5 → UInt8

structure DirectionalEncryptionLevel where
  encryptionLevel : EncryptionLevel
  read : Bool
  deriving DecidableEq, Repr

variable {τ : Type} (lib : Pigotls τ)

def headerKey (tls : τ) (secret : List UInt8) : List UInt8 :=
  lib.hkdfExpandLabel tls secret "hp" [] (lib.aeadKeySize tls) lib.quicBaseLabel

def CryptoState.initRead (s : CryptoState) (tls : τ) (readSecret : List UInt8) : CryptoState :=
  { s with
    read := some (lib.newDecrypter tls readSecret)
    headerRead := some (lib.newCipher tls (headerKey lib tls readSecret)) }

def CryptoState.initWrite (s : CryptoState) (tls : τ) (writeSecret : List UInt8) : CryptoState :=
  { s with
    write := some (lib.newEncrypter tls writeSecret)
    headerWrite := some (lib.newCipher tls (headerKey lib tls writeSecret)) }

def newProtectedCryptoState (tls : τ) (readSecret writeSecret : List UInt8) : CryptoState :=
  let s : CryptoState := {}
  let s := if readSecret.length > 0 then s.initRead lib tls readSecret else s
  if writeSecret.length > 0 then s.initWrite lib tls writeSecret else s

def quicVersionSalt : List UInt8 :=
  [0xef, 0x4f, 0xb0, 0xab, 0xb4, 0x74, 0x70, 0xc4,
    0x1b, 0xef, 0xcf, 0x80, 0x31, 0x33, 0x4f, 0xae,
    0x48, 0x5e, 0x09, 0xa0]

def clientInitialLabel : String := "client in"

def serverInitialLabel : String := "server in"

def newInitialPacketProtection (tls : τ) (destinationCID : ConnectionID) : CryptoState :=
  let initialSecret := lib.hkdfExtract tls quicVersionSalt destinationCID
  let readSecret :=
    lib.hkdfExpandLabel tls initialSecret serverInitialLabel [] (lib.hashDigestSize tls) lib.baseLabel
  let writeSecret :=
    lib.hkdfExpandLabel tls initialSecret clientInitialLabel [] (lib.hashDigestSize tls) lib.baseLabel
  newProtectedCryptoState lib tls readSecret writeSecret

end QuicTracker
