import QuicTracker.Impl.Common

/-!
This module contains the encryption levels of `crypto.go`. The ciphers come from the TLS library, a
connection carries them as functions.
-/

namespace QuicTracker

inductive EncryptionLevel where
  | none
  | initial
  | zeroRTT
  | handshake
  | oneRTT
  | best
  | bestAppData
  deriving DecidableEq, Repr

structure AEAD where
  -- `Encrypt(cleartext, sequence number, associated data)`
  encrypt : List UInt8 → Nat → List UInt8 → List UInt8
  overhead : Nat

structure CryptoState where
  -- `Decrypt(ciphertext, sequence number, associated data)`, a failure is `none`.
  read : Option (List UInt8 → Nat → List UInt8 → Option (List UInt8)) := none
  -- `Encrypt(sample, make([]byte, 5, 5))`
  headerRead : Option (List UInt8 → Fin 5 → UInt8) := none
  write : Option AEAD := none
  headerWrite : Option (List UInt8 → Fin 5 → UInt8) := none

end QuicTracker
