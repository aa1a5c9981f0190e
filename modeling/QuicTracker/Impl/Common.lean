import QuicTracker.Impl.Varint

/-!
This module contains the packet numbers, their truncation and the other small types of `common.go`.
Machine integers, packet numbers included, are natural numbers. Arithmetic on them wraps explicitly.
-/

namespace QuicTracker

open ByteReader

def u64 (n : Nat) : Nat := n % 2 ^ 64

def u16 (n : Nat) : Nat := n % 2 ^ 16

def u64Sub (a b : Nat) : Nat := u64 (a + (2 ^ 64 - b))

def readPacketNumber (buffer : List UInt8) : Nat × List UInt8 :=
  let (v, buffer) := readVarIntValue buffer
  (v.getD 0, buffer)

structure TruncatedPN where
  value : Nat
  length : Nat
  deriving DecidableEq, Repr

def PacketNumber.truncate (log2 : Nat → Nat) (p largestAcknowledged : Nat) :
    Option TruncatedPN :=
  if p < largestAcknowledged then
    none
  else
    -- `log2 n` stands for `int(math.Log2(float64(n)))`.
    let length := log2 (u64 (u64Sub p largestAcknowledged + 1)) / 8 + 1
    if length > 4 then
      none
    else
      some ⟨(p % 2 ^ 32) &&& (0xFFFFFFFF >>> (8 * (4 - length))), length⟩

def uint32ToBEBytes (v : Nat) : List UInt8 := beBytes 4 v

def uint24ToBEBytes (v : Nat) : List UInt8 := (beBytes 4 v).drop 1

def uint16ToBEBytes (v : Nat) : List UInt8 := beBytes 2 v

def readTruncatedPN (buffer : List UInt8) (length : Nat) : TruncatedPN × List UInt8 :=
  let (value, buffer) := readInto length buffer
  (⟨beNat (List.replicate (4 - length) 0 ++ value), length⟩, buffer)

def TruncatedPN.encode (t : TruncatedPN) : List UInt8 :=
  match t.length with
  | 1 => [UInt8.ofNat t.value]
  | 2 => uint16ToBEBytes (t.value % 2 ^ 16)
  | 3 => uint24ToBEBytes t.value
  | 4 => uint32ToBEBytes t.value
  | _ => []

def TruncatedPN.join (t : TruncatedPN) (p : Nat) : Nat :=
  (p &&& u64 (0xFFFFFFFFFFFFFFFF <<< (t.length * 8))) ||| t.value

structure VarInt where
  value : Nat
  length : Nat
  deriving DecidableEq, Repr

def newVarInt (value : Nat) : Option VarInt := do
  let length ← varIntLen value
  return ⟨value, length⟩

def readVarInt (buffer : List UInt8) : Option VarInt × List UInt8 :=
  let length := buffer.length
  match readVarIntValue buffer with
  | (none, buffer) => (none, buffer)
  | (some i, buffer) => (some ⟨i, length - buffer.length⟩, buffer)

def VarInt.encode (v : VarInt) : Option (List UInt8) := encodeVarInt v.value

inductive PNSpace where
  | initial
  | handshake
  | appData
  | noSpace
  deriving DecidableEq, Repr

abbrev ConnectionID := List UInt8

def ConnectionID.cidl (c : ConnectionID) : UInt8 :=
  if c.length = 0 then
    0
  else
    UInt8.ofNat c.length - 3

end QuicTracker
