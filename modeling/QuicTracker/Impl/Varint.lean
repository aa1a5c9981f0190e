import QuicTracker.Lib.ByteReader

/-!
This module contains the variable length integers of `lib/varint.go`. A panic is `none`, and so is
the error of a reader that runs out of bytes. The bytes it has read stay consumed.
-/

namespace QuicTracker

open ByteReader

def maxVarInt1 : Nat := 63
def maxVarInt2 : Nat := 16383
def maxVarInt4 : Nat := 1073741823
def maxVarInt8 : Nat := 4611686018427387903

def readVarIntValue (b : List UInt8) : Option Nat × List UInt8 :=
  match b with
  | [] => (none, [])
  | firstByte :: b =>
    -- The first two bits of the first byte encode the length.
    let len := 1 <<< ((firstByte &&& 0xc0) >>> 6).toNat
    let b1 := (firstByte &&& (0xff - 0xc0)).toNat
    if len = 1 then
      (some b1, b)
    else
      match b with
      | [] => (none, [])
      | b2 :: b =>
        if len = 2 then
          (some (b2.toNat + b1 <<< 8), b)
        else
          match b with
          | b3 :: b4 :: b =>
            if len = 4 then
              (some (b4.toNat + b3.toNat <<< 8 + b2.toNat <<< 16 + b1 <<< 24), b)
            else
              match b with
              | b5 :: b6 :: b7 :: b8 :: b =>
                (some (b8.toNat + b7.toNat <<< 8 + b6.toNat <<< 16 + b5.toNat <<< 24
                  + b4.toNat <<< 32 + b3.toNat <<< 40 + b2.toNat <<< 48 + b1 <<< 56), b)
              | _ => (none, [])
          | _ => (none, [])

def encodeVarInt (i : Nat) : Option (List UInt8) :=
  if i ≤ maxVarInt1 then
    some [UInt8.ofNat i]
  else if i ≤ maxVarInt2 then
    some [UInt8.ofNat (i >>> 8) ||| 0x40, UInt8.ofNat i]
  else if i ≤ maxVarInt4 then
    some [
      UInt8.ofNat (i >>> 24) ||| 0x80, UInt8.ofNat (i >>> 16), UInt8.ofNat (i >>> 8), UInt8.ofNat i
    ]
  else if i ≤ maxVarInt8 then
    some [
      UInt8.ofNat (i >>> 56) ||| 0xc0, UInt8.ofNat (i >>> 48), UInt8.ofNat (i >>> 40),
      UInt8.ofNat (i >>> 32), UInt8.ofNat (i >>> 24), UInt8.ofNat (i >>> 16),
      UInt8.ofNat (i >>> 8), UInt8.ofNat i
    ]
  else
    none

def varIntLen (i : Nat) : Option Nat :=
  if i ≤ maxVarInt1 then
    some 1
  else if i ≤ maxVarInt2 then
    some 2
  else if i ≤ maxVarInt4 then
    some 4
  else if i ≤ maxVarInt8 then
    some 8
  else
    none

end QuicTracker
