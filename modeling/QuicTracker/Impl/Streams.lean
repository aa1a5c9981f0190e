import QuicTracker.Lib.HalfOpen
import QuicTracker.Impl.Frames.Basic

/-!
This module contains the reassembly of the received stream data in `streams.go`. The linked list of
gaps is a list, what has been submitted to `ReadChan` is kept in the order of submission. A slice
expression that is out of range is `none`.
-/

namespace QuicTracker

abbrev ByteInterval := HalfOpen Nat

namespace ByteInterval

def isBefore (b o : ByteInterval) : Bool := b.stop ≤ o.start

def overlap (b o : ByteInterval) : Bool :=
  (o.start ≤ b.stop && o.stop ≥ b.stop) ||
  (b.start ≤ o.stop && b.stop ≥ o.stop) ||
  (b.start ≤ o.start && b.stop ≥ o.stop) ||
  (o.start ≤ b.start && o.stop ≥ b.stop)

def exclude (b o : ByteInterval) : List ByteInterval :=
  if o.start > b.start ∧ o.stop < b.stop then
    [⟨b.start, o.start - 1⟩, ⟨o.stop + 1, b.stop⟩]
  else if o.start ≤ b.start ∧ o.stop < b.stop then
    [⟨o.stop, b.stop⟩]
  else if o.stop > b.stop then
    [⟨b.start, o.start⟩]
  else
    []

end ByteInterval

abbrev ByteIntervalList := List ByteInterval

namespace ByteIntervalList

def ensureConsistency (l : ByteIntervalList) : ByteIntervalList :=
  HalfOpen.coalesce ByteInterval.overlap l

def insert (l : ByteIntervalList) (b : ByteInterval) : ByteIntervalList :=
  match l with
  | [] => [b]
  | n :: l => if b.isBefore n then b :: n :: l else n :: insert l b

def add (l : ByteIntervalList) (b : ByteInterval) : ByteIntervalList :=
  ensureConsistency (insert l b)

def cut (b n : ByteInterval) : ByteIntervalList :=
  if b.overlap n then n.exclude b else [n]

def fill (l : ByteIntervalList) (b : ByteInterval) : ByteIntervalList :=
  ensureConsistency (l.flatMap (cut b))

end ByteIntervalList

def maxUint64 : Nat := 2 ^ 64 - 1

structure Stream where
  readOffset : Nat
  writeOffset : Nat
  readData : List UInt8
  writeData : List UInt8
  readChan : List (List UInt8)
  maxReadReceived : Nat
  gaps : ByteIntervalList
  readClosed : Bool
  readCloseOffset : Nat
  writeClosed : Bool
  writeCloseOffset : Nat
  deriving DecidableEq, Repr

def newStream : Stream where
  readOffset := 0
  writeOffset := 0
  readData := []
  writeData := []
  readChan := []
  maxReadReceived := 0
  gaps := []
  readClosed := false
  readCloseOffset := maxUint64
  writeClosed := false
  writeCloseOffset := maxUint64

/-- This is `copy(dst[at:], src)` for a position inside of `dst`. -/
def copyAt (dst : List UInt8) (pos : Nat) (src : List UInt8) : List UInt8 :=
  dst.take pos ++ src.take (dst.length - pos) ++ dst.drop (pos + src.length)

namespace Stream

def noteFin (s : Stream) (f : StreamFrame) : Stream :=
  if f.finBit then
    if s.readCloseOffset ≠ maxUint64 ∧ s.readCloseOffset ≠ u64 (f.offset + f.length) then
      s
    else
      { s with readCloseOffset := u64 (f.offset + f.length) }
  else
    s

def append (s : Stream) (f : StreamFrame) : Stream :=
  let readOffset := u64 (s.readOffset + f.length)
  { s with
    readOffset := readOffset
    maxReadReceived := readOffset
    readData := s.readData ++ f.streamData
    readChan := s.readChan ++ [f.streamData] }

def extend (s : Stream) (f : StreamFrame) : Option Stream :=
  let gaps :=
    if s.maxReadReceived < f.offset then
      s.gaps.add ⟨s.maxReadReceived, f.offset⟩
    else
      s.gaps
  let size := f.offset + f.streamData.length
  -- The length of a slice is an `int`.
  if size < 2 ^ 63 then
    let newSlice := copyAt (List.replicate size 0) 0 s.readData
    some { s with
      gaps := gaps
      maxReadReceived := u64 (f.offset + f.length)
      readData := copyAt newSlice f.offset f.streamData }
  else
    none

def firstGap (gaps : ByteIntervalList) (length : Nat) : Nat :=
  match gaps with
  | front :: _ => front.start
  | [] => length

def fillIn (s : Stream) (f : StreamFrame) : Option Stream :=
  let gaps := s.gaps.fill ⟨f.offset, u64 (f.offset + f.length)⟩
  if f.offset ≤ s.readData.length then
    let readData := copyAt s.readData f.offset f.streamData
    let firstGap := firstGap gaps readData.length
    if s.readOffset < firstGap then
      if firstGap ≤ readData.length then
        some { s with
          gaps := gaps
          readData := readData
          readChan := s.readChan ++ [(readData.take firstGap).drop s.readOffset]
          readOffset := firstGap }
      else
        none
    else
      some { s with gaps := gaps, readData := readData }
  else
    none

def noteClosed (s : Stream) : Stream :=
  if s.readOffset = s.readCloseOffset then
    { s with readClosed := true }
  else
    s

def addToRead (s : Stream) (f : StreamFrame) : Option Stream := do
  let s := s.noteFin f
  let s ←
    if f.offset = s.readOffset ∧ f.offset = s.maxReadReceived then
      some (s.append f)
    else if s.maxReadReceived < u64 (f.offset + f.length) then
      s.extend f
    else
      s.fillIn f
  return s.noteClosed

end Stream

end QuicTracker
