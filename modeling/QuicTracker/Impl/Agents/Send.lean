import QuicTracker.Impl.Packets
import QuicTracker.Impl.Frames.Length
import Mathlib.Data.List.Dedup

/-!
This module contains the loop of `agents/send_agent.go` and how it fills a packet with the frames that
wait for its encryption level. The packets that are handed to `SendPacket` are kept in order, a panic
is `none`. A timer may fire at any time.
-/

namespace QuicTracker

namespace SendingAgent

def markBlocks (largest bidx offset : Nat) (blocks : List AckBlock) : List Nat :=
  match blocks with
  | [] => []
  | b :: blocks =>
    -- The second loop adds one for each `i <= b.Gap`, but not for the first block.
    let next := if bidx > 0 then u64 (offset + (b.gap + 1)) else offset
    (List.range b.block).map (fun i => u64Sub (u64Sub largest i) offset) ++
      markBlocks largest (bidx + 1) next blocks

def numbersAcknowledged (frames : List AckFrame) : List Nat :=
  (frames.flatMap fun f =>
    f.largestAcknowledged :: markBlocks f.largestAcknowledged 0 0 f.ackBlocks).dedup

def largestAcknowledged (frames : List AckFrame) : Nat :=
  frames.foldl (fun largest f =>
    if f.largestAcknowledged > largest then f.largestAcknowledged else largest) 0

def mergeAckFrames (frames : List AckFrame) : Option AckFrame :=
  match sortPacketNumberQueue (numbersAcknowledged frames) with
  | [] => none
  | _ :: packetNumbers =>
    let largest := largestAcknowledged frames
    let ackBlocks := ackBlocksLoop 1 largest ⟨0, 0⟩ packetNumbers
    some ⟨largest, 0, ackBlocks.length - 1, ackBlocks⟩

def fillWithLevel (packet : FramePacket) (frameBuffer : List Frame) : Option FramePacket := do
  let ackFrames := frameBuffer.filterMap Frame.ack?
  let frames := packet.frames ++ frameBuffer.filter (fun f => f.ack?.isNone)
  if ackFrames.length > 1 then
    let ack ← mergeAckFrames ackFrames
    return { packet with frames := frames ++ [.ack ack] }
  else
    return { packet with frames := frames ++ ackFrames.map .ack }

def elOrder : List EncryptionLevel := [.oneRTT, .zeroRTT, .handshake, .initial]

def elAppDataOrder : List EncryptionLevel := [.oneRTT, .zeroRTT]

def chooseBestEncryptionLevel (elAvailable : EncryptionLevel → Bool) (restrictAppData : Bool) :
    EncryptionLevel :=
  let order := if restrictAppData then elAppDataOrder else elOrder
  match order.find? elAvailable with
  | some level => level
  | none => if restrictAppData then .oneRTT else .initial

structure State where
  -- The write direction, the read direction is never recorded.
  encryptionLevelsAvailable : EncryptionLevel → Bool
  packetBuffer : EncryptionLevel → List FramePacket
  frameBuffer : EncryptionLevel → List Frame
  frameBufferLength : EncryptionLevel → Nat
  packetsCreated : Nat
  sent : List (FramePacket × EncryptionLevel)

def initial : State where
  encryptionLevelsAvailable := fun level => level = .none ∨ level = .initial
  packetBuffer := fun _ => []
  frameBuffer := fun _ => []
  frameBufferLength := fun _ => 0
  packetsCreated := 0
  sent := []

inductive Event where
  | queue (frame : Frame) (level : EncryptionLevel)
  | timer (level : EncryptionLevel)
  | announce (level : EncryptionLevel) (read : Bool)
  deriving DecidableEq

namespace State

def append (s : State) (level : EncryptionLevel) (frame : Frame) : State :=
  { s with
    frameBuffer := Function.update s.frameBuffer level (s.frameBuffer level ++ [frame]) }

def addLength (s : State) (level : EncryptionLevel) (length : Nat) : State :=
  { s with
    frameBufferLength :=
      Function.update s.frameBufferLength level (u16 (s.frameBufferLength level + length)) }

def clear (s : State) (level : EncryptionLevel) : State :=
  { s with
    frameBuffer := Function.update s.frameBuffer level []
    frameBufferLength := Function.update s.frameBufferLength level 0 }

def create (s : State) : State := { s with packetsCreated := s.packetsCreated + 1 }

def sendPacket (s : State) (packet : FramePacket) (level : EncryptionLevel) : State :=
  { s with sent := s.sent ++ [(packet, level)] }

def holdPacket (s : State) (packet : FramePacket) : State :=
  { s with
    packetBuffer := Function.update s.packetBuffer packet.encryptionLevel
      (s.packetBuffer packet.encryptionLevel ++ [packet]) }

end State

section

-- The header of the `n`th packet depends on the connection.
variable (newHeader : EncryptionLevel → Nat → Header)

def newPacket (level : EncryptionLevel) (n : Nat) : Option FramePacket :=
  match level with
  | .initial => some ⟨newHeader .initial n, .initial, .initial, []⟩
  | .zeroRTT => some ⟨newHeader .zeroRTT n, .appData, .zeroRTT, []⟩
  | .handshake => some ⟨newHeader .handshake n, .handshake, .handshake, []⟩
  | .oneRTT => some ⟨newHeader .oneRTT n, .appData, .oneRTT, []⟩
  | _ => none

def fillAndSendPacket (s : State) (level : EncryptionLevel) : Option State := do
  let packet ← newPacket newHeader level s.packetsCreated
  let s := s.create
  if (s.frameBuffer level).length > 0 ∧ s.encryptionLevelsAvailable level then
    let packet ← fillWithLevel packet (s.frameBuffer level)
    return (s.clear level).sendPacket packet level
  else
    return s

def retarget (s : State) (level : EncryptionLevel) : EncryptionLevel :=
  if level = .best ∨ level = .bestAppData then
    chooseBestEncryptionLevel s.encryptionLevelsAvailable (level = .bestAppData)
  else
    level

def sendBuffer (s : State) (frame : Frame) (level : EncryptionLevel) : Option State := do
  let level := retarget s level
  let packet ← newPacket newHeader level s.packetsCreated
  let packet ← fillWithLevel packet (s.frameBuffer level)
  let s := s.create.clear level
  let (packet, s) :=
    if packet.frames.length = 0 then
      ({ packet with frames := packet.frames ++ [frame] }, s)
    else
      -- The length of the frame is not added.
      (packet, s.append level frame)
  if ¬ s.encryptionLevelsAvailable level then
    return s.holdPacket packet
  else
    return s.sendPacket packet level

def queueFrame (mtu : Nat) (s : State) (frame : Frame) (level : EncryptionLevel) :
    Option State := do
  let length ← frame.frameLength
  if u16 (s.frameBufferLength level + length) > mtu then
    sendBuffer newHeader s frame level
  else if level = .none then
    -- This level counts as available but has no timer to reset.
    none
  else
    return (s.append level frame).addLength level length

def moveFrame (level : EncryptionLevel) (s : State) (frame : Frame) : Option State := do
  let length ← frame.frameLength
  return (s.append level frame).addLength level length

def moveFrames (s : State) (source : EncryptionLevel) : Option State := do
  let level := retarget s source
  let s ← (s.frameBuffer source).foldlM (moveFrame level) s
  return s.clear source

def timerFired (s : State) (level : EncryptionLevel) : Option State :=
  match level with
  | .none => none
  | .best => moveFrames s .best
  | .bestAppData => moveFrames s .bestAppData
  | level => fillAndSendPacket newHeader s level

def announced (s : State) (level : EncryptionLevel) (read : Bool) : Option State :=
  if read then
    some s
  else if level = .none then
    none
  else
    some { s with
      encryptionLevelsAvailable := Function.update s.encryptionLevelsAvailable level true
      sent := s.sent ++ (s.packetBuffer level).map (fun packet => (packet, level))
      packetBuffer := Function.update s.packetBuffer level [] }

def step (mtu : Nat) (s : State) (event : Event) : Option State :=
  match event with
  | .queue frame level => queueFrame newHeader mtu s frame level
  | .timer level => timerFired newHeader s level
  | .announce level read => announced s level read

end

end SendingAgent

end QuicTracker
