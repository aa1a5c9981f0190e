import QuicTracker.Impl.Frames.Read

/-!
This module contains the HTTP/3 frames of `http3/http3.go`, their constructors, writers and readers.
An allocation of a negative size is `none`, and so is the panic of `NewVarInt`.
-/

namespace QuicTracker

open ByteReader

namespace HTTP3

namespace FrameType

def data : UInt8 := 0x0
def headers : UInt8 := 0x1
def priority : UInt8 := 0x2
def cancelPush : UInt8 := 0x3
def settings : UInt8 := 0x4
def pushPromise : UInt8 := 0x5
def goaway : UInt8 := 0x7
def maxPushID : UInt8 := 0xd

end FrameType

structure HTTPFrameHeader where
  length : VarInt
  type : UInt8
  deriving DecidableEq, Repr

def HTTPFrameHeader.wireLength (h : HTTPFrameHeader) : Nat :=
  u64 (h.length.length + 1 + h.length.value)

structure Setting where
  identifier : Nat
  value : VarInt
  deriving DecidableEq, Repr

structure Priority where
  prioritizedType : UInt8
  dependencyType : UInt8
  empty : UInt8
  exclusive : Bool
  prioritizedElementID : VarInt
  elementDependencyID : VarInt
  weight : UInt8
  deriving DecidableEq, Repr

inductive HTTPFrame where
  | data (header : HTTPFrameHeader) (payload : List UInt8)
  | headers (header : HTTPFrameHeader) (headerBlock : List UInt8)
  | priority (header : HTTPFrameHeader) (priority : Priority)
  | cancelPush (header : HTTPFrameHeader) (pushID : VarInt)
  | settings (header : HTTPFrameHeader) (settings : List Setting)
  | pushPromise (header : HTTPFrameHeader) (pushID : VarInt) (headerBlock : List UInt8)
  | goaway (header : HTTPFrameHeader) (streamID : VarInt)
  | maxPushID (header : HTTPFrameHeader) (pushID : VarInt)
  | unknown (header : HTTPFrameHeader) (payload : List UInt8)
  deriving DecidableEq, Repr

def HTTPFrame.header (f : HTTPFrame) : HTTPFrameHeader :=
  match f with
  | .data header _ => header
  | .headers header _ => header
  | .priority header _ => header
  | .cancelPush header _ => header
  | .settings header _ => header
  | .pushPromise header _ _ => header
  | .goaway header _ => header
  | .maxPushID header _ => header
  | .unknown header _ => header

def HTTPFrame.wireLength (f : HTTPFrame) : Nat := f.header.wireLength

def newDATA (payload : List UInt8) : Option HTTPFrame := do
  let length ← newVarInt payload.length
  return .data ⟨length, FrameType.data⟩ payload

def newHEADERS (headerBlock : List UInt8) : Option HTTPFrame := do
  let length ← newVarInt headerBlock.length
  return .headers ⟨length, FrameType.headers⟩ headerBlock

def newPRIORITY (prioritizedType dependencyType : UInt8) (exclusive : Bool)
    (prioritizedElementID elementDependencyID : Nat) (weight : UInt8) : Option HTTPFrame := do
  let length ← newVarInt (1 + (← varIntLen prioritizedElementID) +
    (← varIntLen elementDependencyID) + 1)
  let prioritizedElementID ← newVarInt prioritizedElementID
  let elementDependencyID ← newVarInt elementDependencyID
  return .priority ⟨length, FrameType.priority⟩ {
    prioritizedType := prioritizedType
    dependencyType := dependencyType
    empty := 0
    exclusive := exclusive
    prioritizedElementID := prioritizedElementID
    elementDependencyID := elementDependencyID
    weight := weight
  }

def newIdentifier (mk : HTTPFrameHeader → VarInt → HTTPFrame) (type : UInt8) (identifier : Nat) :
    Option HTTPFrame := do
  let length ← newVarInt (← varIntLen identifier)
  let identifier ← newVarInt identifier
  return mk ⟨length, type⟩ identifier

def newCANCEL_PUSH (pushID : Nat) : Option HTTPFrame :=
  newIdentifier .cancelPush FrameType.cancelPush pushID

def newGOAWAY (streamID : Nat) : Option HTTPFrame :=
  newIdentifier .goaway FrameType.goaway streamID

def newMAX_PUSH_ID (pushID : Nat) : Option HTTPFrame :=
  newIdentifier .maxPushID FrameType.maxPushID pushID

def newSETTINGS (settings : List Setting) : Option HTTPFrame := do
  let length := settings.foldl (fun length s => length + (s.value.length + 2)) 0
  let length ← newVarInt length
  return .settings ⟨length, FrameType.settings⟩ settings

def newPUSH_PROMISE (pushID : Nat) (headerBlock : List UInt8) : Option HTTPFrame := do
  let length ← newVarInt ((← varIntLen pushID) + headerBlock.length)
  let pushID ← newVarInt pushID
  return .pushPromise ⟨length, FrameType.pushPromise⟩ pushID headerBlock

def HTTPFrameHeader.writeTo (h : HTTPFrameHeader) (buffer : List UInt8) : Option (List UInt8) := do
  let length ← h.length.encode
  return buffer ++ length ++ [h.type]

def writePayload (header : HTTPFrameHeader) (payload buffer : List UInt8) : Option (List UInt8) := do
  let buffer ← header.writeTo buffer
  return buffer ++ payload

def writeIdentifier (header : HTTPFrameHeader) (identifier : VarInt) (buffer : List UInt8) :
    Option (List UInt8) := do
  let buffer ← header.writeTo buffer
  let identifier ← identifier.encode
  return buffer ++ identifier

def Priority.firstByte (f : Priority) : UInt8 :=
  let firstByte := (f.prioritizedType <<< 6) ||| (f.dependencyType <<< 4) ||| (f.empty <<< 1)
  if f.exclusive then firstByte ||| 0x1 else firstByte

def writePRIORITY (header : HTTPFrameHeader) (f : Priority) (buffer : List UInt8) :
    Option (List UInt8) := do
  let buffer ← header.writeTo buffer
  let buffer := buffer ++ [f.firstByte]
  let prioritizedElementID ← f.prioritizedElementID.encode
  let buffer := buffer ++ prioritizedElementID
  let elementDependencyID ← f.elementDependencyID.encode
  return buffer ++ elementDependencyID ++ [f.weight]

def Setting.writeTo (s : Setting) (buffer : List UInt8) : Option (List UInt8) := do
  let buffer := buffer ++ beBytes 2 s.identifier
  let value ← s.value.encode
  return buffer ++ value

def writeSETTINGS (header : HTTPFrameHeader) (settings : List Setting) (buffer : List UInt8) :
    Option (List UInt8) := do
  let buffer ← header.writeTo buffer
  settings.foldlM (fun buffer s => s.writeTo buffer) buffer

def writePUSH_PROMISE (header : HTTPFrameHeader) (pushID : VarInt) (headerBlock buffer : List UInt8) :
    Option (List UInt8) := do
  let buffer ← header.writeTo buffer
  let pushID ← pushID.encode
  return buffer ++ pushID ++ headerBlock

def HTTPFrame.writeTo (f : HTTPFrame) (buffer : List UInt8) : Option (List UInt8) :=
  match f with
  | .data header payload => writePayload header payload buffer
  | .headers header headerBlock => writePayload header headerBlock buffer
  | .priority header fields => writePRIORITY header fields buffer
  | .cancelPush header pushID => writeIdentifier header pushID buffer
  | .settings header list => writeSETTINGS header list buffer
  | .pushPromise header pushID headerBlock => writePUSH_PROMISE header pushID headerBlock buffer
  | .goaway header streamID => writeIdentifier header streamID buffer
  | .maxPushID header pushID => writeIdentifier header pushID buffer
  | .unknown header payload => writePayload header payload buffer

/-- A variable length integer whose error is dropped. -/
def readVarIntOrZero (buffer : List UInt8) : VarInt × List UInt8 :=
  let (v, buffer) := readVarInt buffer
  (v.getD ⟨0, 0⟩, buffer)

def readByteOrZero (buffer : List UInt8) : UInt8 × List UInt8 :=
  let (b, buffer) := readByte buffer
  (b.getD 0, buffer)

def readHTTPFrameHeader (buffer : List UInt8) : HTTPFrameHeader × List UInt8 :=
  let (length, buffer) := readVarIntOrZero buffer
  let (type, buffer) := readByteOrZero buffer
  (⟨length, type⟩, buffer)

/-- A DATA, HEADERS or unknown frame holds a slice of the declared length. -/
def readPayload (mk : HTTPFrameHeader → List UInt8 → HTTPFrame) (buffer : List UInt8) :
    HTTPFrame × List UInt8 :=
  let (header, buffer) := readHTTPFrameHeader buffer
  let (payload, buffer) := readInto header.length.value buffer
  (mk header payload, buffer)

def readDATA (buffer : List UInt8) : HTTPFrame × List UInt8 := readPayload .data buffer
def readHEADERS (buffer : List UInt8) : HTTPFrame × List UInt8 := readPayload .headers buffer
def readUnknownFrame (buffer : List UInt8) : HTTPFrame × List UInt8 := readPayload .unknown buffer

/-- A CANCEL_PUSH, GOAWAY or MAX_PUSH_ID frame holds one identifier. -/
def readIdentifier (mk : HTTPFrameHeader → VarInt → HTTPFrame) (buffer : List UInt8) :
    HTTPFrame × List UInt8 :=
  let (header, buffer) := readHTTPFrameHeader buffer
  let (identifier, buffer) := readVarIntOrZero buffer
  (mk header identifier, buffer)

def readCANCEL_PUSH (buffer : List UInt8) : HTTPFrame × List UInt8 := readIdentifier .cancelPush buffer
def readGOAWAY (buffer : List UInt8) : HTTPFrame × List UInt8 := readIdentifier .goaway buffer
def readMAX_PUSH_ID (buffer : List UInt8) : HTTPFrame × List UInt8 := readIdentifier .maxPushID buffer

def readPRIORITY (buffer : List UInt8) : HTTPFrame × List UInt8 :=
  let (header, buffer) := readHTTPFrameHeader buffer
  let (firstByte, buffer) := readByteOrZero buffer
  let (prioritizedElementID, buffer) := readVarIntOrZero buffer
  let (elementDependencyID, buffer) := readVarIntOrZero buffer
  let (weight, buffer) := readByteOrZero buffer
  (.priority header {
    prioritizedType := (firstByte &&& 0xc0) >>> 6
    dependencyType := (firstByte &&& 0x30) >>> 4
    empty := (firstByte &&& 0xe) >>> 1
    exclusive := firstByte &&& 0x1 = 0x1
    prioritizedElementID := prioritizedElementID
    elementDependencyID := elementDependencyID
    weight := weight
  }, buffer)

def readSetting (buffer : List UInt8) : Setting × List UInt8 :=
  let (identifier, buffer) := readUint16 buffer
  let (value, buffer) := readVarIntOrZero buffer
  (⟨identifier, value⟩, buffer)

/-- Every round consumes a byte, so `fuel` bounds the rounds. -/
def readSettings (fuel : Nat) (buffer : List UInt8) : List Setting :=
  match fuel, buffer with
  | 0, _ => []
  | _, [] => []
  | fuel + 1, buffer =>
    let (setting, buffer) := readSetting buffer
    setting :: readSettings fuel buffer

def readSETTINGS (buffer : List UInt8) : HTTPFrame × List UInt8 :=
  let (header, buffer) := readHTTPFrameHeader buffer
  let (settingsBuffer, buffer) := readInto header.length.value buffer
  (.settings header (readSettings settingsBuffer.length settingsBuffer), buffer)

/-- The header block is allocated and not read. -/
def readPUSH_PROMISE (buffer : List UInt8) : Option (HTTPFrame × List UInt8) :=
  let (header, buffer) := readHTTPFrameHeader buffer
  let (pushID, buffer) := readVarIntOrZero buffer
  if pushID.length ≤ header.length.value then
    some (.pushPromise header pushID (List.replicate (header.length.value - pushID.length) 0), buffer)
  else
    none

/-- An offset before the start is an error and moves nothing. -/
def seekBack (whole unread : List UInt8) (n : Nat) : List UInt8 :=
  let position := whole.length - unread.length
  if n ≤ position then whole.drop (position - n) else unread

def readHTTPFrame (buffer : List UInt8) : Option (HTTPFrame × List UInt8) :=
  let (l, unread) := readVarIntOrZero buffer
  let (typeByte, unread) := readByteOrZero unread
  let buffer := seekBack buffer unread (l.length + 1)
  if typeByte = FrameType.data then some (readDATA buffer)
  else if typeByte = FrameType.headers then some (readHEADERS buffer)
  else if typeByte = FrameType.priority then some (readPRIORITY buffer)
  else if typeByte = FrameType.cancelPush then some (readCANCEL_PUSH buffer)
  else if typeByte = FrameType.settings then some (readSETTINGS buffer)
  else if typeByte = FrameType.pushPromise then readPUSH_PROMISE buffer
  else if typeByte = FrameType.goaway then some (readGOAWAY buffer)
  else if typeByte = FrameType.maxPushID then some (readMAX_PUSH_ID buffer)
  else some (readUnknownFrame buffer)

end HTTP3

end QuicTracker
