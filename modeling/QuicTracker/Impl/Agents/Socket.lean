import QuicTracker.Impl.Common

/-!
This module contains `findECNValue` and the two goroutines of `agents/socket_agent.go`. The host is
little-endian and its integers have 64 bits, the level and the type of a control message are kept unsigned.
-/

namespace QuicTracker

open ByteReader

structure CmsgHdr where
  cLength : Nat
  cLevel : Nat
  cType : Nat
  deriving DecidableEq, Repr

/-- The cast does not look at the length of the slice, so a read past its end is `none`. -/
def cmsgHdr (oob : List UInt8) : Option CmsgHdr :=
  if oob.length < 16 then
    none
  else
    some ⟨leNat (oob.take 8), leNat ((oob.drop 8).take 4), leNat ((oob.drop 12).take 4)⟩

/--
What one pass through the loop of `findECNValue` does. `outside` is a read, an index or a slice outside the
buffer.
-/
inductive ECNLoop where
  | returned (value : Except String UInt8)
  | next (oob : List UInt8)
  | outside
  deriving DecidableEq, Repr

namespace ECNLoop

/-- The byte next to the error is zero. -/
def byte (value : Except String UInt8) : UInt8 :=
  match value with
  | .ok b => b
  | .error _ => 0

def step (oob : List UInt8) : ECNLoop :=
  if oob.length > 0 then
    match cmsgHdr oob with
    | none => .outside
    | some hdr =>
      if hdr.cLevel = 0 ∧ hdr.cType = 1 then
        match oob[u64Sub hdr.cLength 1]? with
        | none => .outside
        | some b => .returned (.ok b)
      else if hdr.cLength ≤ oob.length then
        .next (oob.drop hdr.cLength)
      else
        .outside
  else
    .returned (.error "could not find ecn control message")

end ECNLoop

/-- A loop that is not finished after that many passes is at `next`. -/
def findECNValue (passes : Nat) (oob : List UInt8) : ECNLoop :=
  match passes with
  | 0 => .next oob
  | passes + 1 =>
    match ECNLoop.step oob with
    | .returned value => .returned value
    | .outside => .outside
    | .next oob => findECNValue passes oob

inductive ECNStatus where
  | nonECT
  | ect1
  | ect0
  | ce
  deriving DecidableEq, Repr

def ECNStatus.ofByte (ecn : UInt8) : ECNStatus :=
  match (ecn &&& 0x03).toNat with
  | 0 => .nonECT
  | 1 => .ect1
  | 2 => .ect0
  | _ => .ce

namespace SocketAgent

/-- The goroutine that reads the socket. In `sending` it is blocked on the unbuffered `recChan`. -/
inductive Reader where
  | reading
  | sending (payload : List UInt8)
  | stopped
  deriving DecidableEq, Repr

/-- The goroutine that takes the payloads from `recChan` is `forwarding`. The lists are what was submitted. -/
structure State where
  ecn : Bool
  totalDataReceived : Nat
  datagramsReceived : Nat
  socketStatus : List String
  ecnStatus : List ECNStatus
  reader : Reader
  forwarding : Bool
  incomingPayloads : List (List UInt8)
  deriving DecidableEq, Repr

def initial : State where
  ecn := false
  totalDataReceived := 0
  datagramsReceived := 0
  socketStatus := []
  ecnStatus := []
  reader := .reading
  forwarding := true
  incomingPayloads := []

/--
The argument of `configureECN` tells if both options could be set. It runs on the goroutine of its caller.
-/
inductive Event where
  | configureECN (configured : Bool)
  | readMsg (payload oob : List UInt8)
  | readError (err : String)
  | forward
  | recChanClosed
  | close
  deriving DecidableEq, Repr

/-- A loop that is not finished after that many passes has not moved in one of them, and never ends. -/
def readECN (s : State) (oob : List UInt8) : Option State :=
  if s.ecn then
    match findECNValue (oob.length + 1) oob with
    | .returned value =>
      some { s with ecnStatus := s.ecnStatus ++ [ECNStatus.ofByte (ECNLoop.byte value)] }
    | _ => none
  else
    some s

def readMsg (s : State) (payload oob : List UInt8) : Option State := do
  let s ← readECN s oob
  return { s with
    totalDataReceived := s.totalDataReceived + payload.length
    datagramsReceived := s.datagramsReceived + 1
    reader := .sending payload }

/-- There is no next state for an event that cannot happen, or when `findECNValue` does not return. -/
def step (s : State) (event : Event) : Option State :=
  match event, s.reader with
  | .configureECN configured, _ => some { s with ecn := configured }
  | .readMsg payload oob, .reading => if s.forwarding then readMsg s payload oob else none
  | .readError err, .reading =>
    some { s with reader := .stopped, socketStatus := s.socketStatus ++ [err] }
  | .forward, .sending payload =>
    if s.forwarding then
      some { s with reader := .reading, incomingPayloads := s.incomingPayloads ++ [payload] }
    else
      none
  | .recChanClosed, .stopped => if s.forwarding then some { s with forwarding := false } else none
  -- The agent closes the socket, which makes the next read fail.
  | .close, _ => if s.forwarding then some { s with forwarding := false } else none
  | _, _ => none

end SocketAgent

end QuicTracker
