import QuicTracker.Impl.Scenarii.Scenario
import QuicTracker.Lib.Watch

/-!
This module contains the scenarii that look at the answers to the first flight of the client:
`scenarii/version_negotiation.go`, `scenarii/unsupported_tls_version.go` and `scenarii/handshake.go`. What is stored
in the results of the trace beside the error is returned.
-/

namespace QuicTracker

namespace VersionNegotiation

variable {τ : Type} (lib : Libraries τ)

def notAnsweringToVN : Nat := 1
def timeout : Nat := 4
def unusedFieldIsIdentical : Nat := 5

def forceVersionNegotiation : Nat := 0x1a2a3a4a
def threshold : Nat := 3

structure State (τ : Type) where
  conn : Client τ
  trace : Trace
  vnCount : Nat
  unusedField : UInt8
  supportedVersions : Option (List Nat)
  receivedPacketType : Option UInt8

def sendAgain (frames : List Frame) (conn : Client τ) : Option (Client τ) := do
  let (newInitial, conn) ← Client.newInitialPacket lib conn
  conn.sendPacket { newInitial with frames := frames } .initial

def handleVersionNegotiation (frames : List Frame) (s : State τ) (p : VersionNegotiationPacket) :
    Option (ForInStep (State τ)) :=
  let s := { s with vnCount := s.vnCount + 1 }
  if s.vnCount > 1 ∧ s.unusedField ≠ p.unusedField then
    some (.done { s with trace := { s.trace with errorCode := 0 } })
  else if s.vnCount = threshold then
    some (.done { s with trace := { s.trace with errorCode := unusedFieldIsIdentical } })
  else do
    let conn ← sendAgain lib frames s.conn
    return .yield { s with
      conn := conn
      unusedField := p.unusedField
      supportedVersions := some p.supportedVersions }

def step (frames : List Frame) (s : State τ) (p : Packet) : Option (ForInStep (State τ)) :=
  match p with
  | .versionNegotiation p => handleVersionNegotiation lib frames s p
  | p => do
    let header ← p.header
    return .yield { s with
      trace := s.trace.markError notAnsweringToVN ""
      receivedPacketType := some header.packetType }

def start (conn : Client τ) (trace : Trace) : Option (List Frame × State τ) := do
  let conn := { conn with version := forceVersionNegotiation }
  let (initial, conn) ← Client.getInitialPacket lib conn
  let initial ← initial
  let conn ← conn.sendPacket initial .initial
  return (initial.frames, ⟨conn, { trace with errorCode := timeout }, 0, 0, none, none⟩)

def run (conn : Client τ) (trace : Trace) (packets : List Packet) : Option (State τ) := do
  let (frames, s) ← start lib conn trace
  Watch.watch (step lib frames) s packets

end VersionNegotiation

namespace UnsupportedTLSVersion

variable {τ : Type} (lib : Libraries τ)

def noConnectionCloseSent : Nat := 1
def wrongErrorCodeIsUsed : Nat := 2
def vnDidNotComplete : Nat := 3

/-- This is `bytes.Replace` with the limit 1, for an `old` that is not empty. -/
def replaceFirst (old new : List UInt8) (data : List UInt8) : List UInt8 :=
  match data with
  | [] => []
  | b :: data =>
    if (b :: data).take old.length = old then
      new ++ (b :: data).drop old.length
    else
      b :: replaceFirst old new data

/-- The `supported_versions` extension with TLS 1.3 only, and with its draft 00 only. -/
def supportedVersions : List UInt8 := [0x0, 0x2b, 0x0, 0x03, 0x2, 0x03, 0x04]
def unsupportedVersions : List UInt8 := [0x0, 0x2b, 0x0, 0x03, 0x2, 0x7f, 0x00]

def rewriteFrame (f : Frame) : Frame :=
  match f with
  | .crypto f => .crypto { f with cryptoData := replaceFirst supportedVersions unsupportedVersions f.cryptoData }
  | f => f

def sendUnsupportedInitial (conn : Client τ) : Option (Client τ) := do
  let (initialPacket, conn) ← Client.getInitialPacket lib conn
  let initialPacket ← initialPacket
  conn.sendPacket { initialPacket with frames := initialPacket.frames.map rewriteFrame } .initial

structure State (τ : Type) where
  globals : Globals
  conn : Client τ
  trace : Trace
  connectionClosed : Bool
  connectionReasonPhrase : Option (List UInt8)

def handleVersionNegotiation (s : State τ) (p : VersionNegotiationPacket) : Option (ForInStep (State τ)) :=
  match Client.processVersionNegotation lib s.conn p with
  | .error err => some (.done { s with trace := s.trace.markError vnDidNotComplete err })
  | .ok (globals, conn) => do
    let conn ← sendUnsupportedInitial lib conn
    return .yield { s with globals := globals, conn := conn }

def handleRetry (s : State τ) (p : RetryPacket) : Option (State τ) := do
  let conn := { s.conn with destinationCID := p.header.sourceCID }
  let conn := Client.transitionTo lib s.globals conn s.globals.quicVersion s.globals.quicALPNToken
  let conn ← sendUnsupportedInitial lib { conn with token := p.retryToken }
  return { s with conn := conn }

def handleFrame (s : State τ) (f : Frame) : State τ :=
  match f with
  | .connectionClose cc =>
    let trace := if cc.errorCode ≠ 0x146 then s.trace.markError wrongErrorCodeIsUsed "" else s.trace
    { s with
      trace := trace
      connectionClosed := true
      connectionReasonPhrase := some cc.reasonPhrase }
  | _ => s

/-- The three kinds of packets are all there are, so the last case of the switch is never taken. -/
def step (s : State τ) (p : Packet) : Option (ForInStep (State τ)) :=
  match p with
  | .versionNegotiation p => handleVersionNegotiation lib s p
  | .retry p => do
    let s ← handleRetry lib s p
    return .yield s
  | .frames p => some (.yield (p.frames.foldl handleFrame s))

def verdict (s : State τ) : Trace :=
  if ¬ s.connectionClosed then { s.trace with errorCode := noConnectionCloseSent } else s.trace

/-- A `return` in the loop skips what follows it, a `break` of the loop does not. -/
def run (globals : Globals) (conn : Client τ) (trace : Trace) (packets : List Packet) : Option Trace := do
  let conn ← sendUnsupportedInitial lib conn
  match ← Watch.scan (step lib) ⟨globals, conn, trace, false, none⟩ packets with
  | .done s => return s.trace
  | .yield s => return verdict s

end UnsupportedTLSVersion

namespace Handshake

def receivedUnexpectedPacketType : Nat := 1
def tlsHandshakeFailed : Nat := 2
def noCompatibleVersionAvailable : Nat := 3
def timeout : Nat := 4

def noVersionText : String := "no appropriate version found"
def incorrectPacketText : String := "received incorrect packet type during handshake"

structure State where
  trace : Trace
  completed : Bool
  deriving DecidableEq

def judgeError (trace : Trace) (error : String) : Trace :=
  if error = noVersionText then
    trace.markError noCompatibleVersionAvailable error
  else if error = incorrectPacketText then
    trace.markError receivedUnexpectedPacketType ""
  else
    trace.markError tlsHandshakeFailed error

def step (s : State) (status : HandshakeStatus) : Option State :=
  if ¬ status.completed then do
    let error ← status.error
    return ⟨judgeError s.trace error, status.completed⟩
  else
    some ⟨s.trace, status.completed⟩

def verdict (s : State) : Trace :=
  if ¬ s.completed ∧ s.trace.errorCode = 0 then s.trace.markError timeout "" else s.trace

/-- The statuses were submitted before the channel was unregistered, or in the time it took. -/
def run (trace : Trace) (statuses : List HandshakeStatus) : Option Trace := do
  let s ← statuses.foldlM step ⟨trace, false⟩
  return verdict s

end Handshake

end QuicTracker
