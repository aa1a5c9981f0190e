import QuicTracker.Impl.Agents.Socket
import QuicTracker.Impl.Scenarii.Scenario

/-!
This module contains `scenarii/ack_ecn.go` and `scenarii/connection_migration.go`. An input is what the `select`
of the loop takes from one of its channels before the timer expires.
-/

namespace QuicTracker

namespace AckECN

variable {τ : Type}

def tlsHandshakeFailed : Nat := 1
def failedToSetECN : Nat := 2
def nonECN : Nat := 3
def noACKECNReceived : Nat := 4
def nonECNButACKECN : Nat := 5

inductive Input where
  | incoming (p : Packet)
  | ecnStatus (status : ECNStatus)
  deriving DecidableEq, Repr

/-- One of two things has happened. The code is `alone` without the other one, which has left `other`. -/
def note (alone other : Nat) (trace : Trace) : Trace :=
  if trace.errorCode = nonECN then
    { trace with errorCode := alone }
  else if trace.errorCode = other then
    { trace with errorCode := 0 }
  else
    trace

def noteACKECN : Trace → Trace := note nonECNButACKECN noACKECNReceived

def noteMark : Trace → Trace := note noACKECNReceived nonECNButACKECN

def step (trace : Trace) (input : Input) : Trace :=
  match input with
  | .incoming (.frames p) => if p.contains FrameType.ackECN then noteACKECN trace else trace
  | .incoming _ => trace
  | .ecnStatus .nonECT => trace
  | .ecnStatus .ect0 => noteMark trace
  | .ecnStatus .ect1 => noteMark trace
  | .ecnStatus .ce => noteMark trace

/-- The argument `configureECN` is the error that `ConfigureECN` of the socket agent returns. -/
def run (conn : Client τ) (trace : Trace) (status : Option HandshakeStatus) (configureECN : Option String)
    (preferredUrl : List UInt8) (inputs : List Input) : Option (Client τ × Trace) := do
  let (completed, trace) ← completeHandshake trace tlsHandshakeFailed status
  if completed then
    match configureECN with
    | some err => return (conn, trace.markError failedToSetECN err)
    | none =>
      let conn ← conn.sendHTTPGETRequest preferredUrl 0
      return (conn, inputs.foldl step { trace with errorCode := nonECN })
  else
    return (conn, trace)

end AckECN

namespace ConnectionMigration

variable {τ : Type}

def tlsHandshakeFailed : Nat := 1
def udpConnectionFailed : Nat := 2
def hostDidNotMigrate : Nat := 3
def hostDidNotValidateNewPath : Nat := 4

def step (trace : Trace) (p : Packet) : Trace :=
  let trace :=
    if trace.errorCode = hostDidNotMigrate then
      { trace with errorCode := hostDidNotValidateNewPath }
    else
      trace
  match p with
  | .frames p => if p.contains FrameType.pathChallenge then { trace with errorCode := 0 } else trace
  | _ => trace

/-- The agents start again without the levels that were available before. -/
def resume (conn : Client τ) : Client τ :=
  { conn with encryptionLevelsAvailable :=
      conn.encryptionLevelsAvailable ++ [⟨.handshake, false⟩, ⟨.oneRTT, false⟩] }

/-- The argument `established` tells if there is a socket for the new path. -/
def run (conn : Client τ) (trace : Trace) (status : Option HandshakeStatus) (established : Bool)
    (preferredUrl : List UInt8) (packets : List Packet) : Option (Client τ × Trace) := do
  let (completed, trace) ← completeHandshake trace tlsHandshakeFailed status
  if completed then
    if established then
      let conn ← (resume conn).sendHTTPGETRequest preferredUrl 0
      return (conn, packets.foldl step { trace with errorCode := hostDidNotMigrate })
    else
      return (conn, { trace with errorCode := udpConnectionFailed })
  else
    return (conn, trace)

end ConnectionMigration

end QuicTracker
