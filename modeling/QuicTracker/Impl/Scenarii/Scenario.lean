import QuicTracker.Impl.Agents.Handshake

/-!
This module contains what the scenarii share: the verdict of a trace in `trace.go`, and the wait for the
handshake in `scenarii/scenario.go`. The packets of a trace are left out, `MarkError` marks a copy of the one
that is of interest. A panic is `none`.
-/

namespace QuicTracker

structure ErrorMap where
  entries : List (Nat × String)
  nodup : (entries.map Prod.fst).Nodup
  deriving DecidableEq

namespace ErrorMap

def empty : ErrorMap := ⟨[], List.nodup_nil⟩

def set (m : ErrorMap) (code : Nat) (message : String) : ErrorMap where
  entries := (code, message) :: m.entries.filter (fun e => e.1 ≠ code)
  nodup := by
    rw [List.map_cons, List.nodup_cons]
    refine ⟨by simp, ?_⟩
    exact m.nodup.sublist (List.filter_sublist.map Prod.fst)

def length (m : ErrorMap) : Nat := m.entries.length

end ErrorMap

/-- What is stored under `error` in the results of a trace. -/
inductive TraceError where
  | message (message : String)
  | errors (errors : ErrorMap)
  deriving DecidableEq

structure Trace where
  errorCode : Nat := 0
  error : Option TraceError := none
  deriving DecidableEq

def Trace.markError (t : Trace) (error : Nat) (message : String) : Trace where
  errorCode := error
  error := if message ≠ "" then some (.message message) else t.error

/-- The argument `status` is the first one of the handshake agent, unless the timer expires before it. -/
def completeHandshake (trace : Trace) (handshakeErrorCode : Nat) (status : Option HandshakeStatus) :
    Option (Bool × Trace) :=
  match status with
  | some status =>
    if ¬ status.completed then do
      let error ← status.error
      return (false, trace.markError handshakeErrorCode error)
    else
      some (true, trace)
  | none => some (false, trace.markError handshakeErrorCode "handshake timeout")

end QuicTracker
