import QuicTracker.Impl.Agents.Send

/-!
This module contains the timers of `agents/send_agent.go`. A timer that is set expires at some time, which
puts a value into its channel, and the loop takes the value from there. What the loop then does with the
frames is in `Impl.Agents.Send`.
-/

namespace QuicTracker

namespace SendingAgent

/-- A timer that is `set` runs, and `fired` is a value in its channel, which holds one. -/
structure Timer where
  set : Bool := false
  fired : Bool := false
  deriving DecidableEq, Repr

structure TimedState extends State where
  timers : EncryptionLevel → Timer

def timedInitial : TimedState where
  toState := initial
  timers := fun _ => {}

inductive TimedEvent where
  | queue (frame : Frame) (level : EncryptionLevel)
  | expire (level : EncryptionLevel)
  | timer (level : EncryptionLevel)
  | announce (level : EncryptionLevel) (read : Bool)
  deriving DecidableEq

namespace TimedState

def reset (s : TimedState) (level : EncryptionLevel) : TimedState :=
  { s with timers := Function.update s.timers level ⟨true, (s.timers level).fired⟩ }

def expire (s : TimedState) (level : EncryptionLevel) : TimedState :=
  { s with timers := Function.update s.timers level ⟨false, true⟩ }

def take (s : TimedState) (level : EncryptionLevel) : TimedState :=
  { s with timers := Function.update s.timers level ⟨(s.timers level).set, false⟩ }

end TimedState

section

variable (newHeader : EncryptionLevel → Nat → Header)

def timedQueue (mtu : Nat) (s : TimedState) (frame : Frame) (level : EncryptionLevel) :
    Option TimedState := do
  let length ← frame.frameLength
  let next ← queueFrame newHeader mtu s.toState frame level
  let timed := { s with toState := next }
  if u16 (s.frameBufferLength level + length) > mtu then
    return timed
  else if s.encryptionLevelsAvailable level ∨ level = .best ∨ level = .bestAppData then
    return timed.reset level
  else
    return timed

def timedTimer (s : TimedState) (level : EncryptionLevel) : Option TimedState :=
  if (s.timers level).fired then do
    let next ← timerFired newHeader s.toState level
    let timed := { s.take level with toState := next }
    if level = .best ∨ level = .bestAppData then
      return timed.reset (retarget s.toState level)
    else
      return timed
  else
    none

def timedAnnounce (s : TimedState) (level : EncryptionLevel) (read : Bool) : Option TimedState := do
  let next ← announced s.toState level read
  let timed := { s with toState := next }
  return if read then timed else timed.reset level

def timedStep (mtu : Nat) (s : TimedState) (event : TimedEvent) : Option TimedState :=
  match event with
  | .queue frame level => timedQueue newHeader mtu s frame level
  | .expire level => if (s.timers level).set then some (s.expire level) else none
  | .timer level => timedTimer newHeader s level
  | .announce level read => timedAnnounce s level read

end

end SendingAgent

end QuicTracker
