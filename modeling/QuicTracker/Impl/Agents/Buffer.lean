import QuicTracker.Impl.Pigotls

/-!
This module contains the loop of `agents/buffer_agent.go`. An input is what it takes from one of its two
channels.
-/

namespace QuicTracker

structure UnprocessedPayload where
  encryptionLevel : EncryptionLevel
  payload : List UInt8
  deriving DecidableEq, Repr

namespace BufferAgent

/--
The payloads submitted to the decryption queue are `incomingPayloads`, in order. Each is kept with the level
that it was handed to the agent for, which is not submitted.
-/
structure State where
  unprocessedPayloads : EncryptionLevel → List (List UInt8)
  encryptionLevelsAvailable : EncryptionLevel → Bool
  incomingPayloads : List UnprocessedPayload

def initial : State where
  unprocessedPayloads := fun _ => []
  encryptionLevelsAvailable := fun _ => false
  incomingPayloads := []

inductive Input where
  | unprocessed (u : UnprocessedPayload)
  | available (dEL : DirectionalEncryptionLevel)
  deriving DecidableEq, Repr

def handleUnprocessed (s : State) (u : UnprocessedPayload) : State :=
  if ¬ s.encryptionLevelsAvailable u.encryptionLevel then
    { s with
      unprocessedPayloads := Function.update s.unprocessedPayloads u.encryptionLevel
        (s.unprocessedPayloads u.encryptionLevel ++ [u.payload]) }
  else
    { s with incomingPayloads := s.incomingPayloads ++ [u] }

/-- The buffered payloads are put back, and they stay in the buffer. -/
def handleAvailable (s : State) (dEL : DirectionalEncryptionLevel) : State :=
  if dEL.read then
    let eL := dEL.encryptionLevel
    { s with
      encryptionLevelsAvailable := Function.update s.encryptionLevelsAvailable eL true
      incomingPayloads := s.incomingPayloads ++ (s.unprocessedPayloads eL).map (fun uP => ⟨eL, uP⟩) }
  else
    s

def step (s : State) (input : Input) : State :=
  match input with
  | .unprocessed u => handleUnprocessed s u
  | .available dEL => handleAvailable s dEL

def run (s : State) (inputs : List Input) : State := inputs.foldl step s

end BufferAgent

end QuicTracker
