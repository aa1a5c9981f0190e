import QuicTracker.Impl.Agents.Buffer
import QuicTracker.Lib.Gate

/-!
This module contains how often the buffer agent puts back the payloads it was handed. Seen from one
encryption level the agent is a gate that the announcement of the level releases.
-/

namespace QuicTracker

namespace BufferAgent

variable (level : EncryptionLevel)

def announcement : Input := .available ⟨level, true⟩

def payload? (i : Input) : Option (List UInt8) :=
  match i with
  | .unprocessed u => if u.encryptionLevel = level then some u.payload else none
  | .available _ => none

def handed (inputs : List Input) : List (List UInt8) := inputs.filterMap (payload? level)

def submitted (s : State) : List (List UInt8) :=
  (s.incomingPayloads.filter (·.encryptionLevel = level)).map (·.payload)

def gate (s : State) : Gate (List UInt8) where
  waiting := s.unprocessedPayloads level
  released := s.encryptionLevelsAvailable level
  out := submitted level s

def gateEvent? (i : Input) : Option (Gate.Event (List UInt8)) :=
  match i with
  | .unprocessed u => if u.encryptionLevel = level then some (.put u.payload) else none
  | .available dEL => if dEL = ⟨level, true⟩ then some .release else none

theorem putBack_payloads (eL : EncryptionLevel) (payloads : List (List UInt8))
    : ((payloads.map (UnprocessedPayload.mk eL)).filter (·.encryptionLevel = level)).map (·.payload)
        = if eL = level then payloads else [] := by
  induction payloads with
  | nil => simp
  | cons p payloads ih =>
    rw [List.map_cons, List.filter_cons]
    by_cases hlevel : eL = level
    . simpa [hlevel] using ih
    . simp [hlevel]

theorem gate_step (s : State) (i : Input)
    : gate level (step s i) = (gateEvent? level i).elim (gate level s) (Gate.step (gate level s)) := by
  cases i with
  | unprocessed u =>
    by_cases hlevel : u.encryptionLevel = level
    . subst hlevel
      cases havailable : s.encryptionLevelsAvailable u.encryptionLevel with
      | true => simp [step, handleUnprocessed, gateEvent?, Gate.step, gate, submitted, havailable]
      | false => simp [step, handleUnprocessed, gateEvent?, Gate.step, gate, submitted, havailable]
    . have hne : level ≠ u.encryptionLevel := fun h => hlevel h.symm
      cases havailable : s.encryptionLevelsAvailable u.encryptionLevel with
      | true => simp [step, handleUnprocessed, gateEvent?, gate, submitted, havailable, hlevel]
      | false => simp [step, handleUnprocessed, gateEvent?, gate, submitted, havailable, hlevel, hne]
  | available dEL =>
    rcases dEL with ⟨eL, read⟩
    cases read with
    | false => simp [step, handleAvailable, gateEvent?]
    | true =>
      by_cases hlevel : eL = level
      . subst hlevel
        simp [step, handleAvailable, gateEvent?, Gate.step, gate, submitted, putBack_payloads]
      . have hne : level ≠ eL := fun h => hlevel h.symm
        simp [step, handleAvailable, gateEvent?, gate, submitted, hlevel, hne, putBack_payloads]

theorem gate_run (s : State) (inputs : List Input)
    : gate level (run s inputs) = Gate.run (gate level s) (inputs.filterMap (gateEvent? level)) := by
  induction inputs generalizing s with
  | nil => rfl
  | cons i inputs ih =>
    unfold run at ih ⊢
    rw [List.foldl_cons, ih, gate_step]
    cases hi : gateEvent? level i with
    | none => rw [List.filterMap_cons_none hi, Option.elim_none]
    | some e => rw [List.filterMap_cons_some hi, Option.elim_some, Gate.run_cons]

theorem arrivals_gateEvents (inputs : List Input)
    : Gate.arrivals (inputs.filterMap (gateEvent? level)) = handed level inputs := by
  unfold Gate.arrivals handed
  rw [List.filterMap_filterMap]
  congr
  funext i
  cases i with
  | unprocessed u =>
    unfold gateEvent? payload?
    dsimp only
    split
    . rfl
    . rfl
  | available dEL =>
    unfold gateEvent? payload?
    dsimp only
    split
    . rfl
    . rfl

theorem release_mem_iff (inputs : List Input)
    : .release ∈ inputs.filterMap (gateEvent? level) ↔ announcement level ∈ inputs := by
  rw [List.mem_filterMap]
  constructor
  . rintro ⟨i, hi, hevent⟩
    cases i with
    | unprocessed u =>
      unfold gateEvent? at hevent
      dsimp only at hevent
      split at hevent
      . injection hevent with hevent
        contradiction
      . contradiction
    | available dEL =>
      unfold gateEvent? at hevent
      dsimp only at hevent
      split at hevent
      . next hdEL =>
        rw [hdEL] at hi
        exact hi
      . contradiction
  . intro h
    exact ⟨announcement level, h, if_pos rfl⟩

/-- Every payload of the level is submitted once in the order of arrival, but none before the announcement. -/
def ReplaysOnce (inputs : List Input) : Prop :=
  (announcement level ∈ inputs → submitted level (run initial inputs) = handed level inputs) ∧
    (announcement level ∉ inputs → submitted level (run initial inputs) = [])

theorem submitted_eq_out (inputs : List Input)
    : submitted level (run initial inputs)
        = (Gate.run {} (inputs.filterMap (gateEvent? level))).out := by
  have hrun := gate_run level initial inputs
  exact congrArg Gate.out hrun

theorem replaysOnce_append_iff (before after : List Input) (hbefore : announcement level ∉ before)
    : ReplaysOnce level (before ++ announcement level :: after) ↔
        announcement level ∉ after ∨ handed level before = [] := by
  have hannouncement : gateEvent? level (announcement level) = some .release := if_pos rfl
  have hevents : (before ++ announcement level :: after).filterMap (gateEvent? level)
      = before.filterMap (gateEvent? level) ++ .release :: after.filterMap (gateEvent? level) := by
    rw [List.filterMap_append, List.filterMap_cons_some hannouncement]
  have hgate := Gate.out_eq_arrivals_iff (before.filterMap (gateEvent? level))
    (after.filterMap (gateEvent? level)) (mt (release_mem_iff level before).mp hbefore)
  rw [← hevents, ← submitted_eq_out, arrivals_gateEvents, arrivals_gateEvents, release_mem_iff] at hgate
  rw [← hgate]
  unfold ReplaysOnce
  simp

theorem replaysOnce_of_not_announced {inputs : List Input} (h : announcement level ∉ inputs)
    : ReplaysOnce level inputs := by
  refine ⟨fun hmem => absurd hmem h, fun _ => ?_⟩
  rw [submitted_eq_out]
  apply Gate.out_of_not_released
  exact mt (release_mem_iff level inputs).mp h

theorem replaysOnce_iff (inputs : List Input)
    : (∀ level, ReplaysOnce level inputs) ↔
        ∀ level before after, inputs = before ++ announcement level :: after →
          announcement level ∉ before → announcement level ∈ after → handed level before = [] := by
  constructor
  . intro h level before after hinputs hbefore hafter
    have hreplays := h level
    rw [hinputs, replaysOnce_append_iff level before after hbefore] at hreplays
    exact hreplays.resolve_left (fun hnot => hnot hafter)
  . intro h level
    by_cases hannounced : announcement level ∈ inputs
    . rcases List.eq_append_cons_of_mem hannounced with ⟨before, after, hinputs, hbefore⟩
      rw [hinputs, replaysOnce_append_iff level before after hbefore]
      by_cases hafter : announcement level ∈ after
      . exact .inr (h level before after hinputs hbefore hafter)
      . exact .inl hafter
    . exact replaysOnce_of_not_announced level hannounced

/-- A Handshake packet arrives before the keys, and a Retry makes the TLS agent announce them a second time. -/
theorem not_replaysOnce
    : let inputs := [.unprocessed ⟨.handshake, [0xff]⟩, announcement .handshake, announcement .handshake]
      handed .handshake inputs = [[0xff]] ∧
        submitted .handshake (run initial inputs) = [[0xff], [0xff]] := by
  decide

end BufferAgent

end QuicTracker
