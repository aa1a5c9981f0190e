import QuicTracker.Impl.Agents.Handshake
import QuicTracker.Lemmas.Client
import QuicTracker.Lib.Run

/-!
This module contains what one step of the handshake agent can do, and what follows for the statuses that it
submits: how often it does so, and how that depends on the order of its inputs.
-/

namespace QuicTracker

namespace HandshakeAgent

open Client (chooseVersion alpnToken)

variable {τ : Type} (lib : Libraries τ)

def versionGlobals (s : State τ) (p : VersionNegotiationPacket) : Globals :=
  ⟨chooseVersion p.supportedVersions, alpnToken s.conn.alpn (chooseVersion p.supportedVersions)⟩

def restartOnVersion (s : State τ) (p : VersionNegotiationPacket) : State τ :=
  let globals := versionGlobals s p
  { s with
    globals := globals
    conn := Client.transitionTo lib globals s.conn globals.quicVersion globals.quicALPNToken }

def Closes (p : FramePacket) : Prop :=
  p.contains FrameType.connectionClose = true ∨ p.contains FrameType.applicationClose = true

instance (p : FramePacket) : Decidable (Closes p) := inferInstanceAs (Decidable (_ ∨ _))

/-- The transitions of an agent whose loop has not returned. -/
inductive Step (s : State τ) : Input → State τ → Prop where
  | sent {c : Client τ} (h : Client.sendInitialPacket lib s.conn = some c) :
      Step s .sendInitial { s with conn := c }
  | versionRefused {p : VersionNegotiationPacket} (h : chooseVersion p.supportedVersions = 0) :
      Step s (.incoming (.versionNegotiation p))
        { submit s ⟨false, some (.versionNegotiation p), some "no appropriate version found"⟩ with
          returned := true }
  | versionAccepted {p : VersionNegotiationPacket} {c : Client τ}
      (h : chooseVersion p.supportedVersions ≠ 0)
      (hsent : Client.sendInitialPacket lib (restartOnVersion lib s p).conn = some c) :
      Step s (.incoming (.versionNegotiation p)) { restartOnVersion lib s p with conn := c }
  | retryRefused {p : RetryPacket} (h : acceptsRetry s p = false) :
      Step s (.incoming (.retry p)) s
  | retryAccepted {p : RetryPacket} {c : Client τ} (h : acceptsRetry s p = true)
      (hsent : Client.sendInitialPacket lib (restartOnRetry lib s p).conn = some c) :
      Step s (.incoming (.retry p)) { restartOnRetry lib s p with conn := c }
  | closed {p : FramePacket} (h : Closes p) :
      Step s (.incoming (.frames p))
        { submit s ⟨false, some (.frames p), some closedText⟩ with returned := true }
  | firstInitial {p : FramePacket} {header : LongHeader} (hopen : ¬ Closes p)
      (hspace : p.pnSpace = .initial) (hfirst : s.firstInitialReceived = false)
      (hheader : p.header = .long header) :
      Step s (.incoming (.frames p))
        { s with
          firstInitialReceived := true
          conn := { s.conn with destinationCID := header.sourceCID } }
  | received {p : FramePacket} (hopen : ¬ Closes p)
      (hspace : p.pnSpace = .initial → s.firstInitialReceived = true) :
      Step s (.incoming (.frames p)) s
  | finished {p : FramePacket} (htls : s.tlsCompleted = true) (hspace : p.pnSpace = .handshake)
      (h : sendsFinished p.frames = some true) :
      Step s (.outgoing p) { submit s ⟨true, s.tlsPacket, none⟩ with returned := true }
  | outgoing {p : FramePacket}
      (h : s.tlsCompleted = true → p.pnSpace = .handshake → sendsFinished p.frames = some false) :
      Step s (.outgoing p) s
  | tlsStatus {status : TLSStatus} :
      Step s (.tlsStatus status) (handleTLSStatus s status)
  | socketStatus {err : String} :
      Step s (.socketStatus err) (handleSocketStatus s err)
  | close :
      Step s .close { s with returned := true }

theorem sendInitialPacket_cases {s s' : State τ} (h : sendInitialPacket lib s = some s')
    : ∃ c, Client.sendInitialPacket lib s.conn = some c ∧ s' = { s with conn := c } := by
  rcases Option.bind_eq_some_iff.mp h with ⟨c, hc, h⟩
  injection h with h
  exact ⟨c, hc, h.symm⟩

theorem handleVersionNegotiation_step {s s' : State τ} {p : VersionNegotiationPacket}
    (h : handleVersionNegotiation lib s p = some s')
    : Step lib s (.incoming (.versionNegotiation p)) s' := by
  unfold handleVersionNegotiation Client.processVersionNegotation at h
  dsimp only at h
  by_cases hversion : chooseVersion p.supportedVersions = 0
  . rw [if_pos hversion] at h
    injection h with h
    rw [← h]
    exact .versionRefused hversion
  . rw [if_neg hversion] at h
    rcases sendInitialPacket_cases lib h with ⟨c, hc, h⟩
    rw [h]
    exact .versionAccepted hversion hc

theorem handleRetry_step {s s' : State τ} {p : RetryPacket} (h : handleRetry lib s p = some s')
    : Step lib s (.incoming (.retry p)) s' := by
  unfold handleRetry at h
  split at h
  . next haccepts =>
    rcases sendInitialPacket_cases lib h with ⟨c, hc, h⟩
    rw [h]
    exact .retryAccepted haccepts hc
  . next hrefuses =>
    injection h with h
    rw [← h]
    exact .retryRefused (by simpa using hrefuses)

theorem handleFramer_step {s s' : State τ} {p : FramePacket} (h : handleFramer s p = some s')
    : Step lib s (.incoming (.frames p)) s' := by
  unfold handleFramer at h
  split at h
  . next hclosed =>
    injection h with h
    rw [← h]
    exact .closed hclosed
  . next hopen =>
    split at h
    . next hinitial =>
      split at h
      . next header hheader =>
        injection h with h
        rw [← h]
        exact .firstInitial hopen hinitial.1 (by simpa using hinitial.2) hheader
      . contradiction
    . next hinitial =>
      injection h with h
      rw [← h]
      exact .received hopen (by simpa using hinitial)

theorem handleOutgoing_step {s s' : State τ} {p : FramePacket} (h : handleOutgoing s p = some s')
    : Step lib s (.outgoing p) s' := by
  unfold handleOutgoing at h
  split at h
  . next hready =>
    rcases Option.bind_eq_some_iff.mp h with ⟨finished, hfinished, h⟩
    cases finished with
    | true =>
      injection h with h
      rw [← h]
      exact .finished hready.1 hready.2 hfinished
    | false =>
      injection h with h
      rw [← h]
      exact .outgoing (fun _ _ => hfinished)
  . next hready =>
    injection h with h
    rw [← h]
    exact .outgoing (fun htls hspace => absurd ⟨htls, hspace⟩ hready)

theorem step_cases {s s' : State τ} {i : Input} (h : step lib s i = some s')
    : s.returned = true ∧ s' = s ∨ s.returned = false ∧ Step lib s i s' := by
  unfold step at h
  split at h
  . next hreturned =>
    injection h with h
    exact .inl ⟨hreturned, h.symm⟩
  . next hreturned =>
    refine .inr ⟨by simpa using hreturned, ?_⟩
    cases i with
    | sendInitial =>
      rcases sendInitialPacket_cases lib h with ⟨c, hc, h⟩
      rw [h]
      exact .sent hc
    | incoming p =>
      cases p with
      | versionNegotiation p => exact handleVersionNegotiation_step lib h
      | retry p => exact handleRetry_step lib h
      | frames p => exact handleFramer_step lib h
    | outgoing p => exact handleOutgoing_step lib h
    | tlsStatus status =>
      injection h with h
      rw [← h]
      exact .tlsStatus
    | socketStatus err =>
      injection h with h
      rw [← h]
      exact .socketStatus
    | close =>
      injection h with h
      rw [← h]
      exact .close

/-- The inputs for which a status can be submitted. -/
def MayReport (i : Input) : Prop :=
  match i with
  | .incoming (.versionNegotiation p) => chooseVersion p.supportedVersions = 0
  | .incoming (.frames p) => Closes p
  | .outgoing p => p.pnSpace = .handshake ∧ sendsFinished p.frames = some true
  | .tlsStatus status => status.error.isSome = true
  | .socketStatus err => connectionRefused err = true
  | _ => False

/-- The ones among them after which the loop goes on. -/
def GoesOn (i : Input) : Prop :=
  match i with
  | .tlsStatus status => status.error.isSome = true
  | .socketStatus err => connectionRefused err = true
  | _ => False

theorem step_handshakeStatus {s s' : State τ} {i : Input} (h : step lib s i = some s')
    : s'.handshakeStatus = s.handshakeStatus ∨
      s.returned = false ∧ MayReport i ∧ (s'.returned = true ∨ GoesOn i) ∧
        ∃ status, s'.handshakeStatus = s.handshakeStatus ++ [status] := by
  rcases step_cases lib h with ⟨_, rfl⟩ | ⟨hreturned, hstep⟩
  . exact .inl rfl
  . cases hstep with
    | versionRefused hversion => exact .inr ⟨hreturned, hversion, .inl rfl, _, rfl⟩
    | closed hcloses => exact .inr ⟨hreturned, hcloses, .inl rfl, _, rfl⟩
    | finished _ hspace hfinished =>
      exact .inr ⟨hreturned, ⟨hspace, hfinished⟩, .inl rfl, _, rfl⟩
    | tlsStatus =>
      unfold handleTLSStatus
      dsimp only
      split
      . next h => exact .inr ⟨hreturned, h, .inr h, _, rfl⟩
      . exact .inl rfl
    | socketStatus =>
      unfold handleSocketStatus
      split
      . next h => exact .inr ⟨hreturned, h, .inr h, _, rfl⟩
      . exact .inl rfl
    | _ => exact .inl rfl

theorem run_of_returned {s s' : State τ} {inputs : List Input}
    (hrun : Run.run (step lib) s inputs = some s') (hreturned : s.returned = true)
    : s' = s := by
  induction inputs with
  | nil =>
    injection hrun with hrun
    exact hrun.symm
  | cons i inputs ih =>
    rw [Run.run_cons] at hrun
    unfold step at hrun
    rw [if_pos hreturned] at hrun
    exact ih hrun

theorem run_of_not_mayReport {s s' : State τ} {inputs : List Input}
    (hrun : Run.run (step lib) s inputs = some s') (hquiet : ∀ i ∈ inputs, ¬ MayReport i)
    : s'.handshakeStatus = s.handshakeStatus := by
  have hinv : ∀ (_ : List Input) s₁ i s₂, s₁.handshakeStatus = s.handshakeStatus → ¬ MayReport i →
      step lib s₁ i = some s₂ → s₂.handshakeStatus = s.handshakeStatus := by
    intro _ s₁ i s₂ hs hi hstep
    rcases step_handshakeStatus lib hstep with h | ⟨_, h, _⟩
    . rw [h, hs]
    . exact absurd h hi
  apply Run.inv_of_run (step lib) hinv [] s inputs rfl _ hrun
  apply Run.Guarded.of_forall
  intro i hi _
  exact hquiet i hi

/-- The inputs that are taken before the loop has returned. -/
def consumed (s : State τ) (inputs : List Input) : List Input :=
  match inputs with
  | [] => []
  | i :: inputs =>
    if s.returned then
      []
    else
      i :: (step lib s i).elim [] (fun s' => consumed s' inputs)

theorem run_consumed {s s' : State τ} {inputs : List Input} (hrun : Run.run (step lib) s inputs = some s')
    : Run.run (step lib) s (consumed lib s inputs) = some s' := by
  induction inputs generalizing s with
  | nil => exact hrun
  | cons i inputs ih =>
    unfold consumed
    split
    . next hreturned =>
      rw [run_of_returned lib hrun hreturned]
      rfl
    . rw [Run.run_cons] at hrun ⊢
      rcases Option.bind_eq_some_iff.mp hrun with ⟨s₁, hstep, hrun⟩
      rw [hstep]
      exact ih hrun

/--
A TLS error and a refused connection are reported without ending the loop. After one of them no input
follows for which a status can be submitted.
-/
def Settles (inputs : List Input) : Prop :=
  ∀ before i after, inputs = before ++ i :: after → GoesOn i → ∀ j ∈ after, ¬ MayReport j

theorem Settles.tail {i : Input} {inputs : List Input} (h : Settles (i :: inputs))
    : Settles inputs := by
  intro before j after hinputs
  apply h (i :: before)
  rw [hinputs]
  rfl

theorem run_handshakeStatus_le_one {s s' : State τ} {inputs : List Input} (hsettles : Settles inputs)
    (hs : s.handshakeStatus = []) (hrun : Run.run (step lib) s inputs = some s')
    : s'.handshakeStatus.length ≤ 1 := by
  induction inputs generalizing s with
  | nil =>
    injection hrun with hrun
    simp [← hrun, hs]
  | cons i inputs ih =>
    rw [Run.run_cons] at hrun
    rcases Option.bind_eq_some_iff.mp hrun with ⟨s₁, hstep, hrun⟩
    rcases step_handshakeStatus lib hstep with hsame | ⟨_, _, hends, status, hreport⟩
    . apply ih hsettles.tail _ hrun
      rw [hsame, hs]
    . have hlast : s'.handshakeStatus = s₁.handshakeStatus := by
        rcases hends with hreturned | hgoesOn
        . rw [run_of_returned lib hrun hreturned]
        . apply run_of_not_mayReport lib hrun
          exact hsettles [] i inputs rfl hgoesOn
      simp [hlast, hreport, hs]

theorem start_submits_at_most_once (globals : Globals) (conn : Client τ) (ignoreRetry : Bool)
    (inputs : List Input) (hsettles : Settles (consumed lib (start globals conn ignoreRetry) inputs))
    (s : State τ) (hrun : Run.run (step lib) (start globals conn ignoreRetry) inputs = some s)
    : s.handshakeStatus.length ≤ 1 := by
  exact run_handshakeStatus_le_one lib hsettles rfl (run_consumed lib hrun)

def samplePacket : FramePacket :=
  ⟨.long ⟨PacketType.handshake, 0, 0xff000011, [], [0xa1, 0xa2, 0xa3, 0xa4], ⟨0, 0⟩, [], ⟨21, 1⟩, 0, ⟨0, 1⟩⟩,
    .handshake, .handshake, []⟩

def sampleFinished : FramePacket := { samplePacket with frames := [.crypto ⟨0, 1, [0x14]⟩] }

def sampleCompleted : TLSStatus := ⟨true, .frames samplePacket, none⟩

/-- The errors that follow the last message of the handshake are not consumed. -/
theorem start_submits_at_most_once_sample
    : ∃ s, Run.run (step sampleLibraries) (start {} sampleClient false)
        [.tlsStatus sampleCompleted, .outgoing sampleFinished,
          .tlsStatus ⟨false, .frames samplePacket, some "alert"⟩,
          .tlsStatus ⟨false, .frames samplePacket, some "alert"⟩] = some s ∧
      s.handshakeStatus ≠ [] ∧ s.handshakeStatus.length ≤ 1 := by
  have hrun : ∃ s, Run.run (step sampleLibraries) (start {} sampleClient false)
      [.tlsStatus sampleCompleted, .outgoing sampleFinished,
        .tlsStatus ⟨false, .frames samplePacket, some "alert"⟩,
        .tlsStatus ⟨false, .frames samplePacket, some "alert"⟩] = some s ∧
      s.handshakeStatus ≠ [] := by
    decide +kernel
  have hconsumed : consumed sampleLibraries (start {} sampleClient false)
      [.tlsStatus sampleCompleted, .outgoing sampleFinished,
        .tlsStatus ⟨false, .frames samplePacket, some "alert"⟩,
        .tlsStatus ⟨false, .frames samplePacket, some "alert"⟩]
      = [.tlsStatus sampleCompleted, .outgoing sampleFinished] := by
    decide +kernel
  rcases hrun with ⟨s, hrun, hne⟩
  refine ⟨s, hrun, hne, ?_⟩
  apply start_submits_at_most_once _ _ _ _ _ _ s hrun
  rw [hconsumed]
  intro before i after hinputs hgoesOn
  have hi : i ∈ before ++ i :: after := by simp
  rw [← hinputs] at hi
  simp only [List.mem_cons, List.not_mem_nil, or_false] at hi
  rcases hi with rfl | rfl
  . simp [GoesOn, sampleCompleted] at hgoesOn
  . simp [GoesOn] at hgoesOn

/-- The TLS agent reports an error, and later the handshake completes. -/
theorem not_start_submits_at_most_once
    : ∃ s, Run.run (step sampleLibraries) (start {} sampleClient false)
        [.tlsStatus ⟨false, .frames samplePacket, some "alert"⟩, .tlsStatus sampleCompleted,
          .outgoing sampleFinished] = some s ∧
      s.handshakeStatus.map (fun status => status.completed) = [false, true] := by
  decide +kernel

def IsFinished (p : FramePacket) : Prop :=
  p.pnSpace = .handshake ∧ ∃ cf, .crypto cf ∈ p.frames ∧ cf.cryptoData.head? = some 0x14

theorem sendsFinished_eq_true {frames : List Frame} {found : Bool}
    (h : sendsFinished frames = some found)
    : found = true ↔ ∃ cf, .crypto cf ∈ frames ∧ cf.cryptoData.head? = some 0x14 := by
  induction frames with
  | nil =>
    injection h with h
    simp [← h]
  | cons frame frames ih =>
    cases frame with
    | crypto cf =>
      rcases Option.bind_eq_some_iff.mp h with ⟨first, hfirst, h⟩
      split at h
      . next h14 =>
        injection h with h
        rw [h14] at hfirst
        exact iff_of_true h.symm ⟨cf, by simp, hfirst⟩
      . next hother =>
        rw [ih h]
        simp [hfirst, hother]
    | _ =>
      rw [ih h]
      simp

/-- The channel that an input is taken from. Messages of one channel are not reordered. -/
inductive Channel where
  | sendInitial
  | incPackets
  | outPackets
  | tlsStatus
  | socketStatus
  | close
  deriving DecidableEq

def Input.channel (i : Input) : Channel :=
  match i with
  | .sendInitial => .sendInitial
  | .incoming _ => .incPackets
  | .outgoing _ => .outPackets
  | .tlsStatus _ => .tlsStatus
  | .socketStatus _ => .socketStatus
  | .close => .close

def SameMessages (inputs inputs' : List Input) : Prop :=
  ∀ channel, inputs.filter (·.channel = channel) = inputs'.filter (·.channel = channel)

theorem SameMessages.mem_iff {inputs inputs' : List Input} (h : SameMessages inputs inputs') (i : Input)
    : i ∈ inputs ↔ i ∈ inputs' := by
  have hfilter (l : List Input) : i ∈ l ↔ i ∈ l.filter (·.channel = i.channel) := by
    simp
  rw [hfilter inputs, hfilter inputs', h]

/--
There is no close frame, error or stop. Without an error the TLS agent only reports that it has completed.
-/
def Undisturbed (i : Input) : Prop :=
  match i with
  | .incoming (.frames p) => ¬ Closes p
  | .tlsStatus status => status.completed = true ∧ status.error = none
  | .socketStatus _ => False
  | .close => False
  | _ => True

def Refused (i : Input) : Prop :=
  match i with
  | .incoming (.versionNegotiation p) => chooseVersion p.supportedVersions = 0
  | _ => False

def IsCompleted (i : Input) : Prop :=
  match i with
  | .tlsStatus _ => True
  | _ => False

/-- A Finished packet is taken after the status of the TLS agent. -/
def InTime (inputs : List Input) : Prop :=
  ∃ before p after, inputs = before ++ .outgoing p :: after ∧ IsFinished p ∧
    (∃ i ∈ before, IsCompleted i) ∧ ∀ i ∈ before, ¬ Refused i

def InTimeAfter (completed : Prop) (inputs : List Input) : Prop :=
  ∃ before p after, inputs = before ++ .outgoing p :: after ∧ IsFinished p ∧
    (completed ∨ ∃ i ∈ before, IsCompleted i) ∧ ∀ i ∈ before, ¬ Refused i

theorem inTimeAfter_false {inputs : List Input} : InTimeAfter False inputs ↔ InTime inputs := by
  simp [InTimeAfter, InTime]

theorem inTimeAfter_cons {completed : Prop} {i : Input} {inputs : List Input}
    : InTimeAfter completed (i :: inputs) ↔
        (completed ∧ ∃ p, i = .outgoing p ∧ IsFinished p) ∨
          ¬ Refused i ∧ InTimeAfter (completed ∨ IsCompleted i) inputs := by
  constructor
  . rintro ⟨before, p, after, hinputs, hp, hcompleted, hbefore⟩
    cases before with
    | nil =>
      injection hinputs with hi _
      simp only [List.not_mem_nil, false_and, exists_false, or_false] at hcompleted
      exact .inl ⟨hcompleted, p, hi, hp⟩
    | cons j before =>
      injection hinputs with hi hinputs
      rw [← hi] at hcompleted hbefore
      refine .inr ⟨hbefore i (by simp), before, p, after, hinputs, hp, ?_, ?_⟩
      . simp only [List.mem_cons, exists_eq_or_imp] at hcompleted
        tauto
      . intro j hj
        exact hbefore j (by simp [hj])
  . rintro (⟨hcompleted, p, hi, hp⟩ | ⟨hrefused, before, p, after, hinputs, hp, hcompleted, hbefore⟩)
    . exact ⟨[], p, inputs, by rw [hi, List.nil_append], hp, .inl hcompleted, by simp⟩
    . refine ⟨i :: before, p, after, by rw [hinputs, List.cons_append], hp, ?_, ?_⟩
      . simp only [List.mem_cons, exists_eq_or_imp]
        tauto
      . exact List.forall_mem_cons.mpr ⟨hrefused, hbefore⟩

def Succeeded (s : State τ) : Prop := ∃ status ∈ s.handshakeStatus, status.completed = true

theorem Succeeded.of_append_false {s s' : State τ} {status : HandshakeStatus}
    (h : s'.handshakeStatus = s.handshakeStatus ++ [status]) (hstatus : status.completed = false)
    : Succeeded s' ↔ Succeeded s := by
  unfold Succeeded
  simp [h, hstatus]

theorem Step.outcome {s s' : State τ} {i : Input} (hstep : Step lib s i s')
    (hreturned : s.returned = false) (hi : Undisturbed i)
    : (s'.returned = true ∧ Succeeded s' ∧ s.tlsCompleted = true ∧ ∃ p, i = .outgoing p ∧ IsFinished p) ∨
      (s'.returned = true ∧ (Succeeded s' ↔ Succeeded s) ∧ Refused i) ∨
      (s'.returned = false ∧ (Succeeded s' ↔ Succeeded s) ∧ ¬ Refused i ∧
        (s'.tlsCompleted = true ↔ s.tlsCompleted = true ∨ IsCompleted i) ∧
        ¬ (s.tlsCompleted = true ∧ ∃ p, i = .outgoing p ∧ IsFinished p)) := by
  cases hstep with
  | versionRefused hversion =>
    refine .inr (.inl ⟨rfl, ?_, hversion⟩)
    exact Succeeded.of_append_false rfl rfl
  | versionAccepted hversion _ =>
    exact .inr (.inr ⟨hreturned, .rfl, hversion, by simp [restartOnVersion, IsCompleted], by simp⟩)
  | closed hcloses => exact absurd hcloses hi
  | finished htls hspace hfinished =>
    refine .inl ⟨rfl, ?_, htls, _, rfl, hspace, (sendsFinished_eq_true hfinished).mp rfl⟩
    exact ⟨⟨true, s.tlsPacket, none⟩, by simp [submit], rfl⟩
  | outgoing hunfinished =>
    refine .inr (.inr ⟨hreturned, .rfl, by simp [Refused], by simp [IsCompleted], ?_⟩)
    rintro ⟨htls, p, hp, hspace, hcrypto⟩
    injection hp with hp
    rw [← hp] at hspace hcrypto
    have := (sendsFinished_eq_true (hunfinished htls hspace)).mpr hcrypto
    contradiction
  | tlsStatus =>
    have herror := hi.2
    refine .inr (.inr ⟨?_, ?_, by simp [Refused], ?_, by simp⟩)
    . simpa [handleTLSStatus, herror] using hreturned
    . simp [Succeeded, handleTLSStatus, herror]
    . simp [handleTLSStatus, hi.1, IsCompleted]
  | socketStatus => exact hi.elim
  | close => exact hi.elim
  | _ => exact .inr (.inr ⟨hreturned, .rfl, by simp [Refused], by simp [restartOnRetry, IsCompleted], by simp⟩)

theorem run_succeeded_iff {s s' : State τ} {inputs : List Input}
    (hrun : Run.run (step lib) s inputs = some s') (hreturned : s.returned = false)
    (hs : ¬ Succeeded s) (hinputs : ∀ i ∈ inputs, Undisturbed i)
    : Succeeded s' ↔ InTimeAfter (s.tlsCompleted = true) inputs := by
  induction inputs generalizing s with
  | nil =>
    injection hrun with hrun
    rw [← hrun]
    simp [hs, InTimeAfter]
  | cons i inputs ih =>
    rw [Run.run_cons] at hrun
    rcases Option.bind_eq_some_iff.mp hrun with ⟨s₁, hstep, hrun⟩
    rw [inTimeAfter_cons]
    rcases step_cases lib hstep with ⟨h, _⟩ | ⟨_, hstep⟩
    . rw [hreturned] at h
      contradiction
    . rcases hstep.outcome lib hreturned (hinputs i (by simp)) with
        ⟨hend, hsuccess, hfinished⟩ | ⟨hend, hsame, hrefused⟩ | ⟨hgoesOn, hsame, hopen, htls, hfinished⟩
      . rw [run_of_returned lib hrun hend]
        exact iff_of_true hsuccess (.inl hfinished)
      . rw [run_of_returned lib hrun hend, hsame]
        refine iff_of_false hs ?_
        rintro (⟨_, p, hp, _⟩ | ⟨hopen, _⟩)
        . rw [hp] at hrefused
          exact hrefused
        . exact hopen hrefused
      . rw [ih hrun hgoesOn (mt hsame.mp hs) (fun j hj => hinputs j (by simp [hj])), htls,
          or_iff_right hfinished, and_iff_right hopen]

theorem succeeded_order_iff (globals : Globals) (conn : Client τ) (ignoreRetry : Bool)
    {inputs inputs' : List Input} (hsame : SameMessages inputs inputs')
    (hinputs : ∀ i ∈ inputs, Undisturbed i) {s s' : State τ}
    (hrun : Run.run (step lib) (start globals conn ignoreRetry) inputs = some s)
    (hrun' : Run.run (step lib) (start globals conn ignoreRetry) inputs' = some s')
    : (Succeeded s ↔ Succeeded s') ↔ (InTime inputs ↔ InTime inputs') := by
  have hstart : ¬ Succeeded (start globals conn ignoreRetry) := by
    simp [Succeeded, start]
  have hinputs' : ∀ i ∈ inputs', Undisturbed i := by
    intro i hi
    exact hinputs i ((hsame.mem_iff i).mpr hi)
  have htls : (start globals conn ignoreRetry).tlsCompleted = true ↔ False := by
    simp [start]
  rw [run_succeeded_iff lib hrun rfl hstart hinputs, run_succeeded_iff lib hrun' rfl hstart hinputs',
    htls, inTimeAfter_false, inTimeAfter_false]

instance (s : State τ) : Decidable (Succeeded s) :=
  inferInstanceAs (Decidable (∃ status ∈ s.handshakeStatus, status.completed = true))

theorem sampleFinished_inTime (before : List Input) (hbefore : ∀ i ∈ before, ¬ Refused i)
    (hcompleted : .tlsStatus sampleCompleted ∈ before)
    : InTime (before ++ [.outgoing sampleFinished]) := by
  refine ⟨before, sampleFinished, [], rfl, ⟨rfl, ⟨0, 1, [0x14]⟩, ?_, rfl⟩, ?_, hbefore⟩
  . simp [sampleFinished]
  . exact ⟨_, hcompleted, trivial⟩

theorem succeeded_order_iff_sample
    : ∃ s, Run.run (step sampleLibraries) (start {} sampleClient false)
        [.tlsStatus sampleCompleted, .incoming (.frames samplePacket), .outgoing sampleFinished] = some s ∧
      ∃ s', Run.run (step sampleLibraries) (start {} sampleClient false)
        [.incoming (.frames samplePacket), .tlsStatus sampleCompleted, .outgoing sampleFinished] = some s' ∧
        (Succeeded s ↔ Succeeded s') := by
  have hrun : ∃ s, Run.run (step sampleLibraries) (start {} sampleClient false)
      [.tlsStatus sampleCompleted, .incoming (.frames samplePacket), .outgoing sampleFinished] = some s :=
    ⟨_, rfl⟩
  have hrun' : ∃ s, Run.run (step sampleLibraries) (start {} sampleClient false)
      [.incoming (.frames samplePacket), .tlsStatus sampleCompleted, .outgoing sampleFinished] = some s :=
    ⟨_, rfl⟩
  rcases hrun with ⟨s, hrun⟩
  rcases hrun' with ⟨s', hrun'⟩
  refine ⟨s, hrun, s', hrun', ?_⟩
  apply (succeeded_order_iff sampleLibraries {} sampleClient false _ _ hrun hrun').mpr
  . refine iff_of_true ?_ ?_
    . apply sampleFinished_inTime [.tlsStatus sampleCompleted, .incoming (.frames samplePacket)]
      . simp [Refused]
      . simp
    . apply sampleFinished_inTime [.incoming (.frames samplePacket), .tlsStatus sampleCompleted]
      . simp [Refused]
      . simp
  . intro channel
    cases channel <;> rfl
  . simp [Undisturbed, sampleCompleted, Closes, samplePacket, FramePacket.contains]

/-- The packet with the Finished message is sent, and taken, before the status of the TLS agent is taken. -/
theorem not_succeeded_order
    : SameMessages [.tlsStatus sampleCompleted, .outgoing sampleFinished]
        [.outgoing sampleFinished, .tlsStatus sampleCompleted] ∧
      (∃ s, Run.run (step sampleLibraries) (start {} sampleClient false)
        [.tlsStatus sampleCompleted, .outgoing sampleFinished] = some s ∧ Succeeded s) ∧
      ∃ s, Run.run (step sampleLibraries) (start {} sampleClient false)
        [.outgoing sampleFinished, .tlsStatus sampleCompleted] = some s ∧ ¬ Succeeded s := by
  refine ⟨?_, by decide +kernel, by decide +kernel⟩
  intro channel
  cases channel <;> rfl

end HandshakeAgent

end QuicTracker
