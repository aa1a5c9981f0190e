import QuicTracker.Impl.Agents.Tls
import QuicTracker.Lemmas.Agents.Handshake

/-!
This module contains the broadcasts of the TLS agent: that a level is announced once and with its cipher,
that the handshake completes once, and when the resumption ticket is submitted once.
-/

namespace QuicTracker

namespace TLSAgent

variable {τ : Type} (lib : Libraries τ)

def completedStatuses (s : State τ) : List TLSStatus := s.tlsStatus.filter (·.completed)

/--
The list `base` is what others have submitted to the broadcaster of the connection before the agent started.
-/
structure OneShot (base : List DirectionalEncryptionLevel) (s : State τ) : Prop where
  announced : ∃ announced, s.conn.encryptionLevelsAvailable = base ++ announced ∧ announced.Nodup ∧
    ∀ e, e ∈ announced ↔ s.encryptionLevelsAvailable e = true
  installed : ∀ e, s.encryptionLevelsAvailable e = true → installed s.conn.toConnection e = true
  completed : (completedStatuses s).length ≤ 1
  keys : completedStatuses s ≠ [] → (s.conn.cryptoStates .oneRTT).isSome = true
  errors : ∀ status ∈ s.tlsStatus, status.completed = true ∨ status.error.isSome = true

theorem start_oneShot (conn : Client τ) (disableFrameSending : Bool)
    : OneShot conn.encryptionLevelsAvailable (start conn disableFrameSending) := by
  refine ⟨⟨[], by simp [start], List.nodup_nil, by simp [start]⟩, ?_, ?_, ?_, ?_⟩
  . simp [start]
  . simp [start, completedStatuses]
  . simp [start, completedStatuses]
  . simp [start]

theorem OneShot.conn {base : List DirectionalEncryptionLevel} {s : State τ} (h : OneShot base s)
    (c : Client τ) (hlevels : c.encryptionLevelsAvailable = s.conn.encryptionLevelsAvailable)
    (hinstalled : ∀ e, TLSAgent.installed s.conn.toConnection e = true → TLSAgent.installed c.toConnection e = true)
    (hkeys : (s.conn.cryptoStates .oneRTT).isSome = true → (c.cryptoStates .oneRTT).isSome = true)
    : OneShot base { s with conn := c } := by
  rcases h.announced with ⟨announced, hsubmitted, hnodup, hmem⟩
  refine ⟨⟨announced, ?_, hnodup, hmem⟩, ?_, h.completed, ?_, h.errors⟩
  . rw [← hsubmitted]
    exact hlevels
  . intro e he
    exact hinstalled e (h.installed e he)
  . intro hne
    exact hkeys (h.keys hne)

def KeepsCiphers (old state : CryptoState) : Prop :=
  (old.headerRead.isSome = true → state.headerRead.isSome = true) ∧
    (old.headerWrite.isSome = true → state.headerWrite.isSome = true)

theorem keepsCiphers_initRead (state : CryptoState) (tls : τ) (secret : List UInt8) (c : Prop)
    [Decidable c]
    : KeepsCiphers state (if c then state.initRead lib.toPigotls tls secret else state) := by
  split
  . exact ⟨fun _ => rfl, fun h => h⟩
  . exact ⟨fun h => h, fun h => h⟩

theorem keepsCiphers_initWrite (state : CryptoState) (tls : τ) (secret : List UInt8) (c : Prop)
    [Decidable c]
    : KeepsCiphers state (if c then state.initWrite lib.toPigotls tls secret else state) := by
  split
  . exact ⟨fun h => h, fun _ => rfl⟩
  . exact ⟨fun h => h, fun h => h⟩

theorem KeepsCiphers.trans {a b c : CryptoState} (hab : KeepsCiphers a b) (hbc : KeepsCiphers b c)
    : KeepsCiphers a c := by
  exact ⟨fun h => hbc.1 (hab.1 h), fun h => hbc.2 (hab.2 h)⟩

theorem installed_update {c : Client τ} {level : EncryptionLevel} {state : CryptoState}
    (hkeeps : ∀ old, c.cryptoStates level = some old → KeepsCiphers old state)
    (e : DirectionalEncryptionLevel) (he : installed c.toConnection e = true)
    : installed { c with cryptoStates := Function.update c.cryptoStates level (some state) } e = true := by
  unfold installed at he ⊢
  dsimp only
  by_cases hlevel : e.encryptionLevel = level
  . rw [hlevel] at he ⊢
    rw [Function.update_self]
    cases hold : c.cryptoStates level with
    | none => simp [hold] at he
    | some old =>
      simp only [hold, decide_eq_true_eq] at he ⊢
      rcases he with ⟨hr, he⟩ | ⟨hw, he⟩
      . exact .inl ⟨hr, (hkeeps old hold).1 he⟩
      . exact .inr ⟨hw, (hkeeps old hold).2 he⟩
  . rw [Function.update_of_ne hlevel]
    exact he

theorem OneShot.reportError {base : List DirectionalEncryptionLevel} {s : State τ} (h : OneShot base s)
    (p : FramePacket) (err : Option String)
    : OneShot base (reportError s p err) := by
  unfold TLSAgent.reportError
  split
  . next herr =>
    have hsame : completedStatuses (submitStatus s ⟨false, .frames p, err⟩) = completedStatuses s := by
      simp [completedStatuses, submitStatus]
    refine ⟨h.announced, h.installed, ?_, ?_, ?_⟩
    . rw [hsame]
      exact h.completed
    . rw [hsame]
      exact h.keys
    . intro status hstatus
      rcases List.mem_append.mp hstatus with hold | hnew
      . exact h.errors status hold
      . rw [List.mem_singleton] at hnew
        rw [hnew]
        exact .inr herr
  . exact h

theorem OneShot.installHandshake {base : List DirectionalEncryptionLevel} {s : State τ}
    (h : OneShot base s)
    : OneShot base (installHandshake lib s) := by
  unfold TLSAgent.installHandshake
  dsimp only
  apply h.conn
  . rfl
  . apply installed_update
    intro old hold
    rw [hold, Option.getD_some]
    exact (keepsCiphers_initRead lib _ _ _ _).trans (keepsCiphers_initWrite lib _ _ _ _)
  . intro hkeys
    dsimp only
    rw [Function.update_of_ne (by simp)]
    exact hkeys

theorem queueMessage_cases {c c' : Client τ} {m : Pigotls.Message} (h : queueMessage c m = some c')
    : c'.tls = c.tls ∧ c'.cryptoStates = c.cryptoStates ∧
        c'.encryptionLevelsAvailable = c.encryptionLevelsAvailable := by
  rcases Option.bind_eq_some_iff.mp h with ⟨⟨frame, stream⟩, _, h⟩
  injection h with h
  rw [← h]
  exact ⟨rfl, rfl, rfl⟩

theorem queueMessages_cases {c c' : Client τ} {output : List Pigotls.Message}
    (h : output.foldlM queueMessage c = some c')
    : c'.tls = c.tls ∧ c'.cryptoStates = c.cryptoStates ∧
        c'.encryptionLevelsAvailable = c.encryptionLevelsAvailable := by
  induction output generalizing c with
  | nil =>
    injection h with h
    rw [h]
    exact ⟨rfl, rfl, rfl⟩
  | cons m output ih =>
    rw [List.foldlM_cons] at h
    rcases Option.bind_eq_some_iff.mp h with ⟨c₁, hm, h⟩
    rw [(ih h).1, (ih h).2.1, (ih h).2.2]
    exact queueMessage_cases hm

theorem queueOutput_cases {s s' : State τ} {output : List Pigotls.Message}
    (h : queueOutput s output = some s')
    : ∃ c, s' = { s with conn := c } ∧ c.tls = s.conn.tls ∧ c.cryptoStates = s.conn.cryptoStates ∧
        c.encryptionLevelsAvailable = s.conn.encryptionLevelsAvailable := by
  unfold queueOutput at h
  split at h
  . injection h with h
    exact ⟨s.conn, h.symm, rfl, rfl, rfl⟩
  . rcases Option.bind_eq_some_iff.mp h with ⟨c, hc, h⟩
    injection h with h
    exact ⟨c, h.symm, queueMessages_cases hc⟩

theorem OneShot.queueOutput {base : List DirectionalEncryptionLevel} {s s' : State τ}
    (h : OneShot base s) {output : List Pigotls.Message} (hqueue : queueOutput s output = some s')
    : OneShot base s' := by
  rcases queueOutput_cases hqueue with ⟨c, hs', _, hstates, hlevels⟩
  rw [hs']
  apply h.conn c hlevels
  . intro e he
    unfold TLSAgent.installed at he ⊢
    rw [hstates]
    exact he
  . intro hkeys
    rw [hstates]
    exact hkeys

theorem OneShot.complete {base : List DirectionalEncryptionLevel} {s : State τ} (h : OneShot base s)
    (p : FramePacket) (notCompleted : Bool)
    : OneShot base (complete lib s p notCompleted) := by
  unfold TLSAgent.complete
  split
  . next hcompletes =>
    have hnone : s.conn.cryptoStates .oneRTT = none := by simpa using hcompletes.2
    -- Nothing was completed before, or the keys would be there.
    have hfirst : completedStatuses s = [] := by
      by_contra hne
      have := h.keys hne
      simp [hnone] at this
    refine ⟨h.announced, ?_, ?_, ?_, ?_⟩
    . intro e he
      apply installed_update
      . simp [hnone]
      . exact h.installed e he
    . unfold completedStatuses at hfirst ⊢
      simp [submitStatus, hfirst]
    . intro _
      simp [submitStatus]
    . intro status hstatus
      rcases List.mem_append.mp hstatus with hold | hnew
      . exact h.errors status hold
      . rw [List.mem_singleton] at hnew
        rw [hnew]
        exact .inl rfl
  . exact h

theorem OneShot.announce {base : List DirectionalEncryptionLevel} {s : State τ} (h : OneShot base s)
    (e : DirectionalEncryptionLevel)
    : OneShot base (announce s e) := by
  unfold TLSAgent.announce announceLevel
  dsimp only
  split
  . next he =>
    rcases h.announced with ⟨announced, hsubmitted, hnodup, hmem⟩
    have hnew : e ∉ announced := by
      rw [hmem]
      exact he.1
    refine ⟨⟨announced ++ [e], ?_, ?_, ?_⟩, ?_, h.completed, h.keys, h.errors⟩
    . simp [hsubmitted]
    . simpa [List.nodup_append] using ⟨hnodup, fun a ha hae => hnew (hae ▸ ha)⟩
    . intro e'
      rw [List.mem_append, List.mem_singleton, hmem]
      by_cases hee : e' = e
      . simp [hee]
      . simp [hee]
    . intro e' he'
      by_cases hee : e' = e
      . rw [hee]
        exact he.2
      . dsimp only at he'
        rw [Function.update_of_ne hee] at he'
        exact h.installed e' he'
  . exact h

theorem OneShot.announceAll {base : List DirectionalEncryptionLevel} {s : State τ} (h : OneShot base s)
    (es : List DirectionalEncryptionLevel)
    : OneShot base (es.foldl TLSAgent.announce s) := by
  induction es generalizing s with
  | nil => exact h
  | cons e es ih => exact ih (h.announce e)

theorem OneShot.submitTicket {base : List DirectionalEncryptionLevel} {s : State τ} (h : OneShot base s)
    : OneShot base (submitTicket lib s) := by
  unfold TLSAgent.submitTicket
  dsimp only
  split
  . exact ⟨h.announced, h.installed, h.completed, h.keys, h.errors⟩
  . exact h

theorem OneShot.handleData {base : List DirectionalEncryptionLevel} {s s' : State τ}
    (h : OneShot base s) {p : FramePacket} {data : List UInt8}
    (hdata : handleData lib s p data = some s')
    : OneShot base s' := by
  rcases Option.bind_eq_some_iff.mp hdata with ⟨s₁, hqueue, hdata⟩
  injection hdata with hdata
  rw [← hdata]
  apply OneShot.submitTicket
  apply OneShot.announceAll
  apply OneShot.complete
  apply OneShot.queueOutput _ hqueue
  apply OneShot.installHandshake
  apply OneShot.reportError
  exact h.conn _ rfl (fun _ he => he) (fun hkeys => hkeys)

theorem OneShot.step {base : List DirectionalEncryptionLevel} {s s' : State τ} (h : OneShot base s)
    {i : Input} (hstep : TLSAgent.step lib s i = some s')
    : OneShot base s' := by
  have hchans (chans : PNSpace → List (List UInt8)) : OneShot base { s with cryptoChans := chans } :=
    ⟨h.announced, h.installed, h.completed, h.keys, h.errors⟩
  unfold TLSAgent.step at hstep
  split at hstep
  . unfold handlePacket at hstep
    dsimp only at hstep
    split at hstep
    . exact (hchans _).handleData lib hstep
    . injection hstep with hstep
      rw [← hstep]
      exact hchans _
  . injection hstep with hstep
    rw [← hstep]
    exact h
  . injection hstep with hstep
    rw [← hstep]
    exact hchans _

def Feeds (s : State τ) (i : Input) : Prop :=
  match i with
  | .packet (.frames p) => (s.cryptoChans p.pnSpace).flatten.length > 0
  | _ => False

instance (s : State τ) (i : Input) : Decidable (Feeds s i) :=
  match i with
  | .packet (.frames p) => inferInstanceAs (Decidable ((s.cryptoChans p.pnSpace).flatten.length > 0))
  | .packet (.versionNegotiation _) => inferInstanceAs (Decidable False)
  | .packet (.retry _) => inferInstanceAs (Decidable False)
  | .crypto _ _ => inferInstanceAs (Decidable False)

theorem reportError_resumptionTickets (s : State τ) (p : FramePacket) (err : Option String)
    : (reportError s p err).resumptionTickets = s.resumptionTickets := by
  unfold reportError
  split
  . rfl
  . rfl

theorem complete_resumptionTickets (s : State τ) (p : FramePacket) (notCompleted : Bool)
    : (complete lib s p notCompleted).resumptionTickets = s.resumptionTickets := by
  unfold complete
  split
  . rfl
  . rfl

theorem announceAll_resumptionTickets (s : State τ) (es : List DirectionalEncryptionLevel)
    : (es.foldl announce s).resumptionTickets = s.resumptionTickets := by
  induction es generalizing s with
  | nil => rfl
  | cons e es ih =>
    rw [List.foldl_cons, ih]
    rfl

theorem handleData_resumptionTickets {s s' : State τ} {p : FramePacket} {data : List UInt8}
    (h : handleData lib s p data = some s')
    : s'.resumptionTickets = s.resumptionTickets ∨
      (lib.resumptionTicket s'.conn.tls).length > 0 ∧
        ∃ ticket, s'.resumptionTickets = s.resumptionTickets ++ [ticket] := by
  rcases Option.bind_eq_some_iff.mp h with ⟨s₁, hqueue, h⟩
  rcases queueOutput_cases hqueue with ⟨c, hs₁, _⟩
  injection h with h
  rw [← h]
  have hsame : (encryptionLevels.foldl announce (complete lib s₁ p
      (lib.handleMessage data p.pnSpace.epoch s.conn.tls).1.notCompleted)).resumptionTickets
        = s.resumptionTickets := by
    rw [announceAll_resumptionTickets, complete_resumptionTickets, hs₁]
    unfold installHandshake
    dsimp only
    rw [reportError_resumptionTickets]
  unfold submitTicket
  dsimp only
  split
  . next hticket => exact .inr ⟨hticket.2, _, by rw [hsame]⟩
  . exact .inl hsame

structure TicketOnce (s : State τ) : Prop where
  once : s.resumptionTickets.length ≤ 1
  held : s.resumptionTickets ≠ [] → (lib.resumptionTicket s.conn.tls).length > 0

theorem TicketOnce.step {s s' : State τ} (h : TicketOnce lib s) {i : Input}
    (hi : Feeds s i → (lib.resumptionTicket s.conn.tls).length = 0)
    (hstep : TLSAgent.step lib s i = some s')
    : TicketOnce lib s' := by
  unfold TLSAgent.step at hstep
  split at hstep
  . next p =>
    unfold handlePacket at hstep
    dsimp only at hstep
    split at hstep
    . next hfeeds =>
      have hnone : s.resumptionTickets = [] := by
        by_contra hne
        have := h.held hne
        have := hi hfeeds
        omega
      rcases handleData_resumptionTickets lib hstep with hsame | ⟨hheld, ticket, hnew⟩
      . refine ⟨?_, ?_⟩
        . simp [hsame, hnone]
        . simp [hsame, hnone]
      . refine ⟨?_, fun _ => hheld⟩
        simp [hnew, hnone]
    . injection hstep with hstep
      rw [← hstep]
      exact ⟨h.once, h.held⟩
  . injection hstep with hstep
    rw [← hstep]
    exact h
  . injection hstep with hstep
    rw [← hstep]
    exact ⟨h.once, h.held⟩

theorem run_oneShot {conn : Client τ} {disableFrameSending : Bool} {inputs : List Input} {s : State τ}
    (hrun : Run.run (step lib) (start conn disableFrameSending) inputs = some s)
    : OneShot conn.encryptionLevelsAvailable s := by
  have hstep : ∀ (_ : List Input) s i s', OneShot conn.encryptionLevelsAvailable s → True →
      step lib s i = some s' → OneShot conn.encryptionLevelsAvailable s' := by
    intro _ s i s' h _ hstep
    exact h.step lib hstep
  apply Run.inv_of_run (step lib) hstep [] _ inputs (start_oneShot conn disableFrameSending) _ hrun
  exact Run.Guarded.of_forall (step lib) (fun _ _ _ => trivial) _

theorem broadcasts_once (conn : Client τ) (disableFrameSending : Bool) (inputs : List Input) (s : State τ)
    (hrun : Run.run (step lib) (start conn disableFrameSending) inputs = some s)
    : (∃ announced, s.conn.encryptionLevelsAvailable = conn.encryptionLevelsAvailable ++ announced ∧
        announced.Nodup ∧ ∀ e ∈ announced, installed s.conn.toConnection e = true) ∧
      (completedStatuses s).length ≤ 1 ∧
      (Run.Guarded (step lib) (fun s i => Feeds s i → (lib.resumptionTicket s.conn.tls).length = 0)
        (start conn disableFrameSending) inputs → s.resumptionTickets.length ≤ 1) := by
  have hshot := run_oneShot lib hrun
  refine ⟨?_, hshot.completed, ?_⟩
  . rcases hshot.announced with ⟨announced, hsubmitted, hnodup, hmem⟩
    exact ⟨announced, hsubmitted, hnodup, fun e he => hshot.installed e ((hmem e).mp he)⟩
  . intro hguarded
    have hstep : ∀ (_ : List Input) s i s', TicketOnce lib s →
        (Feeds s i → (lib.resumptionTicket s.conn.tls).length = 0) →
        step lib s i = some s' → TicketOnce lib s' := by
      intro _ s i s' h hi hstep
      exact h.step lib hi hstep
    have honce : TicketOnce lib s := by
      apply Run.inv_of_run (step lib) hstep [] _ inputs _ hguarded hrun
      exact ⟨by simp [start], by simp [start]⟩
    exact honce.once

theorem broadcasts_once_sample
    : ∃ s, Run.run (step sampleLibraries) (start sampleClient false)
        [.crypto .handshake [8], .packet (.frames HandshakeAgent.samplePacket)] = some s ∧
      s.conn.encryptionLevelsAvailable = encryptionLevels ∧
      (completedStatuses s).length ≤ 1 ∧ s.resumptionTickets = [[5]] ∧ s.resumptionTickets.length ≤ 1 := by
  have hrun : ∃ s, Run.run (step sampleLibraries) (start sampleClient false)
      [.crypto .handshake [8], .packet (.frames HandshakeAgent.samplePacket)] = some s ∧
      s.conn.encryptionLevelsAvailable = encryptionLevels ∧ s.resumptionTickets = [[5]] := by
    decide +kernel
  rcases hrun with ⟨s, hrun, hannounced, htickets⟩
  have honce := broadcasts_once sampleLibraries sampleClient false _ s hrun
  refine ⟨s, hrun, hannounced, honce.2.1, htickets, ?_⟩
  apply honce.2.2
  decide +kernel

/-- Data of the server that follows the ticket makes the agent submit it again. -/
theorem not_broadcasts_once
    : ∃ s, Run.run (step sampleLibraries) (start sampleClient false)
        [.crypto .handshake [8], .packet (.frames HandshakeAgent.samplePacket), .crypto .handshake [4],
          .packet (.frames HandshakeAgent.samplePacket)] = some s ∧
      s.resumptionTickets = [[5], [5]] := by
  decide +kernel

end TLSAgent

end QuicTracker
