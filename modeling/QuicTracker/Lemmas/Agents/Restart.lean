import QuicTracker.Lemmas.Agents.Handshake
import Mathlib.Data.List.TakeWhile

/-!
This module contains what a restart of the connection by a Version Negotiation or a Retry packet keeps: the
registration of the TLS agent on the crypto streams, and the configuration of the connection.
-/

namespace QuicTracker

namespace HandshakeAgent

open Client (chooseVersion alpnToken alpnFamily)

variable {τ : Type} (lib : Libraries τ)

/-- The channels that the running TLS agent reads are registered on the streams of the connection. -/
def Listens (s : State τ) : Prop :=
  ∀ space, space ≠ .noSpace →
    (∃ stream, s.conn.cryptoStreams space = some stream) ∧
      ⟨s.tlsAgentRun, space⟩ ∈ s.conn.readChans space

theorem listen_cryptoStreams (c : Client τ) (chan : CryptoChan)
    : (TLSAgent.listen c chan).cryptoStreams
        = Function.update c.cryptoStreams chan.space (some (c.cryptoStreams.get chan.space)) := by
  rfl

theorem listen_readChans (c : Client τ) (chan : CryptoChan)
    : (TLSAgent.listen c chan).readChans
        = Function.update c.readChans chan.space (c.readChans chan.space ++ [chan]) := by
  rfl

theorem tlsAgent_run_listens (c : Client τ) (run : Nat) (space : PNSpace) (hspace : space ≠ .noSpace)
    : (∃ stream, (TLSAgent.run c run).cryptoStreams space = some stream) ∧
        ⟨run, space⟩ ∈ (TLSAgent.run c run).readChans space := by
  unfold TLSAgent.run
  simp only [List.foldl_cons, List.foldl_nil, listen_cryptoStreams, listen_readChans]
  cases space with
  | noSpace => contradiction
  | _ => simp

theorem start_listens (globals : Globals) (conn : Client τ) (ignoreRetry : Bool)
    : Listens (start globals conn ignoreRetry) := by
  intro space hspace
  exact tlsAgent_run_listens conn 0 space hspace

theorem Listens.sent {s : State τ} {c : Client τ} (h : Listens s)
    (hsent : Client.SentInitial s.conn c)
    : Listens { s with conn := c } := by
  intro space hspace
  rcases h space hspace with ⟨⟨stream, hstream⟩, hchan⟩
  refine ⟨?_, ?_⟩
  . rcases hsent.cryptoStreams with ⟨stream', hstreams⟩
    dsimp only
    rw [hstreams]
    by_cases hinitial : space = .initial
    . exact ⟨stream', by rw [hinitial, Function.update_self]⟩
    . exact ⟨stream, by rw [Function.update_of_ne hinitial, hstream]⟩
  . dsimp only
    rw [hsent.readChans]
    exact hchan

theorem restartOnRetry_listens (s : State τ) (p : RetryPacket) : Listens (restartOnRetry lib s p) := by
  intro space hspace
  exact tlsAgent_run_listens _ _ space hspace

/-- A Version Negotiation packet that lists a supported version. -/
def NegotiatesVersion (i : Input) : Prop :=
  match i with
  | .incoming (.versionNegotiation p) => chooseVersion p.supportedVersions ≠ 0
  | _ => False

instance (i : Input) : Decidable (NegotiatesVersion i) :=
  match i with
  | .incoming (.versionNegotiation p) =>
    inferInstanceAs (Decidable (chooseVersion p.supportedVersions ≠ 0))
  | .incoming (.retry _) => inferInstanceAs (Decidable False)
  | .incoming (.frames _) => inferInstanceAs (Decidable False)
  | .sendInitial => inferInstanceAs (Decidable False)
  | .outgoing _ => inferInstanceAs (Decidable False)
  | .tlsStatus _ => inferInstanceAs (Decidable False)
  | .socketStatus _ => inferInstanceAs (Decidable False)
  | .close => inferInstanceAs (Decidable False)

theorem Listens.step {s s' : State τ} {i : Input} (h : Listens s)
    (hstep : HandshakeAgent.step lib s i = some s') (hi : s.returned = false → ¬ NegotiatesVersion i)
    : Listens s' := by
  rcases step_cases lib hstep with ⟨_, rfl⟩ | ⟨hreturned, hstep⟩
  . exact h
  . cases hstep with
    | sent hsent => exact h.sent (Client.sendInitialPacket_cases lib hsent)
    | versionAccepted hversion _ => exact absurd hversion (hi hreturned)
    | retryAccepted _ hsent =>
      exact (restartOnRetry_listens lib s _).sent (Client.sendInitialPacket_cases lib hsent)
    | tlsStatus =>
      unfold handleTLSStatus
      dsimp only
      split
      . exact h
      . exact h
    | socketStatus =>
      unfold handleSocketStatus
      split
      . exact h
      . exact h
    | _ => exact h

/-- The new streams that `ProcessVersionNegotation` makes have no channel registered on them. -/
theorem not_listens_of_negotiatesVersion {s s' : State τ} {i : Input}
    (hstep : HandshakeAgent.step lib s i = some s') (hreturned : s.returned = false)
    (hi : NegotiatesVersion i)
    : ¬ Listens s' := by
  intro h
  have hchan := (h .initial (by simp)).2
  rcases step_cases lib hstep with ⟨hreturned', _⟩ | ⟨_, hstep⟩
  . rw [hreturned] at hreturned'
    contradiction
  . cases hstep with
    | versionRefused hversion => exact hi hversion
    | versionAccepted _ hsent =>
      have hreadChans := (Client.sendInitialPacket_cases lib hsent).readChans
      dsimp only at hchan
      rw [hreadChans] at hchan
      simp [restartOnVersion, Client.transitionTo] at hchan
    | _ => exact hi

theorem listens_throughout_iff (globals : Globals) (conn : Client τ) (ignoreRetry : Bool)
    (inputs : List Input) (last : State τ)
    (hlast : Run.run (step lib) (start globals conn ignoreRetry) inputs = some last)
    : (∀ n s, Run.run (step lib) (start globals conn ignoreRetry) (inputs.take n) = some s → Listens s) ↔
        Run.Guarded (step lib) (fun s i => s.returned = false → ¬ NegotiatesVersion i)
          (start globals conn ignoreRetry) inputs := by
  constructor
  . intro h
    have hstep : ∀ (_ : List Input) s i s', Listens s → step lib s i = some s' → Listens s' →
        s.returned = false → ¬ NegotiatesVersion i := by
      intro _ s i s' _ hstep hlistens hreturned hi
      exact not_listens_of_negotiatesVersion lib hstep hreturned hi hlistens
    exact Run.guarded_of_inv (step lib) hstep [] _ inputs hlast h
  . intro hinputs n s hrun
    have hstep : ∀ (_ : List Input) s i s', Listens s →
        (s.returned = false → ¬ NegotiatesVersion i) → step lib s i = some s' → Listens s' := by
      intro _ s i s' h hi hstep
      exact h.step lib hstep hi
    apply Run.inv_of_run (step lib) hstep [] _ (inputs.take n) _ (hinputs.take _ n) hrun
    exact start_listens globals conn ignoreRetry

def sampleRetry : RetryPacket :=
  ⟨⟨PacketType.retry, 5, 0xff000011, [], [0xb1, 0xb2, 0xb3, 0xb4, 0xb5, 0xb6, 0xb7, 0xb8], ⟨0, 0⟩, [],
    ⟨0, 0⟩, 0, ⟨0, 0⟩⟩, [0xc1, 0xc2, 0xc3, 0xc4, 0xc5, 0xc6, 0xc7, 0xc8], [0x74]⟩

def sampleVersion : VersionNegotiationPacket :=
  ⟨0, 0, [], [0xc1, 0xc2, 0xc3, 0xc4, 0xc5, 0xc6, 0xc7, 0xc8], [0xff000011]⟩

theorem listens_throughout_sample
    : ∃ last, Run.run (step sampleLibraries) (start {} sampleClient false)
        [.incoming (.retry sampleRetry)] = some last ∧
      ∀ n s, Run.run (step sampleLibraries) (start {} sampleClient false)
        (List.take n [.incoming (.retry sampleRetry)]) = some s → Listens s := by
  have hrun : ∃ last, Run.run (step sampleLibraries) (start {} sampleClient false)
      [.incoming (.retry sampleRetry)] = some last ∧ last.receivedRetry = true := by
    decide +kernel
  rcases hrun with ⟨last, hlast, _⟩
  refine ⟨last, hlast, ?_⟩
  apply (listens_throughout_iff _ _ _ _ _ last hlast).mpr
  apply Run.Guarded.of_forall
  intro i hi _ _
  rw [List.mem_singleton] at hi
  rw [hi]
  exact not_false

theorem not_listens_throughout
    : ∃ s, Run.run (step sampleLibraries) (start {} sampleClient false)
        [.incoming (.versionNegotiation sampleVersion)] = some s ∧
      (s.conn.cryptoStreams .initial).isSome = true ∧
      ⟨s.tlsAgentRun, .initial⟩ ∉ s.conn.readChans .initial := by
  decide +kernel

def transportParameters (s : State τ) : QuicTransportParameters :=
  s.conn.tlsTPHandler.quicTransportParameters

def Restarts (s : State τ) (p : Packet) : Prop :=
  match p with
  | .versionNegotiation p => chooseVersion p.supportedVersions ≠ 0
  | .retry p => acceptsRetry s p = true
  | .frames _ => False

def KeepsConfiguration (s s' : State τ) (p : Packet) : Prop :=
  match p with
  | .versionNegotiation _ =>
    transportParameters s' = transportParameters s ∧ alpnFamily s'.conn.alpn = alpnFamily s.conn.alpn
  | .retry _ =>
    s'.conn.version = s.conn.version ∧ s'.conn.alpn = s.conn.alpn ∧
      transportParameters s' = transportParameters s
  | .frames _ => True

def defaultParameters : QuicTransportParameters :=
  (newTLSTransportParameterHandler 0 0).quicTransportParameters

def ConfiguredAsRestarted (s : State τ) (p : Packet) : Prop :=
  match p with
  | .versionNegotiation _ => transportParameters s = defaultParameters
  | .retry _ => s.conn.version = s.globals.quicVersion ∧ s.conn.alpn = s.globals.quicALPNToken
  | .frames _ => True

theorem alpnFamily_alpnToken (alpn : String) (version : Nat)
    : alpnFamily (alpnToken alpn version) = alpnFamily alpn := by
  unfold alpnToken alpnFamily
  rw [String.toList_ofList, List.takeWhile_append_of_pos]
  . simp
  . intro a ha
    have hdash := List.mem_takeWhile_imp ha
    exact hdash

theorem restartOnVersion_keeps_iff {s : State τ} {p : VersionNegotiationPacket} {c : Client τ}
    (hsent : Client.SentInitial (restartOnVersion lib s p).conn c)
    : KeepsConfiguration s { restartOnVersion lib s p with conn := c } (.versionNegotiation p) ↔
        transportParameters s = defaultParameters := by
  have hparameters : c.tlsTPHandler.quicTransportParameters = defaultParameters := by
    rw [hsent.tlsTPHandler]
    rfl
  have hfamily : alpnFamily c.alpn = alpnFamily s.conn.alpn := by
    rw [hsent.alpn]
    exact alpnFamily_alpnToken _ _
  unfold KeepsConfiguration transportParameters
  dsimp only
  rw [hparameters, hfamily]
  exact ⟨fun h => h.1.symm, fun h => ⟨h.symm, rfl⟩⟩

theorem restartOnRetry_keeps_iff {s : State τ} {p : RetryPacket} {c : Client τ}
    (hsent : Client.SentInitial (restartOnRetry lib s p).conn c)
    : KeepsConfiguration s { restartOnRetry lib s p with conn := c } (.retry p) ↔
        s.conn.version = s.globals.quicVersion ∧ s.conn.alpn = s.globals.quicALPNToken := by
  have hversion : c.version = s.globals.quicVersion := by
    rw [hsent.version]
    rfl
  have halpn : c.alpn = s.globals.quicALPNToken := by
    rw [hsent.alpn]
    rfl
  have hparameters : c.tlsTPHandler = s.conn.tlsTPHandler := by
    rw [hsent.tlsTPHandler]
    rfl
  unfold KeepsConfiguration transportParameters
  dsimp only
  rw [hversion, halpn, hparameters]
  exact ⟨fun h => ⟨h.1.symm, h.2.1.symm⟩, fun h => ⟨h.1.symm, h.2.symm, rfl⟩⟩

theorem keepsConfiguration_iff (s s' : State τ) (hreturned : s.returned = false) (p : Packet)
    (hp : Restarts s p) (hstep : step lib s (.incoming p) = some s')
    : KeepsConfiguration s s' p ↔ ConfiguredAsRestarted s p := by
  rcases step_cases lib hstep with ⟨h, _⟩ | ⟨_, hstep⟩
  . rw [hreturned] at h
    contradiction
  . cases hstep with
    | versionRefused hversion => exact absurd hversion hp
    | versionAccepted _ hsent =>
      exact restartOnVersion_keeps_iff lib (Client.sendInitialPacket_cases lib hsent)
    | retryRefused hrefused =>
      unfold Restarts at hp
      dsimp only at hp
      rw [hrefused] at hp
      contradiction
    | retryAccepted _ hsent =>
      exact restartOnRetry_keeps_iff lib (Client.sendInitialPacket_cases lib hsent)
    | closed _ => exact hp.elim
    | firstInitial _ _ _ _ => exact hp.elim
    | received _ _ => exact hp.elim

def sampleClientHQ : Client Bool := { sampleClient with alpn := "hq-17" }

theorem keepsConfiguration_sample
    : ∃ s', step sampleLibraries (start {} sampleClientHQ false) (.incoming (.retry sampleRetry)) = some s' ∧
      KeepsConfiguration (start {} sampleClientHQ false) s' (.retry sampleRetry) := by
  have hstep : ∃ s', step sampleLibraries (start {} sampleClientHQ false)
      (.incoming (.retry sampleRetry)) = some s' ∧ s'.receivedRetry = true := by
    decide +kernel
  rcases hstep with ⟨s', hstep, _⟩
  refine ⟨s', hstep, ?_⟩
  apply (keepsConfiguration_iff sampleLibraries _ s' rfl (.retry sampleRetry) _ hstep).mpr
  . exact ⟨rfl, rfl⟩
  . exact (by decide : acceptsRetry (start {} sampleClientHQ false) sampleRetry = true)

def sampleClientLimited : Client Bool :=
  { sampleClient with
    tlsTPHandler := { sampleClient.tlsTPHandler with
      quicTransportParameters := { defaultParameters with maxData := 1 } } }

theorem not_keepsConfiguration
    : (∃ s', step sampleLibraries (start {} sampleClient false) (.incoming (.retry sampleRetry)) = some s' ∧
        sampleClient.alpn = "h3-17" ∧ s'.conn.alpn = "hq-17") ∧
      ∃ s', step sampleLibraries (start {} sampleClientLimited false)
          (.incoming (.versionNegotiation sampleVersion)) = some s' ∧
        sampleClientLimited.tlsTPHandler.quicTransportParameters.maxData = 1 ∧
        s'.conn.tlsTPHandler.quicTransportParameters.maxData = 32 * 1024 := by
  refine ⟨?_, ?_⟩
  . decide +kernel
  . decide +kernel

end HandshakeAgent

end QuicTracker
