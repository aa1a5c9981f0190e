import QuicTracker.Lemmas.Session
import QuicTracker.Lemmas.Common
import QuicTracker.Lemmas.Agents.Restart

/-!
This module contains what holds for the packet numbers of the client in every run: how they relate to the
numbers that the peer acknowledges, and when no number is used twice under the same Initial keys.
-/

namespace QuicTracker

namespace Session

open Client (SentInitial)

variable {τ : Type} (lib : Libraries τ)

/-- The creation of a packet, as the maps of packet numbers see it. -/
structure Takes (space : PNSpace) (c c' : Client τ) : Prop where
  packetNumber : c'.packetNumber = Function.update c.packetNumber space (u64 (c.packetNumber space + 1))
  numbersUsed : c'.numbersUsed = c.numbersUsed ++ [⟨space, c.packetNumber space, c.initialKeys⟩]
  largestPNsAcknowledged : c'.largestPNsAcknowledged = c.largestPNsAcknowledged
  initialKeys : c'.initialKeys = c.initialKeys

theorem nextPacketNumber_takes (c : Client τ) (space : PNSpace)
    : Takes space c (c.nextPacketNumber space).2 := by
  exact ⟨rfl, rfl, rfl, rfl⟩

theorem takes_of_sentInitial {c c' : Client τ} (h : SentInitial c c') : Takes .initial c c' := by
  exact ⟨h.packetNumber, h.numbersUsed, h.largestPNsAcknowledged, h.initialKeys⟩

theorem Takes.numbersUsed_length {space : PNSpace} {c c' : Client τ} (h : Takes space c c')
    : c'.numbersUsed.length = c.numbersUsed.length + 1 := by
  simp [h.numbersUsed]

theorem Takes.next {space : PNSpace} {c c' : Client τ} (h : Takes space c c')
    (hused : c.packetNumber space ≤ c.numbersUsed.length) (hcount : c'.numbersUsed.length < 2 ^ 64)
    : c'.packetNumber space = c.packetNumber space + 1 := by
  rw [h.numbersUsed_length] at hcount
  rw [h.packetNumber]
  rw [Function.update_self]
  exact u64_of_lt (by omega)

theorem Takes.other {space other : PNSpace} {c c' : Client τ} (h : Takes space c c')
    (hne : other ≠ space)
    : c'.packetNumber other = c.packetNumber other := by
  rw [h.packetNumber]
  exact Function.update_of_ne hne _ _

/-- The other changes leave the maps of packet numbers as they are. -/
structure SameNumbers (c c' : Client τ) : Prop where
  packetNumber : c'.packetNumber = c.packetNumber
  numbersUsed : c'.numbersUsed = c.numbersUsed
  largestPNsAcknowledged : c'.largestPNsAcknowledged = c.largestPNsAcknowledged
  initialKeys : c'.initialKeys = c.initialKeys

theorem sendOnStream_sameNumbers {c c' : Client τ} {streamId : Nat} {data : List UInt8} {fin : Bool}
    (h : c.sendOnStream streamId data fin = some c')
    : SameNumbers c c' := by
  rcases Option.bind_eq_some_iff.mp h with ⟨⟨frame, stream⟩, _, h⟩
  injection h with h
  rw [← h]
  exact ⟨rfl, rfl, rfl, rfl⟩

theorem noteAck_numbers (c : Client τ) (space : PNSpace) (ack : AckFrame)
    : (RecoveryAgent.noteAck c space ack).packetNumber = c.packetNumber ∧
      (RecoveryAgent.noteAck c space ack).numbersUsed = c.numbersUsed ∧
      (RecoveryAgent.noteAck c space ack).initialKeys = c.initialKeys := by
  unfold RecoveryAgent.noteAck
  split
  . exact ⟨rfl, rfl, rfl⟩
  . exact ⟨rfl, rfl, rfl⟩

theorem noteAck_le {c : Client τ} {space : PNSpace} {ack : AckFrame} {bound : PNSpace → Nat}
    (h : ∀ space, c.largestPNsAcknowledged space ≤ bound space)
    (hack : ack.largestAcknowledged ≤ bound space) (other : PNSpace)
    : (RecoveryAgent.noteAck c space ack).largestPNsAcknowledged other ≤ bound other := by
  unfold RecoveryAgent.noteAck
  split
  . by_cases hother : other = space
    . rw [hother]
      simpa using hack
    . simpa [Function.update_of_ne hother] using h other
  . exact h other

section Acknowledged

variable {acks : PNSpace → AckFrame → Prop}

/-- The acknowledgements of the packet that is being handled are `acks`. -/
structure Bounded (acks : PNSpace → AckFrame → Prop) (c : Client τ) : Prop where
  acked : ∀ space, c.largestPNsAcknowledged space ≤ c.packetNumber space
  used : ∀ space, c.packetNumber space ≤ c.numbersUsed.length
  acks : ∀ space ack, acks space ack → ack.largestAcknowledged ≤ c.packetNumber space

def BoundedWhileFew (acks : PNSpace → AckFrame → Prop) (c : Client τ) : Prop :=
  c.numbersUsed.length < 2 ^ 32 - 1 → Bounded acks c

theorem BoundedWhileFew.same {c c' : Client τ} (h : BoundedWhileFew acks c) (hsame : SameNumbers c c')
    : BoundedWhileFew acks c' := by
  intro hcount
  rw [hsame.numbersUsed] at hcount
  have hbounded := h hcount
  constructor
  . rw [hsame.largestPNsAcknowledged, hsame.packetNumber]
    exact hbounded.acked
  . rw [hsame.packetNumber, hsame.numbersUsed]
    exact hbounded.used
  . rw [hsame.packetNumber]
    exact hbounded.acks

theorem Takes.le {space : PNSpace} {c c' : Client τ} (h : Takes space c c')
    (hused : c.packetNumber space ≤ c.numbersUsed.length) (hcount : c'.numbersUsed.length < 2 ^ 64)
    (other : PNSpace)
    : c.packetNumber other ≤ c'.packetNumber other := by
  by_cases hother : other = space
  . rw [hother]
    rw [h.next hused hcount]
    omega
  . rw [h.other hother]

theorem BoundedWhileFew.takes {space : PNSpace} {c c' : Client τ} (h : BoundedWhileFew acks c)
    (htakes : Takes space c c')
    : BoundedWhileFew acks c' := by
  intro hcount
  have hlength := htakes.numbersUsed_length
  have hbounded := h (by omega)
  have hle := htakes.le (hbounded.used space) (by omega)
  constructor
  . intro other
    rw [htakes.largestPNsAcknowledged]
    exact (hbounded.acked other).trans (hle other)
  . intro other
    have hused := hbounded.used other
    by_cases hother : other = space
    . have hnext := htakes.next (hbounded.used space) (by omega)
      rw [hother] at hused ⊢
      omega
    . rw [htakes.other hother]
      omega
  . intro other ack hack
    exact (hbounded.acks other ack hack).trans (hle other)

theorem BoundedWhileFew.change {c c' : Client τ} (h : BoundedWhileFew acks c) (hchange : Change acks c c')
    : BoundedWhileFew acks c' := by
  cases hchange with
  | created space => exact h.takes (nextPacketNumber_takes c space)
  | sent written submitted => exact h.same ⟨rfl, rfl, rfl, rfl⟩
  | queued f level => exact h.same ⟨rfl, rfl, rfl, rfl⟩
  | acked hack =>
    intro hcount
    rcases noteAck_numbers c _ _ with ⟨hnumber, hused, _⟩
    rw [hused] at hcount
    have hbounded := h hcount
    constructor
    . rw [hnumber]
      exact noteAck_le hbounded.acked (hbounded.acks _ _ hack)
    . rw [hnumber, hused]
      exact hbounded.used
    . rw [hnumber]
      exact hbounded.acks

theorem Restarted.bounded {c c' : Client τ} (h : Restarted c c')
    : BoundedWhileFew (fun _ _ => False) c' := by
  intro _
  refine ⟨?_, ?_, by simp⟩
  . simp [h.largestPNsAcknowledged, h.packetNumber]
  . simp [h.packetNumber]

theorem BoundedWhileFew.handles {s : HandshakeAgent.State τ} {i : HandshakeAgent.Input} {c : Client τ}
    (h : BoundedWhileFew (fun _ _ => False) s.conn) (hconn : Handles s i c)
    : BoundedWhileFew (fun _ _ => False) c := by
  apply hconn.inv h
  . intro cid
    exact h.same ⟨rfl, rfl, rfl, rfl⟩
  . intro c c' hc hsent
    exact hc.takes (takes_of_sentInitial hsent)
  . intro fresh hrestarted _
    exact hrestarted.bounded

/-- The acknowledgements of the event are for numbers up to the next one of their space. -/
def AcksSent (s : State τ) (e : Event) : Prop :=
  match e with
  | .recovery (.incoming (.frames p)) =>
    ∀ ack ∈ RecoveryAgent.ackFrames p, ack.largestAcknowledged ≤ s.conn.packetNumber p.pnSpace
  | _ => True

instance (s : State τ) (e : Event) : Decidable (AcksSent s e) := by
  unfold AcksSent
  split
  . infer_instance
  . infer_instance

theorem AcksSent.le {s : State τ} {i : RecoveryAgent.Input} (h : AcksSent s (.recovery i))
    {space : PNSpace} {ack : AckFrame} (hack : Acknowledges i space ack)
    : ack.largestAcknowledged ≤ s.conn.packetNumber space := by
  unfold Acknowledges at hack
  split at hack
  . next p =>
    rw [hack.1]
    exact h ack hack.2
  . contradiction

theorem BoundedWhileFew.step {s s' : State τ} {e : Event}
    (h : BoundedWhileFew (fun _ _ => False) s.conn) (hacks : AcksSent s e)
    (hstep : Session.step lib s e = some s')
    : BoundedWhileFew (fun _ _ => False) s'.conn := by
  cases step_cases lib hstep with
  | handshake hconn => exact h.handles hconn
  | recovery hchanges =>
    next i recovery c =>
    have hstart : BoundedWhileFew (Acknowledges i) s.conn := by
      intro hcount
      have hbounded := h hcount
      exact ⟨hbounded.acked, hbounded.used, fun space ack hack => hacks.le hack⟩
    have hend := hchanges.inv (fun _ _ hc hchange => hc.change hchange) hstart
    intro hcount
    have hbounded := hend hcount
    exact ⟨hbounded.acked, hbounded.used, by simp⟩
  | write hwrite => exact h.same (sendOnStream_sameNumbers hwrite)
  | create => exact h.takes (nextPacketNumber_takes s.conn _)

theorem Fresh.bounded {c : Client τ} (h : Fresh c) : BoundedWhileFew (fun _ _ => False) c := by
  intro _
  refine ⟨?_, ?_, by simp⟩
  . simp [h.largestPNsAcknowledged, h.packetNumber]
  . simp [h.packetNumber]

theorem truncate_isSome (log2 : Nat → Nat) (hlog : ∀ n, 0 < n → n < 2 ^ 32 → log2 n < 32) (p la : Nat)
    (hla : la ≤ p) (hp : p < 2 ^ 32 - 1)
    : (PacketNumber.truncate log2 p la).isSome = true := by
  unfold PacketNumber.truncate
  rw [if_neg (by omega)]
  rw [u64Sub_of_le hla (by omega)]
  rw [u64_of_lt (by omega)]
  have hlength := hlog (p - la + 1) (by omega) (by omega)
  dsimp only
  rw [if_neg (by omega)]
  rfl

/-- Every state reached is the last one of its own run, so this also holds before every packet of the run. -/
theorem acknowledged_le_next (hlog : ∀ n, 0 < n → n < 2 ^ 32 → lib.log2 n < 32) (globals : Globals)
    (conn : Client τ) (ignoreRetry : Bool) (hfresh : Fresh conn) (events : List Event) (s : State τ)
    (hacks : Run.Guarded (Session.step lib) AcksSent (start globals conn ignoreRetry) events)
    (hrun : Run.run (Session.step lib) (start globals conn ignoreRetry) events = some s)
    (hcount : s.conn.numbersUsed.length < 2 ^ 32 - 1) (space : PNSpace)
    : s.conn.largestPNsAcknowledged space ≤ s.conn.packetNumber space ∧
      (PacketNumber.truncate lib.log2 (s.conn.packetNumber space)
        (s.conn.largestPNsAcknowledged space)).isSome = true := by
  have hstep : ∀ (_ : List Event) s e s', BoundedWhileFew (fun _ _ => False) s.conn → AcksSent s e →
      Session.step lib s e = some s' → BoundedWhileFew (fun _ _ => False) s'.conn := by
    intro _ s e s' h he hstep
    exact h.step lib he hstep
  have hinv : BoundedWhileFew (fun _ _ => False) s.conn := by
    apply Run.inv_of_run (Session.step lib) hstep [] _ events _ hacks hrun
    exact (hfresh.start globals ignoreRetry).bounded
  have hbounded := hinv hcount
  have hacked := hbounded.acked space
  have hused := hbounded.used space
  exact ⟨hacked, truncate_isSome lib.log2 hlog _ _ hacked (by omega)⟩

def sampleAck (largestAcknowledged : Nat) : Packet :=
  .frames ⟨.short ⟨false, [], ⟨0, 1⟩, 0⟩, .appData, .oneRTT, [.ack ⟨largestAcknowledged, 0, 0, [⟨0, 0⟩]⟩]⟩

theorem sampleClient_fresh : Fresh sampleClient := by
  exact transitionTo_fresh _ _ _ _ _ rfl rfl

theorem acknowledged_le_next_sample
    : ∃ s, Run.run (Session.step sampleLibraries) (start {} sampleClient false)
        [.create .oneRTTProtected, .create .zeroRTTProtected, .recovery (.incoming (sampleAck 1))] = some s ∧
      s.conn.largestPNsAcknowledged .appData = 1 ∧
      s.conn.largestPNsAcknowledged .appData ≤ s.conn.packetNumber .appData := by
  have hrun : ∃ s, Run.run (Session.step sampleLibraries) (start {} sampleClient false)
      [.create .oneRTTProtected, .create .zeroRTTProtected, .recovery (.incoming (sampleAck 1))] = some s ∧
      s.conn.largestPNsAcknowledged .appData = 1 ∧ s.conn.numbersUsed.length < 2 ^ 32 - 1 := by
    decide +kernel
  rcases hrun with ⟨s, hrun, hacked, hcount⟩
  have hlog : ∀ n, 0 < n → n < 2 ^ 32 → sampleLibraries.log2 n < 32 := by
    intro n hpos hn
    exact (Nat.log2_lt (by omega)).mpr hn
  refine ⟨s, hrun, hacked, ?_⟩
  exact (acknowledged_le_next sampleLibraries hlog {} sampleClient false sampleClient_fresh _ s
    (by decide +kernel) hrun hcount .appData).1

/-- A peer acknowledges a packet that was never sent, and the next packet panics. -/
theorem not_acknowledged_le_next
    : ∃ s, Run.run (Session.step sampleLibraries) (start {} sampleClient false)
        [.recovery (.incoming (sampleAck 5))] = some s ∧
      s.conn.packetNumber .appData < s.conn.largestPNsAcknowledged .appData ∧
      PacketNumber.truncate sampleLibraries.log2 (s.conn.packetNumber .appData)
        (s.conn.largestPNsAcknowledged .appData) = none ∧
      (Session.step sampleLibraries s (.create .oneRTTProtected)).isNone = true := by
  decide +kernel

end Acknowledged

section Keys

def initialNumbers (c : Client τ) : List NumberUsed := c.numbersUsed.filter (fun u => u.space = .initial)

/-- The numbers used under the keys in use lie below the next one. -/
structure Distinct (c : Client τ) : Prop where
  nodup : (initialNumbers c).Nodup
  below : ∀ u ∈ initialNumbers c, u.keys = c.initialKeys → u.number < c.packetNumber .initial
  used : c.packetNumber .initial ≤ c.numbersUsed.length

def DistinctWhileFew (c : Client τ) : Prop := c.numbersUsed.length < 2 ^ 64 → Distinct c

theorem DistinctWhileFew.same {c c' : Client τ} (h : DistinctWhileFew c)
    (hnumber : c'.packetNumber = c.packetNumber) (hused : c'.numbersUsed = c.numbersUsed)
    (hkeys : c'.initialKeys = c.initialKeys)
    : DistinctWhileFew c' := by
  intro hcount
  rw [hused] at hcount
  have hdistinct := h hcount
  constructor
  . unfold initialNumbers
    rw [hused]
    exact hdistinct.nodup
  . unfold initialNumbers
    rw [hused, hkeys, hnumber]
    exact hdistinct.below
  . rw [hused, hnumber]
    exact hdistinct.used

theorem Takes.initialNumbers {c c' : Client τ} (h : Takes .initial c c')
    : initialNumbers c' = initialNumbers c ++ [⟨.initial, c.packetNumber .initial, c.initialKeys⟩] := by
  unfold Session.initialNumbers
  rw [h.numbersUsed]
  rw [List.filter_append]
  simp

theorem Takes.initialNumbers_other {space : PNSpace} {c c' : Client τ} (h : Takes space c c')
    (hspace : space ≠ .initial)
    : Session.initialNumbers c' = Session.initialNumbers c := by
  unfold Session.initialNumbers
  rw [h.numbersUsed]
  rw [List.filter_append]
  simp [hspace]

theorem DistinctWhileFew.takes_initial {c c' : Client τ} (h : DistinctWhileFew c)
    (htakes : Takes .initial c c')
    : DistinctWhileFew c' := by
  intro hcount
  have hlength := htakes.numbersUsed_length
  have hdistinct := h (by omega)
  have hnext := htakes.next hdistinct.used hcount
  constructor
  . rw [htakes.initialNumbers]
    apply List.Nodup.append hdistinct.nodup (List.nodup_singleton _)
    -- The new number is not below itself.
    rw [List.disjoint_singleton]
    intro hmem
    exact absurd (hdistinct.below _ hmem rfl) (Nat.lt_irrefl _)
  . intro u hu hkeys
    rw [htakes.initialNumbers] at hu
    rw [htakes.initialKeys] at hkeys
    rw [hnext]
    rcases List.mem_append.mp hu with hu | hu
    . exact Nat.lt_succ_of_lt (hdistinct.below u hu hkeys)
    . rw [List.mem_singleton.mp hu]
      exact Nat.lt_succ_self _
  . have hused := hdistinct.used
    omega

theorem DistinctWhileFew.takes {space : PNSpace} {c c' : Client τ} (h : DistinctWhileFew c)
    (htakes : Takes space c c')
    : DistinctWhileFew c' := by
  by_cases hspace : space = .initial
  . subst hspace
    exact h.takes_initial htakes
  . intro hcount
    have hlength := htakes.numbersUsed_length
    have hdistinct := h (by omega)
    have hother := htakes.other (Ne.symm hspace)
    constructor
    . rw [htakes.initialNumbers_other hspace]
      exact hdistinct.nodup
    . rw [htakes.initialNumbers_other hspace, htakes.initialKeys, hother]
      exact hdistinct.below
    . have hused := hdistinct.used
      omega

theorem DistinctWhileFew.change {acks : PNSpace → AckFrame → Prop} {c c' : Client τ}
    (h : DistinctWhileFew c) (hchange : Change acks c c')
    : DistinctWhileFew c' := by
  cases hchange with
  | created space => exact h.takes (nextPacketNumber_takes c space)
  | sent written submitted => exact h.same rfl rfl rfl
  | queued f level => exact h.same rfl rfl rfl
  | acked _ =>
    rcases noteAck_numbers c _ _ with ⟨hnumber, hused, hkeys⟩
    exact h.same hnumber hused hkeys

def UnusedKeys (c : Client τ) (cid : ConnectionID) : Prop := ∀ u ∈ initialNumbers c, u.keys ≠ cid

theorem DistinctWhileFew.restarted {c c' : Client τ} (h : DistinctWhileFew c) (hrestarted : Restarted c c')
    (hunused : UnusedKeys c c'.initialKeys)
    : DistinctWhileFew c' := by
  intro hcount
  rw [hrestarted.numbersUsed] at hcount
  have hdistinct := h hcount
  have hnumbers : initialNumbers c' = initialNumbers c := by
    unfold initialNumbers
    rw [hrestarted.numbersUsed]
  constructor
  . rw [hnumbers]
    exact hdistinct.nodup
  . intro u hu hkeys
    rw [hnumbers] at hu
    exact absurd hkeys (hunused u hu)
  . simp [hrestarted.packetNumber]

/-- The keys in use and those of the numbers used come from a `DestinationCID` of the client. -/
structure KeysFrom (cids : List ConnectionID) (c : Client τ) : Prop where
  inUse : c.initialKeys ∈ cids
  used : ∀ u ∈ c.numbersUsed, u.keys ∈ cids

theorem KeysFrom.mono {cids cids' : List ConnectionID} {c : Client τ} (h : KeysFrom cids c)
    (hsub : cids ⊆ cids')
    : KeysFrom cids' c := by
  exact ⟨hsub h.inUse, fun u hu => hsub (h.used u hu)⟩

theorem KeysFrom.same {cids : List ConnectionID} {c c' : Client τ} (h : KeysFrom cids c)
    (hused : c'.numbersUsed = c.numbersUsed) (hkeys : c'.initialKeys = c.initialKeys)
    : KeysFrom cids c' := by
  constructor
  . rw [hkeys]
    exact h.inUse
  . rw [hused]
    exact h.used

theorem KeysFrom.takes {cids : List ConnectionID} {space : PNSpace} {c c' : Client τ}
    (h : KeysFrom cids c) (htakes : Takes space c c')
    : KeysFrom cids c' := by
  constructor
  . rw [htakes.initialKeys]
    exact h.inUse
  . intro u hu
    rw [htakes.numbersUsed] at hu
    rcases List.mem_append.mp hu with hu | hu
    . exact h.used u hu
    . rw [List.mem_singleton.mp hu]
      exact h.inUse

theorem KeysFrom.change {cids : List ConnectionID} {acks : PNSpace → AckFrame → Prop} {c c' : Client τ}
    (h : KeysFrom cids c) (hchange : Change acks c c')
    : KeysFrom cids c' := by
  cases hchange with
  | created space => exact h.takes (nextPacketNumber_takes c space)
  | sent written submitted => exact h.same rfl rfl
  | queued f level => exact h.same rfl rfl
  | acked _ =>
    rcases noteAck_numbers c _ _ with ⟨_, hused, hkeys⟩
    exact h.same hused hkeys

theorem KeysFrom.handles {cids : List ConnectionID} {s : HandshakeAgent.State τ}
    {i : HandshakeAgent.Input} {c : Client τ} (h : KeysFrom cids s.conn) (hconn : Handles s i c)
    : KeysFrom (cids ++ [c.destinationCID]) c := by
  have hmono : KeysFrom (cids ++ [c.destinationCID]) s.conn := h.mono (List.subset_append_left _ _)
  cases hconn with
  | kept hc => exact hmono.same (by rw [hc]) (by rw [hc])
  | addressed cid hc => exact hmono.same (by rw [hc]) (by rw [hc])
  | sent hsent => exact hmono.takes (takes_of_sentInitial hsent)
  | restarted hrestarted _ hsent =>
    refine KeysFrom.takes ⟨?_, ?_⟩ (takes_of_sentInitial hsent)
    . rw [hrestarted.initialKeys, hsent.destinationCID]
      simp
    . rw [hrestarted.numbersUsed]
      exact hmono.used

/-- A Retry packet that is accepted brings a connection ID that the client has not used before. -/
def NewRetryCID (s : State τ) (e : Event) : Prop :=
  match e with
  | .handshake (.incoming (.retry p)) =>
    ∀ cid, restartCID s.agent (.incoming (.retry p)) = some cid → cid ∉ s.destinationCIDs
  | _ => True

/-- A Version Negotiation packet is not accepted after an Initial packet under the current `DestinationCID`. -/
def NoInitialBefore (s : State τ) (e : Event) : Prop :=
  match e with
  | .handshake (.incoming (.versionNegotiation p)) =>
    ∀ cid, restartCID s.agent (.incoming (.versionNegotiation p)) = some cid → UnusedKeys s.conn cid
  | _ => True

instance (c : Client τ) (cid : ConnectionID) : Decidable (UnusedKeys c cid) :=
  inferInstanceAs (Decidable (∀ u ∈ initialNumbers c, u.keys ≠ cid))

instance (s : State τ) (e : Event) : Decidable (NewRetryCID s e) := by
  unfold NewRetryCID
  split
  . infer_instance
  . infer_instance

instance (s : State τ) (e : Event) : Decidable (NoInitialBefore s e) := by
  unfold NoInitialBefore
  split
  . infer_instance
  . infer_instance

theorem unusedKeys_of_restartCID {s : State τ} {i : HandshakeAgent.Input} {cid : ConnectionID}
    (hkeys : KeysFrom s.destinationCIDs s.conn) (hretry : NewRetryCID s (.handshake i))
    (hversion : NoInitialBefore s (.handshake i)) (hcid : restartCID s.agent i = some cid)
    : UnusedKeys s.conn cid := by
  have hcases : (∃ p, i = .incoming (.versionNegotiation p)) ∨ ∃ p, i = .incoming (.retry p) := by
    unfold restartCID at hcid
    split at hcid
    . contradiction
    . split at hcid
      . exact .inl ⟨_, rfl⟩
      . exact .inr ⟨_, rfl⟩
      . contradiction
  rcases hcases with ⟨p, rfl⟩ | ⟨p, rfl⟩
  . exact hversion cid hcid
  . intro u hu heq
    have hmem := hkeys.used u (List.mem_of_mem_filter hu)
    rw [heq] at hmem
    exact hretry cid hcid hmem

theorem DistinctWhileFew.handles {s : HandshakeAgent.State τ} {i : HandshakeAgent.Input} {c : Client τ}
    (h : DistinctWhileFew s.conn) (hunused : ∀ cid, restartCID s i = some cid → UnusedKeys s.conn cid)
    (hconn : Handles s i c)
    : DistinctWhileFew c := by
  apply hconn.inv h
  . intro cid
    exact h.same rfl rfl rfl
  . intro c c' hc hsent
    exact hc.takes (takes_of_sentInitial hsent)
  . intro fresh hrestarted hkeys
    exact h.restarted hrestarted (hunused _ hkeys)

structure NoReuse (s : State τ) : Prop where
  distinct : DistinctWhileFew s.conn
  keys : KeysFrom s.destinationCIDs s.conn

theorem NoReuse.step {s s' : State τ} {e : Event} (h : NoReuse s) (hretry : NewRetryCID s e)
    (hversion : NoInitialBefore s e) (hstep : Session.step lib s e = some s')
    : NoReuse s' := by
  cases step_cases lib hstep with
  | handshake hconn =>
    refine ⟨h.distinct.handles ?_ hconn, h.keys.handles hconn⟩
    intro cid hcid
    exact unusedKeys_of_restartCID h.keys hretry hversion hcid
  | recovery hchanges =>
    refine ⟨hchanges.inv (fun _ _ hc hchange => hc.change hchange) h.distinct, ?_⟩
    have hkeys := hchanges.inv (fun _ _ hc hchange => KeysFrom.change hc hchange) h.keys
    exact hkeys.mono (List.subset_append_left _ _)
  | write hwrite =>
    have hsame := sendOnStream_sameNumbers hwrite
    refine ⟨h.distinct.same hsame.packetNumber hsame.numbersUsed hsame.initialKeys, ?_⟩
    exact (h.keys.same hsame.numbersUsed hsame.initialKeys).mono (List.subset_append_left _ _)
  | create =>
    have htakes := nextPacketNumber_takes s.conn
    exact ⟨h.distinct.takes (htakes _), (h.keys.takes (htakes _)).mono (List.subset_append_left _ _)⟩

theorem Fresh.noReuse {c : Client τ} (h : Fresh c) (globals : Globals) (ignoreRetry : Bool)
    : NoReuse (Session.start globals c ignoreRetry) := by
  have hstart := h.start globals ignoreRetry
  refine ⟨?_, ?_, ?_⟩
  . intro _
    refine ⟨?_, ?_, ?_⟩
    . simp [initialNumbers, hstart.numbersUsed]
    . simp [initialNumbers, hstart.numbersUsed]
    . simp [hstart.packetNumber]
  . rw [hstart.initialKeys]
    exact List.mem_singleton.mpr rfl
  . simp [hstart.numbersUsed]

theorem initialNumbers_nodup (globals : Globals) (conn : Client τ) (ignoreRetry : Bool)
    (hfresh : Fresh conn) (events : List Event) (s : State τ)
    (hretry : Run.Guarded (Session.step lib) NewRetryCID (Session.start globals conn ignoreRetry) events)
    (hversion : Run.Guarded (Session.step lib) NoInitialBefore (Session.start globals conn ignoreRetry)
      events)
    (hrun : Run.run (Session.step lib) (Session.start globals conn ignoreRetry) events = some s)
    (hcount : s.conn.numbersUsed.length < 2 ^ 64)
    : (initialNumbers s.conn).Nodup := by
  have hstep : ∀ (_ : List Event) s e s', NoReuse s → NewRetryCID s e ∧ NoInitialBefore s e →
      Session.step lib s e = some s' → NoReuse s' := by
    intro _ s e s' h he hstep
    exact h.step lib he.1 he.2 hstep
  have hinv : NoReuse s := by
    apply Run.inv_of_run (Session.step lib) hstep [] _ events _ (hretry.and _ hversion) hrun
    exact hfresh.noReuse globals ignoreRetry
  exact (hinv.distinct hcount).nodup

theorem initialNumbers_nodup_sample
    : ∃ s, Run.run (Session.step sampleLibraries) (Session.start {} sampleClient false)
        [.handshake (.incoming (.versionNegotiation HandshakeAgent.sampleVersion)), .create .initial,
          .handshake (.incoming (.retry HandshakeAgent.sampleRetry))] = some s ∧
      (initialNumbers s.conn).map NumberUsed.number = [0, 1, 0] ∧ (initialNumbers s.conn).Nodup := by
  have hrun : ∃ s, Run.run (Session.step sampleLibraries) (Session.start {} sampleClient false)
      [.handshake (.incoming (.versionNegotiation HandshakeAgent.sampleVersion)), .create .initial,
        .handshake (.incoming (.retry HandshakeAgent.sampleRetry))] = some s ∧
      (initialNumbers s.conn).map NumberUsed.number = [0, 1, 0] ∧ s.conn.numbersUsed.length < 2 ^ 64 := by
    decide +kernel
  rcases hrun with ⟨s, hrun, hnumbers, hcount⟩
  refine ⟨s, hrun, hnumbers, ?_⟩
  exact initialNumbers_nodup sampleLibraries {} sampleClient false sampleClient_fresh _ s
    (by decide +kernel) (by decide +kernel) hrun hcount

/-- The packets before and after the negotiation have the number 0 and the same keys. -/
theorem not_initialNumbers_nodup
    : ∃ s, Run.run (Session.step sampleLibraries) (Session.start {} sampleClient false)
        [.handshake .sendInitial,
          .handshake (.incoming (.versionNegotiation HandshakeAgent.sampleVersion))] = some s ∧
      initialNumbers s.conn = [⟨.initial, 0, sampleClient.destinationCID⟩,
        ⟨.initial, 0, sampleClient.destinationCID⟩] := by
  decide +kernel

end Keys

end Session

end QuicTracker
