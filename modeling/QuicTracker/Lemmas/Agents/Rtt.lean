import QuicTracker.Impl.Agents.Rtt
import QuicTracker.Lemmas.Common
import QuicTracker.Lib.Run

/-!
This module contains what the estimates of the round-trip time are worth: over a whole run they stay between the
smallest and the largest round-trip time that was measured.
-/

namespace QuicTracker

namespace RTTAgent

def Input.now (i : Input) : Nat :=
  match i with
  | .outgoing now _ => now
  | .incoming now _ _ => now

/-- The round-trip times that are measured while the acknowledgements of a packet are processed. -/
def measured (a : RTTAgent) (i : Input) : List Nat :=
  match i with
  | .outgoing _ _ => []
  | .incoming now _ (.frames p) =>
    (ackFrames p).filterMap fun ack =>
      (a.sentPackets p.pnSpace ack.largestAcknowledged).map (fun sp => microseconds now sp.sent)
  | .incoming _ _ _ => []

section

variable (round : ℚ → ℚ)

def samples (a : RTTAgent) (inputs : List Input) : List Nat :=
  match inputs with
  | [] => []
  | i :: inputs =>
    measured a i ++
      match step round a i with
      | some a => samples a inputs
      | none => []

/-- The packets that have been sent are not newer than the acknowledgement. -/
def Timely (a : RTTAgent) (i : Input) : Prop :=
  match i with
  | .outgoing _ _ => True
  | .incoming now _ _ => ∀ space n sp, a.sentPackets space n = some sp →
      sp.sent ≤ now ∧ (now - sp.sent) / 1000 < 2 ^ 50

end

structure Within (samples : List Nat) (a : RTTAgent) : Prop where
  small : ∀ s ∈ samples, s < 2 ^ 50
  none : samples = [] → a.minRTT = 2 ^ 64 - 1 ∧ a.smoothedRTT = 0
  low : ∀ s ∈ samples, a.minRTT ≤ s
  minRTT : samples ≠ [] → a.minRTT ∈ samples
  latestRTT : samples ≠ [] → a.minRTT ≤ a.latestRTT ∧ ∃ s ∈ samples, a.latestRTT ≤ s
  smoothedRTT : samples ≠ [] → a.minRTT ≤ a.smoothedRTT ∧ ∃ s ∈ samples, a.smoothedRTT ≤ s
  rttVar : samples ≠ [] → ∃ s ∈ samples, a.rttVar ≤ s

theorem within_initial : Within [] initial where
  small := by simp
  none := by simp [initial]
  low := by simp
  minRTT := by simp
  latestRTT := by simp
  smoothedRTT := by simp
  rttVar := by simp

theorem exists_le_of_two {samples : List Nat} {x y : Nat} (hx : ∃ s ∈ samples, x ≤ s)
    (hy : ∃ s ∈ samples, y ≤ s)
    : ∃ s ∈ samples, x ≤ s ∧ y ≤ s := by
  rcases hx with ⟨s, hs, hxs⟩
  rcases hy with ⟨t, ht, hyt⟩
  by_cases hst : s ≤ t
  . exact ⟨t, ht, by omega, hyt⟩
  . exact ⟨s, hs, hxs, by omega⟩

section

variable {round : ℚ → ℚ}

theorem mean_three_quarters (h : Rounding.Exact round 53 1074) {a b high : Nat} (hhigh : high < 2 ^ 50)
    (ha : a ≤ high) (hb : b ≤ high)
    : Rounding.mean round 0.75 0.25 a b = (3 * a + 1 * b) / 2 ^ 2 := by
  have hsum := Rounding.sum_le (v := 3) (w := 1) (k := 2) rfl ha hb
  have heq := Rounding.mean_eq h (v := 3) (w := 1) (k := 2) (a := a) (b := b) (by omega) (by omega)
    (by omega) (by decide)
  rw [← heq]
  norm_num

theorem mean_seven_eighths (h : Rounding.Exact round 53 1074) {a b high : Nat} (hhigh : high < 2 ^ 50)
    (ha : a ≤ high) (hb : b ≤ high)
    : Rounding.mean round 0.875 0.125 a b = (7 * a + 1 * b) / 2 ^ 3 := by
  have hsum := Rounding.sum_le (v := 7) (w := 1) (k := 3) rfl ha hb
  have heq := Rounding.mean_eq h (v := 7) (w := 1) (k := 3) (a := a) (b := b) (by omega) (by omega)
    (by omega) (by decide)
  rw [← heq]
  norm_num

theorem u64Sub_zero_u64Sub {a b : Nat} (h : a < b) (hb : b < 2 ^ 64)
    : u64Sub 0 (u64Sub a b) = b - a := by
  unfold u64Sub u64
  omega

theorem latest_between {x low : Nat} (hlow : low ≤ x) (hx : x < 2 ^ 50) (ackDelay : Nat)
    : low ≤ (if u64Sub x low > ackDelay then u64Sub x ackDelay else x) ∧
      (if u64Sub x low > ackDelay then u64Sub x ackDelay else x) ≤ x := by
  have hsub : u64Sub x low = x - low := u64Sub_of_le hlow (by omega)
  rw [hsub]
  split
  . next hgt =>
    rw [u64Sub_of_le (by omega) (by omega)]
    omega
  . exact ⟨hlow, Nat.le_refl x⟩

theorem distance_le {a b high : Nat} (ha : a ≤ high) (hb : b ≤ high) (hhigh : high < 2 ^ 50)
    : (if a < b then u64Sub 0 (u64Sub a b) else u64Sub a b) ≤ high := by
  split
  . next hlt =>
    rw [u64Sub_zero_u64Sub hlt (by omega)]
    omega
  . rw [u64Sub_of_le (by omega) (by omega)]
    omega

theorem Within.minimum {samples : List Nat} {a : RTTAgent} (ha : Within samples a) {x : Nat}
    (hx : x < 2 ^ 50)
    : (∀ s ∈ samples ++ [x], (if x < a.minRTT then x else a.minRTT) ≤ s) ∧
      (if x < a.minRTT then x else a.minRTT) ∈ samples ++ [x] := by
  constructor
  . intro s hs
    cases List.mem_append.mp hs with
    | inl hs =>
      have hold := ha.low s hs
      split <;> omega
    | inr hs =>
      rw [List.mem_singleton.mp hs]
      split <;> omega
  . split
    . simp
    . next hge =>
      apply List.mem_append_left
      apply ha.minRTT
      intro hnil
      have hmax := (ha.none hnil).1
      omega

theorem Within.updateRTT (hround : Rounding.Exact round 53 1074) {samples : List Nat} {a : RTTAgent}
    (ha : Within samples a) {x : Nat} (hx : x < 2 ^ 50) (ackDelay : Nat) (ackOnly : Bool)
    : Within (samples ++ [x]) (updateRTT round { a with latestRTT := x } ackDelay ackOnly) := by
  have hgrow : ∀ y, (∃ s ∈ samples, y ≤ s) → ∃ s ∈ samples ++ [x], y ≤ s := by
    rintro y ⟨s, hs, hys⟩
    exact ⟨s, List.mem_append_left _ hs, hys⟩
  have hsmall : ∀ s ∈ samples ++ [x], s < 2 ^ 50 := by
    intro s hs
    cases List.mem_append.mp hs with
    | inl hs => exact ha.small s hs
    | inr hs =>
      rw [List.mem_singleton.mp hs]
      exact hx
  rcases ha.minimum hx with ⟨hlows, hlowmem⟩
  have hlowmin : (if x < a.minRTT then x else a.minRTT) ≤ a.minRTT := by
    split <;> omega
  have hlow := hlows x (by simp)
  generalize hmin : (if x < a.minRTT then x else a.minRTT) = low at hlows hlowmem hlowmin hlow
  have hlatest := latest_between hlow hx ackDelay
  generalize hlat : (if u64Sub x low > ackDelay then u64Sub x ackDelay else x) = latest at hlatest
  have hlatestmem : ∃ s ∈ samples ++ [x], latest ≤ s := ⟨x, by simp, hlatest.2⟩
  unfold RTTAgent.updateRTT
  dsimp only
  rw [hmin, hlat]
  by_cases hzero : a.smoothedRTT = 0
  . rw [if_pos hzero]
    refine ⟨hsmall, by simp, hlows, fun _ => hlowmem, fun _ => ⟨hlatest.1, hlatestmem⟩,
      fun _ => ⟨hlatest.1, hlatestmem⟩, fun _ => ⟨x, by simp, ?_⟩⟩
    dsimp only
    omega
  . rw [if_neg hzero]
    have hne : samples ≠ [] := by
      intro hnil
      exact hzero (ha.none hnil).2
    rcases ha.smoothedRTT hne with ⟨hsmoothlow, hsmooth⟩
    rcases exists_le_of_two (hgrow _ hsmooth) hlatestmem with ⟨high, hhigh, hsmoothhigh, hlatesthigh⟩
    have hhighlt := hsmall high hhigh
    have hmean := mean_seven_eighths hround hhighlt hsmoothhigh hlatesthigh
    have hdistance := distance_le hsmoothhigh hlatesthigh hhighlt
    rcases exists_le_of_two (hgrow _ (ha.rttVar hne)) ⟨high, hhigh, hdistance⟩ with
      ⟨top, htop, hvartop, hdisttop⟩
    have hvar := mean_three_quarters hround (hsmall top htop) hvartop hdisttop
    refine ⟨hsmall, by simp, hlows, fun _ => hlowmem, fun _ => ⟨hlatest.1, hlatestmem⟩,
      fun _ => ⟨?_, high, hhigh, ?_⟩, fun _ => ⟨top, htop, ?_⟩⟩
    . rw [hmean]
      exact Rounding.le_mean rfl (Nat.le_trans hlowmin hsmoothlow) hlatest.1
    . rw [hmean]
      exact Rounding.mean_le rfl hsmoothhigh hlatesthigh
    . rw [hvar]
      exact Rounding.mean_le rfl hvartop hdisttop

theorem microseconds_of_le {now sent : Nat} (h : sent ≤ now) (hlt : (now - sent) / 1000 < 2 ^ 50)
    : microseconds now sent = (now - sent) / 1000 := by
  unfold microseconds
  have hsub : ((now : Int) - sent) = ((now - sent : Nat) : Int) := by omega
  rw [hsub]
  generalize now - sent = d at hlt ⊢
  have hdiv : Int.tdiv (d : Int) 1000 = ((d / 1000 : Nat) : Int) := rfl
  rw [hdiv]
  omega

theorem sentPackets_updateRTT (a : RTTAgent) (ackDelay : Nat) (ackOnly : Bool)
    : (updateRTT round a ackDelay ackOnly).sentPackets = a.sentPackets := by
  unfold updateRTT
  dsimp only
  split <;> rfl

theorem sentPackets_handleAck (now : Nat) (received : Option QuicTransportParameters) (space : PNSpace)
    (a : RTTAgent) (ack : AckFrame)
    : (handleAck round now received space a ack).sentPackets = a.sentPackets := by
  unfold handleAck
  split
  . rw [sentPackets_updateRTT]
  . rfl

theorem Within.handleAcks (hround : Rounding.Exact round 53 1074) {samples : List Nat} {a : RTTAgent}
    (ha : Within samples a) {now : Nat} (received : Option QuicTransportParameters) (space : PNSpace)
    (htimely : ∀ space n sp, a.sentPackets space n = some sp →
      sp.sent ≤ now ∧ (now - sp.sent) / 1000 < 2 ^ 50)
    (acks : List AckFrame)
    : Within (samples ++ acks.filterMap fun ack =>
          (a.sentPackets space ack.largestAcknowledged).map (fun sp => microseconds now sp.sent))
        (acks.foldl (handleAck round now received space) a) := by
  induction acks generalizing samples a with
  | nil => simpa using ha
  | cons ack acks ih =>
    have hsame := @sentPackets_handleAck round now received space a ack
    rw [List.foldl_cons]
    cases hsent : a.sentPackets space ack.largestAcknowledged with
    | none =>
      have hstay : handleAck round now received space a ack = a := by
        unfold handleAck
        rw [hsent]
      rw [hstay, List.filterMap_cons_none (by simp [hsent])]
      exact ih ha htimely
    | some sp =>
      have htime := htimely space _ sp hsent
      have hmicro := microseconds_of_le htime.1 htime.2
      have hupdate : Within (samples ++ [microseconds now sp.sent])
          (handleAck round now received space a ack) := by
        unfold handleAck
        rw [hsent]
        apply ha.updateRTT hround
        rw [hmicro]
        exact htime.2
      have hnext := ih hupdate (by rw [hsame]; exact htimely)
      rw [hsame, List.append_assoc] at hnext
      rw [List.filterMap_cons_some (by rw [hsent]; rfl)]
      exact hnext

theorem Within.step (hround : Rounding.Exact round 53 1074) {samples : List Nat} {a a' : RTTAgent} {i : Input}
    (ha : Within samples a) (htimely : Timely a i) (h : step round a i = some a')
    : Within (samples ++ measured a i) a' := by
  cases i with
  | outgoing now p =>
    rcases Option.bind_eq_some_iff.mp h with ⟨size, _, h⟩
    split at h
    . contradiction
    . injection h with h
      rw [← h, measured, List.append_nil]
      exact ⟨ha.small, ha.none, ha.low, ha.minRTT, ha.latestRTT, ha.smoothedRTT, ha.rttVar⟩
  | incoming now received p =>
    injection h with h
    rw [← h]
    cases p with
    | frames p => exact ha.handleAcks hround received p.pnSpace htimely (ackFrames p)
    | retry p => simpa [measured, handleIncoming] using ha
    | versionNegotiation p => simpa [measured, handleIncoming] using ha

theorem Within.run (hround : Rounding.Exact round 53 1074) {inputs : List Input} {samples : List Nat}
    {a a' : RTTAgent} (ha : Within samples a) (htimely : Run.Guarded (RTTAgent.step round) Timely a inputs)
    (h : Run.run (RTTAgent.step round) a inputs = some a')
    : Within (samples ++ RTTAgent.samples round a inputs) a' := by
  induction inputs generalizing samples a with
  | nil =>
    injection h with h
    rw [← h, RTTAgent.samples, List.append_nil]
    exact ha
  | cons i inputs ih =>
    rw [Run.run_cons] at h
    rcases Option.bind_eq_some_iff.mp h with ⟨a₁, ha₁, h⟩
    have hnext := ih (ha.step hround htimely.1 ha₁) (htimely.2 a₁ ha₁) h
    rw [List.append_assoc] at hnext
    rw [RTTAgent.samples, ha₁]
    exact hnext

theorem sentPackets_step {a a' : RTTAgent} {i : Input} (h : step round a i = some a') {space : PNSpace}
    {n : Nat} {sp : SentPacket} (hsp : a'.sentPackets space n = some sp)
    : a.sentPackets space n = some sp ∨ sp.sent = i.now := by
  cases i with
  | outgoing now p =>
    rcases Option.bind_eq_some_iff.mp h with ⟨size, _, h⟩
    split at h
    . contradiction
    . injection h with h
      rw [← h] at hsp
      dsimp only at hsp
      by_cases hspace : space = p.pnSpace
      . subst hspace
        rw [Function.update_self, Function.update_apply] at hsp
        split at hsp
        . injection hsp with hsp
          rw [← hsp]
          exact Or.inr rfl
        . exact Or.inl hsp
      . rw [Function.update_of_ne hspace] at hsp
        exact Or.inl hsp
  | incoming now received p =>
    injection h with h
    rw [← h] at hsp
    cases p with
    | frames p =>
      have hsame : ((ackFrames p).foldl (handleAck round now received p.pnSpace) a).sentPackets =
          a.sentPackets := by
        apply List.foldlRecOn (motive := fun a₁ : RTTAgent => a₁.sentPackets = a.sentPackets)
          (ackFrames p) _ rfl
        intro a₁ ha₁ ack _
        rw [sentPackets_handleAck, ha₁]
      rw [← hsame]
      exact Or.inl hsp
    | retry p => exact Or.inl hsp
    | versionNegotiation p => exact Or.inl hsp

theorem timely_of_clock {inputs : List Input} (hclock : (inputs.map Input.now).Pairwise (· ≤ ·))
    (hlimit : ∀ i ∈ inputs, i.now < 1000 * 2 ^ 50) {a : RTTAgent}
    (ha : ∀ space n sp, a.sentPackets space n = some sp → ∀ i ∈ inputs, sp.sent ≤ i.now)
    : Run.Guarded (step round) Timely a inputs := by
  induction inputs generalizing a with
  | nil => trivial
  | cons i inputs ih =>
    rw [List.map_cons, List.pairwise_cons] at hclock
    rw [List.forall_mem_cons] at hlimit
    refine ⟨?_, ?_⟩
    . cases i with
      | outgoing now p => trivial
      | incoming now received p =>
        intro space n sp hsp
        have hle : sp.sent ≤ now := ha space n sp hsp _ List.mem_cons_self
        have hlt : now < 1000 * 2 ^ 50 := hlimit.1
        exact ⟨hle, by omega⟩
    . intro a' ha'
      apply ih hclock.2 hlimit.2
      intro space n sp hsp j hj
      cases sentPackets_step ha' hsp with
      | inl hold => exact ha space n sp hold j (List.mem_cons_of_mem i hj)
      | inr hnew =>
        rw [hnew]
        exact hclock.1 _ (List.mem_map_of_mem hj)

theorem estimates_within_samples (round : ℚ → ℚ) (hround : Rounding.Exact round 53 1074) (inputs : List Input)
    (hclock : (inputs.map Input.now).Pairwise (· ≤ ·)) (hlimit : ∀ i ∈ inputs, i.now < 1000 * 2 ^ 50)
    {a : RTTAgent} (hrun : Run.run (step round) initial inputs = some a) (hne : samples round initial inputs ≠ [])
    : (a.minRTT ∈ samples round initial inputs ∧ ∀ s ∈ samples round initial inputs, a.minRTT ≤ s) ∧
      (a.minRTT ≤ a.latestRTT ∧ ∃ s ∈ samples round initial inputs, a.latestRTT ≤ s) ∧
      (a.minRTT ≤ a.smoothedRTT ∧ ∃ s ∈ samples round initial inputs, a.smoothedRTT ≤ s) ∧
      ∃ s ∈ samples round initial inputs, a.rttVar ≤ s := by
  have htimely : Run.Guarded (step round) Timely initial inputs := by
    apply timely_of_clock hclock hlimit
    intro space n sp hsp
    contradiction
  have hwithin := within_initial.run hround htimely hrun
  rw [List.nil_append] at hwithin
  exact ⟨⟨hwithin.minRTT hne, hwithin.low⟩, hwithin.latestRTT hne, hwithin.smoothedRTT hne,
    hwithin.rttVar hne⟩

end

def samplePacket (n : Nat) (frames : List Frame) : FramePacket :=
  ⟨.short ⟨false, [], ⟨n, 1⟩, n⟩, .appData, .oneRTT, frames⟩

def sampleInputs : List Input :=
  [.outgoing 0 (samplePacket 0 [.ping]), .outgoing 1000000 (samplePacket 1 [.ping]),
    .incoming 31000000 none (.frames (samplePacket 0 [.ack ⟨0, 0, 0, [⟨0, 0⟩]⟩])),
    .incoming 41000000 none (.frames (samplePacket 1 [.ack ⟨1, 1250, 0, [⟨0, 1⟩]⟩]))]

/-- Round-trip times of 31 and 40 milliseconds are measured, and the peer has waited for 10 of the latter. -/
theorem estimates_within_samples_two
    : samples id initial sampleInputs = [31000, 40000] ∧
      ∃ a, Run.run (step id) initial sampleInputs = some a ∧ a.minRTT = 31000 ∧
        a.minRTT ≤ a.smoothedRTT ∧ ∃ s ∈ samples id initial sampleInputs, a.smoothedRTT ≤ s := by
  have hsamples : samples id initial sampleInputs = [31000, 40000] := by decide +kernel
  refine ⟨hsamples, _, rfl, by decide +kernel, ?_⟩
  exact (estimates_within_samples id (Rounding.exact_id 53 1074) sampleInputs (by decide) (by decide) rfl
    (by rw [hsamples]; simp)).2.2.1

end RTTAgent

end QuicTracker
