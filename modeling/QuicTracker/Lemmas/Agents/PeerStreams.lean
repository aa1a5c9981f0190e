import QuicTracker.Impl.Agents.PeerStreams
import QuicTracker.Lemmas.Frames.Payload
import QuicTracker.Lemmas.Reassembly

/-!
This module says what the agents take from the unidirectional streams of the peer.
-/

namespace QuicTracker

open HalfOpen

namespace PeerStreams

def Kind.first (kind : Kind) : UInt8 :=
  match kind with
  | .control => 'C'.toUInt8
  | .encoder => 'H'.toUInt8
  | .decoder => 'h'.toUInt8

theorem opens_eq_some (agent : Agent) (first : UInt8) (kind : Kind)
    : agent.opens first = some kind ↔ agent = kind.agent ∧ first = kind.first := by
  have hne : 'H'.toUInt8 ≠ 'h'.toUInt8 := by decide
  cases agent with
  | http => cases kind <;> simp [Agent.opens, Kind.agent, Kind.first]
  | qpack =>
    cases kind with
    | control =>
      simp only [Agent.opens, Kind.agent]
      split <;> simp
    | encoder =>
      simp only [Agent.opens, Kind.agent, Kind.first]
      split <;> simp [*]
    | decoder =>
      simp only [Agent.opens, Kind.agent, Kind.first]
      split
      . next h =>
        simp only [h, reduceCtorEq, Option.some.injEq, true_and, false_iff]
        exact hne
      . simp

def Opens (kind : Kind) (f : StreamFrame) : Prop :=
  f.offset = 0 ∧ f.streamId &&& 0x2 = 2 ∧ f.streamData.head? = some kind.first

instance (kind : Kind) (f : StreamFrame) : Decidable (Opens kind f) :=
  inferInstanceAs (Decidable (_ ∧ _))

/-- The agents look at the first byte of every such frame. -/
def HasFirst (f : StreamFrame) : Prop :=
  f.offset = 0 → f.streamId &&& 0x2 = 2 → f.streamData ≠ []

instance (f : StreamFrame) : Decidable (HasFirst f) :=
  inferInstanceAs (Decidable (_ → _))

theorem Loop.atSelect_iff (loop : Loop) : loop.atSelect ↔ loop = ⟨[], none⟩ := by
  cases loop
  simp [Loop.atSelect]

def Next.kind (next : Next) : Kind :=
  match next with
  | .register kind _ => kind
  | .push kind _ => kind

theorem Opens.kind_eq {kind kind' : Kind} {f : StreamFrame} (h : Opens kind f) (h' : Opens kind' f)
    : kind = kind' := by
  have hfirst := h.2.2.symm.trans h'.2.2
  injection hfirst with hfirst
  cases kind <;> cases kind' <;> first | rfl | exact absurd hfirst (by decide)

/-- What one statement of its agent is for the stream of one kind. -/
inductive Advance (kind : Kind) : Loop → Subscription → Loop → Subscription → Prop where
  | other (loop loop' : Loop) (sub : Subscription) (skipped : List StreamFrame)
    (hframes : loop.frames = skipped ++ loop'.frames)
    (hskipped : ∀ f ∈ skipped, Opens kind f → sub.streamID ≠ none)
    (hnext : ∀ next ∈ loop.next, next.kind ≠ kind) (hnext' : ∀ next ∈ loop'.next, next.kind ≠ kind)
    : Advance kind loop sub loop' sub
  | openStream (f : StreamFrame) (frames : List StreamFrame) (sub : Subscription)
    (hopen : Opens kind f) (hnone : sub.streamID = none)
    : Advance kind ⟨f :: frames, none⟩ sub ⟨frames, some (.register kind f)⟩
        { sub with streamID := some f.streamId }
  | register (f : StreamFrame) (frames : List StreamFrame) (sub : Subscription)
    : Advance kind ⟨frames, some (.register kind f)⟩ sub
        ⟨frames, if f.length > 1 then some (.push kind f) else none⟩
        { sub with registeredOn := some f.streamId }
  | push (f : StreamFrame) (frames : List StreamFrame) (sub : Subscription)
    : Advance kind ⟨frames, some (.push kind f)⟩ sub ⟨frames, none⟩
        { sub with chan := sub.chan ++ [f.streamData.drop 1] }

theorem Advance.suffix {kind : Kind} {loop loop' : Loop} {sub sub' : Subscription}
    (h : Advance kind loop sub loop' sub')
    : loop'.frames <:+ loop.frames := by
  cases h with
  | other loop loop' sub skipped hframes => exact ⟨skipped, hframes.symm⟩
  | openStream f frames sub => exact List.suffix_cons f frames
  | register => exact List.suffix_rfl
  | push => exact List.suffix_rfl

structure Advanced (agent : Agent) (s s' : State) : Prop where
  streams : s'.streams = s.streams
  parsed : s'.parsed = s.parsed
  incomingPackets : s'.incomingPackets = s.incomingPackets
  loops : ∀ agent', agent' ≠ agent → s'.loops agent' = s.loops agent'
  own : ∀ next ∈ (s'.loops agent).next, next.kind.agent = agent
  subscriptions : ∀ kind, kind.agent ≠ agent → s'.subscriptions kind = s.subscriptions kind
  advance : ∀ kind, kind.agent = agent →
    Advance kind (s.loops agent) (s.subscriptions kind) (s'.loops agent) (s'.subscriptions kind)

section Advanced

variable {agent : Agent} {s : State}

theorem advanced_setLoop {loop : Loop}
    (hown : ∀ next ∈ loop.next, next.kind.agent = agent)
    (hadvance : ∀ kind, kind.agent = agent →
      Advance kind (s.loops agent) (s.subscriptions kind) loop (s.subscriptions kind))
    : Advanced agent s (setLoop s agent loop) := by
  have hloop : (setLoop s agent loop).loops agent = loop := Function.update_self ..
  refine ⟨rfl, rfl, rfl, ?_, ?_, fun _ _ => rfl, ?_⟩
  . intro agent' hne
    exact Function.update_of_ne hne ..
  . rw [hloop]
    exact hown
  . rw [hloop]
    exact hadvance

theorem advanced_setSubscription {opened : Kind} {sub : Subscription} {loop : Loop}
    (hopened : opened.agent = agent) (hown : ∀ next ∈ loop.next, next.kind = opened)
    (hadvance : Advance opened (s.loops agent) (s.subscriptions opened) loop sub)
    (hother : ∀ kind, kind ≠ opened →
      Advance kind (s.loops agent) (s.subscriptions kind) loop (s.subscriptions kind))
    : Advanced agent s (setLoop (setSubscription s opened sub) agent loop) := by
  have hloop : (setLoop (setSubscription s opened sub) agent loop).loops agent = loop :=
    Function.update_self ..
  refine ⟨rfl, rfl, rfl, ?_, ?_, ?_, ?_⟩
  . intro agent' hne
    exact Function.update_of_ne hne ..
  . rw [hloop]
    intro next hnext
    rw [hown next hnext]
    exact hopened
  . intro kind hne
    apply Function.update_of_ne
    rintro rfl
    exact hne hopened
  . intro kind _
    rw [hloop]
    change Advance kind _ _ loop (Function.update s.subscriptions opened sub kind)
    by_cases heq : kind = opened
    . rw [heq, Function.update_self]
      exact hadvance
    . rw [Function.update_of_ne heq]
      exact hother kind heq

theorem advanced_skip {f : StreamFrame} {frames : List StreamFrame}
    (hloop : s.loops agent = ⟨f :: frames, none⟩)
    (hopens : ∀ kind, kind.agent = agent → Opens kind f → (s.subscriptions kind).streamID ≠ none)
    : Advanced agent s (setLoop s agent ⟨frames, none⟩) := by
  apply advanced_setLoop
  . simp
  . intro kind hkind
    apply Advance.other _ _ _ [f]
    . rw [hloop]
      rfl
    . simpa using hopens kind hkind
    . simp [hloop]
    . simp

theorem advanced_open {f : StreamFrame} {frames : List StreamFrame} {opened : Kind}
    (hloop : s.loops agent = ⟨f :: frames, none⟩) (hagent : opened.agent = agent)
    (hopen : Opens opened f) (hnone : (s.subscriptions opened).streamID = none)
    : Advanced agent s
        (setLoop (setSubscription s opened { s.subscriptions opened with streamID := some f.streamId })
          agent ⟨frames, some (.register opened f)⟩) := by
  apply advanced_setSubscription hagent
  . simp [Next.kind]
  . rw [hloop]
    exact Advance.openStream f frames _ hopen hnone
  . intro kind hne
    apply Advance.other _ _ _ [f]
    . rw [hloop]
      rfl
    . intro g hg hopen'
      rw [List.mem_singleton.mp hg] at hopen'
      exact absurd (hopen'.kind_eq hopen) hne
    . simp [hloop]
    . simpa [Next.kind] using hne.symm

theorem handleStreamFrame_advanced {f : StreamFrame} {frames : List StreamFrame}
    (hloop : s.loops agent = ⟨f :: frames, none⟩) (hf : HasFirst f)
    : ∃ s', handleStreamFrame s agent f frames = some s' ∧ Advanced agent s s' := by
  unfold handleStreamFrame
  dsimp only
  split
  . next hstart =>
    cases hdata : f.streamData with
    | nil => exact absurd hdata (hf hstart.1 hstart.2)
    | cons first rest =>
      have hiff : ∀ kind, agent = kind.agent ∧ Opens kind f ↔ agent.opens first = some kind := by
        intro kind
        rw [opens_eq_some]
        simp [Opens, hstart, hdata]
      dsimp only
      cases hkind : agent.opens first with
      | none =>
        refine ⟨_, rfl, advanced_skip hloop ?_⟩
        intro kind hagent hopen
        have := (hiff kind).mp ⟨hagent.symm, hopen⟩
        rw [hkind] at this
        contradiction
      | some opened =>
        have hopened := (hiff opened).mpr hkind
        dsimp only
        split
        . next hsome =>
          refine ⟨_, rfl, advanced_skip hloop ?_⟩
          intro kind _ hopen
          rw [hopen.kind_eq hopened.2]
          exact hsome
        . next hnone =>
          rw [not_not] at hnone
          exact ⟨_, rfl, advanced_open hloop hopened.1.symm hopened.2 hnone⟩
  . next hstart =>
    refine ⟨_, rfl, advanced_skip hloop ?_⟩
    intro kind _ hopen
    exact absurd ⟨hopen.1, hopen.2.1⟩ hstart

theorem advanced_idle (hloop : s.loops agent = ⟨[], none⟩) : Advanced agent s s := by
  have hsame : setLoop s agent ⟨[], none⟩ = s := by
    unfold setLoop
    rw [← hloop, Function.update_eq_self]
  rw [← hsame]
  nth_rewrite 1 [hsame]
  apply advanced_setLoop
  . simp
  . intro kind _
    rw [hloop]
    exact Advance.other _ _ _ [] rfl (by simp) (by simp) (by simp)

/-- The statements that open a stream of one kind do nothing to the streams of the others. -/
theorem Advance.of_kind_ne {opened kind : Kind} (hne : kind ≠ opened) {next next' : Option Next}
    (hold : ∀ n ∈ next, n.kind = opened) (hnew : ∀ n ∈ next', n.kind = opened)
    (frames : List StreamFrame) (sub : Subscription)
    : Advance kind ⟨frames, next⟩ sub ⟨frames, next'⟩ sub := by
  apply Advance.other _ _ _ []
  . rfl
  . simp
  . intro n hn
    rw [hold n hn]
    exact hne.symm
  . intro n hn
    rw [hnew n hn]
    exact hne.symm

theorem resume_advanced (hfirst : ∀ f ∈ (s.loops agent).frames, HasFirst f)
    (hown : ∀ next ∈ (s.loops agent).next, next.kind.agent = agent)
    : ∃ s', resume s agent = some s' ∧ Advanced agent s s' := by
  cases hloop : s.loops agent with
  | mk frames next =>
    simp only [hloop] at hfirst hown
    cases next with
    | none =>
      cases frames with
      | nil => exact ⟨s, by simp [resume, hloop], advanced_idle hloop⟩
      | cons f frames =>
        rcases handleStreamFrame_advanced hloop (hfirst f (by simp)) with ⟨s', heq, hadvanced⟩
        refine ⟨s', ?_, hadvanced⟩
        simp only [resume, hloop]
        exact heq
    | some next =>
      have hagent := hown next rfl
      cases next with
      | register opened f =>
        have hnext : ∀ next ∈ (if f.length > 1 then some (Next.push opened f) else none),
            next.kind = opened := by
          split <;> simp [Next.kind]
        refine ⟨_, by simp only [resume, hloop]; rfl, advanced_setSubscription hagent hnext ?_ ?_⟩
        . rw [hloop]
          exact Advance.register f frames _
        . intro kind hne
          rw [hloop]
          apply Advance.of_kind_ne hne
          . simp [Next.kind]
          . exact hnext
      | push opened f =>
        refine ⟨_, by simp only [resume, hloop]; rfl, advanced_setSubscription hagent (by simp) ?_ ?_⟩
        . rw [hloop]
          exact Advance.push f frames _
        . intro kind hne
          rw [hloop]
          apply Advance.of_kind_ne hne
          . simp [Next.kind]
          . simp

end Advanced

def framesOf (events : List Event) : List StreamFrame :=
  events.filterMap fun event =>
    match event with
    | .readStreamFrame f => some f
    | _ => none

def framesOn (streamId : Nat) (events : List Event) : List StreamFrame :=
  (framesOf events).filter (·.streamId = streamId)

/-- A frame of the peer, when `d` is the content of its only stream of this kind. -/
structure Sent (d : List UInt8) (kind : Kind) (streamId : Nat) (f : StreamFrame) : Prop where
  fits : f.Fits
  slice : f.streamId = streamId → f.SliceOf d
  only : Opens kind f → f.streamId = streamId

/-- The agent has executed all the statements that open the stream. -/
def Opened (kind : Kind) (s : State) : Prop :=
  (s.subscriptions kind).streamID ≠ none ∧ ∀ next ∈ (s.loops kind.agent).next, next.kind ≠ kind

instance (kind : Kind) (s : State) : Decidable (Opened kind s) :=
  inferInstanceAs (Decidable (_ ∧ _))

/--
No frame at the start of a unidirectional stream is empty, the stream delivers what it received, and it
delivers only the first frame before the agent has opened it.
-/
def Registers (kind : Kind) (streamId : Nat) (s : State) (event : Event) : Prop :=
  match event with
  | .readStreamFrame f =>
    HasFirst f ∧
      (f.streamId = streamId →
        (s.streams.get streamId).FillsFromStart f ∧ (s.streams.get streamId).KeepsUp f ∧
          (¬ Opened kind s →
            f.range.Mem (s.streams.get streamId).readOffset →
            f.offset = 0 ∧ (s.streams.get streamId).readOffset = 0 ∧
              ((s.streams.get streamId).maxReadReceived ≤ f.length ∨
                Covers (s.streams.get streamId).gaps f.length)))
  | _ => True

instance (kind : Kind) (streamId : Nat) (s : State) (event : Event) :
    Decidable (Registers kind streamId s event) :=
  match event with
  | .readStreamFrame f =>
    have : Decidable (Covers (s.streams.get streamId).gaps f.length) :=
      inferInstanceAs (Decidable (∃ i ∈ _, _))
    inferInstanceAs (Decidable (_ ∧ _))
  | .submitPacket _ | .handlePacket _ | .resume _ | .takeChunk _ => isTrue trivial

/-- Everything was received, and nothing is on its way to the agent. -/
def Quiescent (d : List UInt8) (kind : Kind) (streamId : Nat) (events : List Event) (s : State) : Prop :=
  (∀ x < d.length, Received (framesOn streamId events) x) ∧ s.parsed = [] ∧
    s.incomingPackets kind.agent = [] ∧ (s.loops kind.agent).atSelect ∧ (s.subscriptions kind).chan = []

instance (d : List UInt8) (kind : Kind) (streamId : Nat) (events : List Event) (s : State) :
    Decidable (Quiescent d kind streamId events s) :=
  inferInstanceAs (Decidable (_ ∧ _))

def pending (agent : Agent) (s : State) : List StreamFrame :=
  (s.loops agent).frames ++ ((s.incomingPackets agent).flatMap (·.streamFrames) ++ s.parsed)

/-- The first frame of the stream, which is all that the stream has delivered. -/
structure First (d : List UInt8) (kind : Kind) (streamId : Nat) (stream : Stream) (f : StreamFrame) :
    Prop where
  opens : Opens kind f
  streamId : f.streamId = streamId
  slice : f.SliceOf d
  readOffset : stream.readOffset = f.length

/--
What an agent holds of the stream while `queue` are the frames on their way to it. Before it has opened the
stream, the stream has delivered nothing but the first frame.
-/
inductive Holds (d : List UInt8) (kind : Kind) (streamId : Nat) (stream : Stream)
    (queue : List StreamFrame) : Option Next → Subscription → Prop where
  | waiting (next : Option Next) (hnext : ∀ n ∈ next, n.kind ≠ kind)
    (hempty : queue.find? (Opens kind ·) = none → stream.readOffset = 0)
    (hfirst : ∀ f, queue.find? (Opens kind ·) = some f → First d kind streamId stream f)
    : Holds d kind streamId stream queue next ⟨none, none, [], []⟩
  | registering (f : StreamFrame) (hf : First d kind streamId stream f)
    : Holds d kind streamId stream queue (some (.register kind f)) ⟨some streamId, none, [], []⟩
  | pushing (f : StreamFrame) (sub : Subscription) (hf : First d kind streamId stream f)
    (hid : sub.streamID = some streamId) (hregistered : sub.registeredOn = some streamId)
    (hbytes : sub.taken.flatten ++ sub.chan.flatten = [])
    : Holds d kind streamId stream queue (some (.push kind f)) sub
  | reading (next : Option Next) (hnext : ∀ n ∈ next, n.kind ≠ kind) (sub : Subscription)
    (hid : sub.streamID = some streamId) (hregistered : sub.registeredOn = some streamId)
    (hpos : 0 < stream.readOffset)
    (hbytes : sub.taken.flatten ++ sub.chan.flatten = (d.take stream.readOffset).drop 1)
    : Holds d kind streamId stream queue next sub

section Holds

variable {d : List UInt8} {kind : Kind} {streamId : Nat} {stream stream' : Stream}
  {queue queue' : List StreamFrame} {next next' : Option Next} {sub sub' : Subscription}

theorem flatten_take (sub : Subscription)
    : sub.take.taken.flatten ++ sub.take.chan.flatten = sub.taken.flatten ++ sub.chan.flatten := by
  unfold Subscription.take
  split
  . rfl
  . next data chan hchan => simp [hchan]

theorem Holds.take (h : Holds d kind streamId stream queue next sub)
    : Holds d kind streamId stream queue next sub.take := by
  have hid : sub.take.streamID = sub.streamID := by
    unfold Subscription.take
    split <;> rfl
  have hregistered : sub.take.registeredOn = sub.registeredOn := by
    unfold Subscription.take
    split <;> rfl
  cases h with
  | waiting _ hnext hempty hfirst => exact Holds.waiting _ hnext hempty hfirst
  | registering f hf => exact Holds.registering f hf
  | pushing f sub hf hsub hreg hbytes =>
    exact Holds.pushing f _ hf (hid.trans hsub) (hregistered.trans hreg) ((flatten_take sub).trans hbytes)
  | reading _ hnext sub hsub hreg hpos hbytes =>
    exact Holds.reading _ hnext _ (hid.trans hsub) (hregistered.trans hreg) hpos
      ((flatten_take sub).trans hbytes)

theorem Opens.length_pos {f : StreamFrame} (h : Opens kind f) (hlen : f.length = f.streamData.length)
    : 0 < f.length := by
  rw [hlen]
  apply List.length_pos_of_ne_nil
  intro hnil
  have := h.2.2
  simp [hnil] at this

theorem First.length_pos {f : StreamFrame} (h : First d kind streamId stream f) : 0 < f.length :=
  h.opens.length_pos h.slice.1

theorem First.of_readOffset_eq {f : StreamFrame} (h : First d kind streamId stream f)
    (hsame : stream'.readOffset = stream.readOffset)
    : First d kind streamId stream' f :=
  ⟨h.opens, h.streamId, h.slice, hsame.trans h.readOffset⟩

/-- After the first frame, nothing that would be delivered arrives before the stream is open. -/
theorem First.readOffset_eq {f g : StreamFrame} {fs : List StreamFrame}
    (hg : First d kind streamId stream g) (hs : stream.Delivered d fs) (hl : stream.Live fs)
    (hs' : stream'.Delivered d (fs ++ [f])) (hle : stream.readOffset ≤ stream'.readOffset)
    (hok : f.range.Mem stream.readOffset → stream.readOffset = 0)
    : stream'.readOffset = stream.readOffset := by
  apply hl.readOffset_eq hs hs' hle
  intro hmem
  have := hok hmem
  have := hg.length_pos
  have := hg.readOffset
  omega

theorem First.rest {f : StreamFrame} (h : First d kind streamId stream f)
    : f.streamData.drop 1 = (d.take stream.readOffset).drop 1 := by
  have hdata : f.streamData = d.take f.length := by
    rw [h.slice.2.2, h.opens.1, List.drop_zero]
  rw [h.readOffset, ← hdata]

theorem Holds.first_cons {f : StreamFrame} (hopen : Opens kind f) (hnone : sub.streamID = none)
    (h : Holds d kind streamId stream (f :: queue) next sub)
    : First d kind streamId stream f ∧ sub = ⟨none, none, [], []⟩ := by
  cases h with
  | waiting _ hnext hempty hfirst => exact ⟨hfirst f (by simp [hopen]), rfl⟩
  | registering f hf => contradiction
  | pushing f sub hf hid =>
    rw [hid] at hnone
    contradiction
  | reading _ hnext sub hid =>
    rw [hid] at hnone
    contradiction

theorem Holds.other {skipped : List StreamFrame}
    (h : Holds d kind streamId stream (skipped ++ queue) next sub)
    (hskipped : ∀ f ∈ skipped, Opens kind f → sub.streamID ≠ none)
    (hnext : ∀ n ∈ next, n.kind ≠ kind) (hnext' : ∀ n ∈ next', n.kind ≠ kind)
    : Holds d kind streamId stream queue next' sub := by
  cases h with
  | waiting _ _ hempty hfirst =>
    have hfind : (skipped ++ queue).find? (Opens kind ·) = queue.find? (Opens kind ·) := by
      rw [List.find?_append]
      rw [List.find?_eq_none.mpr]
      . rfl
      . intro f hf
        simpa using mt (hskipped f hf) (by simp)
    rw [hfind] at hempty hfirst
    exact Holds.waiting next' hnext' hempty hfirst
  | registering f hf => exact absurd rfl (hnext _ rfl)
  | pushing f sub hf => exact absurd rfl (hnext _ rfl)
  | reading _ _ sub hid hregistered hpos hbytes =>
    exact Holds.reading next' hnext' sub hid hregistered hpos hbytes

theorem Holds.register {f : StreamFrame}
    (h : Holds d kind streamId stream queue (some (.register kind f)) sub)
    : Holds d kind streamId stream queue (if f.length > 1 then some (.push kind f) else none)
        { sub with registeredOn := some f.streamId } := by
  cases h with
  | waiting _ hnext => exact absurd rfl (hnext _ rfl)
  | registering f hf =>
    rw [hf.streamId]
    split
    . exact Holds.pushing f _ hf rfl rfl rfl
    . -- there is nothing to push
      have hrest : f.streamData.drop 1 = [] := by
        apply List.drop_eq_nil_of_le
        rw [← hf.slice.1]
        omega
      refine Holds.reading _ (by simp) _ rfl rfl ?_ ?_
      . rw [hf.readOffset]
        exact hf.length_pos
      . rw [← hf.rest, hrest]
        rfl
  | reading _ hnext => exact absurd rfl (hnext _ rfl)

theorem Holds.push {f : StreamFrame}
    (h : Holds d kind streamId stream queue (some (.push kind f)) sub)
    : Holds d kind streamId stream queue none { sub with chan := sub.chan ++ [f.streamData.drop 1] } := by
  cases h with
  | waiting _ hnext => exact absurd rfl (hnext _ rfl)
  | pushing f sub hf hid hregistered hbytes =>
    refine Holds.reading _ (by simp) _ hid hregistered ?_ ?_
    . rw [hf.readOffset]
      exact hf.length_pos
    . rw [← hf.rest]
      simp only [List.flatten_append, ← List.append_assoc, hbytes]
      simp
  | reading _ hnext => exact absurd rfl (hnext _ rfl)

theorem Holds.advance {loop loop' : Loop} (hadvance : Advance kind loop sub loop' sub')
    (h : Holds d kind streamId stream (loop.frames ++ queue) loop.next sub)
    : Holds d kind streamId stream (loop'.frames ++ queue) loop'.next sub' := by
  cases hadvance with
  | other _ _ _ skipped hframes hskipped hnext hnext' =>
    rw [hframes, List.append_assoc] at h
    exact h.other hskipped hnext hnext'
  | openStream f frames sub hopen hnone =>
    rcases Holds.first_cons hopen hnone h with ⟨hf, rfl⟩
    dsimp only
    rw [hf.streamId]
    exact Holds.registering f hf
  | register f frames sub => exact h.register
  | push f frames sub => exact h.push

theorem Holds.submit_other (h : Holds d kind streamId stream queue next sub) {f : StreamFrame}
    (hid : f.streamId ≠ streamId) (hopen : ¬ Opens kind f) (chunks : List (List UInt8))
    : Holds d kind streamId stream (queue ++ [f]) next (sub.submit f.streamId chunks) := by
  have hsame : sub.registeredOn = some streamId → sub.submit f.streamId chunks = sub := by
    intro hregistered
    unfold Subscription.submit
    rw [if_neg]
    rw [hregistered]
    intro heq
    injection heq with heq
    exact hid heq.symm
  cases h with
  | waiting _ hnext hempty hfirst =>
    apply Holds.waiting _ hnext
    . simpa [List.find?_append, hopen] using hempty
    . simpa [List.find?_append, hopen] using hfirst
  | registering g hg => exact Holds.registering g hg
  | pushing g sub hg hsub hregistered hbytes =>
    rw [hsame hregistered]
    exact Holds.pushing g sub hg hsub hregistered hbytes
  | reading _ hnext sub hsub hregistered hpos hbytes =>
    rw [hsame hregistered]
    exact Holds.reading _ hnext sub hsub hregistered hpos hbytes

theorem Subscription.submit_self {f : StreamFrame} (hf : f.streamId = streamId)
    (hregistered : sub.registeredOn = some streamId) (chunks : List (List UInt8))
    : sub.submit f.streamId chunks = { sub with chan := sub.chan ++ chunks } := by
  unfold Subscription.submit
  rw [if_pos]
  rw [hregistered, hf]

theorem Holds.submit_reading {f : StreamFrame} (hf : f.streamId = streamId)
    (hnext : ∀ n ∈ next, n.kind ≠ kind) (hid : sub.streamID = some streamId)
    (hregistered : sub.registeredOn = some streamId) (hpos : 0 < stream.readOffset)
    (hbytes : sub.taken.flatten ++ sub.chan.flatten = (d.take stream.readOffset).drop 1)
    (hold : stream.readChan.flatten = d.take stream.readOffset)
    (hnew : stream'.readChan.flatten = d.take stream'.readOffset)
    (hstart : stream.readChan <+: stream'.readChan) (hle : stream.readOffset ≤ stream'.readOffset)
    (hlen : stream.readChan.flatten.length = stream.readOffset)
    : Holds d kind streamId stream' (queue ++ [f]) next
        (sub.submit f.streamId (stream'.readChan.drop stream.readChan.length)) := by
  rcases hstart with ⟨chunks, hchunks⟩
  rw [← hchunks, List.drop_left, Subscription.submit_self hf hregistered]
  have hne : 1 ≤ (d.take stream.readOffset).length := by
    rw [← hold, hlen]
    exact hpos
  apply Holds.reading _ hnext
  . exact hid
  . exact hregistered
  . omega
  . dsimp only
    rw [← hnew, ← hchunks]
    simp only [List.flatten_append]
    rw [hold, List.drop_append_of_le_length hne, ← hbytes, List.append_assoc]

/-- While the agent opens the stream, a chunk that the stream delivers has no bytes. -/
theorem Holds.submit_pushing {f g : StreamFrame} (hf : f.streamId = streamId)
    (hg : First d kind streamId stream g) (hid : sub.streamID = some streamId)
    (hregistered : sub.registeredOn = some streamId)
    (hbytes : sub.taken.flatten ++ sub.chan.flatten = [])
    (hold : stream.readChan.flatten = d.take stream.readOffset)
    (hnew : stream'.readChan.flatten = d.take stream'.readOffset)
    (hstart : stream.readChan <+: stream'.readChan) (hsame : stream'.readOffset = stream.readOffset)
    : Holds d kind streamId stream' (queue ++ [f]) (some (.push kind g))
        (sub.submit f.streamId (stream'.readChan.drop stream.readChan.length)) := by
  rcases hstart with ⟨chunks, hchunks⟩
  rw [← hchunks, List.drop_left, Subscription.submit_self hf hregistered]
  have hempty : chunks.flatten = [] := by
    rw [hsame, ← hold, ← hchunks, List.flatten_append] at hnew
    exact List.append_right_eq_self.mp hnew
  refine Holds.pushing g _ (hg.of_readOffset_eq hsame) hid hregistered ?_
  simp only [List.flatten_append, hempty, List.append_nil]
  exact hbytes

theorem Holds.submit_waiting {fs : List StreamFrame} {f : StreamFrame}
    (hs : stream.Delivered d fs) (hl : stream.Live fs) (hs' : stream'.Delivered d (fs ++ [f]))
    (hl' : stream'.Live (fs ++ [f])) (hle : stream.readOffset ≤ stream'.readOffset)
    (hid : f.streamId = streamId) (hslice : f.SliceOf d) (hopens : Opens kind f ↔ f.offset = 0)
    (hok : f.range.Mem stream.readOffset → f.offset = 0 ∧ stream.readOffset = 0 ∧
      (stream.maxReadReceived ≤ f.length ∨ Covers stream.gaps f.length))
    (hnext : ∀ n ∈ next, n.kind ≠ kind)
    (hempty : queue.find? (Opens kind ·) = none → stream.readOffset = 0)
    (hsome : ∀ g, queue.find? (Opens kind ·) = some g → First d kind streamId stream g)
    : Holds d kind streamId stream' (queue ++ [f]) next ⟨none, none, [], []⟩ := by
  cases hfind : queue.find? (Opens kind ·) with
  | some g =>
    -- The first frame was delivered before, the next byte is still missing.
    have hg := hsome g hfind
    have hsame := hg.readOffset_eq hs hl hs' hle (fun hmem => (hok hmem).2.1)
    apply Holds.waiting _ hnext
    . simp [List.find?_append, hfind]
    . simp only [List.find?_append, hfind, Option.some_or, Option.some.injEq]
      rintro _ rfl
      exact hg.of_readOffset_eq hsame
  | none =>
    have hzero := hempty hfind
    by_cases hopen : Opens kind f
    . have hpos := hopen.length_pos hslice.1
      have hoff := hopens.mp hopen
      have hmem : f.range.Mem stream.readOffset := by
        rw [hzero]
        constructor
        . dsimp [StreamFrame.range]
          omega
        . dsimp [StreamFrame.range]
          omega
      have hlength := hl.readOffset_eq_length hl' hs' hoff (hok hmem).2.2
      apply Holds.waiting _ hnext
      . simp [List.find?_append, hopen]
      . simp only [List.find?_append, hfind, Option.none_or, List.find?_singleton, hopen,
          decide_true, ↓reduceIte, Option.some.injEq]
        rintro _ rfl
        exact ⟨hopen, hid, hslice, hlength⟩
    . have hsame : stream'.readOffset = stream.readOffset := by
        apply hl.readOffset_eq hs hs' hle
        intro hmem
        exact hopen (hopens.mpr (hok hmem).1)
      apply Holds.waiting _ hnext
      . intro _
        rw [hsame, hzero]
      . simp [List.find?_append, hfind, hopen]

theorem Holds.submit (h : Holds d kind streamId stream queue next sub) {fs : List StreamFrame}
    {f : StreamFrame} (hs : stream.Delivered d fs) (hl : stream.Live fs)
    (hs' : stream'.Delivered d (fs ++ [f])) (hl' : stream'.Live (fs ++ [f]))
    (hnoted : Stream.Noted stream f stream') (hid : f.streamId = streamId) (hslice : f.SliceOf d)
    (hopens : Opens kind f ↔ f.offset = 0)
    (hwait : ¬ (sub.streamID ≠ none ∧ ∀ n ∈ next, n.kind ≠ kind) →
      f.range.Mem stream.readOffset → f.offset = 0 ∧ stream.readOffset = 0 ∧
        (stream.maxReadReceived ≤ f.length ∨ Covers stream.gaps f.length))
    : Holds d kind streamId stream' (queue ++ [f]) next
        (sub.submit f.streamId (stream'.readChan.drop stream.readChan.length)) := by
  have hle := hnoted.readOffset_le hl.shape hl'.shape
  have hsame : ∀ g, First d kind streamId stream g →
      ¬ (sub.streamID ≠ none ∧ ∀ n ∈ next, n.kind ≠ kind) →
      stream'.readOffset = stream.readOffset := by
    intro g hg hnot
    exact hg.readOffset_eq hs hl hs' hle (fun hmem => (hwait hnot hmem).2.1)
  cases h with
  | waiting _ hnext hempty hsome =>
    exact Holds.submit_waiting hs hl hs' hl' hle hid hslice hopens (hwait (by simp)) hnext hempty hsome
  | registering g hg =>
    exact Holds.registering g (hg.of_readOffset_eq (hsame g hg (by simp [Next.kind])))
  | pushing g sub hg hsub hregistered hbytes =>
    exact Holds.submit_pushing hid hg hsub hregistered hbytes hs.readChan hs'.readChan hnoted.readChan
      (hsame g hg (by simp [Next.kind]))
  | reading _ hnext sub hsub hregistered hpos hbytes =>
    exact Holds.submit_reading hid hnext hsub hregistered hpos hbytes hs.readChan hs'.readChan
      hnoted.readChan hle hs.shape.length_readChan

end Holds

structure Consumed (d : List UInt8) (kind : Kind) (streamId : Nat) (hist : List Event) (s : State) :
    Prop where
  delivered : (s.streams.get streamId).Delivered d (framesOn streamId hist)
  live : (s.streams.get streamId).Live (framesOn streamId hist)
  shape : ∀ id, (s.streams.get id).Shape
  appData : ∀ agent, ∀ p ∈ s.incomingPackets agent, p.pnSpace = .appData
  hasFirst : ∀ agent, ∀ f ∈ pending agent s, HasFirst f
  own : ∀ agent, ∀ next ∈ (s.loops agent).next, next.kind.agent = agent
  holds : Holds d kind streamId (s.streams.get streamId) (pending kind.agent s)
    (s.loops kind.agent).next (s.subscriptions kind)

theorem framesOn_concat {event : Event} (h : ∀ f, event ≠ .readStreamFrame f) (streamId : Nat)
    (hist : List Event)
    : framesOn streamId (hist ++ [event]) = framesOn streamId hist := by
  cases event with
  | readStreamFrame f => exact absurd rfl (h f)
  | submitPacket => simp [framesOn, framesOf]
  | handlePacket => simp [framesOn, framesOf]
  | resume => simp [framesOn, framesOf]
  | takeChunk => simp [framesOn, framesOf]

theorem framesOn_read (f : StreamFrame) (streamId : Nat) (hist : List Event)
    : framesOn streamId (hist ++ [.readStreamFrame f])
        = framesOn streamId hist ++ if f.streamId = streamId then [f] else [] := by
  by_cases h : f.streamId = streamId
  . simp [framesOn, framesOf, h]
  . simp [framesOn, framesOf, h]

section Consumed

variable {d : List UInt8} {kind : Kind} {streamId : Nat} {hist : List Event} {s : State}

theorem Consumed.of_streams_eq (h : Consumed d kind streamId hist s) {event : Event}
    (hevent : ∀ f, event ≠ .readStreamFrame f) {s' : State} (hstreams : s'.streams = s.streams)
    (appData : ∀ agent, ∀ p ∈ s'.incomingPackets agent, p.pnSpace = .appData)
    (hasFirst : ∀ agent, ∀ f ∈ pending agent s', HasFirst f)
    (own : ∀ agent, ∀ next ∈ (s'.loops agent).next, next.kind.agent = agent)
    (holds : Holds d kind streamId (s.streams.get streamId) (pending kind.agent s')
      (s'.loops kind.agent).next (s'.subscriptions kind))
    : Consumed d kind streamId (hist ++ [event]) s' := by
  rw [← hstreams] at holds
  constructor
  . rw [framesOn_concat hevent, hstreams]
    exact h.delivered
  . rw [framesOn_concat hevent, hstreams]
    exact h.live
  . rw [hstreams]
    exact h.shape
  . exact appData
  . exact hasFirst
  . exact own
  . exact holds

theorem Consumed.submitPacket (h : Consumed d kind streamId hist s)
    : Consumed d kind streamId (hist ++ [.submitPacket .appData]) (submitPacket s .appData) := by
  have hpending : ∀ agent, pending agent (PeerStreams.submitPacket s .appData) = pending agent s := by
    intro agent
    simp [pending, PeerStreams.submitPacket]
  apply h.of_streams_eq
  . intro f
    exact Event.noConfusion
  . rfl
  . intro agent p hp
    simp only [PeerStreams.submitPacket, List.mem_append, List.mem_singleton] at hp
    cases hp with
    | inl hp => exact h.appData agent p hp
    | inr hp => rw [hp]
  . intro agent
    rw [hpending]
    exact h.hasFirst agent
  . exact h.own
  . rw [hpending]
    exact h.holds

theorem Consumed.takeChunk (h : Consumed d kind streamId hist s) (kind' : Kind)
    : Consumed d kind streamId (hist ++ [.takeChunk kind']) (takeChunk s kind') := by
  have hevent : ∀ f, Event.takeChunk kind' ≠ .readStreamFrame f := by
    intro f
    exact Event.noConfusion
  unfold PeerStreams.takeChunk
  split
  . apply h.of_streams_eq hevent
    . rfl
    . exact h.appData
    . exact h.hasFirst
    . exact h.own
    . have hholds := h.holds
      unfold setSubscription pending
      dsimp only
      by_cases heq : kind = kind'
      . rw [← heq, Function.update_self]
        exact hholds.take
      . rw [Function.update_of_ne heq]
        exact hholds
  . exact h.of_streams_eq hevent rfl h.appData h.hasFirst h.own h.holds

section Take

variable {agent : Agent} {p : IncomingPacket} {packets : List IncomingPacket}

/-- The frames of a packet that an agent takes move to the front. -/
theorem pending_take (hloop : s.loops agent = ⟨[], none⟩)
    (hqueue : s.incomingPackets agent = p :: packets) (agent' : Agent)
    : pending agent' { s with
        incomingPackets := Function.update s.incomingPackets agent packets
        loops := Function.update s.loops agent ⟨p.streamFrames, none⟩ } = pending agent' s := by
  unfold pending
  dsimp only
  by_cases heq : agent' = agent
  . rw [heq]
    simp [hloop, hqueue]
  . simp [Function.update_of_ne heq]

theorem next_take (hloop : s.loops agent = ⟨[], none⟩) (agent' : Agent)
    : (Function.update s.loops agent ⟨p.streamFrames, none⟩ agent').next = (s.loops agent').next := by
  by_cases heq : agent' = agent
  . rw [heq]
    simp [hloop]
  . rw [Function.update_of_ne heq]

theorem mem_of_mem_take (hqueue : s.incomingPackets agent = p :: packets) {agent' : Agent}
    {q : IncomingPacket}
    (hq : q ∈ Function.update s.incomingPackets agent packets agent')
    : q ∈ s.incomingPackets agent' := by
  by_cases heq : agent' = agent
  . rw [heq, Function.update_self] at hq
    rw [heq, hqueue]
    exact List.mem_cons_of_mem _ hq
  . rw [Function.update_of_ne heq] at hq
    exact hq

end Take

theorem Consumed.handlePacket (h : Consumed d kind streamId hist s) (agent : Agent)
    : Consumed d kind streamId (hist ++ [.handlePacket agent]) (handlePacket s agent) := by
  have hevent : ∀ f, Event.handlePacket agent ≠ .readStreamFrame f := by
    intro f
    exact Event.noConfusion
  have hwait : Consumed d kind streamId (hist ++ [.handlePacket agent]) s :=
    h.of_streams_eq hevent rfl h.appData h.hasFirst h.own h.holds
  unfold PeerStreams.handlePacket
  cases hqueue : s.incomingPackets agent with
  | nil => exact hwait
  | cons p packets =>
    have hp : p.pnSpace = .appData := h.appData agent p (by simp [hqueue])
    dsimp only
    rw [if_pos hp]
    split
    . next hselect =>
      have hloop := (Loop.atSelect_iff _).mp hselect
      refine h.of_streams_eq hevent rfl ?_ ?_ ?_ ?_
      . intro agent' q hq
        exact h.appData agent' q (mem_of_mem_take hqueue hq)
      . intro agent'
        rw [pending_take hloop hqueue]
        exact h.hasFirst agent'
      . intro agent'
        rw [next_take hloop]
        exact h.own agent'
      . rw [pending_take hloop hqueue, next_take hloop]
        exact h.holds
    . exact hwait

theorem Consumed.resume (h : Consumed d kind streamId hist s) (agent : Agent)
    : ∃ s', resume s agent = some s' ∧ Consumed d kind streamId (hist ++ [.resume agent]) s' := by
  have hevent : ∀ f, Event.resume agent ≠ .readStreamFrame f := by
    intro f
    exact Event.noConfusion
  have hfirst : ∀ f ∈ (s.loops agent).frames, HasFirst f := by
    intro f hf
    exact h.hasFirst agent f (List.mem_append_left _ hf)
  rcases resume_advanced hfirst (h.own agent) with ⟨s', heq, hadvanced⟩
  have hrest : ∀ agent', (s'.incomingPackets agent').flatMap (·.streamFrames) ++ s'.parsed
      = (s.incomingPackets agent').flatMap (·.streamFrames) ++ s.parsed := by
    intro agent'
    rw [hadvanced.incomingPackets, hadvanced.parsed]
  refine ⟨s', heq, h.of_streams_eq hevent hadvanced.streams ?_ ?_ ?_ ?_⟩
  . rw [hadvanced.incomingPackets]
    exact h.appData
  . intro agent' f hf
    apply h.hasFirst agent'
    unfold pending at hf ⊢
    rw [hrest] at hf
    by_cases hagent : agent' = agent
    . rw [hagent] at hf ⊢
      -- Every agent opens the streams of some kind.
      have hkind : ∃ kind : Kind, kind.agent = agent := by
        cases agent with
        | http => exact ⟨.control, rfl⟩
        | qpack => exact ⟨.encoder, rfl⟩
      rcases hkind with ⟨kind', hkind⟩
      have hsuffix := (hadvanced.advance kind' hkind).suffix
      cases List.mem_append.mp hf with
      | inl hf => exact List.mem_append_left _ (hsuffix.subset hf)
      | inr hf => exact List.mem_append_right _ hf
    . rw [hadvanced.loops agent' hagent] at hf
      exact hf
  . intro agent'
    by_cases hagent : agent' = agent
    . rw [hagent]
      exact hadvanced.own
    . rw [hadvanced.loops agent' hagent]
      exact h.own agent'
  . have hholds := h.holds
    unfold pending at hholds ⊢
    rw [hrest]
    by_cases hagent : kind.agent = agent
    . rw [hagent] at hholds ⊢
      exact hholds.advance (hadvanced.advance kind hagent)
    . rw [hadvanced.loops _ hagent, hadvanced.subscriptions kind hagent]
      exact hholds

theorem opens_iff {f : StreamFrame} (hid : f.streamId = streamId) (huni : streamId &&& 0x2 = 2)
    (hfirst : d.head? = some kind.first) (hslice : f.SliceOf d) (hhas : HasFirst f)
    : Opens kind f ↔ f.offset = 0 := by
  rw [← hid] at huni
  constructor
  . intro h
    exact h.1
  . intro hoff
    refine ⟨hoff, huni, ?_⟩
    have hne := hhas hoff huni
    rw [hslice.2.2, hoff, List.drop_zero] at hne ⊢
    rw [List.head?_take, if_neg]
    . exact hfirst
    . intro hzero
      rw [hzero] at hne
      exact hne rfl

theorem Consumed.of_read (h : Consumed d kind streamId hist s) {f : StreamFrame} (hf : HasFirst f)
    {stream : Stream} (hshape : stream.Shape) {s' : State}
    (hs' : s' = { s with
      streams := Function.update s.streams f.streamId (some stream)
      parsed := s.parsed ++ [f]
      subscriptions := s'.subscriptions })
    (delivered : (s'.streams.get streamId).Delivered d (framesOn streamId (hist ++ [.readStreamFrame f])))
    (live : (s'.streams.get streamId).Live (framesOn streamId (hist ++ [.readStreamFrame f])))
    (holds : Holds d kind streamId (s'.streams.get streamId) (pending kind.agent s ++ [f])
      (s.loops kind.agent).next (s'.subscriptions kind))
    : Consumed d kind streamId (hist ++ [.readStreamFrame f]) s' := by
  have hpending : ∀ agent, pending agent s' = pending agent s ++ [f] := by
    intro agent
    rw [hs']
    simp [pending]
  have hloops : s'.loops = s.loops := by
    rw [hs']
  refine ⟨delivered, live, ?_, ?_, ?_, ?_, ?_⟩
  . intro id
    rw [hs', Streams.get_update]
    split
    . exact hshape
    . exact h.shape id
  . rw [hs']
    exact h.appData
  . intro agent g hg
    rw [hpending, List.mem_append, List.mem_singleton] at hg
    cases hg with
    | inl hg => exact h.hasFirst agent g hg
    | inr hg =>
      rw [hg]
      exact hf
  . rw [hloops]
    exact h.own
  . rw [hpending, hloops]
    exact holds

theorem Consumed.readStreamFrame (hd : d.length < 2 ^ 62) (huni : streamId &&& 0x2 = 2)
    (hfirst : d.head? = some kind.first) (h : Consumed d kind streamId hist s) {f : StreamFrame}
    (hsent : Sent d kind streamId f) (hok : Registers kind streamId s (.readStreamFrame f))
    : ∃ s', readStreamFrame s f = some s' ∧
        Consumed d kind streamId (hist ++ [.readStreamFrame f]) s' := by
  rcases Stream.addToRead_added (h.shape f.streamId) hsent.fits with ⟨stream, heq, hadded⟩
  have hshape := hadded.shape (h.shape f.streamId) hsent.fits
  have hframes := framesOn_read f streamId hist
  unfold PeerStreams.readStreamFrame
  dsimp only
  rw [heq]
  refine ⟨_, rfl, ?_⟩
  by_cases hid : f.streamId = streamId
  . have hnoted := Stream.addToRead_noted heq
    have hslice := hsent.slice hid
    have hopens := opens_iff hid huni hfirst hslice hok.1
    rcases hok.2 hid with ⟨hclean, hkeep, hwait⟩
    rw [hid] at heq hnoted
    rcases h.delivered.step hd hslice hclean with ⟨stream1, heq1, hdelivered⟩
    rcases h.live.step hsent.fits hkeep with ⟨stream2, heq2, hlive⟩
    rw [heq] at heq1 heq2
    injection heq1 with heq1
    injection heq2 with heq2
    rw [← heq1] at hdelivered
    rw [← heq2] at hlive
    rw [if_pos hid] at hframes
    have hget : Streams.get (Function.update s.streams f.streamId (some stream)) streamId = stream := by
      rw [Streams.get_update, if_pos hid.symm]
    apply h.of_read hok.1 hshape rfl
    . rw [hframes, hget]
      exact hdelivered
    . rw [hframes, hget]
      exact hlive
    . have hgot : s.streams.get f.streamId = s.streams.get streamId := by rw [hid]
      rw [hget, hgot]
      exact h.holds.submit h.delivered h.live hdelivered hlive hnoted hid hslice hopens hwait
  . rw [if_neg hid, List.append_nil] at hframes
    have hget : Streams.get (Function.update s.streams f.streamId (some stream)) streamId
        = s.streams.get streamId := by
      rw [Streams.get_update, if_neg (Ne.symm hid)]
    apply h.of_read hok.1 hshape rfl
    . rw [hframes, hget]
      exact h.delivered
    . rw [hframes, hget]
      exact h.live
    . rw [hget]
      apply h.holds.submit_other hid
      intro hopen
      exact hid (hsent.only hopen)

theorem Consumed.step (hd : d.length < 2 ^ 62) (huni : streamId &&& 0x2 = 2)
    (hfirst : d.head? = some kind.first) (h : Consumed d kind streamId hist s) {event : Event}
    (hsent : ∀ f, event = .readStreamFrame f → Sent d kind streamId f)
    (hspace : ∀ pnSpace, event = .submitPacket pnSpace → pnSpace = .appData)
    (hok : Registers kind streamId s event)
    : ∃ s', step s event = some s' ∧ Consumed d kind streamId (hist ++ [event]) s' := by
  cases event with
  | readStreamFrame f => exact h.readStreamFrame hd huni hfirst (hsent f rfl) hok
  | submitPacket pnSpace =>
    rw [hspace pnSpace rfl]
    exact ⟨_, rfl, h.submitPacket⟩
  | handlePacket agent => exact ⟨_, rfl, h.handlePacket agent⟩
  | resume agent => exact h.resume agent
  | takeChunk kind' => exact ⟨_, rfl, h.takeChunk kind'⟩

end Consumed

/-- The control stream of the peer with the start of a SETTINGS frame, in two packets. -/
def sampleEvents : List Event :=
  [.readStreamFrame ⟨false, true, true, 3, 3, 1, [4]⟩,
    .readStreamFrame ⟨false, true, true, 3, 0, 2, [67, 1]⟩, .submitPacket .appData,
    .handlePacket .http, .handlePacket .qpack, .resume .http, .resume .http, .resume .qpack, .resume .http,
    .resume .http, .resume .qpack, .takeChunk .control,
    .readStreamFrame ⟨false, true, true, 3, 2, 1, [0]⟩, .submitPacket .appData,
    .handlePacket .http, .resume .http, .takeChunk .control]

end PeerStreams

end QuicTracker
