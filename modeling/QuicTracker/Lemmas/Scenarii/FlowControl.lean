import QuicTracker.Lib.Run
import QuicTracker.Impl.Scenarii.FlowControl
import QuicTracker.Lemmas.Client
import QuicTracker.Lemmas.Frames.Payload
import QuicTracker.Lemmas.Scenarii.Scenario

/-!
This module contains when the verdict of `flow_control` tells that the host has sent more than its limit. The
scenario looks at the data that was read in order, which may be behind the data that was received.
-/

namespace QuicTracker

namespace FlowControl

def onStream (streamId : Nat) (f : Frame) : Option StreamFrame :=
  match f with
  | .stream f => if f.streamId = streamId then some f else none
  | _ => none

def requestFrames (p : Packet) : List StreamFrame :=
  match p with
  | .frames p => p.frames.filterMap (onStream 0)
  | _ => []

def ends (fs : List StreamFrame) : Nat := (fs.map (fun f => f.offset + f.length)).foldl max 0

def highest (packets : List Packet) : Nat := ends (packets.flatMap requestFrames)

theorem ends_append (fs fs' : List StreamFrame) : ends (fs ++ fs') = max (ends fs) (ends fs') := by
  unfold ends
  rw [List.map_append, List.foldl_append]
  generalize (fs.map (fun f => f.offset + f.length)).foldl max 0 = m
  induction fs'.map (fun f => f.offset + f.length) generalizing m with
  | nil => simp
  | cons n ns ih =>
    rw [List.foldl_cons, List.foldl_cons]
    rw [ih, ih (max 0 n)]
    omega

/-- What is above the limit was read, or there is nothing above it. -/
structure Watched (limit : Nat) (s : Stream) : Prop where
  shape : s.Shape
  told : s.maxReadReceived ≤ limit ∨ s.readOffset > limit

/-- A frame that ends above the limit continues the data that was read. -/
def InTime (limit : Nat) (s : Stream) (f : StreamFrame) : Prop :=
  f.offset + f.length ≤ limit ∨ s.readOffset > limit ∨
    (f.offset = s.readOffset ∧ f.offset = s.maxReadReceived)

instance (limit : Nat) (s : Stream) (f : StreamFrame) : Decidable (InTime limit s f) :=
  inferInstanceAs (Decidable (_ ∨ _ ∨ _))

theorem maxReadReceived_of_added {s s' : Stream} {f : StreamFrame} (h : Stream.Added s f s')
    : s'.maxReadReceived = max s.maxReadReceived (f.offset + f.length) := by
  cases h with
  | append _ hmax _ maxReadReceived =>
    rw [maxReadReceived]
    omega
  | extend _ hmax _ maxReadReceived =>
    rw [maxReadReceived]
    omega
  | fill _ hmax _ maxReadReceived =>
    rw [maxReadReceived]
    omega

theorem Watched.step {limit : Nat} {s : Stream} {f : StreamFrame} (h : Watched limit s) (hf : f.Fits)
    (hok : InTime limit s f)
    : ∃ s', s.addToRead f = some s' ∧ Watched limit s'
        ∧ s'.maxReadReceived = max s.maxReadReceived (f.offset + f.length)
        ∧ s.readOffset ≤ s'.readOffset := by
  rcases Stream.addToRead_added h.shape hf with ⟨s', heq, hadd⟩
  have hshape := hadd.shape h.shape hf
  have hmax := maxReadReceived_of_added hadd
  have hle := (Stream.addToRead_noted heq).readOffset_le h.shape hshape
  refine ⟨s', heq, ⟨hshape, ?_⟩, hmax, hle⟩
  rcases hok with hbelow | habove | hnext
  . cases h.told with
    | inl hread => omega
    | inr hread => omega
  . omega
  . cases hadd with
    | append _ _ readOffset => omega
    | extend hnot => exact absurd hnext hnot
    | fill hnot => exact absurd hnext hnot

/-- After any other frame the data above the limit is not read. -/
theorem Watched.missed {limit : Nat} {s : Stream} {f : StreamFrame} (h : Watched limit s) (hf : f.Fits)
    (hnot : ¬ InTime limit s f)
    : ∃ s', s.addToRead f = some s' ∧ s'.maxReadReceived > limit ∧ s'.readOffset ≤ limit := by
  rcases Stream.addToRead_added h.shape hf with ⟨s', heq, hadd⟩
  have hmax := maxReadReceived_of_added hadd
  have htold := h.told
  simp only [InTime, not_or, not_le, not_lt] at hnot
  refine ⟨s', heq, by omega, ?_⟩
  cases hadd with
  | append hoff hnext => exact absurd ⟨hoff, hnext⟩ hnot.2.2
  | extend _ _ readOffset => omega
  | fill _ hend => omega

theorem Watched.run {limit : Nat} {s : Stream} {fs : List StreamFrame} (h : Watched limit s)
    (hfs : ∀ f ∈ fs, f.Fits) (hok : Run.Guarded Stream.addToRead (InTime limit) s fs)
    : ∃ s', Run.run Stream.addToRead s fs = some s' ∧ Watched limit s'
        ∧ s'.maxReadReceived = max s.maxReadReceived (ends fs) ∧ s.readOffset ≤ s'.readOffset := by
  have hstep : ∀ (hist : List StreamFrame) (t : Stream) (f : StreamFrame),
      (Watched limit t ∧ t.maxReadReceived = max s.maxReadReceived (ends hist) ∧ s.readOffset ≤ t.readOffset) →
      (f.Fits ∧ InTime limit t f) →
      ∃ t', t.addToRead f = some t' ∧ (Watched limit t' ∧
        t'.maxReadReceived = max s.maxReadReceived (ends (hist ++ [f])) ∧ s.readOffset ≤ t'.readOffset) := by
    intro hist t f ht hf
    rcases ht.1.step hf.1 hf.2 with ⟨t', heq, ht', hmax, hle⟩
    refine ⟨t', heq, ht', ?_, ht.2.2.trans hle⟩
    have hone : ends [f] = f.offset + f.length := Nat.zero_max _
    rw [hmax, ht.2.1, ends_append, hone, max_assoc]
  have hguard := Run.Guarded.and Stream.addToRead
    (Run.Guarded.of_forall Stream.addToRead (fun f hf _ => hfs f hf) s) hok
  exact Run.run_of_step Stream.addToRead hstep [] s fs ⟨h, (Nat.max_zero _).symm, le_refl _⟩ hguard

variable {τ : Type}

def Shapes (c : Client τ) : Prop := ∀ id, (c.streams.get id).Shape

def FrameFits (f : Frame) : Prop :=
  match f with
  | .stream f => f.Fits
  | _ => True

def PacketFits (p : Packet) : Prop :=
  match p with
  | .frames p => ∀ f ∈ p.frames, FrameFits f
  | _ => True

/-- Only the streams of a connection were changed, and stream 0 by the frames `fs`. -/
structure Read (fs : List StreamFrame) (c c' : Client τ) : Prop where
  shapes : Shapes c'
  tlsTPHandler : c'.tlsTPHandler = c.tlsTPHandler
  request : Run.run Stream.addToRead (c.streams.get 0) fs = some (c'.streams.get 0)

theorem readFrame_read {c : Client τ} (hc : Shapes c) {f : Frame} (hf : FrameFits f)
    : ∃ c', readFrame c f = some c' ∧ Read (onStream 0 f).toList c c' := by
  cases f with
  | stream f =>
    rcases Stream.addToRead_added (hc f.streamId) hf with ⟨stream, heq, hadd⟩
    refine ⟨c.withStream f.streamId stream, ?_, ?_, rfl, ?_⟩
    . unfold readFrame
      dsimp only
      rw [heq]
      rfl
    . intro id
      dsimp only [Client.withStream, Connection.setStream]
      rw [Streams.get_update]
      split
      . exact hadd.shape (hc f.streamId) hf
      . exact hc id
    . dsimp only [Client.withStream, Connection.setStream, onStream]
      rw [Streams.get_update]
      by_cases hid : f.streamId = 0
      . rw [if_pos hid, if_pos hid.symm, ← hid]
        rw [Option.toList_some, Run.run_cons, heq]
        rfl
      . rw [if_neg hid, if_neg (Ne.symm hid)]
        rfl
  | _ => exact ⟨c, rfl, hc, rfl, rfl⟩

theorem Read.trans {fs fs' : List StreamFrame} {c c' c'' : Client τ} (h : Read fs c c')
    (h' : Read fs' c' c'')
    : Read (fs ++ fs') c c'' := by
  refine ⟨h'.shapes, h'.tlsTPHandler.trans h.tlsTPHandler, ?_⟩
  rw [Run.run_append, h.request]
  exact h'.request

theorem readFrames_read {c : Client τ} (hc : Shapes c) {frames : List Frame}
    (hframes : ∀ f ∈ frames, FrameFits f)
    : ∃ c', frames.foldlM readFrame c = some c' ∧ Read (frames.filterMap (onStream 0)) c c' := by
  induction frames generalizing c with
  | nil => exact ⟨c, rfl, hc, rfl, rfl⟩
  | cons f frames ih =>
    rcases readFrame_read hc (hframes f List.mem_cons_self) with ⟨c₁, heq₁, hread₁⟩
    rcases ih hread₁.shapes (fun g hg => hframes g (List.mem_cons_of_mem f hg)) with ⟨c₂, heq₂, hread₂⟩
    refine ⟨c₂, ?_, ?_⟩
    . rw [List.foldlM_cons, heq₁]
      exact heq₂
    . have happend : (f :: frames).filterMap (onStream 0)
          = (onStream 0 f).toList ++ frames.filterMap (onStream 0) := by
        rw [List.filterMap_cons]
        cases onStream 0 f with
        | none => rfl
        | some g => rfl
      rw [happend]
      exact hread₁.trans hread₂

theorem readPacket_read {c : Client τ} (hc : Shapes c) {p : Packet} (hp : PacketFits p)
    : ∃ c', readPacket c p = some c' ∧ Read (requestFrames p) c c' := by
  cases p with
  | frames p => exact readFrames_read hc hp
  | _ => exact ⟨c, rfl, hc, rfl, rfl⟩

def Over (s : State τ) : Prop := (s.conn.streams.get 0).readOffset > maxStreamDataBidiLocal s.conn

theorem verdict_of_over {s : State τ} (h : Over s) : (verdict s).errorCode = hostSentMoreThanLimit := by
  unfold Over at h
  unfold verdict
  dsimp only
  rw [if_neg (by omega), if_neg (by omega), if_neg (by omega), if_pos h]

/-- The scenario leaves the streams alone, and raises the limit when all that it allows was read. -/
inductive Handled (s s' : State τ) : Prop where
  | kept (streams : s'.conn.streams = s.conn.streams)
    (limit : maxStreamDataBidiLocal s'.conn = maxStreamDataBidiLocal s.conn)
    (shouldResume : s'.shouldResume = s.shouldResume)
  | raised (hread : (s.conn.streams.get 0).readOffset = maxStreamDataBidiLocal s.conn)
    (hresume : s.shouldResume = false)
    (streams : s'.conn.streams = s.conn.streams)
    (limit : maxStreamDataBidiLocal s'.conn = u64 (maxStreamDataBidiLocal s.conn * 2))
    (shouldResume : s'.shouldResume = true)

theorem handlePacket_handled (s : State τ) : Handled s (handlePacket s) := by
  have hmark : ∃ trace, (if (s.conn.streams.get 0).readOffset > maxStreamDataBidiLocal s.conn then
      { s with trace := s.trace.markError hostSentMoreThanLimit "" } else s) = { s with trace := trace } := by
    split
    . exact ⟨_, rfl⟩
    . exact ⟨_, rfl⟩
  rcases hmark with ⟨trace, hmark⟩
  unfold handlePacket
  dsimp only
  rw [hmark]
  split
  . exact .kept rfl rfl rfl
  . split
    . next hraise => exact .raised hraise.1 (by simpa using hraise.2) rfl rfl rfl
    . exact .kept rfl rfl rfl

theorem Handled.streams {s s' : State τ} (h : Handled s s') : s'.conn.streams = s.conn.streams := by
  cases h with
  | kept streams => exact streams
  | raised _ _ streams => exact streams

theorem Handled.over {s s' : State τ} (h : Handled s s') (hover : Over s) : Over s' := by
  unfold Over at hover ⊢
  cases h with
  | kept streams limit _ =>
    rw [streams, limit]
    exact hover
  | raised hread => omega

structure Watching (hist : List Packet) (s : State τ) : Prop where
  shapes : Shapes s.conn
  highest : (s.conn.streams.get 0).maxReadReceived = highest hist
  told : (s.conn.streams.get 0).maxReadReceived ≤ maxStreamDataBidiLocal s.conn ∨ Over s
  limit : maxStreamDataBidiLocal s.conn = if s.shouldResume then 160 else 80

theorem Watching.handled {hist : List Packet} {s s' : State τ} (h : Watching hist s) (hhandled : Handled s s')
    : Watching hist s' := by
  have hstreams := hhandled.streams
  have htold := h.told
  have hlimit := h.limit
  unfold Over at htold
  constructor
  . unfold Shapes
    rw [hstreams]
    exact h.shapes
  . rw [hstreams]
    exact h.highest
  . unfold Over
    rw [hstreams]
    cases hhandled with
    | kept _ limit _ =>
      rw [limit]
      exact htold
    | raised hread hresume _ limit _ =>
      rw [hresume, if_neg (by decide)] at hlimit
      rw [limit, u64_of_lt (by omega)]
      omega
  . cases hhandled with
    | kept _ limit shouldResume =>
      rw [limit, shouldResume]
      exact hlimit
    | raised _ hresume _ limit shouldResume =>
      rw [limit, shouldResume, hlimit, hresume]
      rfl

/-- The frames of stream 0 in a packet, each at the time it is read. -/
def PacketInTime (s : State τ) (p : Packet) : Prop :=
  Run.Guarded Stream.addToRead (InTime (maxStreamDataBidiLocal s.conn)) (s.conn.streams.get 0)
    (requestFrames p)

theorem requestFrames_fits {p : Packet} (hp : PacketFits p) : ∀ f ∈ requestFrames p, f.Fits := by
  intro f hf
  cases p with
  | frames p =>
    rcases List.mem_filterMap.mp hf with ⟨g, hg, hgf⟩
    have hfits := hp g hg
    cases g with
    | stream g =>
      unfold onStream at hgf
      dsimp only at hgf
      split at hgf
      . injection hgf with hgf
        rw [← hgf]
        exact hfits
      . contradiction
    | _ => contradiction
  | _ => contradiction

theorem Watching.read {hist : List Packet} {s : State τ} (h : Watching hist s) {p : Packet}
    (hp : PacketFits p) (hok : PacketInTime s p)
    : ∃ c, readPacket s.conn p = some c ∧ Watching (hist ++ [p]) { s with conn := c }
        ∧ (s.conn.streams.get 0).readOffset ≤ (c.streams.get 0).readOffset
        ∧ c.tlsTPHandler = s.conn.tlsTPHandler := by
  rcases readPacket_read h.shapes hp with ⟨c, heq, hread⟩
  have hwatched : Watched (maxStreamDataBidiLocal s.conn) (s.conn.streams.get 0) := ⟨h.shapes 0, h.told⟩
  rcases hwatched.run (requestFrames_fits hp) hok with ⟨stream, hrun, hwatched', hmax, hle⟩
  rw [hread.request] at hrun
  injection hrun with hrun
  rw [← hrun] at hwatched' hmax hle
  have hlimit : maxStreamDataBidiLocal c = maxStreamDataBidiLocal s.conn := by
    unfold maxStreamDataBidiLocal
    rw [hread.tlsTPHandler]
  refine ⟨c, heq, ⟨hread.shapes, ?_, ?_, ?_⟩, hle, hread.tlsTPHandler⟩
  . dsimp only
    rw [hmax, h.highest]
    unfold FlowControl.highest
    rw [List.flatMap_append, ends_append, List.flatMap_singleton]
  . unfold Over
    dsimp only
    rw [hlimit]
    exact hwatched'.told
  . exact hlimit.trans h.limit

theorem Watching.step {hist : List Packet} {s : State τ} (h : Watching hist s) {p : Packet}
    (hp : PacketFits p) (hok : PacketInTime s p)
    : ∃ s', step s p = some s' ∧ Watching (hist ++ [p]) s' ∧ (Over s → Over s')
        ∧ (FlowControl.highest (hist ++ [p]) > maxStreamDataBidiLocal s.conn → Over s') := by
  rcases h.read hp hok with ⟨c, heq, hwatching, hle, htp⟩
  have hlimit : maxStreamDataBidiLocal c = maxStreamDataBidiLocal s.conn := by
    unfold maxStreamDataBidiLocal
    rw [htp]
  have hhandled : ∃ s', FlowControl.step s p = some s' ∧ Handled { s with conn := c } s' := by
    unfold FlowControl.step
    rw [heq]
    refine ⟨_, rfl, ?_⟩
    split
    . apply handlePacket_handled
    . exact .kept rfl rfl rfl
  rcases hhandled with ⟨s', hstep, hhandled⟩
  refine ⟨s', hstep, hwatching.handled hhandled, ?_, ?_⟩
  . intro hover
    apply hhandled.over
    unfold Over at hover ⊢
    dsimp only
    omega
  . intro hhighest
    apply hhandled.over
    cases hwatching.told with
    | inl hbelow =>
      rw [hwatching.highest] at hbelow
      dsimp only at hbelow
      omega
    | inr hover => exact hover

theorem Watching.run {hist : List Packet} {s : State τ} (h : Watching hist s) {packets : List Packet}
    (hok : Run.Guarded FlowControl.step (fun s p => PacketFits p ∧ PacketInTime s p) s packets)
    : ∃ s', Run.run FlowControl.step s packets = some s' ∧ Watching (hist ++ packets) s'
        ∧ (Over s → Over s') := by
  have hstep : ∀ (hist : List Packet) (t : State τ) (p : Packet), Watching hist t ∧ (Over s → Over t) →
      PacketFits p ∧ PacketInTime t p →
      ∃ t', FlowControl.step t p = some t' ∧ (Watching (hist ++ [p]) t' ∧ (Over s → Over t')) := by
    intro hist t p ht hp
    rcases ht.1.step hp.1 hp.2 with ⟨t', heq, ht', hover, _⟩
    exact ⟨t', heq, ht', fun hs => hover (ht.2 hs)⟩
  exact Run.run_of_step FlowControl.step hstep hist s packets ⟨h, id⟩ hok

theorem watching_start {conn : Client τ} (hshapes : Shapes conn) (hnew : conn.streams.get 0 = newStream)
    {trace : Trace} {preferredUrl : List UInt8} {s : State τ} (hstart : start conn trace preferredUrl = some s)
    : Watching [] s := by
  rcases Option.bind_eq_some_iff.mp hstart with ⟨c, hsend, hstart⟩
  injection hstart with hstart
  rcases Option.bind_eq_some_iff.mp hsend with ⟨⟨f, stream⟩, hframe, hsend⟩
  injection hsend with hsend
  rcases Option.bind_eq_some_iff.mp hframe with ⟨written, hwritten, hframe⟩
  injection hframe with hframe
  injection hframe with _ hstream
  change (conn.streams.get 0).write _ = some written at hwritten
  rw [hnew] at hwritten
  unfold Stream.write at hwritten
  split at hwritten
  . injection hwritten with hwritten
    have hget : ∀ id, c.streams.get id = if id = 0 then stream else conn.streams.get id := by
      intro id
      rw [← hsend]
      exact Streams.get_update _ _ _ _
    rw [← hstart]
    refine ⟨?_, ?_, ?_, ?_⟩
    . intro id
      dsimp only
      rw [hget id]
      split
      . rw [← hstream, ← hwritten]
        exact ⟨rfl, le_refl _, by simp [newStream], by simp [newStream], rfl⟩
      . exact hshapes id
    . dsimp only
      rw [hget 0, if_pos rfl, ← hstream, ← hwritten]
      rfl
    . left
      dsimp only
      rw [hget 0, if_pos rfl, ← hstream, ← hwritten]
      exact Nat.zero_le _
    . rw [← hsend]
      rfl
  . contradiction

theorem run_of_completed {conn : Client τ} {trace : Trace} {status : HandshakeStatus}
    (hstatus : status.completed = true) {preferredUrl : List UInt8} {packets : List Packet} {s s' : State τ}
    (hstart : start conn trace preferredUrl = some s) (hrun : Run.run FlowControl.step s packets = some s')
    : run conn trace (some status) preferredUrl packets = some (verdict s') := by
  unfold FlowControl.run
  rw [completeHandshake_completed trace _ hstatus, Option.bind_eq_bind, Option.bind_some]
  dsimp only
  rw [if_pos rfl, hstart, Option.bind_eq_bind, Option.bind_some]
  unfold Run.run at hrun
  rw [hrun]
  rfl

theorem overrun_caught (conn : Client τ) (hshapes : Shapes conn) (hnew : conn.streams.get 0 = newStream)
    (trace : Trace) {status : HandshakeStatus} (hstatus : status.completed = true)
    (preferredUrl : List UInt8) {s : State τ} (hstart : start conn trace preferredUrl = some s)
    (packets : List Packet) (hfits : ∀ p ∈ packets, PacketFits p)
    (hok : Run.Guarded FlowControl.step PacketInTime s packets)
    : ∃ trace', run conn trace (some status) preferredUrl packets = some trace' ∧
        ∀ before p after s₁, packets = before ++ p :: after →
          Run.run FlowControl.step s before = some s₁ →
          highest (before ++ [p]) > maxStreamDataBidiLocal s₁.conn →
          trace'.errorCode = hostSentMoreThanLimit := by
  have hwatching := watching_start hshapes hnew hstart
  have hguard := Run.Guarded.and FlowControl.step
    (Run.Guarded.of_forall FlowControl.step (fun p hp _ => hfits p hp) s) hok
  rcases hwatching.run hguard with ⟨s', hrun, _⟩
  refine ⟨verdict s', run_of_completed hstatus hstart hrun, ?_⟩
  intro before p after s₁ hsplit hbefore hhighest
  rw [hsplit] at hguard hrun
  -- The packets before the overrun, the packet itself, and the ones behind it.
  rcases Run.Guarded.append FlowControl.step hguard with ⟨hguard₀, hguard₁⟩
  rcases hwatching.run hguard₀ with ⟨t₁, hrun₁, hwatching₁, _⟩
  rw [hbefore] at hrun₁
  injection hrun₁ with hrun₁
  rw [← hrun₁] at hwatching₁
  rcases hguard₁ s₁ hbefore with ⟨hp, hguard₂⟩
  rcases hwatching₁.step hp.1 hp.2 with ⟨s₂, hstep, hwatching₂, _, hover⟩
  rcases hwatching₂.run (hguard₂ s₂ hstep) with ⟨s₃, hrun₃, _, hover₃⟩
  rw [Run.run_append, hbefore, Option.bind_some, Run.run_cons, hstep, Option.bind_some, hrun₃] at hrun
  injection hrun with hrun
  rw [← hrun]
  exact verdict_of_over (hover₃ (hover hhighest))

def samplePacket (offset length : Nat) : Packet :=
  .frames ⟨.short ⟨false, [], ⟨0, 1⟩, 0⟩, .appData, .oneRTT,
    [.stream ⟨false, true, true, 0, offset, length, List.replicate length 1⟩]⟩

theorem samplePacket_fits {offset length : Nat} (hoffset : offset < 2 ^ 62) (hlength : length < 2 ^ 62)
    : PacketFits (samplePacket offset length) := by
  intro f hf
  rw [List.mem_singleton.mp hf]
  exact ⟨by simp, hoffset, hlength⟩

/-- The limit is raised after the first packet, and the second one is above it. -/
theorem overrun_caught_two
    : ∃ trace', run sampleClient {} (some ⟨true, none, none⟩) [] [samplePacket 0 80, samplePacket 80 81]
          = some trace' ∧
        trace'.errorCode = 2 := by
  have hsome : (start sampleClient {} []).isSome := by decide +kernel
  rcases Option.isSome_iff_exists.mp hsome with ⟨s, hstart⟩
  have hguard : ∀ s, start sampleClient {} [] = some s →
      Run.Guarded FlowControl.step PacketInTime s [samplePacket 0 80, samplePacket 80 81] := by
    unfold PacketInTime
    decide +kernel
  rcases overrun_caught sampleClient (fun _ => Stream.shape_newStream) rfl {}
    (rfl : HandshakeStatus.completed ⟨true, none, none⟩ = true) [] hstart
    [samplePacket 0 80, samplePacket 80 81] (by
      intro p hp
      simp only [List.mem_cons, List.not_mem_nil, or_false] at hp
      rcases hp with rfl | rfl
      . exact samplePacket_fits (by decide) (by decide)
      . exact samplePacket_fits (by decide) (by decide)) (hguard s hstart) with ⟨trace', hrun, hcode⟩
  have hfirst : ∀ s, start sampleClient {} [] = some s →
      ∃ s₁, Run.run FlowControl.step s [samplePacket 0 80] = some s₁ ∧
        highest ([samplePacket 0 80] ++ [samplePacket 80 81]) > maxStreamDataBidiLocal s₁.conn := by
    decide +kernel
  rcases hfirst s hstart with ⟨s₁, hrun₁, hhighest⟩
  exact ⟨trace', hrun, hcode _ _ [] s₁ rfl hrun₁ hhighest⟩

/-- The packet is above the limit, but the start of the stream is missing. -/
theorem overrun_missed
    : ∃ s, start sampleClient {} [] = some s ∧
        highest [samplePacket 100 1] > maxStreamDataBidiLocal s.conn ∧
        ∃ trace', run sampleClient {} (some ⟨true, none, none⟩) [] [samplePacket 100 1] = some trace' ∧
          trace'.errorCode = notEnoughDataAvailable := by
  decide +kernel

end FlowControl

end QuicTracker
