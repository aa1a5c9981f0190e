import QuicTracker.Lemmas.PacketNumbers

/-!
This module contains when the STREAM frames that the client queues agree about the bytes of a stream. The
frames stay queued when the connection starts again, while the offsets of its streams start at zero.
-/

namespace QuicTracker

namespace Session

variable {τ : Type} (lib : Libraries τ)

def stream? (q : QueuedFrame) : Option StreamFrame :=
  match q.frame with
  | .stream f => some f
  | _ => none

def streamFrames (c : Client τ) (streamId : Nat) : List StreamFrame :=
  (c.frameQueue.filterMap stream?).filter (fun f => f.streamId = streamId)

def Assigns (f : StreamFrame) (offset : Nat) (b : UInt8) : Prop :=
  ∃ k, offset = f.offset + k ∧ f.streamData[k]? = some b

def Agree (c : Client τ) : Prop :=
  ∀ streamId, ∀ f ∈ streamFrames c streamId, ∀ g ∈ streamFrames c streamId, ∀ offset b b',
    Assigns f offset b → Assigns g offset b' → b = b'

theorem Assigns.lt {f : StreamFrame} {offset : Nat} {b : UInt8} (h : Assigns f offset b)
    : f.offset ≤ offset ∧ offset < f.offset + f.streamData.length := by
  rcases h with ⟨k, hoffset, hk⟩
  rcases List.getElem?_eq_some_iff.mp hk with ⟨hlt, _⟩
  omega

theorem Assigns.unique {f : StreamFrame} {offset : Nat} {b b' : UInt8} (h : Assigns f offset b)
    (h' : Assigns f offset b')
    : b = b' := by
  rcases h with ⟨k, hoffset, hk⟩
  rcases h' with ⟨k', hoffset', hk'⟩
  have heq : k = k' := by omega
  rw [heq] at hk
  rw [hk] at hk'
  injection hk'

theorem streamFrames_congr {c c' : Client τ} (h : c'.frameQueue = c.frameQueue)
    : streamFrames c' = streamFrames c := by
  unfold streamFrames
  rw [h]

/-- Frames that end where the stream stands, as long as it was written since the connection started. -/
structure Written (c : Client τ) : Prop where
  agree : Agree c
  offset : ∀ id, (c.streams.get id).writeOffset = (c.streams.get id).writeData.length
  behind : ∀ id, (c.streams.get id).writeData ≠ [] → ∀ f ∈ streamFrames c id, f.streamData ≠ [] →
    f.offset + f.streamData.length ≤ (c.streams.get id).writeOffset

theorem Written.same {c c' : Client τ} (h : Written c) (hstreams : c'.streams = c.streams)
    (hqueue : c'.frameQueue = c.frameQueue)
    : Written c' := by
  have hframes := streamFrames_congr hqueue
  constructor
  . unfold Agree
    rw [hframes]
    exact h.agree
  . rw [hstreams]
    exact h.offset
  . rw [hstreams, hframes]
    exact h.behind

theorem Written.restarted {c c' : Client τ} (h : Written c) (hrestarted : Restarted c c')
    : Written c' := by
  have hframes := streamFrames_congr hrestarted.frameQueue
  constructor
  . unfold Agree
    rw [hframes]
    exact h.agree
  . intro id
    rw [hrestarted.streams]
    rfl
  . intro id hwritten
    rw [hrestarted.streams] at hwritten
    exact absurd rfl hwritten

theorem Written.handles {s : HandshakeAgent.State τ} {i : HandshakeAgent.Input} {c : Client τ}
    (h : Written s.conn) (hconn : Handles s i c)
    : Written c := by
  apply hconn.inv h
  . intro cid
    exact h.same rfl rfl
  . intro c c' hc hsent
    exact hc.same hsent.streams hsent.frameQueue
  . intro fresh hrestarted _
    exact h.restarted hrestarted

structure Wrote (streamId : Nat) (data : List UInt8) (f : StreamFrame) (c c' : Client τ) : Prop where
  frameStreamId : f.streamId = streamId
  frameOffset : f.offset = (c.streams.get streamId).writeOffset
  frameData : f.streamData = data
  frameQueue : c'.frameQueue = c.frameQueue ++ [⟨.stream f, .bestAppData⟩]
  others : ∀ id, id ≠ streamId → c'.streams.get id = c.streams.get id
  length : (c.streams.get streamId).writeData.length + data.length < 2 ^ 63
  writeOffset : (c'.streams.get streamId).writeOffset
    = u64 ((c.streams.get streamId).writeOffset + data.length)
  writeData : (c'.streams.get streamId).writeData = (c.streams.get streamId).writeData ++ data

theorem sendOnStream_cases {c c' : Client τ} {streamId : Nat} {data : List UInt8} {fin : Bool}
    (h : c.sendOnStream streamId data fin = some c')
    : ∃ f, Wrote streamId data f c c' := by
  rcases Option.bind_eq_some_iff.mp h with ⟨⟨f, stream⟩, hframe, h⟩
  injection h with h
  rcases Option.bind_eq_some_iff.mp hframe with ⟨written, hwritten, hframe⟩
  injection hframe with hframe
  injection hframe with hf hstream
  unfold Stream.write at hwritten
  split at hwritten
  . next hlength =>
    injection hwritten with hwritten
    rw [← h, ← hf, ← hstream, ← hwritten]
    refine ⟨_, rfl, rfl, rfl, rfl, ?_, hlength, ?_, ?_⟩
    . intro id hid
      simp [Client.submitFrame, Client.withStream, Connection.setStream, Streams.get, hid]
    . simp [Client.submitFrame, Client.withStream, Connection.setStream, Streams.get]
    . simp [Client.submitFrame, Client.withStream, Connection.setStream, Streams.get]
  . contradiction

section Write

variable {streamId : Nat} {data : List UInt8} {f : StreamFrame} {c c' : Client τ}

theorem Wrote.streamFrames_self (h : Wrote streamId data f c c')
    : streamFrames c' streamId = streamFrames c streamId ++ [f] := by
  unfold streamFrames
  rw [h.frameQueue]
  simp [stream?, h.frameStreamId]

theorem Wrote.streamFrames_other (h : Wrote streamId data f c c') {id : Nat} (hid : id ≠ streamId)
    : streamFrames c' id = streamFrames c id := by
  unfold streamFrames
  rw [h.frameQueue]
  simp [stream?, h.frameStreamId, Ne.symm hid]

/-- The stream was written since the connection started, or it carries no data yet. -/
def Continues (c : Client τ) (streamId : Nat) : Prop :=
  (c.streams.get streamId).writeData ≠ [] ∨ ∀ f ∈ streamFrames c streamId, f.streamData = []

theorem Written.le_writeOffset (h : Written c) (hcontinues : Continues c streamId) {g : StreamFrame}
    (hg : g ∈ streamFrames c streamId) (hdata : g.streamData ≠ [])
    : g.offset + g.streamData.length ≤ (c.streams.get streamId).writeOffset := by
  rcases hcontinues with hwritten | hempty
  . exact h.behind streamId hwritten g hg hdata
  . exact absurd (hempty g hg) hdata

theorem Assigns.data_ne_nil {offset : Nat} {b : UInt8} (h : Assigns f offset b) : f.streamData ≠ [] := by
  intro hnil
  have hlt := h.lt
  rw [hnil] at hlt
  simp at hlt
  omega

theorem Written.not_both (h : Written c) (hcontinues : Continues c streamId)
    (hwrote : Wrote streamId data f c c') {g : StreamFrame} (hg : g ∈ streamFrames c streamId)
    {offset : Nat} {b b' : UInt8} (hold : Assigns g offset b) (hnew : Assigns f offset b')
    : False := by
  have hend := h.le_writeOffset hcontinues hg hold.data_ne_nil
  have hstart := hwrote.frameOffset
  have hlt := hold.lt
  have hle := hnew.lt
  omega

theorem Written.agree_write (h : Written c) (hcontinues : Continues c streamId)
    (hwrote : Wrote streamId data f c c')
    : Agree c' := by
  intro id g hg g' hg' offset b b' hb hb'
  by_cases hid : id = streamId
  . subst hid
    rw [hwrote.streamFrames_self] at hg hg'
    rcases List.mem_append.mp hg with hg | hg
    . rcases List.mem_append.mp hg' with hg' | hg'
      . exact h.agree id g hg g' hg' offset b b' hb hb'
      . rw [List.mem_singleton.mp hg'] at hb'
        exact (h.not_both hcontinues hwrote hg hb hb').elim
    . rw [List.mem_singleton.mp hg] at hb
      rcases List.mem_append.mp hg' with hg' | hg'
      . exact (h.not_both hcontinues hwrote hg' hb' hb).elim
      . rw [List.mem_singleton.mp hg'] at hb'
        exact hb.unique hb'
  . rw [hwrote.streamFrames_other hid] at hg hg'
    exact h.agree id g hg g' hg' offset b b' hb hb'

theorem Written.writeOffset_eq (h : Written c) (hwrote : Wrote streamId data f c c')
    : (c'.streams.get streamId).writeOffset = (c.streams.get streamId).writeOffset + data.length := by
  have hlength := hwrote.length
  have hoffset := h.offset streamId
  rw [hwrote.writeOffset]
  exact u64_of_lt (by omega)

theorem Written.write (h : Written c) (hcontinues : Continues c streamId)
    (hwrote : Wrote streamId data f c c')
    : Written c' := by
  have hnext := h.writeOffset_eq hwrote
  refine ⟨h.agree_write hcontinues hwrote, ?_, ?_⟩
  . intro id
    by_cases hid : id = streamId
    . subst hid
      rw [hnext, hwrote.writeData, h.offset id]
      exact List.length_append.symm
    . rw [hwrote.others id hid]
      exact h.offset id
  . intro id hwritten g hg hdata
    by_cases hid : id = streamId
    . subst hid
      rw [hnext]
      rw [hwrote.streamFrames_self] at hg
      rcases List.mem_append.mp hg with hg | hg
      . have hend := h.le_writeOffset hcontinues hg hdata
        omega
      . rw [List.mem_singleton.mp hg]
        rw [hwrote.frameOffset, hwrote.frameData]
    . rw [hwrote.streamFrames_other hid] at hg
      rw [hwrote.others id hid] at hwritten ⊢
      exact h.behind id hwritten g hg hdata

instance (c : Client τ) (streamId : Nat) : Decidable (Continues c streamId) :=
  inferInstanceAs (Decidable (_ ∨ _))

end Write

/-- A stream whose data is queued and that starts at zero again is not written. -/
def WritesOn (s : State τ) (e : Event) : Prop :=
  match e with
  | .write streamId _ _ => Continues s.conn streamId
  | _ => True

instance (s : State τ) (e : Event) : Decidable (WritesOn s e) := by
  unfold WritesOn
  split
  . infer_instance
  . infer_instance

theorem Written.step {s s' : State τ} {e : Event} (h : Written s.conn) (hwrites : WritesOn s e)
    (hrecovery : ∀ i, e ≠ .recovery i) (hstep : Session.step lib s e = some s')
    : Written s'.conn := by
  cases step_cases lib hstep with
  | handshake hconn => exact h.handles hconn
  | recovery _ => exact absurd rfl (hrecovery _)
  | write hwrite =>
    rcases sendOnStream_cases hwrite with ⟨f, hwrote⟩
    exact h.write hwrites hwrote
  | create => exact h.same rfl rfl

theorem Fresh.written {c : Client τ} (h : Fresh c) : Written c := by
  have hframes : ∀ id, streamFrames c id = [] := by
    intro id
    simp [streamFrames, h.frameQueue]
  constructor
  . intro id g hg
    rw [hframes] at hg
    contradiction
  . intro id
    rw [h.streams]
    rfl
  . intro id _ g hg
    rw [hframes] at hg
    contradiction

theorem streamFrames_agree (globals : Globals) (conn : Client τ) (ignoreRetry : Bool)
    (hfresh : Fresh conn) (events : List Event) (s : State τ)
    (hrecovery : ∀ e ∈ events, ∀ i, e ≠ .recovery i)
    (hwrites : Run.Guarded (Session.step lib) WritesOn (Session.start globals conn ignoreRetry) events)
    (hrun : Run.run (Session.step lib) (Session.start globals conn ignoreRetry) events = some s)
    : Agree s.conn := by
  have hstep : ∀ (_ : List Event) s e s', Written s.conn → WritesOn s e ∧ (∀ i, e ≠ .recovery i) →
      Session.step lib s e = some s' → Written s'.conn := by
    intro _ s e s' h he hstep
    exact h.step lib he.1 he.2 hstep
  have hguarded := hwrites.and _ (Run.Guarded.of_forall (Session.step lib)
    (fun e he (_ : State τ) => hrecovery e he) _)
  have hinv : Written s.conn := by
    apply Run.inv_of_run (Session.step lib) hstep [] _ events _ hguarded hrun
    exact (hfresh.start globals ignoreRetry).written
  exact hinv.agree

def sampleWrites : List Event :=
  [.write 0 [0x41] false, .write 0 [0x42] true, .handshake (.incoming (.retry HandshakeAgent.sampleRetry)),
    .write 4 [0x43] true]

theorem streamFrames_agree_sample
    : ∃ s, Run.run (Session.step sampleLibraries) (Session.start {} sampleClient false) sampleWrites = some s ∧
      (streamFrames s.conn 0).map StreamFrame.offset = [0, 1] ∧
      (streamFrames s.conn 4).map StreamFrame.offset = [0] ∧ Agree s.conn := by
  have hrun : ∃ s, Run.run (Session.step sampleLibraries) (Session.start {} sampleClient false) sampleWrites
      = some s ∧ (streamFrames s.conn 0).map StreamFrame.offset = [0, 1] ∧
      (streamFrames s.conn 4).map StreamFrame.offset = [0] := by
    decide +kernel
  rcases hrun with ⟨s, hrun, hzero, hfour⟩
  refine ⟨s, hrun, hzero, hfour, ?_⟩
  exact streamFrames_agree sampleLibraries {} sampleClient false sampleClient_fresh sampleWrites s
    (by simp [sampleWrites]) (by decide +kernel) hrun

/-- The stream is written before and after a Retry, and both frames have the offset zero. -/
theorem not_streamFrames_agree
    : ∃ s, Run.run (Session.step sampleLibraries) (Session.start {} sampleClient false)
        [.write 0 [0x41] true, .handshake (.incoming (.retry HandshakeAgent.sampleRetry)),
          .write 0 [0x42] true] = some s ∧
      ¬ Agree s.conn := by
  have hrun : ∃ s, Run.run (Session.step sampleLibraries) (Session.start {} sampleClient false)
      [.write 0 [0x41] true, .handshake (.incoming (.retry HandshakeAgent.sampleRetry)),
        .write 0 [0x42] true] = some s ∧
      streamFrames s.conn 0 = [⟨true, true, false, 0, 0, 1, [0x41]⟩, ⟨true, true, false, 0, 0, 1, [0x42]⟩] := by
    decide +kernel
  rcases hrun with ⟨s, hrun, hframes⟩
  refine ⟨s, hrun, ?_⟩
  intro hagree
  have heq := hagree 0 _ (by rw [hframes]; exact List.mem_cons_self) ⟨true, true, false, 0, 0, 1, [0x42]⟩
    (by simp [hframes]) 0 0x41 0x42 ⟨0, rfl, rfl⟩ ⟨0, rfl, rfl⟩
  exact absurd heq (by decide)

end Session

end QuicTracker
