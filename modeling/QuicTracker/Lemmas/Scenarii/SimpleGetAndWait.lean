import QuicTracker.Impl.Scenarii.SimpleGetAndWait
import QuicTracker.Lemmas.Scenarii.Scenario

/-!
This module contains when the verdict of `http_get_and_wait` reports the errors that the scenario has recorded.
-/

namespace QuicTracker

namespace ErrorMap

theorem set_ne_empty (m : ErrorMap) (code : Nat) (message : String) : m.set code message ≠ empty := by
  intro h
  injection h with h
  contradiction

theorem length_set_empty (code : Nat) (message : String) : (empty.set code message).length = 1 := by
  rfl

end ErrorMap

namespace SimpleGetAndWait

def Violates (f : StreamFrame) : Prop := f.streamId ≠ 0 ∨ (f.length = 0 ∧ f.finBit = false)

def FrameViolates (f : Frame) : Prop :=
  match f with
  | .stream f => Violates f
  | _ => False

def PacketViolates (p : Packet) : Prop :=
  match p with
  | .frames p => p.encryptionLevel = .oneRTT ∧ ∃ f ∈ p.frames, FrameViolates f
  | _ => False

/-- An error was recorded and is reported, or none was and the code is the one before the loop. -/
structure Judged (code : Nat) (violated : Prop) (s : State) : Prop where
  reported : violated → s.trace.errorCode ≠ 0 ∧ s.errors ≠ .empty
  kept : ¬ violated → s.trace.errorCode = code ∧ s.errors = .empty

variable {code : Nat} {violated : Prop} {s : State}

theorem Judged.congr {violated' : Prop} (h : Judged code violated s) (hiff : violated ↔ violated')
    : Judged code violated' s := by
  rw [← propext hiff]
  exact h

theorem Judged.note {kind : Nat} (hkind : kind ≠ 0) (message : String)
    (hviolated : violated)
    : Judged code violated (s.note kind message) := by
  refine ⟨fun _ => ⟨hkind, ErrorMap.set_ne_empty _ _ _⟩, fun hnot => absurd hviolated hnot⟩

theorem Judged.handleStreamFrame (h : Judged code violated s) (f : StreamFrame)
    : Judged code (violated ∨ Violates f) (handleStreamFrame s f) := by
  unfold SimpleGetAndWait.handleStreamFrame Violates
  dsimp only
  split
  . next hempty =>
    exact .note (by decide) _ (Or.inr (Or.inr (by simpa using hempty)))
  . next hempty =>
    split
    . next hid => exact .note (by decide) _ (Or.inr (Or.inl hid))
    . next hid =>
      apply h.congr
      simp only [not_not] at hid
      simp only [Bool.not_eq_true] at hempty
      simp [hid, hempty]

theorem Judged.handleFrame (h : Judged code violated s) (f : Frame)
    : Judged code (violated ∨ FrameViolates f) (handleFrame s f) := by
  have hsame : Judged code (violated ∨ False) s := h.congr (or_false _).symm.to_iff
  cases f with
  | stream f => exact h.handleStreamFrame f
  | connectionClose f => exact ⟨hsame.reported, hsame.kept⟩
  | applicationClose f => exact ⟨hsame.reported, hsame.kept⟩
  | _ => exact hsame

theorem Judged.foldl {α : Type} {handle : State → α → State} {bad : α → Prop}
    (hstep : ∀ (violated : Prop) (s : State) (a : α), Judged code violated s →
      Judged code (violated ∨ bad a) (handle s a))
    (h : Judged code violated s) (l : List α)
    : Judged code (violated ∨ ∃ a ∈ l, bad a) (l.foldl handle s) := by
  induction l generalizing violated s with
  | nil =>
    apply h.congr
    simp
  | cons a l ih =>
    rw [List.foldl_cons]
    apply (ih (hstep violated s a h)).congr
    simp [or_assoc]

theorem Judged.handlePacket (h : Judged code violated s) (p : Packet)
    : Judged code (violated ∨ PacketViolates p) (handlePacket s p) := by
  have hsame : Judged code (violated ∨ False) s := h.congr (or_false _).symm.to_iff
  cases p with
  | frames p =>
    unfold SimpleGetAndWait.handlePacket PacketViolates
    dsimp only
    split
    . next hlevel =>
      apply (h.foldl (fun _ _ f hf => hf.handleFrame f) p.frames).congr
      simp [hlevel]
    . next hlevel =>
      apply h.congr
      simp [hlevel]
  | _ => exact hsame

theorem judged_start (trace : Trace) (maxBidiStreams : Nat) (packets : List Packet)
    : Judged (start trace maxBidiStreams).trace.errorCode (∃ p ∈ packets, PacketViolates p)
        (packets.foldl SimpleGetAndWait.handlePacket (start trace maxBidiStreams)) := by
  have h : Judged (start trace maxBidiStreams).trace.errorCode False (start trace maxBidiStreams) :=
    ⟨False.elim, fun _ => ⟨rfl, rfl⟩⟩
  apply (h.foldl (fun _ _ p hp => hp.handlePacket p) packets).congr
  simp

theorem finish_errorCode_ne_zero (maxBidiStreams : Nat) (stream : Stream) (h : s.trace.errorCode ≠ 0)
    : (finish s maxBidiStreams stream).trace.errorCode ≠ 0 := by
  unfold finish
  dsimp only
  split
  . exact (by decide : multipleErrors ≠ 0)
  . exact h

theorem finish_errors (maxBidiStreams : Nat) (stream : Stream)
    : (finish s maxBidiStreams stream).errors = judgeResponse s maxBidiStreams stream := by
  unfold finish
  dsimp only
  split
  . rfl
  . rfl

/-- A response that is not complete is recorded without a code, and the code is only set for two errors. -/
theorem finish_incomplete {maxBidiStreams : Nat} {stream : Stream} (hbidi : maxBidiStreams ≠ 0)
    (hstream : ¬ (stream.readClosed = true ∧ stream.readOffset ≠ 0))
    (hcode : s.trace.errorCode = 0) (herrors : s.errors = .empty)
    : (finish s maxBidiStreams stream).trace.errorCode = 0
        ∧ (finish s maxBidiStreams stream).errors ≠ .empty := by
  have hjudge : judgeResponse s maxBidiStreams stream = ErrorMap.empty.set didntReceiveTheRequestedData
      "the response to the request was not complete" := by
    unfold judgeResponse
    rw [if_neg hbidi, if_pos (by tauto), herrors]
  apply And.intro
  . unfold finish
    dsimp only
    rw [hjudge, ErrorMap.length_set_empty, if_neg (by decide)]
    exact hcode
  . rw [finish_errors, hjudge]
    apply ErrorMap.set_ne_empty

def Sound (s : State) : Prop := s.trace.errorCode = 0 → s.errors = .empty

theorem sound_afterHandshake_iff (trace : Trace) (htrace : trace.errorCode = 0) (maxBidiStreams : Nat)
    (packets : List Packet) (stream : Stream)
    : Sound (afterHandshake trace maxBidiStreams packets stream) ↔
        maxBidiStreams = 0 ∨ (stream.readClosed = true ∧ stream.readOffset ≠ 0)
          ∨ ∃ p ∈ packets, PacketViolates p := by
  have hjudged := judged_start trace maxBidiStreams packets
  unfold afterHandshake
  generalize packets.foldl SimpleGetAndWait.handlePacket (start trace maxBidiStreams) = s at hjudged
  by_cases hviolated : ∃ p ∈ packets, PacketViolates p
  . have hne := finish_errorCode_ne_zero maxBidiStreams stream (hjudged.reported hviolated).1
    exact iff_of_true (fun h => absurd h hne) (Or.inr (Or.inr hviolated))
  . rcases hjudged.kept hviolated with ⟨hcode, herrors⟩
    by_cases hbidi : maxBidiStreams = 0
    . have hne : s.trace.errorCode ≠ 0 := by
        rw [hcode, hbidi]
        exact (by decide : tooLowStreamIdBidiToSendRequest ≠ 0)
      exact iff_of_true (fun h => absurd h (finish_errorCode_ne_zero _ _ hne)) (Or.inl hbidi)
    . have hzero : s.trace.errorCode = 0 := by
        rw [hcode]
        unfold start
        dsimp only
        rw [if_neg hbidi]
        exact htrace
      by_cases hstream : stream.readClosed = true ∧ stream.readOffset ≠ 0
      . apply iff_of_true _ (Or.inr (Or.inl hstream))
        intro _
        rw [finish_errors]
        unfold judgeResponse
        rw [if_neg hbidi, if_neg (by simp [hstream]), herrors]
      . rcases finish_incomplete hbidi hstream hzero herrors with ⟨hcode', herrors'⟩
        apply iff_of_false
        . exact fun h => herrors' (h hcode')
        . rintro (hzero' | hcomplete | hpackets)
          . exact hbidi hzero'
          . exact hstream hcomplete
          . exact hviolated hpackets

theorem sound_iff (trace : Trace) (htrace : trace.errorCode = 0) {status : HandshakeStatus}
    (hstatus : status.completed = true) (receivedParameters : QuicTransportParameters)
    (packets : List Packet) (stream : Stream)
    : ∃ s, run trace (some status) (some receivedParameters) packets stream = some s ∧
        (Sound s ↔ receivedParameters.maxBidiStreams = 0 ∨
          (stream.readClosed = true ∧ stream.readOffset ≠ 0) ∨ ∃ p ∈ packets, PacketViolates p) := by
  refine ⟨_, ?_, sound_afterHandshake_iff trace htrace receivedParameters.maxBidiStreams packets stream⟩
  unfold run
  rw [completeHandshake_completed trace _ hstatus]
  rfl

def samplePacket (f : StreamFrame) : Packet :=
  .frames ⟨.short ⟨false, [], ⟨0, 1⟩, 0⟩, .appData, .oneRTT, [.ping, .stream f]⟩

/-- The response comes in two frames, and the stream has all of it when the timer expires. -/
theorem sound_iff_complete
    : ∃ s, run {} (some ⟨true, none, none⟩) (some { maxBidiStreams := 1 })
          [samplePacket ⟨false, true, true, 0, 0, 3, [1, 2, 3]⟩,
            samplePacket ⟨true, true, true, 0, 3, 2, [4, 5]⟩]
          { newStream with readClosed := true, readOffset := 5 } = some s ∧
        Sound s := by
  rcases sound_iff {} rfl (rfl : HandshakeStatus.completed ⟨true, none, none⟩ = true) { maxBidiStreams := 1 }
    [samplePacket ⟨false, true, true, 0, 0, 3, [1, 2, 3]⟩, samplePacket ⟨true, true, true, 0, 3, 2, [4, 5]⟩]
    { newStream with readClosed := true, readOffset := 5 } with ⟨s, hrun, hiff⟩
  exact ⟨s, hrun, hiff.mpr (Or.inr (Or.inl ⟨rfl, by decide⟩))⟩

/-- A server that announces a stream and never answers passes. -/
theorem not_sound
    : run {} (some ⟨true, none, none⟩) (some { maxBidiStreams := 1 }) [] newStream
        = some ⟨{}, ErrorMap.empty.set 9 "the response to the request was not complete", false⟩
        ∧ ¬ Sound ⟨{}, ErrorMap.empty.set 9 "the response to the request was not complete", false⟩ := by
  refine ⟨by decide, ?_⟩
  intro h
  exact absurd (h rfl) (by decide)

end SimpleGetAndWait

end QuicTracker
