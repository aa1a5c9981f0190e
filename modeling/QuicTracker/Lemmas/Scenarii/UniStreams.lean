import QuicTracker.Impl.Scenarii.UniStreams
import QuicTracker.Lemmas.Client
import QuicTracker.Lemmas.Scenarii.Scenario

/-!
This module contains the verdicts of `http_get_on_uni_stream` and of `stop_sending_frame_on_receive_stream`: the
first frame of the peer that is a reaction decides.
-/

namespace QuicTracker

namespace GetOnStream2

variable {τ : Type}

def reaction (f : Frame) : Option (Trace → Trace) :=
  match f with
  | .stream f =>
    if f.streamId = 2 then
      some (fun trace => trace.markError receivedDataOnStream2 "")
    else if f.streamId > 3 then
      some (fun trace => trace.markError receivedDataOnUnauthorizedStream "")
    else
      none
  | .connectionClose f => some (fun trace => handleConnectionClose trace f)
  | _ => none

theorem handleFrame_skip (trace : Trace) (f : Frame) (h : reaction f = none)
    : handleFrame trace f = some (.yield trace) := by
  cases f with
  | stream f =>
    unfold reaction at h
    dsimp only at h
    split at h
    . contradiction
    . next h2 =>
      split at h
      . contradiction
      . next h3 =>
        unfold handleFrame handleStreamFrame
        dsimp only
        rw [if_neg h2, if_neg h3]
  | connectionClose f => contradiction
  | _ => rfl

theorem handleFrame_done (trace : Trace) (f : Frame) (g : Trace → Trace) (h : reaction f = some g)
    : handleFrame trace f = some (.done (g trace)) := by
  cases f with
  | stream f =>
    unfold reaction at h
    unfold handleFrame handleStreamFrame
    dsimp only at h ⊢
    split at h
    . next h2 =>
      injection h with h
      rw [if_pos h2, ← h]
    . next h2 =>
      split at h
      . next h3 =>
        injection h with h
        rw [if_neg h2, if_pos h3, ← h]
      . contradiction
  | connectionClose f =>
    injection h with h
    rw [← h]
    rfl
  | _ => contradiction

theorem step_eq_scan : step = fun trace p => Watch.scan handleFrame trace p.allFrames := by
  funext trace p
  cases p with
  | frames p => rfl
  | _ => rfl

theorem watch_step (trace : Trace) (packets : List Packet)
    : Watch.watch step trace packets
        = some (((packets.flatMap Packet.allFrames).findSome? reaction).elim trace (fun g => g trace)) := by
  rw [← Watch.watch_search handleFrame handleFrame_skip handleFrame_done]
  unfold Watch.watch
  rw [step_eq_scan, Watch.scan_flatMap]

def reactionCode (before : Nat) (f : Frame) : Option Nat :=
  match f with
  | .stream f =>
    if f.streamId = 2 then
      some receivedDataOnStream2
    else if f.streamId > 3 then
      some receivedDataOnUnauthorizedStream
    else
      none
  | .connectionClose f =>
    if (before = didNotCloseTheConnection ∧ f.errorCode = errStreamLimitError) ∨
        f.errorCode = errProtocolViolation then
      some tooLowStreamIdUniToSendRequest
    else
      some before
  | _ => none

theorem reactionCode_eq (trace : Trace) (f : Frame)
    : reactionCode trace.errorCode f = (reaction f).map (fun g => (g trace).errorCode) := by
  unfold reactionCode reaction
  cases f with
  | stream f =>
    dsimp only
    split
    . rfl
    . split
      . rfl
      . rfl
  | connectionClose f =>
    dsimp only [Option.map_some, handleConnectionClose]
    split
    . rfl
    . rfl
  | _ => rfl

theorem findSome?_reactionCode (trace : Trace) (frames : List Frame)
    : frames.findSome? (reactionCode trace.errorCode)
        = (frames.findSome? reaction).map (fun g => (g trace).errorCode) := by
  rw [List.map_findSome?]
  congr 1
  exact funext (reactionCode_eq trace)

theorem first_reaction_decides {conn conn' : Client τ} {trace trace' : Trace} {status : HandshakeStatus}
    {receivedParameters : QuicTransportParameters} {preferredUrl : List UInt8} {packets : List Packet}
    (hstatus : status.completed = true)
    (hrun : run conn trace (some status) (some receivedParameters) preferredUrl packets = some (conn', trace'))
    : let before := if receivedParameters.maxUniStreams = 0 then didNotCloseTheConnection else trace.errorCode
      trace'.errorCode = ((packets.flatMap Packet.allFrames).findSome? (reactionCode before)).getD before := by
  unfold run at hrun
  rw [completeHandshake_completed trace _ hstatus, Option.bind_eq_bind, Option.bind_some] at hrun
  rcases Option.bind_eq_some_iff.mp hrun with ⟨_, _, hrun⟩
  rcases Option.bind_eq_some_iff.mp hrun with ⟨trace'', hwatch, hrun⟩
  injection hrun with hrun
  injection hrun with _ hrun
  rw [watch_step] at hwatch
  injection hwatch with hwatch
  have hbefore : (start trace receivedParameters.maxUniStreams).errorCode
      = if receivedParameters.maxUniStreams = 0 then didNotCloseTheConnection else trace.errorCode := by
    unfold start
    split
    . rfl
    . rfl
  dsimp only
  rw [← hrun, ← hwatch, ← hbefore]
  rw [findSome?_reactionCode]
  cases (packets.flatMap Packet.allFrames).findSome? reaction with
  | none => rfl
  | some g => rfl

def samplePacket (frames : List Frame) : Packet :=
  .frames ⟨.short ⟨false, [], ⟨0, 1⟩, 0⟩, .appData, .oneRTT, frames⟩

/--
The peer closes the connection as it must not see the stream, and what it sends behind that is not looked
at.
-/
theorem first_reaction_decides_close
    : ∃ conn' trace', run sampleClient {} (some ⟨true, none, none⟩) (some {}) []
          [samplePacket [.ping, .connectionClose ⟨0x0a, 0, 0, []⟩],
            samplePacket [.stream ⟨false, true, false, 2, 0, 0, []⟩]] = some (conn', trace') ∧
        trace'.errorCode = tooLowStreamIdUniToSendRequest := by
  have hsome : (run sampleClient {} (some ⟨true, none, none⟩) (some {}) []
      [samplePacket [.ping, .connectionClose ⟨0x0a, 0, 0, []⟩],
        samplePacket [.stream ⟨false, true, false, 2, 0, 0, []⟩]]).isSome := by
    decide +kernel
  rcases Option.isSome_iff_exists.mp hsome with ⟨⟨conn', trace'⟩, hrun⟩
  refine ⟨conn', trace', hrun, ?_⟩
  rw [first_reaction_decides rfl hrun]
  decide

end GetOnStream2

namespace StopSendingOnReceiveStream

variable {τ : Type}

def firstClose (p : Packet) : Option (Trace → Trace) := p.closes.head?.map (fun cc trace => judgeClose trace cc)

theorem step_of_closes (trace : Trace) (p : Packet)
    : step trace p = some (p.closes.head?.elim (.yield trace) (fun cc => .done (judgeClose trace cc))) := by
  rcases p with p | p | p
  . rfl
  . rfl
  . unfold step
    dsimp only
    rw [Frame.kind_connectionClose.getFirst]
    change _ = some ((p.frames.filterMap Frame.connectionClose?).head?.elim _ _)
    by_cases hp : p.frames.filterMap Frame.connectionClose? = []
    . rw [if_neg (by rw [Frame.kind_connectionClose.contains]; exact not_not.mpr hp), hp]
      rfl
    . rw [if_pos ((Frame.kind_connectionClose.contains p).mpr hp)]
      rcases List.exists_cons_of_ne_nil hp with ⟨cc, ccs, hcons⟩
      rw [hcons]
      rfl

theorem watch_step (trace : Trace) (packets : List Packet)
    : Watch.watch step trace packets
        = some ((packets.flatMap Packet.closes).head?.elim trace (fun cc => judgeClose trace cc)) := by
  have hskip (trace : Trace) (p : Packet) (h : firstClose p = none) : step trace p = some (.yield trace) := by
    rw [step_of_closes, Option.map_eq_none_iff.mp h]
    rfl
  have hdone (trace : Trace) (p : Packet) (g : Trace → Trace) (h : firstClose p = some g)
      : step trace p = some (.done (g trace)) := by
    rcases Option.map_eq_some_iff.mp h with ⟨cc, hcc, hg⟩
    rw [step_of_closes, hcc, ← hg]
    rfl
  rw [Watch.watch_search step hskip hdone]
  rw [List.head?_flatMap]
  unfold firstClose
  rw [← Function.comp_def, ← List.map_findSome?]
  cases packets.findSome? (fun p => p.closes.head?) with
  | none => rfl
  | some cc => rfl

theorem first_close_decides {conn conn' : Client τ} {trace trace' : Trace} {status : HandshakeStatus}
    {receivedParameters : QuicTransportParameters} {preferredUrl : List UInt8} {packets : List Packet}
    (hstatus : status.completed = true) (huni : receivedParameters.maxUniStreams ≠ 0)
    (hrun : run conn trace (some status) (some receivedParameters) preferredUrl packets = some (conn', trace'))
    : trace'.errorCode = (packets.flatMap Packet.closes).head?.elim didNotCloseTheConnection
        (fun cc => if cc.errorCode = errStreamStateError then 0 else closeTheConnectionWithWrongError) := by
  unfold run at hrun
  rw [completeHandshake_completed trace _ hstatus, Option.bind_eq_bind, Option.bind_some] at hrun
  simp only [if_true, Option.bind_eq_bind, Option.bind_some, if_neg huni] at hrun
  rcases Option.bind_eq_some_iff.mp hrun with ⟨_, _, hrun⟩
  rcases Option.bind_eq_some_iff.mp hrun with ⟨trace'', hwatch, hrun⟩
  injection hrun with hrun
  injection hrun with _ hrun
  rw [watch_step] at hwatch
  injection hwatch with hwatch
  rw [← hrun, ← hwatch]
  cases (packets.flatMap Packet.closes).head? with
  | none => rfl
  | some cc =>
    dsimp only [Option.elim_some, judgeClose]
    by_cases hcc : cc.errorCode = errStreamStateError
    . rw [if_neg (not_not.mpr hcc), if_pos hcc]
    . rw [if_pos hcc, if_neg hcc]
      rfl

theorem first_close_decides_wrong
    : ∃ conn' trace', run sampleClient {} (some ⟨true, none, none⟩) (some { maxUniStreams := 1 }) []
          [GetOnStream2.samplePacket [.ping, .connectionClose ⟨0x0a, 0, 0, []⟩],
            GetOnStream2.samplePacket [.connectionClose ⟨0x05, 0, 0, []⟩]] = some (conn', trace') ∧
        trace'.errorCode = closeTheConnectionWithWrongError := by
  have hsome : (run sampleClient {} (some ⟨true, none, none⟩) (some { maxUniStreams := 1 }) []
      [GetOnStream2.samplePacket [.ping, .connectionClose ⟨0x0a, 0, 0, []⟩],
        GetOnStream2.samplePacket [.connectionClose ⟨0x05, 0, 0, []⟩]]).isSome := by
    decide +kernel
  rcases Option.isSome_iff_exists.mp hsome with ⟨⟨conn', trace'⟩, hrun⟩
  refine ⟨conn', trace', hrun, ?_⟩
  rw [first_close_decides rfl (by decide) hrun]
  decide

end StopSendingOnReceiveStream

end QuicTracker
