import QuicTracker.Lib.Shared
import QuicTracker.Impl.Agents.Requests
import QuicTracker.Lib.Run
import QuicTracker.Lemmas.Frames.Payload

/-!
This module contains what the HTTP agent has for one of its streams, and what each of its steps does to
this part of the state.
-/

namespace QuicTracker

namespace Stream

def readSide (s : Stream) : Stream :=
  { s with
    writeOffset := 0
    writeData := []
    writeClosed := false
    writeCloseOffset := maxUint64 }

theorem noteFin_readSide (s : Stream) (f : StreamFrame)
    : s.readSide.noteFin f = (s.noteFin f).readSide := by
  unfold noteFin
  rw [apply_ite readSide, apply_ite readSide]
  rfl

theorem extend_readSide (s : Stream) (f : StreamFrame)
    : s.readSide.extend f = (s.extend f).map readSide := by
  unfold extend
  rw [apply_ite (Option.map readSide)]
  rfl

theorem fillIn_readSide (s : Stream) (f : StreamFrame)
    : s.readSide.fillIn f = (s.fillIn f).map readSide := by
  unfold fillIn
  dsimp only
  rw [apply_ite (Option.map readSide), apply_ite (Option.map readSide), apply_ite (Option.map readSide)]
  rfl

theorem noteClosed_readSide (s : Stream) : s.readSide.noteClosed = s.noteClosed.readSide := by
  unfold noteClosed
  rw [apply_ite readSide]
  rfl

theorem addToRead_readSide (s : Stream) (f : StreamFrame)
    : s.readSide.addToRead f = (s.addToRead f).map readSide := by
  have hclosed (r : Option Stream)
      : (do let s ← r; return s.noteClosed).map readSide
          = do let s ← r.map readSide; return s.noteClosed := by
    cases r with
    | none => rfl
    | some r => exact congrArg some (noteClosed_readSide r).symm
  unfold addToRead
  rw [noteFin_readSide]
  dsimp only
  rw [apply_ite (Option.map readSide), apply_ite (Option.map readSide)]
  rw [hclosed, hclosed, hclosed, ← extend_readSide, ← fillIn_readSide]
  rfl

end Stream

theorem newStreamFrame_readSide {streamID : Nat} {stream stream' : Stream} {data : List UInt8} {fin : Bool}
    {f : StreamFrame} (h : newStreamFrame streamID stream data fin = some (f, stream'))
    : stream'.readSide = stream.readSide := by
  unfold newStreamFrame Stream.write at h
  split at h
  . injection h with h
    injection h with _ h
    rw [← h]
    rfl
  . contradiction

namespace PeerStreams

theorem handleStreamFrame_streams {s s' : State} {agent : Agent} {f : StreamFrame}
    {frames : List StreamFrame} (h : handleStreamFrame s agent f frames = some s')
    : s'.streams = s.streams := by
  unfold handleStreamFrame at h
  dsimp only at h
  split at h
  . split at h
    . contradiction
    . split at h
      . injection h with h
        rw [← h]
        rfl
      . split at h
        . injection h with h
          rw [← h]
          rfl
        . injection h with h
          rw [← h]
          rfl
  . injection h with h
    rw [← h]
    rfl

theorem resume_streams {s s' : State} {agent : Agent} (h : resume s agent = some s')
    : s'.streams = s.streams := by
  unfold resume at h
  dsimp only at h
  split at h
  . injection h with h
    rw [← h]
    rfl
  . injection h with h
    rw [← h]
    rfl
  . split at h
    . injection h with h
      rw [← h]
    . exact handleStreamFrame_streams h

theorem streams_takeChunk (s : State) (kind : Kind) : (takeChunk s kind).streams = s.streams := by
  unfold takeChunk
  split
  . rfl
  . rfl

theorem handlePacket_cases (s : State) (agent : Agent)
    : handlePacket s agent = s ∨ ∃ incomingPackets loops,
        handlePacket s agent = { s with incomingPackets := incomingPackets, loops := loops } := by
  unfold handlePacket
  split
  . exact Or.inl rfl
  . split
    . exact Or.inr ⟨_, _, rfl⟩
    . exact Or.inl rfl

theorem step_streams {s s' : State} {event : Event} (h : step s event = some s')
    (hevent : ∀ f, event ≠ .readStreamFrame f)
    : s'.streams = s.streams := by
  cases event with
  | readStreamFrame f => exact absurd rfl (hevent f)
  | submitPacket pnSpace =>
    injection h with h
    rw [← h]
    rfl
  | handlePacket agent =>
    injection h with h
    rw [← h]
    rcases handlePacket_cases s agent with hs' | ⟨_, _, hs'⟩
    . rw [hs']
    . rw [hs']
  | resume agent => exact resume_streams h
  | takeChunk kind =>
    injection h with h
    rw [← h]
    exact streams_takeChunk s kind

def Unidirectional (subscriptions : Kind → Subscription) : Prop :=
  ∀ kind id, (subscriptions kind).streamID = some id → id &&& 0x2 = 2

theorem Unidirectional.of_streamID {subscriptions subscriptions' : Kind → Subscription}
    (h : Unidirectional subscriptions)
    (heq : ∀ kind, (subscriptions' kind).streamID = (subscriptions kind).streamID)
    : Unidirectional subscriptions' := by
  intro kind id hid
  apply h kind
  rw [← heq]
  exact hid

theorem Subscription.streamID_submit (streamId : Nat) (chunks : List (List UInt8)) (sub : Subscription)
    : (sub.submit streamId chunks).streamID = sub.streamID := by
  unfold Subscription.submit
  split
  . rfl
  . rfl

theorem Unidirectional.setSubscription {s : State} (h : Unidirectional s.subscriptions) {kind : Kind}
    {sub : Subscription} (hsub : ∀ id, sub.streamID = some id → id &&& 0x2 = 2)
    : Unidirectional (setSubscription s kind sub).subscriptions := by
  intro kind' id hid
  unfold PeerStreams.setSubscription at hid
  dsimp only at hid
  by_cases hkind : kind' = kind
  . rw [hkind, Function.update_self] at hid
    exact hsub id hid
  . rw [Function.update_of_ne hkind] at hid
    exact h kind' id hid

theorem Subscription.streamID_take (sub : Subscription) : sub.take.streamID = sub.streamID := by
  unfold Subscription.take
  split
  . rfl
  . rfl

theorem Unidirectional.takeChunk {s : State} (h : Unidirectional s.subscriptions) (kind : Kind)
    : Unidirectional (takeChunk s kind).subscriptions := by
  unfold PeerStreams.takeChunk
  split
  . apply h.setSubscription
    rw [Subscription.streamID_take]
    exact h kind
  . exact h

theorem Unidirectional.handleStreamFrame {s s' : State} {agent : Agent} (h : Unidirectional s.subscriptions)
    {f : StreamFrame} {frames : List StreamFrame} (heq : handleStreamFrame s agent f frames = some s')
    : Unidirectional s'.subscriptions := by
  unfold PeerStreams.handleStreamFrame at heq
  dsimp only at heq
  split at heq
  . next hfirst =>
    split at heq
    . contradiction
    . split at heq
      . injection heq with heq
        rw [← heq]
        exact h
      . next kind hkind =>
        split at heq
        . injection heq with heq
          rw [← heq]
          exact h
        . injection heq with heq
          rw [← heq]
          apply h.setSubscription
          intro id hid
          injection hid with hid
          rw [← hid]
          exact hfirst.2
  . injection heq with heq
    rw [← heq]
    exact h

theorem Unidirectional.resume {s s' : State} {agent : Agent} (h : Unidirectional s.subscriptions)
    (heq : resume s agent = some s')
    : Unidirectional s'.subscriptions := by
  unfold PeerStreams.resume at heq
  dsimp only at heq
  split at heq
  . next kind f _ =>
    injection heq with heq
    rw [← heq]
    exact h.setSubscription (h kind)
  . next kind f _ =>
    injection heq with heq
    rw [← heq]
    exact h.setSubscription (h kind)
  . split at heq
    . injection heq with heq
      rw [← heq]
      exact h
    . exact h.handleStreamFrame heq

theorem Unidirectional.step {s s' : State} (h : Unidirectional s.subscriptions) {event : Event}
    (hstep : step s event = some s')
    : Unidirectional s'.subscriptions := by
  cases event with
  | readStreamFrame f =>
    change PeerStreams.readStreamFrame s f = some s' at hstep
    unfold PeerStreams.readStreamFrame at hstep
    rcases Option.bind_eq_some_iff.mp hstep with ⟨stream, _, hstep⟩
    injection hstep with hstep
    rw [← hstep]
    apply h.of_streamID
    intro kind
    apply Subscription.streamID_submit
  | submitPacket pnSpace =>
    injection hstep with hstep
    rw [← hstep]
    exact h
  | handlePacket agent =>
    injection hstep with hstep
    rw [← hstep]
    rcases handlePacket_cases s agent with hs' | ⟨_, _, hs'⟩
    . rw [hs']
      exact h
    . rw [hs']
      exact h
  | resume agent => exact h.resume hstep
  | takeChunk kind =>
    injection hstep with hstep
    rw [← hstep]
    exact h.takeChunk kind

theorem ne_of_unidirectional {streamID id : Nat} (h : streamID &&& 0x2 = 2) (hid : id % 4 = 0)
    : streamID ≠ id := by
  intro heq
  have hmod : (id &&& 0x2) % 2 ^ 2 = 2 % 2 ^ 2 := by rw [← heq, h]
  rw [Nat.and_mod_two_pow] at hmod
  have hzero : id % 2 ^ 2 = 0 := hid
  rw [hzero] at hmod
  contradiction

theorem Unidirectional.controlStreamID_ne {subscriptions : Kind → Subscription}
    (h : Unidirectional subscriptions) {id : Nat} (hid : id % 4 = 0)
    : (subscriptions .control).streamID.getD maxUint64 ≠ id := by
  cases hsub : (subscriptions .control).streamID with
  | none =>
    unfold maxUint64
    rw [Option.getD_none]
    omega
  | some streamID => exact ne_of_unidirectional (h .control streamID hsub) hid

end PeerStreams

namespace HTTPAgent

namespace Requests

open HTTP3 Shared

def view (s : State) (streamID : Nat) : HTTPAgent.State where
  stream := (s.streams.get streamID).readSide
  piped := s.piped streamID
  streamData := seenBy streamID s.streamData
  streamDataBuffer := (s.streamDataBuffer streamID).getD []
  frameReceived := seenBy streamID s.frameReceived
  decodeHeaders := seenBy streamID s.decodeHeaders
  decodedHeaders := seenBy streamID s.decodedHeaders
  response := (s.responseBuffer streamID).getD {}
  responses := seenBy streamID s.httpResponseReceived

section View

variable {s s' : State} {id : Nat}

theorem sendOnStream_cases {streamID : Nat} {data : List UInt8} {fin : Bool}
    (h : sendOnStream s streamID data fin = some s')
    : ∃ f stream, newStreamFrame streamID (s.streams.get streamID) data fin = some (f, stream) ∧
        s' = { s with
          peer := { s.peer with streams := Function.update s.streams streamID (some stream) }
          frameQueue := s.frameQueue ++ [f] } := by
  unfold sendOnStream at h
  rcases Option.bind_eq_some_iff.mp h with ⟨⟨f, stream⟩, hframe, h⟩
  injection h with h
  exact ⟨f, stream, hframe, h.symm⟩

theorem view_sendOnStream {streamID : Nat} {data : List UInt8} {fin : Bool}
    (h : sendOnStream s streamID data fin = some s') (id : Nat)
    : view s' id = view s id := by
  rcases sendOnStream_cases h with ⟨f, stream, hframe, hs'⟩
  have hstream : (s'.streams.get id).readSide = (s.streams.get id).readSide := by
    rw [hs']
    unfold State.streams
    rw [Streams.get_update]
    split
    . next hid =>
      rw [hid]
      exact newStreamFrame_readSide hframe
    . rfl
  unfold view
  rw [hstream, hs']

theorem view_sendFrameOnStream {frame : Option HTTPFrame} {streamID : Nat} {fin : Bool}
    (h : sendFrameOnStream s frame streamID fin = some s') (id : Nat)
    : view s' id = view s id := by
  unfold sendFrameOnStream at h
  rcases Option.bind_eq_some_iff.mp h with ⟨frame, _, h⟩
  rcases Option.bind_eq_some_iff.mp h with ⟨buf, _, h⟩
  exact view_sendOnStream h id

theorem view_setResponse_self (s : State) (id : Nat) (r : HTTPResponse)
    : view (setResponse s id r) id = { view s id with response := r } := by
  unfold view setResponse
  dsimp only
  rw [Function.update_self]
  rfl

theorem view_setResponse_of_ne {streamID : Nat} (hne : streamID ≠ id) (s : State) (r : HTTPResponse)
    : view (setResponse s streamID r) id = view s id := by
  unfold view setResponse
  dsimp only
  rw [Function.update_of_ne (Ne.symm hne)]
  rfl

theorem view_checkResponse_self {r : HTTPResponse} (h : (view s id).response = r)
    : view (checkResponse s id r) id = HTTPAgent.checkResponse (view s id) := by
  unfold checkResponse HTTPAgent.checkResponse
  rw [← h]
  split
  . unfold view
    dsimp only
    rw [seenBy_append, seenBy_cons_self, seenBy_nil]
    rfl
  . rfl

theorem view_checkResponse_of_ne {streamID : Nat} (hne : streamID ≠ id) (s : State) (r : HTTPResponse)
    : view (checkResponse s streamID r) id = view s id := by
  unfold checkResponse
  split
  . unfold view
    dsimp only
    rw [seenBy_append, seenBy_cons_of_ne hne, seenBy_nil, List.append_nil]
    rfl
  . rfl

theorem view_reported_self (s : State) (id : Nat) (r : HTTPResponse)
    : view (checkResponse (setResponse s id r) id r) id
        = HTTPAgent.checkResponse { view s id with response := r } := by
  rw [view_checkResponse_self]
  . rw [view_setResponse_self]
  . rw [view_setResponse_self]

theorem view_reported_of_ne {streamID : Nat} (hne : streamID ≠ id) (s : State) (r : HTTPResponse)
    : view (checkResponse (setResponse s streamID r) streamID r) id = view s id := by
  rw [view_checkResponse_of_ne hne, view_setResponse_of_ne hne]

theorem view_handOver_self (s : State) (id : Nat) (data : List UInt8)
    : view (handOver s id data) id = { view s id with
        piped := (view s id).piped + 1
        streamData := (view s id).streamData ++ [data] } := by
  unfold view handOver
  dsimp only
  rw [Function.update_self, seenBy_append, seenBy_cons_self, seenBy_nil]
  rfl

theorem view_handOver_of_ne {streamID : Nat} (hne : streamID ≠ id) (s : State) (data : List UInt8)
    : view (handOver s streamID data) id = view s id := by
  unfold view handOver
  dsimp only
  rw [Function.update_of_ne (Ne.symm hne), seenBy_append, seenBy_cons_of_ne hne, seenBy_nil]
  rw [List.append_nil]
  rfl

theorem view_noteFin_self (s : State) (id : Nat) (response : HTTPResponse)
    : view (noteFin s id response) id
        = if (view s id).stream.readClosed ∨
              response.totalReceived = (view s id).stream.readCloseOffset then
            HTTPAgent.checkResponse { view s id with response := { response with fin := true } }
          else
            { view s id with response := response } := by
  unfold noteFin
  dsimp only
  rw [apply_ite (view · id), view_reported_self, view_setResponse_self]
  rfl

theorem view_noteFin_of_ne {streamID : Nat} (hne : streamID ≠ id) (s : State) (response : HTTPResponse)
    : view (noteFin s streamID response) id = view s id := by
  unfold noteFin
  dsimp only
  rw [apply_ite (view · id), view_reported_of_ne hne, view_setResponse_of_ne hne, ite_self]

theorem view_pipe_self (s : State) (id : Nat) (h : (s.responseBuffer id).isSome)
    : view (pipe s id) id = HTTPAgent.pipe (view s id) := by
  rcases Option.isSome_iff_exists.mp h with ⟨response, hresponse⟩
  have hview : (view s id).response = response := by
    unfold view
    rw [hresponse]
    rfl
  have hchan : (view s id).stream.readChan[(view s id).piped]?
      = (s.streams.get id).readChan[s.piped id]? := rfl
  unfold pipe HTTPAgent.pipe
  rw [hchan, hview, hresponse]
  dsimp only
  cases hdata : (s.streams.get id).readChan[s.piped id]? with
  | none => rfl
  | some data =>
    dsimp only
    rw [view_noteFin_self, view_handOver_self]
    rfl

theorem view_pipe_of_ne {streamID : Nat} (hne : streamID ≠ id) (s : State)
    : view (pipe s streamID) id = view s id := by
  unfold pipe
  cases hresponse : s.responseBuffer streamID with
  | none => rfl
  | some response =>
    dsimp only
    cases hdata : (s.streams.get streamID).readChan[s.piped streamID]? with
    | none => rfl
    | some data =>
      dsimp only
      rw [view_noteFin_of_ne hne, view_handOver_of_ne hne]

theorem view_pipe (s : State) (streamID id : Nat)
    : view (pipe s streamID) id = view s id ∨
        streamID = id ∧ view (pipe s streamID) id = HTTPAgent.pipe (view s id) := by
  by_cases hne : streamID = id
  . rw [hne]
    cases hresponse : s.responseBuffer id with
    | none =>
      left
      unfold pipe
      rw [hresponse]
    | some response =>
      exact Or.inr ⟨rfl, view_pipe_self s id (by rw [hresponse]; rfl)⟩
  . exact Or.inl (view_pipe_of_ne hne s)

theorem handleStreamData_cases {spare : List UInt8} (h : handleStreamData s spare = some s')
    : s' = s ∨ ∃ streamID data streamData streamBuffer frames buffer,
        s.streamData = (streamID, data) :: streamData ∧ s.streamDataBuffer streamID = some streamBuffer ∧
        attemptDecoding ((streamBuffer ++ data).length + 1) (streamBuffer ++ data) spare
          = some (frames, buffer) ∧
        s' = { s with
          streamData := streamData
          streamDataBuffer := Function.update s.streamDataBuffer streamID (some buffer)
          frameReceived := s.frameReceived ++ receivedOn streamID frames } := by
  unfold handleStreamData at h
  cases hqueue : s.streamData with
  | nil =>
    rw [hqueue] at h
    injection h with h
    exact Or.inl h.symm
  | cons x streamData =>
    rcases x with ⟨streamID, data⟩
    rw [hqueue] at h
    rcases Option.bind_eq_some_iff.mp h with ⟨streamBuffer, hbuffer, h⟩
    rcases Option.bind_eq_some_iff.mp h with ⟨⟨frames, buffer⟩, hdecode, h⟩
    injection h with h
    exact Or.inr ⟨streamID, data, streamData, streamBuffer, frames, buffer, rfl, hbuffer, hdecode, h.symm⟩

theorem view_handleStreamData {spare : List UInt8} (h : handleStreamData s spare = some s') (id : Nat)
    : view s' id = view s id ∨ HTTPAgent.handleStreamData (view s id) spare = some (view s' id) := by
  rcases handleStreamData_cases h with hs' | ⟨j, data, streamData, buffer, frames, rest, hqueue, hbuffer, hdecode, hs'⟩
  . rw [hs']
    exact Or.inl rfl
  . by_cases hid : j = id
    . apply Or.inr
      have hqueue' : (view s id).streamData = data :: seenBy id streamData := by
        unfold view
        rw [hqueue, hid, seenBy_cons_self]
      have hbuffer' : (view s id).streamDataBuffer = buffer := by
        unfold view
        rw [← hid, hbuffer]
        rfl
      unfold HTTPAgent.handleStreamData
      rw [hqueue', hbuffer']
      dsimp only
      rw [hdecode, hs', hid]
      unfold view
      dsimp only
      rw [Function.update_self, seenBy_append]
      unfold receivedOn
      rw [seenBy_map_self]
      rfl
    . apply Or.inl
      rw [hs']
      unfold view
      dsimp only
      rw [Function.update_of_ne (Ne.symm hid), seenBy_append, hqueue, seenBy_cons_of_ne hid]
      unfold receivedOn
      rw [seenBy_map_of_ne hid, List.append_nil]
      rfl

theorem view_handleFrame_self (s : State) (frame : HTTPFrame) (h : (s.responseBuffer id).isSome)
    : view (handleFrame s id frame) id = HTTPAgent.handleFrame (view s id) frame := by
  rcases Option.isSome_iff_exists.mp h with ⟨response, hresponse⟩
  have hview : (view s id).response = response := by
    unfold view
    rw [hresponse]
    rfl
  cases frame with
  | headers header headerBlock =>
    unfold handleFrame HTTPAgent.handleFrame
    dsimp only
    rw [hresponse, hview]
    dsimp only
    rw [view_setResponse_self]
    unfold view
    dsimp only
    rw [seenBy_append, seenBy_cons_self, seenBy_nil]
    rfl
  | data header payload =>
    unfold handleFrame HTTPAgent.handleFrame
    dsimp only
    rw [hresponse, hview]
    dsimp only
    rw [view_reported_self]
  | settings header settings =>
    unfold handleFrame HTTPAgent.handleFrame
    dsimp only
    split
    . rfl
    . rfl
  | _ => rfl

theorem view_handleFrame_of_ne {streamID : Nat} (hne : streamID ≠ id) (s : State) (frame : HTTPFrame)
    : view (handleFrame s streamID frame) id = view s id := by
  have hdecode (headerBlock : List UInt8)
      : view { s with decodeHeaders := s.decodeHeaders ++ [(streamID, headerBlock)] } id = view s id := by
    unfold view
    dsimp only
    rw [seenBy_append, seenBy_cons_of_ne hne, seenBy_nil, List.append_nil]
    rfl
  cases frame with
  | headers header headerBlock =>
    unfold handleFrame
    dsimp only
    cases s.responseBuffer streamID with
    | none => exact hdecode headerBlock
    | some response => exact (view_setResponse_of_ne hne _ _).trans (hdecode headerBlock)
  | data header payload =>
    unfold handleFrame
    dsimp only
    cases s.responseBuffer streamID with
    | none => rfl
    | some response => exact view_reported_of_ne hne s _
  | settings header settings =>
    unfold handleFrame
    dsimp only
    split
    . rfl
    . rfl
  | _ => rfl

theorem view_handleFrameReceived (s : State) (id : Nat)
    (hknown : ∀ frame, (id, frame) ∈ s.frameReceived → (s.responseBuffer id).isSome)
    : view (handleFrameReceived s) id = view s id ∨
        HTTPAgent.handleFrameReceived (view s id) = view (handleFrameReceived s) id := by
  unfold handleFrameReceived
  cases hqueue : s.frameReceived with
  | nil => exact Or.inl rfl
  | cons x frameReceived =>
    rcases x with ⟨streamID, frame⟩
    dsimp only
    by_cases hid : streamID = id
    . apply Or.inr
      have hqueue' : (view s id).frameReceived = frame :: seenBy id frameReceived := by
        unfold view
        rw [hqueue, hid, seenBy_cons_self]
      unfold HTTPAgent.handleFrameReceived
      rw [hqueue', hid]
      symm
      apply view_handleFrame_self
      apply hknown frame
      rw [hqueue, hid]
      simp
    . apply Or.inl
      rw [view_handleFrame_of_ne hid]
      unfold view
      dsimp only
      rw [hqueue, seenBy_cons_of_ne hid]
      rfl

theorem view_handleDecodedHeaders (s : State) (id : Nat)
    (hknown : ∀ headers, (id, headers) ∈ s.decodedHeaders → (s.responseBuffer id).isSome)
    : view (handleDecodedHeaders s) id = view s id ∨
        HTTPAgent.handleDecodedHeaders (view s id) = view (handleDecodedHeaders s) id := by
  unfold handleDecodedHeaders
  cases hqueue : s.decodedHeaders with
  | nil => exact Or.inl rfl
  | cons x decodedHeaders =>
    rcases x with ⟨streamID, headers⟩
    dsimp only
    by_cases hid : streamID = id
    . apply Or.inr
      have hqueue' : (view s id).decodedHeaders = headers :: seenBy id decodedHeaders := by
        unfold view
        rw [hqueue, hid, seenBy_cons_self]
      have hsome := hknown headers (by rw [hqueue, hid]; simp)
      rcases Option.isSome_iff_exists.mp hsome with ⟨response, hresponse⟩
      have hview : (view s id).response = response := by
        unfold view
        rw [hresponse]
        rfl
      unfold HTTPAgent.handleDecodedHeaders
      rw [hqueue', hid, hresponse, hview]
      dsimp only
      rw [view_reported_self]
      rfl
    . apply Or.inl
      have hpop : view { s with decodedHeaders := decodedHeaders } id = view s id := by
        unfold view
        dsimp only
        rw [hqueue, seenBy_cons_of_ne hid]
        rfl
      cases s.responseBuffer streamID with
      | none => exact hpop
      | some response => exact (view_reported_of_ne hid _ _).trans hpop

def completed (s : State) (block streamID : Nat) (headers : List HTTPHeader) : State :=
  { s with
    decodeHeaders := s.decodeHeaders.eraseIdx block
    decodedHeaders :=
      if headers.length > 0 then s.decodedHeaders ++ [(streamID, headers)] else s.decodedHeaders }

theorem completeHeaders_cases {block : Nat} {headers : List HTTPHeader} {decoderStream : List UInt8}
    (h : completeHeaders s block headers decoderStream = some s')
    : s' = s ∨ ∃ streamID headerBlock, s.decodeHeaders[block]? = some (streamID, headerBlock) ∧
        (s' = completed s block streamID headers ∨
          sendOnStream (completed s block streamID headers) decoderStreamID decoderStream false
            = some s') := by
  unfold completeHeaders at h
  cases hblock : s.decodeHeaders[block]? with
  | none =>
    rw [hblock] at h
    injection h with h
    exact Or.inl h.symm
  | some x =>
    rcases x with ⟨streamID, headerBlock⟩
    rw [hblock] at h
    refine Or.inr ⟨streamID, headerBlock, rfl, ?_⟩
    unfold completed
    dsimp only at h
    by_cases hheaders : headers.length > 0
    . rw [if_pos hheaders] at h
      rw [if_pos hheaders]
      by_cases hstream : decoderStream.length > 0
      . rw [if_pos hstream] at h
        exact Or.inr h
      . rw [if_neg hstream] at h
        injection h with h
        exact Or.inl h.symm
    . rw [if_neg hheaders] at h
      rw [if_neg hheaders]
      injection h with h
      exact Or.inl h.symm

theorem view_completed_self {block : Nat} {headerBlock : List UInt8}
    (hblock : s.decodeHeaders[block]? = some (id, headerBlock)) (headers : List HTTPHeader)
    : ∃ j, HTTPAgent.completeHeaders (view s id) j headers = view (completed s block id headers) id := by
  rcases seenBy_eraseIdx_self hblock with ⟨j, hj, herase⟩
  have hlt : j < (view s id).decodeHeaders.length := by
    rcases List.getElem?_eq_some_iff.mp hj with ⟨hlt, _⟩
    exact hlt
  refine ⟨j, ?_⟩
  unfold HTTPAgent.completeHeaders completed
  rw [if_pos hlt]
  unfold view
  dsimp only
  rw [herase]
  by_cases hheaders : headers.length > 0
  . rw [if_pos hheaders, if_pos hheaders, seenBy_append, seenBy_cons_self, seenBy_nil]
    rfl
  . rw [if_neg hheaders, if_neg hheaders]
    rfl

theorem view_completed_of_ne {block streamID : Nat} {headerBlock : List UInt8} (hne : streamID ≠ id)
    (hblock : s.decodeHeaders[block]? = some (streamID, headerBlock)) (headers : List HTTPHeader)
    : view (completed s block streamID headers) id = view s id := by
  unfold completed view
  dsimp only
  rw [seenBy_eraseIdx_of_ne hne hblock, apply_ite (seenBy id)]
  rw [seenBy_append, seenBy_cons_of_ne hne, seenBy_nil, List.append_nil, ite_self]
  rfl

theorem view_completeHeaders {block : Nat} {headers : List HTTPHeader} {decoderStream : List UInt8}
    (h : completeHeaders s block headers decoderStream = some s') (id : Nat)
    : view s' id = view s id ∨ ∃ j, HTTPAgent.completeHeaders (view s id) j headers = view s' id := by
  rcases completeHeaders_cases h with hs' | ⟨streamID, headerBlock, hblock, hs'⟩
  . rw [hs']
    exact Or.inl rfl
  . have hview : view s' id = view (completed s block streamID headers) id := by
      rcases hs' with hs' | hs'
      . rw [hs']
      . exact view_sendOnStream hs' id
    rw [hview]
    by_cases hid : streamID = id
    . rw [hid] at hblock ⊢
      exact Or.inr (view_completed_self hblock headers)
    . exact Or.inl (view_completed_of_ne hid hblock headers)

theorem view_encode {payload encStream : List UInt8} (h : encode s payload encStream = some s') (id : Nat)
    : view s' id = view s id := by
  unfold encode at h
  cases hqueue : s.encodeHeaders with
  | nil =>
    rw [hqueue] at h
    injection h with h
    rw [h]
  | cons x encodeHeaders =>
    rw [hqueue] at h
    dsimp only at h
    by_cases hstream : encStream.length > 0
    . rw [if_pos hstream] at h
      exact view_sendOnStream h id
    . rw [if_neg hstream] at h
      injection h with h
      rw [← h]
      rfl

theorem view_handleEncodedHeaders (h : handleEncodedHeaders s = some s') (id : Nat)
    : view s' id = view s id := by
  unfold handleEncodedHeaders at h
  cases hqueue : s.encodedHeaders with
  | nil =>
    rw [hqueue] at h
    injection h with h
    rw [h]
  | cons x encodedHeaders =>
    rw [hqueue] at h
    exact view_sendFrameOnStream h id

theorem view_withPeer {event : PeerStreams.Event} (h : withPeer s event = some s')
    (hevent : ∀ f, event ≠ .readStreamFrame f) (id : Nat)
    : view s' id = view s id := by
  unfold withPeer at h
  rcases Option.bind_eq_some_iff.mp h with ⟨peer, hpeer, h⟩
  injection h with h
  have hstreams : peer.streams = s.peer.streams := PeerStreams.step_streams hpeer hevent
  rw [← h]
  unfold view State.streams
  dsimp only
  rw [hstreams]

end View

end Requests

end HTTPAgent

end QuicTracker
