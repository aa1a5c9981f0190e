import QuicTracker.Lemmas.Agents.RequestViews
import QuicTracker.Lemmas.Agents.Response

/-!
This module contains the verification that the requests of an HTTP agent do not disturb each other. What
the agent has for the stream of one request moves as the agent of `Impl/Agents/Http.lean` does, which only
has this stream.
-/

namespace QuicTracker

namespace HTTPAgent

namespace Requests

open HTTP3 Shared

def request? (event : Event) : Option Request :=
  match event with
  | .sendRequest r => some r
  | _ => none

def requests (events : List Event) : List Request := events.filterMap request?

def framesOn (streamID : Nat) (event : Event) : List StreamFrame :=
  match event with
  | .readStreamFrame f => if f.streamId = streamID then [f] else []
  | _ => []

/-- Nothing is read on the stream of a request before the request, and the streams are not used up. -/
def Answers (s : State) (event : Event) : Prop :=
  match event with
  | .readStreamFrame f => f.streamId % 4 = 0 → (s.responseBuffer f.streamId).isSome
  | .sendRequest _ => s.nextRequestStream + 4 < 2 ^ 64
  | _ => True

instance (s : State) (event : Event) : Decidable (Answers s event) :=
  match event with
  | .readStreamFrame f =>
    inferInstanceAs (Decidable (f.streamId % 4 = 0 → (s.responseBuffer f.streamId).isSome))
  | .sendRequest _ => inferInstanceAs (Decidable (s.nextRequestStream + 4 < 2 ^ 64))
  | .submitPacket _ | .handlePacket _ | .resume _ | .peerControlStream _ | .peerEncoderStream | .peerDecoderStream
  | .pipe _ | .streamData _ | .frameReceived | .decodedHeaders | .encodedHeaders | .encode _ _
  | .qpack _ _ _ => isTrue trivial

def Known (s : State) (streamID : Nat) : Prop := streamID % 4 = 0 → (s.responseBuffer streamID).isSome

/-- What is in the channels after `n` requests is for their streams, or for one that is not a request's. -/
structure Tags (n : Nat) (s : State) : Prop where
  nextRequestStream : s.nextRequestStream = 4 * n
  requested : ∀ id, (s.responseBuffer id).isSome ↔ ∃ k < n, id = 4 * k
  peer : PeerStreams.Unidirectional s.peer.subscriptions
  streamData : ∀ x ∈ s.streamData, (s.responseBuffer x.1).isSome
  frameReceived : ∀ x ∈ s.frameReceived, Known s x.1
  decodeHeaders : ∀ x ∈ s.decodeHeaders, Known s x.1
  decodedHeaders : ∀ x ∈ s.decodedHeaders, Known s x.1
  reported : ∀ x ∈ s.httpResponseReceived, (s.responseBuffer x.1).isSome

structure Kept (n : Nat) (s : State) : Prop extends Tags n s where
  unsent : ∀ id, id % 4 = 0 → s.responseBuffer id = none → view s id = HTTPAgent.initial

/-- What an event of the agent is for one of its streams. -/
inductive Shows (id : Nat) : Event → HTTPAgent.Event → Prop where
  | addToRead (f : StreamFrame) (hid : f.streamId = id) : Shows id (.readStreamFrame f) (.addToRead f)
  | pipe : Shows id (.pipe id) .pipe
  | streamData (spare : List UInt8) : Shows id (.streamData spare) (.streamData spare)
  | frameReceived : Shows id .frameReceived .frameReceived
  | decodedHeaders : Shows id .decodedHeaders .decodedHeaders
  | qpack (block j : Nat) (headers : List HTTPHeader) (decoderStream : List UInt8)
    : Shows id (.qpack block headers decoderStream) (.qpack j headers)

section Step

variable {n : Nat} {s s' : State}

theorem Tags.responseBuffer_next (h : Tags n s) : s.responseBuffer s.nextRequestStream = none := by
  rw [← Option.not_isSome_iff_eq_none, h.requested]
  rintro ⟨k, hk, heq⟩
  have := h.nextRequestStream
  omega

theorem Kept.view_sendRequest (h : Kept n s) (r : Request) {id : Nat} (hid : id % 4 = 0)
    : view (sendRequest s r) id = view s id := by
  by_cases hnext : id = s.nextRequestStream
  . have hinitial := h.unsent id hid (by rw [hnext]; exact h.responseBuffer_next)
    rw [hinitial]
    have hchan : (s.streams.get id).readChan = [] := congrArg (·.stream.readChan) hinitial
    unfold view HTTPAgent.initial at hinitial
    injection hinitial with hstream hpiped hdata hbuffer hframes hdecode hdecoded hresponse hresponses
    unfold view sendRequest State.streams
    dsimp only
    rw [← hnext, Function.update_self, Function.update_self, Function.update_self, Streams.get_update]
    rw [if_pos rfl]
    unfold State.streams at hstream hchan
    rw [hstream, hchan, hdata, hframes, hdecode, hdecoded, hresponses]
    rfl
  . unfold view sendRequest State.streams
    dsimp only
    rw [Function.update_of_ne hnext, Function.update_of_ne hnext, Function.update_of_ne hnext]
    rw [Streams.get_update, if_neg hnext]

theorem view_handlePeerControlStream (hpeer : PeerStreams.Unidirectional s.peer.subscriptions)
    {spare : List UInt8} (h : handlePeerControlStream s spare = some s') {id : Nat} (hid : id % 4 = 0)
    : view s' id = view s id := by
  unfold handlePeerControlStream at h
  cases hchan : (s.peer.subscriptions .control).chan with
  | nil =>
    rw [hchan] at h
    injection h with h
    rw [h]
  | cons data chan =>
    rw [hchan] at h
    rcases Option.bind_eq_some_iff.mp h with ⟨⟨frames, buffer⟩, _, h⟩
    injection h with h
    have hne := hpeer.controlStreamID_ne hid
    rw [← h]
    unfold view receivedOn
    dsimp only
    rw [seenBy_append, seenBy_map_of_ne hne, List.append_nil]
    unfold State.streams
    rw [PeerStreams.streams_takeChunk]

theorem view_readStreamFrame {f : StreamFrame} (h : withPeer s (.readStreamFrame f) = some s') (id : Nat)
    : view s' id = view s id ∧ f.streamId ≠ id ∨
        f.streamId = id ∧ HTTPAgent.addToRead (view s id) f = some (view s' id) := by
  unfold withPeer at h
  rcases Option.bind_eq_some_iff.mp h with ⟨peer, hpeer, h⟩
  injection h with h
  change PeerStreams.readStreamFrame s.peer f = some peer at hpeer
  unfold PeerStreams.readStreamFrame at hpeer
  rcases Option.bind_eq_some_iff.mp hpeer with ⟨stream, hadd, hpeer⟩
  injection hpeer with hpeer
  have hstreams : s'.streams = Function.update s.streams f.streamId (some stream) := by
    rw [← h, ← hpeer]
    rfl
  by_cases hid : f.streamId = id
  . refine Or.inr ⟨hid, ?_⟩
    have hside : (view s id).stream.addToRead f = some stream.readSide := by
      unfold view State.streams
      rw [Stream.addToRead_readSide, ← hid, hadd]
      rfl
    unfold HTTPAgent.addToRead
    rw [hside]
    unfold view
    rw [hstreams, Streams.get_update, if_pos hid.symm, ← h]
    rfl
  . refine Or.inl ⟨?_, hid⟩
    unfold view
    rw [hstreams, Streams.get_update, if_neg (Ne.symm hid), ← h]

theorem known_of_isSome {id : Nat} (h : (s.responseBuffer id).isSome) : Known s id := by
  intro _
  exact h

theorem Tags.setPeer (h : Tags n s) {peer : PeerStreams.State}
    (hpeer : PeerStreams.Unidirectional peer.subscriptions)
    : Tags n { s with peer := peer } := by
  exact ⟨h.nextRequestStream, h.requested, hpeer, h.streamData, h.frameReceived, h.decodeHeaders,
    h.decodedHeaders, h.reported⟩

theorem Tags.sendOnStream (h : Tags n s) {streamID : Nat} {data : List UInt8} {fin : Bool}
    (hsend : sendOnStream s streamID data fin = some s')
    : Tags n s' := by
  rcases sendOnStream_cases hsend with ⟨f, stream, _, hs'⟩
  rw [hs']
  exact ⟨h.nextRequestStream, h.requested, h.peer, h.streamData, h.frameReceived, h.decodeHeaders,
    h.decodedHeaders, h.reported⟩

theorem isSome_setResponse {id : Nat} (h : (s.responseBuffer id).isSome) (r : HTTPResponse) (id' : Nat)
    : ((setResponse s id r).responseBuffer id').isSome = (s.responseBuffer id').isSome := by
  unfold setResponse
  dsimp only
  by_cases hid : id' = id
  . rw [hid, Function.update_self, h]
    rfl
  . rw [Function.update_of_ne hid]

theorem Tags.setResponse (h : Tags n s) {id : Nat} (hsome : (s.responseBuffer id).isSome) (r : HTTPResponse)
    : Tags n (setResponse s id r) := by
  have hsame := isSome_setResponse hsome r
  constructor
  . exact h.nextRequestStream
  . intro id'
    rw [hsame]
    exact h.requested id'
  . exact h.peer
  . intro x hx
    rw [hsame]
    exact h.streamData x hx
  . intro x hx
    unfold Known
    rw [hsame]
    exact h.frameReceived x hx
  . intro x hx
    unfold Known
    rw [hsame]
    exact h.decodeHeaders x hx
  . intro x hx
    unfold Known
    rw [hsame]
    exact h.decodedHeaders x hx
  . intro x hx
    rw [hsame]
    exact h.reported x hx

theorem Tags.checkResponse (h : Tags n s) {id : Nat} (hsome : (s.responseBuffer id).isSome) (r : HTTPResponse)
    : Tags n (checkResponse s id r) := by
  unfold Requests.checkResponse
  split
  . refine ⟨h.nextRequestStream, h.requested, h.peer, h.streamData, h.frameReceived, h.decodeHeaders,
      h.decodedHeaders, ?_⟩
    intro x hx
    rw [List.mem_append, List.mem_singleton] at hx
    cases hx with
    | inl hx => exact h.reported x hx
    | inr hx =>
      rw [hx]
      exact hsome
  . exact h

theorem Tags.report (h : Tags n s) {id : Nat} (hsome : (s.responseBuffer id).isSome) (r : HTTPResponse)
    : Tags n (Requests.checkResponse (Requests.setResponse s id r) id r) := by
  apply (h.setResponse hsome r).checkResponse
  rw [isSome_setResponse hsome]
  exact hsome

theorem Tags.withPeer (h : Tags n s) {event : PeerStreams.Event} (hstep : withPeer s event = some s')
    : Tags n s' := by
  unfold Requests.withPeer at hstep
  rcases Option.bind_eq_some_iff.mp hstep with ⟨peer, hpeer, hstep⟩
  injection hstep with hstep
  rw [← hstep]
  exact h.setPeer (h.peer.step hpeer)

theorem Tags.sendRequest (h : Tags n s) (hn : s.nextRequestStream + 4 < 2 ^ 64) (r : Request)
    : Tags (n + 1) (sendRequest s r) := by
  have hnext := h.nextRequestStream
  have hmono (id : Nat) (hid : (s.responseBuffer id).isSome)
      : ((Requests.sendRequest s r).responseBuffer id).isSome := by
    unfold Requests.sendRequest
    dsimp only
    by_cases hne : id = s.nextRequestStream
    . rw [hne, Function.update_self]
      rfl
    . rw [Function.update_of_ne hne]
      exact hid
  constructor
  . unfold Requests.sendRequest u64
    dsimp only
    omega
  . intro id
    unfold Requests.sendRequest
    dsimp only
    by_cases hne : id = s.nextRequestStream
    . rw [hne, Function.update_self, hnext]
      simp only [Option.isSome_some, true_iff]
      exact ⟨n, by omega, rfl⟩
    . rw [Function.update_of_ne hne, h.requested]
      constructor
      . rintro ⟨k, hk, hid⟩
        exact ⟨k, by omega, hid⟩
      . rintro ⟨k, hk, hid⟩
        exact ⟨k, by omega, hid⟩
  . exact h.peer
  . exact fun x hx => hmono x.1 (h.streamData x hx)
  . exact fun x hx hid => hmono x.1 (h.frameReceived x hx hid)
  . exact fun x hx hid => hmono x.1 (h.decodeHeaders x hx hid)
  . exact fun x hx hid => hmono x.1 (h.decodedHeaders x hx hid)
  . exact fun x hx => hmono x.1 (h.reported x hx)

theorem Tags.handOver (h : Tags n s) {id : Nat} (hsome : (s.responseBuffer id).isSome) (data : List UInt8)
    : Tags n (handOver s id data) := by
  refine ⟨h.nextRequestStream, h.requested, h.peer, ?_, h.frameReceived, h.decodeHeaders,
    h.decodedHeaders, h.reported⟩
  intro x hx
  unfold Requests.handOver at hx
  rw [List.mem_append, List.mem_singleton] at hx
  cases hx with
  | inl hx => exact h.streamData x hx
  | inr hx =>
    rw [hx]
    exact hsome

theorem Tags.noteFin (h : Tags n s) {id : Nat} (hsome : (s.responseBuffer id).isSome) (r : HTTPResponse)
    : Tags n (noteFin s id r) := by
  unfold Requests.noteFin
  dsimp only
  split
  . exact h.report hsome _
  . exact h.setResponse hsome _

theorem Tags.pipe (h : Tags n s) (id : Nat) : Tags n (pipe s id) := by
  unfold Requests.pipe
  cases hresponse : s.responseBuffer id with
  | none => exact h
  | some response =>
    have hsome : (s.responseBuffer id).isSome := by
      rw [hresponse]
      rfl
    dsimp only
    cases hdata : (s.streams.get id).readChan[s.piped id]? with
    | none => exact h
    | some data => exact (h.handOver hsome data).noteFin hsome _

theorem Tags.received (h : Tags n s) {streamID : Nat} (hknown : Known s streamID) (frames : List HTTPFrame)
    : Tags n { s with frameReceived := s.frameReceived ++ receivedOn streamID frames } := by
  refine ⟨h.nextRequestStream, h.requested, h.peer, h.streamData, ?_, h.decodeHeaders,
    h.decodedHeaders, h.reported⟩
  intro x hx
  unfold receivedOn at hx
  rw [List.mem_append, List.mem_map] at hx
  rcases hx with hx | ⟨frame, _, hx⟩
  . exact h.frameReceived x hx
  . rw [← hx]
    exact hknown

theorem Tags.handleStreamData (h : Tags n s) {spare : List UInt8} (hstep : handleStreamData s spare = some s')
    : Tags n s' := by
  rcases handleStreamData_cases hstep
    with hs' | ⟨streamID, data, streamData, buffer, frames, rest, hqueue, _, _, hs'⟩
  . rw [hs']
    exact h
  . have hhead := h.streamData (streamID, data) (by rw [hqueue]; simp)
    have hreceived := h.received (known_of_isSome hhead) frames
    rw [hs']
    refine ⟨h.nextRequestStream, h.requested, h.peer, ?_, hreceived.frameReceived, h.decodeHeaders,
      h.decodedHeaders, h.reported⟩
    intro x hx
    apply h.streamData
    rw [hqueue]
    exact List.mem_cons_of_mem _ hx

theorem Tags.handlePeerControlStream (h : Tags n s) {spare : List UInt8}
    (hstep : handlePeerControlStream s spare = some s')
    : Tags n s' := by
  unfold Requests.handlePeerControlStream at hstep
  cases hchan : (s.peer.subscriptions .control).chan with
  | nil =>
    rw [hchan] at hstep
    injection hstep with hstep
    rw [← hstep]
    exact h
  | cons data chan =>
    rw [hchan] at hstep
    rcases Option.bind_eq_some_iff.mp hstep with ⟨⟨frames, buffer⟩, _, hstep⟩
    injection hstep with hstep
    rw [← hstep]
    have hknown : Known s ((s.peer.subscriptions .control).streamID.getD maxUint64) := by
      intro hid
      exact absurd rfl (h.peer.controlStreamID_ne hid)
    have hreceived := h.received hknown frames
    exact ⟨h.nextRequestStream, h.requested, h.peer.takeChunk .control, h.streamData,
      hreceived.frameReceived, h.decodeHeaders, h.decodedHeaders, h.reported⟩

theorem Tags.handleFrame (h : Tags n s) {streamID : Nat} (hknown : Known s streamID) (frame : HTTPFrame)
    : Tags n (handleFrame s streamID frame) := by
  cases frame with
  | headers header headerBlock =>
    have hdecode : Tags n { s with decodeHeaders := s.decodeHeaders ++ [(streamID, headerBlock)] } := by
      refine ⟨h.nextRequestStream, h.requested, h.peer, h.streamData, h.frameReceived, ?_,
        h.decodedHeaders, h.reported⟩
      intro x hx
      rw [List.mem_append, List.mem_singleton] at hx
      cases hx with
      | inl hx => exact h.decodeHeaders x hx
      | inr hx =>
        rw [hx]
        exact hknown
    unfold Requests.handleFrame
    dsimp only
    cases hresponse : s.responseBuffer streamID with
    | none => exact hdecode
    | some response => exact hdecode.setResponse (by dsimp only; rw [hresponse]; rfl) _
  | data header payload =>
    unfold Requests.handleFrame
    dsimp only
    cases hresponse : s.responseBuffer streamID with
    | none => exact h
    | some response => exact h.report (by rw [hresponse]; rfl) _
  | settings header settings =>
    unfold Requests.handleFrame
    dsimp only
    split
    . exact h
    . exact ⟨h.nextRequestStream, h.requested, h.peer, h.streamData, h.frameReceived, h.decodeHeaders,
        h.decodedHeaders, h.reported⟩
  | _ => exact h

theorem Tags.handleFrameReceived (h : Tags n s) : Tags n (handleFrameReceived s) := by
  unfold Requests.handleFrameReceived
  cases hqueue : s.frameReceived with
  | nil => exact h
  | cons x frameReceived =>
    rcases x with ⟨streamID, frame⟩
    have hhead := h.frameReceived (streamID, frame) (by rw [hqueue]; simp)
    have hpop : Tags n { s with frameReceived := frameReceived } := by
      refine ⟨h.nextRequestStream, h.requested, h.peer, h.streamData, ?_, h.decodeHeaders,
        h.decodedHeaders, h.reported⟩
      intro x hx
      apply h.frameReceived x
      rw [hqueue]
      exact List.mem_cons_of_mem _ hx
    exact hpop.handleFrame hhead frame

theorem Tags.handleDecodedHeaders (h : Tags n s) : Tags n (handleDecodedHeaders s) := by
  unfold Requests.handleDecodedHeaders
  cases hqueue : s.decodedHeaders with
  | nil => exact h
  | cons x decodedHeaders =>
    rcases x with ⟨streamID, headers⟩
    have hpop : Tags n { s with decodedHeaders := decodedHeaders } := by
      refine ⟨h.nextRequestStream, h.requested, h.peer, h.streamData, h.frameReceived, h.decodeHeaders,
        ?_, h.reported⟩
      intro x hx
      apply h.decodedHeaders x
      rw [hqueue]
      exact List.mem_cons_of_mem _ hx
    dsimp only
    cases hresponse : s.responseBuffer streamID with
    | none => exact hpop
    | some response => exact hpop.report (by dsimp only; rw [hresponse]; rfl) _

theorem Tags.completed (h : Tags n s) {block streamID : Nat} {headerBlock : List UInt8}
    (hblock : s.decodeHeaders[block]? = some (streamID, headerBlock)) (headers : List HTTPHeader)
    : Tags n (completed s block streamID headers) := by
  have hhead := h.decodeHeaders (streamID, headerBlock) (List.mem_of_getElem? hblock)
  unfold Requests.completed
  refine ⟨h.nextRequestStream, h.requested, h.peer, h.streamData, h.frameReceived, ?_, ?_, h.reported⟩
  . intro x hx
    exact h.decodeHeaders x (List.mem_of_mem_eraseIdx hx)
  . intro x hx
    dsimp only at hx
    split at hx
    . rw [List.mem_append, List.mem_singleton] at hx
      cases hx with
      | inl hx => exact h.decodedHeaders x hx
      | inr hx =>
        rw [hx]
        exact hhead
    . exact h.decodedHeaders x hx

theorem Tags.completeHeaders (h : Tags n s) {block : Nat} {headers : List HTTPHeader}
    {decoderStream : List UInt8} (hstep : completeHeaders s block headers decoderStream = some s')
    : Tags n s' := by
  rcases completeHeaders_cases hstep with hs' | ⟨streamID, headerBlock, hblock, hs'⟩
  . rw [hs']
    exact h
  . rcases hs' with hs' | hs'
    . rw [hs']
      exact h.completed hblock headers
    . exact (h.completed hblock headers).sendOnStream hs'

theorem Tags.encode (h : Tags n s) {payload encStream : List UInt8}
    (hstep : encode s payload encStream = some s')
    : Tags n s' := by
  unfold Requests.encode at hstep
  cases hqueue : s.encodeHeaders with
  | nil =>
    rw [hqueue] at hstep
    injection hstep with hstep
    rw [← hstep]
    exact h
  | cons x encodeHeaders =>
    rw [hqueue] at hstep
    dsimp only at hstep
    have hpop : Tags n { s with
        encodeHeaders := encodeHeaders
        encodedHeaders := s.encodedHeaders ++ [(x.1, payload)] } :=
      ⟨h.nextRequestStream, h.requested, h.peer, h.streamData, h.frameReceived, h.decodeHeaders,
        h.decodedHeaders, h.reported⟩
    by_cases hstream : encStream.length > 0
    . rw [if_pos hstream] at hstep
      exact hpop.sendOnStream hstep
    . rw [if_neg hstream] at hstep
      injection hstep with hstep
      rw [← hstep]
      exact hpop

theorem Tags.handleEncodedHeaders (h : Tags n s) (hstep : handleEncodedHeaders s = some s')
    : Tags n s' := by
  unfold Requests.handleEncodedHeaders at hstep
  cases hqueue : s.encodedHeaders with
  | nil =>
    rw [hqueue] at hstep
    injection hstep with hstep
    rw [← hstep]
    exact h
  | cons x encodedHeaders =>
    rw [hqueue] at hstep
    have hpop : Tags n { s with encodedHeaders := encodedHeaders } :=
      ⟨h.nextRequestStream, h.requested, h.peer, h.streamData, h.frameReceived, h.decodeHeaders,
        h.decodedHeaders, h.reported⟩
    unfold sendFrameOnStream at hstep
    rcases Option.bind_eq_some_iff.mp hstep with ⟨frame, _, hstep⟩
    rcases Option.bind_eq_some_iff.mp hstep with ⟨buf, _, hstep⟩
    exact hpop.sendOnStream hstep

theorem step_cases {event : Event} (h : step s event = some s')
    : execute s event = some s' ∨ (s' = s ∧ event.select? ≠ none) := by
  unfold step at h
  split at h
  . exact Or.inl h
  . next hbusy =>
    injection h with h
    refine Or.inr ⟨h.symm, ?_⟩
    intro hnone
    apply hbusy
    simp [hnone]

theorem Tags.execute (h : Tags n s) {event : Event} (hanswers : Answers s event)
    (hstep : execute s event = some s')
    : Tags (n + (requests [event]).length) s' := by
  cases event with
  | readStreamFrame f => exact h.withPeer hstep
  | submitPacket pnSpace => exact h.withPeer hstep
  | handlePacket agent => exact h.withPeer hstep
  | resume agent => exact h.withPeer hstep
  | peerControlStream spare => exact h.handlePeerControlStream hstep
  | peerEncoderStream => exact h.withPeer hstep
  | peerDecoderStream => exact h.withPeer hstep
  | sendRequest r =>
    injection hstep with hstep
    rw [← hstep]
    exact h.sendRequest hanswers r
  | pipe streamID =>
    injection hstep with hstep
    rw [← hstep]
    exact h.pipe streamID
  | streamData spare => exact h.handleStreamData hstep
  | frameReceived =>
    injection hstep with hstep
    rw [← hstep]
    exact h.handleFrameReceived
  | decodedHeaders =>
    injection hstep with hstep
    rw [← hstep]
    exact h.handleDecodedHeaders
  | encodedHeaders => exact h.handleEncodedHeaders hstep
  | encode payload encStream => exact h.encode hstep
  | qpack block headers decoderStream => exact h.completeHeaders hstep

theorem Kept.execute_view (h : Kept n s) {event : Event} (hstep : execute s event = some s') {id : Nat}
    (hid : id % 4 = 0)
    : view s' id = view s id ∧ framesOn id event = [] ∨
        ∃ e, Shows id event e ∧ HTTPAgent.step (view s id) e = some (view s' id) := by
  cases event with
  | readStreamFrame f =>
    rcases view_readStreamFrame hstep id with ⟨hview, hne⟩ | ⟨hf, hadd⟩
    . exact Or.inl ⟨hview, if_neg hne⟩
    . exact Or.inr ⟨.addToRead f, Shows.addToRead f hf, hadd⟩
  | submitPacket _ | handlePacket _ | resume _ | peerEncoderStream | peerDecoderStream =>
    refine Or.inl ⟨view_withPeer hstep ?_ id, rfl⟩
    intro f
    exact PeerStreams.Event.noConfusion
  | peerControlStream spare => exact Or.inl ⟨view_handlePeerControlStream h.peer hstep hid, rfl⟩
  | sendRequest r =>
    injection hstep with hstep
    rw [← hstep]
    exact Or.inl ⟨h.view_sendRequest r hid, rfl⟩
  | pipe streamID =>
    injection hstep with hstep
    rw [← hstep]
    rcases view_pipe s streamID id with hview | ⟨rfl, hview⟩
    . exact Or.inl ⟨hview, rfl⟩
    . exact Or.inr ⟨.pipe, Shows.pipe, congrArg some hview.symm⟩
  | streamData spare =>
    rcases view_handleStreamData hstep id with hview | hview
    . exact Or.inl ⟨hview, rfl⟩
    . exact Or.inr ⟨.streamData spare, Shows.streamData spare, hview⟩
  | frameReceived =>
    injection hstep with hstep
    rw [← hstep]
    rcases view_handleFrameReceived s id (fun frame hframe => h.frameReceived _ hframe hid) with hview | hview
    . exact Or.inl ⟨hview, rfl⟩
    . exact Or.inr ⟨.frameReceived, Shows.frameReceived, congrArg some hview⟩
  | decodedHeaders =>
    injection hstep with hstep
    rw [← hstep]
    rcases view_handleDecodedHeaders s id (fun _ hheaders => h.decodedHeaders _ hheaders hid) with hview | hview
    . exact Or.inl ⟨hview, rfl⟩
    . exact Or.inr ⟨.decodedHeaders, Shows.decodedHeaders, congrArg some hview⟩
  | encodedHeaders => exact Or.inl ⟨view_handleEncodedHeaders hstep id, rfl⟩
  | encode payload encStream => exact Or.inl ⟨view_encode hstep id, rfl⟩
  | qpack block headers decoderStream =>
    rcases view_completeHeaders hstep id with hview | ⟨j, hview⟩
    . exact Or.inl ⟨hview, rfl⟩
    . exact Or.inr ⟨.qpack j headers, Shows.qpack block j headers decoderStream, congrArg some hview⟩

theorem Tags.step (h : Tags n s) {event : Event} (hanswers : Answers s event)
    (hstep : step s event = some s')
    : Tags (n + (requests [event]).length) s' := by
  rcases step_cases hstep with hstep | ⟨rfl, hselect⟩
  . exact h.execute hanswers hstep
  . cases event with
    | sendRequest r => exact absurd rfl hselect
    | _ => exact h

theorem Kept.step_view (h : Kept n s) {event : Event} (hstep : step s event = some s') {id : Nat}
    (hid : id % 4 = 0)
    : view s' id = view s id ∧ framesOn id event = [] ∨
        ∃ e, Shows id event e ∧ HTTPAgent.step (view s id) e = some (view s' id) := by
  rcases step_cases hstep with hstep | ⟨rfl, hselect⟩
  . exact h.execute_view hstep hid
  . cases event with
    | readStreamFrame f => exact absurd rfl hselect
    | _ => exact Or.inl ⟨rfl, rfl⟩

theorem step_initial {event : HTTPAgent.Event} (h : ∀ f, event ≠ .addToRead f)
    : HTTPAgent.step HTTPAgent.initial event = some HTTPAgent.initial := by
  cases event with
  | addToRead f => exact absurd rfl (h f)
  | _ => rfl

theorem Kept.step (h : Kept n s) {event : Event} (hanswers : Answers s event)
    (hstep : step s event = some s')
    : Kept (n + (requests [event]).length) s' := by
  have htags := h.toTags.step hanswers hstep
  refine ⟨htags, ?_⟩
  intro id hid hnone
  have hnone' : s.responseBuffer id = none := by
    rw [← Option.not_isSome_iff_eq_none, htags.requested] at hnone
    rw [← Option.not_isSome_iff_eq_none, h.requested]
    rintro ⟨k, hk, hid⟩
    exact hnone ⟨k, by omega, hid⟩
  have hinitial := h.unsent id hid hnone'
  rcases h.step_view hstep hid with ⟨hview, _⟩ | ⟨e, hshows, hview⟩
  . rw [hview]
    exact hinitial
  . rw [hinitial, step_initial] at hview
    . injection hview with hview
      exact hview.symm
    . intro f he
      rw [he] at hshows
      cases hshows with
      | addToRead _ hf =>
        have hsome := hanswers (by rw [hf]; exact hid)
        rw [hf, hnone'] at hsome
        contradiction

end Step

theorem requests_concat (hist : List Event) (event : Event)
    : (requests (hist ++ [event])).length = (requests hist).length + (requests [event]).length := by
  unfold requests
  rw [List.filterMap_append, List.length_append]

theorem kept_fresh {streams : Streams} (hunused : ∀ id, id % 4 = 0 → streams id = none)
    : Kept 0 (fresh streams) := by
  constructor
  . constructor
    . rfl
    . intro id
      simp [fresh]
    . intro kind id hid
      contradiction
    . intro x hx
      contradiction
    . intro x hx
      contradiction
    . intro x hx
      contradiction
    . intro x hx
      contradiction
    . intro x hx
      contradiction
  . intro id hid _
    have hstream : (fresh streams).streams.get id = newStream := by
      unfold fresh State.streams Streams.get
      dsimp only
      rw [hunused id hid]
    unfold view
    rw [hstream]
    rfl

theorem Kept.sendOnStream {n : Nat} {s s' : State} (h : Kept n s) {streamID : Nat} {data : List UInt8}
    {fin : Bool} (hsend : sendOnStream s streamID data fin = some s')
    : Kept n s' := by
  refine ⟨h.toTags.sendOnStream hsend, ?_⟩
  intro id hid hnone
  rw [view_sendOnStream hsend]
  apply h.unsent id hid
  rcases sendOnStream_cases hsend with ⟨f, stream, _, hs'⟩
  rw [hs'] at hnone
  exact hnone

theorem kept_start {streams : Streams} (hunused : ∀ id, id % 4 = 0 → streams id = none) {s : State}
    (hstart : start streams = some s)
    : Kept 0 s := by
  unfold start at hstart
  rcases Option.bind_eq_some_iff.mp hstart with ⟨s1, h1, hstart⟩
  rcases Option.bind_eq_some_iff.mp hstart with ⟨s2, h2, hstart⟩
  rcases Option.bind_eq_some_iff.mp hstart with ⟨s3, h3, hstart⟩
  unfold sendFrameOnStream at hstart
  rcases Option.bind_eq_some_iff.mp hstart with ⟨frame, _, hstart⟩
  rcases Option.bind_eq_some_iff.mp hstart with ⟨buf, _, hstart⟩
  exact ((((kept_fresh hunused).sendOnStream h1).sendOnStream h2).sendOnStream h3).sendOnStream hstart

theorem Kept.next {hist : List Event} {s s' : State} (h : Kept (requests hist).length s) {event : Event}
    (hanswers : Answers s event) (hstep : Requests.step s event = some s')
    : Kept (requests (hist ++ [event])).length s' := by
  rw [requests_concat]
  exact h.step hanswers hstep

def framesOf (event : HTTPAgent.Event) : List StreamFrame :=
  match event with
  | .addToRead f => [f]
  | _ => []

theorem Shows.framesOf {id : Nat} {event : Event} {e : HTTPAgent.Event} (h : Shows id event e)
    : framesOf e = framesOn id event := by
  cases h with
  | addToRead f hid => exact (if_pos hid).symm
  | _ => rfl

theorem run_isolates (streams : Streams) (hunused : ∀ id, id % 4 = 0 → streams id = none)
    (s₀ : State) (hstart : start streams = some s₀) (events : List Event)
    (hanswers : Run.Guarded step Answers s₀ events) (s : State)
    (hrun : Run.run step s₀ events = some s) (id : Nat) (hid : id % 4 = 0)
    : ∃ own, Run.run HTTPAgent.step HTTPAgent.initial own = some (view s id) ∧
        own.flatMap framesOf = events.flatMap (framesOn id) := by
  have hkept := kept_start hunused hstart
  have hinitial : view s₀ id = HTTPAgent.initial := by
    apply hkept.unsent id hid
    rw [← Option.not_isSome_iff_eq_none, hkept.requested]
    simp
  have hproject (hist : List Event) (s : State) (event : Event) (s' : State)
      (h : Kept (requests hist).length s) (_ : Answers s event) (hstep : step s event = some s')
      : ∃ own, Run.run HTTPAgent.step (view s id) own = some (view s' id) ∧
          own.flatMap framesOf = framesOn id event := by
    rcases h.step_view hstep hid with ⟨hview, hframes⟩ | ⟨e, hshows, hview⟩
    . rw [hview, hframes]
      exact ⟨[], rfl, rfl⟩
    . refine ⟨[e], ?_, ?_⟩
      . rw [Run.run_cons, hview]
        rfl
      . rw [← hshows.framesOf]
        exact List.append_nil _
  rw [← hinitial]
  apply Run.run_projects step HTTPAgent.step (view · id) (framesOn id) framesOf _ hproject [] s₀ events
    hkept hanswers hrun
  intro hist s event s' h hok hstep
  exact Kept.next h hok hstep

def sampleRequest : Request := ⟨"/", "GET", "localhost", [], ""⟩

def sampleEvents : List Event :=
  [.sendRequest sampleRequest, .sendRequest sampleRequest, .encode [1] [2], .encode [3] [], .encodedHeaders,
    .encodedHeaders, .readStreamFrame ⟨false, true, true, 0, 0, 4, [1, 1, 0xc0, 1]⟩,
    .readStreamFrame ⟨true, true, true, 4, 0, 3, [1, 0, 66]⟩, .pipe 4, .pipe 0,
    .streamData (List.replicate 61 0), .streamData (List.replicate 60 0), .frameReceived, .frameReceived,
    .readStreamFrame ⟨true, true, true, 0, 4, 5, [0, 65, 1, 0, 66]⟩, .pipe 0,
    .streamData (List.replicate 55 0), .qpack 0 [⟨":status", "200"⟩] [0x80], .frameReceived, .decodedHeaders,
    .frameReceived]

theorem run_isolates_two
    : ∃ s₀, start (fun _ => none) = some s₀ ∧ ∃ s, Run.run step s₀ sampleEvents = some s ∧
        s.httpResponseReceived.map (fun x => (x.1, x.2.body)) = [(4, [66]), (0, [65, 66])] ∧
        ∃ own, Run.run HTTPAgent.step HTTPAgent.initial own = some (view s 4) ∧
          own.flatMap framesOf = [⟨true, true, true, 4, 0, 3, [1, 0, 66]⟩] := by
  have hrun : ∃ s₀, start (fun _ => none) = some s₀ ∧ Run.Guarded step Answers s₀ sampleEvents ∧
      ∃ s, Run.run step s₀ sampleEvents = some s ∧
        s.httpResponseReceived.map (fun x => (x.1, x.2.body)) = [(4, [66]), (0, [65, 66])] := by
    decide +kernel
  rcases hrun with ⟨s₀, hstart, hanswers, s, hrun, hreported⟩
  refine ⟨s₀, hstart, s, hrun, hreported, ?_⟩
  exact run_isolates _ (fun _ _ => rfl) s₀ hstart sampleEvents hanswers s hrun 4 rfl

/--
The frames on the stream of a request convey the content of its response, and its goroutine takes them as
`PipesWhole` says.
-/
def Conveying (ws : Nat → List WireFrame) (s : State) (event : Event) : Prop :=
  match event with
  | .readStreamFrame f => f.streamId % 4 = 0 →
      ∃ stream, (s.streams.get f.streamId).addToRead f = some stream ∧
        stream.Conveys (content (ws f.streamId))
  | .pipe streamID => PipesWhole (view s streamID) .pipe
  | _ => True

instance (ws : Nat → List WireFrame) (s : State) (event : Event) : Decidable (Conveying ws s event) :=
  match event with
  | .readStreamFrame f =>
    inferInstanceAs (Decidable (f.streamId % 4 = 0 →
      ∃ stream, (s.streams.get f.streamId).addToRead f = some stream ∧
        stream.Conveys (content (ws f.streamId))))
  | .pipe streamID => inferInstanceAs (Decidable (PipesWhole (view s streamID) .pipe))
  | .submitPacket _ | .handlePacket _ | .resume _ | .peerControlStream _ | .peerEncoderStream | .peerDecoderStream
  | .sendRequest _ | .streamData _ | .frameReceived | .decodedHeaders | .encodedHeaders | .encode _ _
  | .qpack _ _ _ => isTrue trivial

def OnTrack (ws : Nat → List WireFrame) (s : State) : Prop :=
  ∀ id, id % 4 = 0 → Tracks (ws id) (view s id) ∧ Once (ws id) (view s id)

section OnTrack

variable {ws : Nat → List WireFrame} {n : Nat} {s s' : State}

theorem Shows.delivers {id : Nat} (hid : id % 4 = 0) {event : Event} {e : HTTPAgent.Event}
    (h : Shows id event e) (hok : Conveying ws s event)
    : Delivers (content (ws id)) (view s id) e := by
  cases h with
  | addToRead f hf =>
    rcases hok (by rw [hf]; exact hid) with ⟨stream, hadd, hconveys⟩
    refine ⟨stream.readSide, ?_, ?_⟩
    . unfold view
      rw [Stream.addToRead_readSide, ← hf, hadd]
      rfl
    . rw [← hf]
      exact hconveys
  | _ => trivial

theorem Shows.pipesWhole {id : Nat} {event : Event} {e : HTTPAgent.Event} (h : Shows id event e)
    (hok : Conveying ws s event)
    : PipesWhole (view s id) e := by
  cases h with
  | pipe => exact hok
  | _ => trivial

theorem OnTrack.step (hws : ∀ id, AllHandled (ws id)) (hd : ∀ id, (content (ws id)).length < 2 ^ 62)
    (h : Kept n s) (htrack : OnTrack ws s) {event : Event} (hok : Conveying ws s event)
    (hstep : Requests.step s event = some s')
    : OnTrack ws s' := by
  intro id hid
  rcases htrack id hid with ⟨htracks, honce⟩
  rcases h.step_view hstep hid with ⟨hview, _⟩ | ⟨e, hshows, hview⟩
  . rw [hview]
    exact ⟨htracks, honce⟩
  . have hmoved := step_moved (hd id) (hws id) htracks (hshows.delivers hid hok) hview
    exact ⟨hmoved.tracks (hd id) htracks, hmoved.once (hd id) htracks honce (hshows.pipesWhole hok)⟩

end OnTrack

end Requests

end HTTPAgent

end QuicTracker
