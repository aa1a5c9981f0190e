import QuicTracker.Lemmas.Agents.Requests

/-!
This module contains the verification of the way of a request: its headers are encoded in the order of the
requests, and written once and at the start of a stream of their own.
-/

namespace QuicTracker

namespace Stream

theorem writeOffset_noteFin (s : Stream) (f : StreamFrame) : (s.noteFin f).writeOffset = s.writeOffset := by
  unfold noteFin
  rw [apply_ite writeOffset, apply_ite writeOffset, ite_self, ite_self]

theorem writeOffset_noteClosed (s : Stream) : s.noteClosed.writeOffset = s.writeOffset := by
  unfold noteClosed
  rw [apply_ite writeOffset, ite_self]

theorem writeOffset_extend {s s' : Stream} {f : StreamFrame} (h : s.extend f = some s')
    : s'.writeOffset = s.writeOffset := by
  unfold extend at h
  dsimp only at h
  split at h
  . injection h with h
    rw [← h]
  . contradiction

theorem writeOffset_fillIn {s s' : Stream} {f : StreamFrame} (h : s.fillIn f = some s')
    : s'.writeOffset = s.writeOffset := by
  unfold fillIn at h
  dsimp only at h
  split at h
  . split at h
    . split at h
      . injection h with h
        rw [← h]
      . contradiction
    . injection h with h
      rw [← h]
  . contradiction

theorem writeOffset_addToRead {s s' : Stream} {f : StreamFrame} (h : s.addToRead f = some s')
    : s'.writeOffset = s.writeOffset := by
  rw [← writeOffset_noteFin s f]
  unfold addToRead at h
  dsimp only at h
  split at h
  . injection h with h
    rw [← h, writeOffset_noteClosed]
    rfl
  . split at h
    . rcases Option.bind_eq_some_iff.mp h with ⟨t, ht, h⟩
      injection h with h
      rw [← h, writeOffset_noteClosed, writeOffset_extend ht]
    . rcases Option.bind_eq_some_iff.mp h with ⟨t, ht, h⟩
      injection h with h
      rw [← h, writeOffset_noteClosed, writeOffset_fillIn ht]

end Stream

namespace HTTPAgent

namespace Requests

open HTTP3

def encoding? (event : Event) : Option (List UInt8 × List UInt8) :=
  match event with
  | .encode payload encStream => some (payload, encStream)
  | _ => none

def encodings (events : List Event) : List (List UInt8 × List UInt8) := events.filterMap encoding?

def onStreams {α : Type} (xs : List α) : List (Nat × α) := xs.zipIdx.map fun x => (4 * x.2, x.1)

def requestFrame (x : Nat × List UInt8) : Option StreamFrame := do
  let frame ← newHEADERS x.2
  let data ← frame.writeTo []
  return {
    finBit := true
    lenBit := true
    offBit := false
    streamId := x.1
    offset := 0
    length := data.length
    streamData := data }

def requestFrames (s : State) : List StreamFrame := s.frameQueue.filter (·.streamId % 4 = 0)

def encoderStream (s : State) : List UInt8 :=
  (s.frameQueue.filter (·.streamId = encoderStreamID)).flatMap (·.streamData)

/-- The QPACK agent is at its `select` and only encodes what was requested, and the streams are not used up. -/
def Requested (s : State) (event : Event) : Prop :=
  match event with
  | .encode _ _ => (s.peer.loops .qpack).atSelect ∧ s.encodeHeaders ≠ []
  | .sendRequest _ => s.nextRequestStream + 4 < 2 ^ 64
  | _ => True

instance (s : State) (event : Event) : Decidable (Requested s event) :=
  match event with
  | .encode _ _ => inferInstanceAs (Decidable (_ ∧ _))
  | .sendRequest _ => inferInstanceAs (Decidable (s.nextRequestStream + 4 < 2 ^ 64))
  | .readStreamFrame _ | .submitPacket _ | .handlePacket _ | .resume _ | .peerControlStream _
  | .peerEncoderStream | .peerDecoderStream | .pipe _ | .streamData _ | .frameReceived | .decodedHeaders | .encodedHeaders
  | .qpack _ _ _ => isTrue trivial

theorem onStreams_concat {α : Type} (xs : List α) (x : α)
    : onStreams (xs ++ [x]) = onStreams xs ++ [(4 * xs.length, x)] := by
  unfold onStreams
  rw [List.zipIdx_append, List.map_append]
  simp

theorem onStreams_split {α : Type} {xs : List α} {front rest : List (Nat × α)} {streamID : Nat} {x : α}
    (h : onStreams xs = front ++ (streamID, x) :: rest)
    : streamID = 4 * front.length := by
  have hget := congrArg (·[front.length]?) h
  simp only [List.getElem?_append_right (Nat.le_refl _), Nat.sub_self, List.getElem?_cons_zero] at hget
  unfold onStreams at hget
  rw [List.getElem?_map, Option.map_eq_some_iff] at hget
  rcases hget with ⟨y, hy, heq⟩
  rw [List.getElem?_zipIdx, Option.map_eq_some_iff] at hy
  rcases hy with ⟨z, _, hz⟩
  rw [← hz] at heq
  injection heq with heq
  rw [← heq, Nat.zero_add]

structure SameWrites (s s' : State) : Prop where
  nextRequestStream : s'.nextRequestStream = s.nextRequestStream
  encodeHeaders : s'.encodeHeaders = s.encodeHeaders
  encodedHeaders : s'.encodedHeaders = s.encodedHeaders
  frameQueue : s'.frameQueue = s.frameQueue
  writeOffset : ∀ id, (s'.streams.get id).writeOffset = (s.streams.get id).writeOffset

section SameWrites

variable {s s' : State}

theorem SameWrites.refl (s : State) : SameWrites s s := by
  exact ⟨rfl, rfl, rfl, rfl, fun _ => rfl⟩

theorem sameWrites_report (s : State) (streamID : Nat) (r : HTTPResponse)
    : SameWrites s (checkResponse (setResponse s streamID r) streamID r) := by
  unfold checkResponse
  split
  . exact ⟨rfl, rfl, rfl, rfl, fun _ => rfl⟩
  . exact ⟨rfl, rfl, rfl, rfl, fun _ => rfl⟩

theorem sameWrites_withPeer {event : PeerStreams.Event} (h : withPeer s event = some s')
    : SameWrites s s' := by
  unfold withPeer at h
  rcases Option.bind_eq_some_iff.mp h with ⟨peer, hpeer, h⟩
  injection h with h
  rw [← h]
  refine ⟨rfl, rfl, rfl, rfl, ?_⟩
  intro id
  change (peer.streams.get id).writeOffset = (s.peer.streams.get id).writeOffset
  by_cases hevent : ∀ f, event ≠ .readStreamFrame f
  . rw [PeerStreams.step_streams hpeer hevent]
  . push Not at hevent
    rcases hevent with ⟨f, hf⟩
    rw [hf] at hpeer
    change PeerStreams.readStreamFrame s.peer f = some peer at hpeer
    unfold PeerStreams.readStreamFrame at hpeer
    rcases Option.bind_eq_some_iff.mp hpeer with ⟨stream, hadd, hpeer⟩
    injection hpeer with hpeer
    rw [← hpeer]
    dsimp only
    rw [Streams.get_update]
    split
    . next hid => rw [hid, Stream.writeOffset_addToRead hadd]
    . rfl

theorem sameWrites_handlePeerControlStream {spare : List UInt8}
    (h : handlePeerControlStream s spare = some s')
    : SameWrites s s' := by
  unfold handlePeerControlStream at h
  cases hchan : (s.peer.subscriptions .control).chan with
  | nil =>
    rw [hchan] at h
    injection h with h
    rw [← h]
    exact SameWrites.refl s
  | cons data chan =>
    rw [hchan] at h
    rcases Option.bind_eq_some_iff.mp h with ⟨⟨frames, buffer⟩, _, h⟩
    injection h with h
    rw [← h]
    refine ⟨rfl, rfl, rfl, rfl, ?_⟩
    intro id
    unfold State.streams
    rw [PeerStreams.streams_takeChunk]

theorem sameWrites_noteFin (s : State) (streamID : Nat) (r : HTTPResponse)
    : SameWrites s (noteFin s streamID r) := by
  unfold noteFin
  dsimp only
  split
  . exact sameWrites_report s streamID _
  . exact ⟨rfl, rfl, rfl, rfl, fun _ => rfl⟩

theorem sameWrites_pipe (s : State) (streamID : Nat) : SameWrites s (pipe s streamID) := by
  unfold pipe
  cases s.responseBuffer streamID with
  | none => exact SameWrites.refl s
  | some response =>
    dsimp only
    cases (s.streams.get streamID).readChan[s.piped streamID]? with
    | none => exact SameWrites.refl s
    | some data =>
      have hfin := sameWrites_noteFin (handOver s streamID data) streamID (addReceived response data)
      exact ⟨hfin.nextRequestStream, hfin.encodeHeaders, hfin.encodedHeaders, hfin.frameQueue,
        hfin.writeOffset⟩

theorem sameWrites_handleStreamData {spare : List UInt8} (h : handleStreamData s spare = some s')
    : SameWrites s s' := by
  rcases handleStreamData_cases h with hs' | ⟨_, _, _, _, _, _, _, _, _, hs'⟩
  . rw [hs']
    exact SameWrites.refl s
  . rw [hs']
    exact ⟨rfl, rfl, rfl, rfl, fun _ => rfl⟩

theorem sameWrites_handleFrame (s : State) (streamID : Nat) (frame : HTTPFrame)
    : SameWrites s (handleFrame s streamID frame) := by
  cases frame with
  | headers header headerBlock =>
    unfold handleFrame
    dsimp only
    cases s.responseBuffer streamID with
    | none => exact ⟨rfl, rfl, rfl, rfl, fun _ => rfl⟩
    | some response => exact ⟨rfl, rfl, rfl, rfl, fun _ => rfl⟩
  | data header payload =>
    unfold handleFrame
    dsimp only
    cases s.responseBuffer streamID with
    | none => exact SameWrites.refl s
    | some response => exact sameWrites_report s streamID _
  | settings header settings =>
    unfold handleFrame
    dsimp only
    split
    . exact SameWrites.refl s
    . exact ⟨rfl, rfl, rfl, rfl, fun _ => rfl⟩
  | _ => exact SameWrites.refl s

theorem sameWrites_handleFrameReceived (s : State) : SameWrites s (handleFrameReceived s) := by
  unfold handleFrameReceived
  cases s.frameReceived with
  | nil => exact SameWrites.refl s
  | cons x frameReceived =>
    have hframe := sameWrites_handleFrame { s with frameReceived := frameReceived } x.1 x.2
    exact ⟨hframe.nextRequestStream, hframe.encodeHeaders, hframe.encodedHeaders, hframe.frameQueue,
      hframe.writeOffset⟩

theorem sameWrites_handleDecodedHeaders (s : State) : SameWrites s (handleDecodedHeaders s) := by
  unfold handleDecodedHeaders
  cases s.decodedHeaders with
  | nil => exact SameWrites.refl s
  | cons x decodedHeaders =>
    dsimp only
    cases s.responseBuffer x.1 with
    | none => exact ⟨rfl, rfl, rfl, rfl, fun _ => rfl⟩
    | some response =>
      have hreport := sameWrites_report { s with decodedHeaders := decodedHeaders } x.1
      exact ⟨(hreport _).nextRequestStream, (hreport _).encodeHeaders, (hreport _).encodedHeaders,
        (hreport _).frameQueue, (hreport _).writeOffset⟩

end SameWrites

structure Writes (hist : List Event) (s : State) : Prop where
  nextRequestStream : s.nextRequestStream = 4 * (requests hist).length
  encoderStream : encoderStream s = 'H'.toUInt8 :: (encodings hist).flatMap Prod.snd
  taken : ∃ taken, onStreams ((requests hist).map Request.hdrs) = taken ++ s.encodeHeaders ∧
    taken.length = (encodings hist).length
  written : ∃ written, onStreams ((encodings hist).map Prod.fst) = written ++ s.encodedHeaders ∧
    written.map requestFrame = (requestFrames s).map some ∧
    ∀ k, written.length ≤ k → (s.streams.get (4 * k)).writeOffset = 0

section Writes

variable {hist : List Event} {s s' : State}

theorem newStreamFrame_frame {streamID : Nat} {stream stream' : Stream} {data : List UInt8} {fin : Bool}
    {f : StreamFrame} (h : newStreamFrame streamID stream data fin = some (f, stream'))
    : f = ⟨fin, true, stream.writeOffset > 0, streamID, stream.writeOffset, data.length, data⟩ := by
  unfold newStreamFrame at h
  rcases Option.bind_eq_some_iff.mp h with ⟨written, _, h⟩
  injection h with h
  injection h with h
  exact h.symm

structure WroteBeside (streamID : Nat) (data : List UInt8) (s s' : State) : Prop where
  nextRequestStream : s'.nextRequestStream = s.nextRequestStream
  encodeHeaders : s'.encodeHeaders = s.encodeHeaders
  encodedHeaders : s'.encodedHeaders = s.encodedHeaders
  requestFrames : requestFrames s' = requestFrames s
  encoderStream : encoderStream s' = encoderStream s ++ if streamID = encoderStreamID then data else []
  writeOffset : ∀ k, (s'.streams.get (4 * k)).writeOffset = (s.streams.get (4 * k)).writeOffset

theorem wroteBeside_sendOnStream {streamID : Nat} (hid : streamID % 4 ≠ 0) {data : List UInt8} {fin : Bool}
    (h : sendOnStream s streamID data fin = some s')
    : WroteBeside streamID data s s' := by
  rcases sendOnStream_cases h with ⟨f, stream, hframe, hs'⟩
  have hf := newStreamFrame_frame hframe
  rw [hs']
  refine ⟨rfl, rfl, rfl, ?_, ?_, ?_⟩
  . unfold Requests.requestFrames
    rw [List.filter_append, List.filter_singleton, hf]
    simp [hid]
  . unfold Requests.encoderStream
    rw [List.filter_append, List.flatMap_append, List.filter_singleton, hf]
    by_cases henc : streamID = encoderStreamID
    . simp [henc]
    . simp [henc]
  . intro k
    change (Streams.get (Function.update s.streams streamID (some stream)) (4 * k)).writeOffset = _
    rw [Streams.get_update, if_neg]
    intro heq
    rw [← heq] at hid
    omega

theorem SameWrites.beside (h : SameWrites s s') : WroteBeside decoderStreamID [] s s' := by
  refine ⟨h.nextRequestStream, h.encodeHeaders, h.encodedHeaders, ?_, ?_, fun k => h.writeOffset (4 * k)⟩
  . unfold Requests.requestFrames
    rw [h.frameQueue]
  . unfold Requests.encoderStream
    rw [h.frameQueue]
    simp

theorem Writes.quiet (h : Writes hist s) {event : Event} (hrequest : request? event = none)
    (hencoding : encoding? event = none)
    : Writes (hist ++ [event]) s := by
  have hrequests : requests (hist ++ [event]) = requests hist := by
    simp [requests, hrequest]
  have hencodings : encodings (hist ++ [event]) = encodings hist := by
    simp [encodings, hencoding]
  constructor
  . rw [hrequests]
    exact h.nextRequestStream
  . rw [hencodings]
    exact h.encoderStream
  . rw [hrequests, hencodings]
    exact h.taken
  . rw [hencodings]
    exact h.written

theorem Writes.sendRequest (h : Writes hist s) (r : Request) (hn : s.nextRequestStream + 4 < 2 ^ 64)
    : Writes (hist ++ [.sendRequest r]) (sendRequest s r) := by
  have hrequests : requests (hist ++ [.sendRequest r]) = requests hist ++ [r] := by
    simp [requests, request?]
  have hencodings : encodings (hist ++ [.sendRequest r]) = encodings hist := by
    simp [encodings, encoding?]
  have hnext := h.nextRequestStream
  rcases h.taken with ⟨taken, htaken, hlen⟩
  rcases h.written with ⟨written, hwritten, hmap, hoffset⟩
  constructor
  . rw [hrequests, List.length_append, List.length_singleton]
    unfold Requests.sendRequest u64
    dsimp only
    omega
  . rw [hencodings]
    exact h.encoderStream
  . refine ⟨taken, ?_, ?_⟩
    . rw [hrequests, List.map_append, List.map_singleton, onStreams_concat, htaken, List.length_map]
      rw [← hnext, List.append_assoc]
      rfl
    . rw [hencodings]
      exact hlen
  . rw [hencodings]
    refine ⟨written, hwritten, hmap, ?_⟩
    intro k hk
    rw [← hoffset k hk]
    unfold Requests.sendRequest State.streams
    dsimp only
    rw [Streams.get_update]
    split
    . next hid => rw [hid]
    . rfl

theorem Writes.beside (h : Writes hist s) {streamID : Nat} {data : List UInt8} (hid : streamID ≠ encoderStreamID)
    (hwrote : WroteBeside streamID data s s')
    : Writes hist s' := by
  rcases h.written with ⟨written, hwritten, hmap, hoffset⟩
  constructor
  . rw [hwrote.nextRequestStream]
    exact h.nextRequestStream
  . rw [hwrote.encoderStream, if_neg hid, List.append_nil]
    exact h.encoderStream
  . rw [hwrote.encodeHeaders]
    exact h.taken
  . rw [hwrote.encodedHeaders, hwrote.requestFrames]
    refine ⟨written, hwritten, hmap, ?_⟩
    intro k hk
    rw [hwrote.writeOffset]
    exact hoffset k hk

theorem Writes.same (h : Writes hist s) (hsame : SameWrites s s') {event : Event}
    (hrequest : request? event = none) (hencoding : encoding? event = none)
    : Writes (hist ++ [event]) s' := by
  exact (h.beside (by decide) hsame.beside).quiet hrequest hencoding

theorem encode_cases {payload encStream : List UInt8} (hne : s.encodeHeaders ≠ [])
    (h : encode s payload encStream = some s')
    : ∃ streamID hdrs encodeHeaders, s.encodeHeaders = (streamID, hdrs) :: encodeHeaders ∧
        WroteBeside encoderStreamID encStream { s with
          encodeHeaders := encodeHeaders
          encodedHeaders := s.encodedHeaders ++ [(streamID, payload)] } s' := by
  unfold encode at h
  cases hqueue : s.encodeHeaders with
  | nil => exact absurd hqueue hne
  | cons x encodeHeaders =>
    rcases x with ⟨streamID, hdrs⟩
    refine ⟨streamID, hdrs, encodeHeaders, rfl, ?_⟩
    rw [hqueue] at h
    dsimp only at h
    by_cases hstream : encStream.length > 0
    . rw [if_pos hstream] at h
      exact wroteBeside_sendOnStream (by decide) h
    . rw [if_neg hstream] at h
      injection h with h
      have hnil : encStream = [] := by
        rw [← List.length_eq_zero_iff]
        omega
      rw [← h, hnil]
      exact ⟨rfl, rfl, rfl, rfl, by simp, fun _ => rfl⟩

theorem Writes.encode (h : Writes hist s) {payload encStream : List UInt8} (hne : s.encodeHeaders ≠ [])
    (hstep : encode s payload encStream = some s')
    : Writes (hist ++ [.encode payload encStream]) s' := by
  have hrequests : requests (hist ++ [.encode payload encStream]) = requests hist := by
    simp [requests, request?]
  have hencodings : encodings (hist ++ [.encode payload encStream])
      = encodings hist ++ [(payload, encStream)] := by
    simp [encodings, encoding?]
  rcases encode_cases hne hstep with ⟨streamID, hdrs, encodeHeaders, hqueue, hwrote⟩
  rcases h.taken with ⟨taken, htaken, hlen⟩
  rcases h.written with ⟨written, hwritten, hmap, hoffset⟩
  rw [hqueue] at htaken
  have hid := onStreams_split htaken
  constructor
  . rw [hrequests, hwrote.nextRequestStream]
    exact h.nextRequestStream
  . rw [hencodings, List.flatMap_append, hwrote.encoderStream, if_pos rfl, List.flatMap_singleton]
    exact congrArg (· ++ encStream) h.encoderStream
  . refine ⟨taken ++ [(streamID, hdrs)], ?_, ?_⟩
    . rw [hrequests, htaken, hwrote.encodeHeaders]
      simp
    . rw [hencodings, List.length_append, List.length_append, hlen]
      rfl
  . refine ⟨written, ?_, ?_, ?_⟩
    . rw [hencodings, List.map_append, List.map_singleton, onStreams_concat, hwritten, List.length_map]
      rw [← hlen, ← hid, List.append_assoc, hwrote.encodedHeaders]
    . rw [hwrote.requestFrames]
      exact hmap
    . intro k hk
      rw [hwrote.writeOffset]
      exact hoffset k hk

theorem requestFrame_eq {streamID : Nat} {block buf : List UInt8} {frame : HTTPFrame}
    (hframe : newHEADERS block = some frame) (hbuf : frame.writeTo [] = some buf)
    : requestFrame (streamID, block) = some ⟨true, true, false, streamID, 0, buf.length, buf⟩ := by
  unfold requestFrame
  dsimp only
  rw [hframe, Option.bind_eq_bind, Option.bind_some, hbuf]
  rfl

theorem handleEncodedHeaders_cases (h : handleEncodedHeaders s = some s')
    : s' = s ∨ ∃ streamID block encodedHeaders f stream,
        s.encodedHeaders = (streamID, block) :: encodedHeaders ∧ f.streamId = streamID ∧
        ((s.streams.get streamID).writeOffset = 0 → requestFrame (streamID, block) = some f) ∧
        s' = { s with
          peer := { s.peer with streams := Function.update s.streams streamID (some stream) }
          frameQueue := s.frameQueue ++ [f]
          encodedHeaders := encodedHeaders } := by
  unfold handleEncodedHeaders at h
  cases hqueue : s.encodedHeaders with
  | nil =>
    rw [hqueue] at h
    injection h with h
    exact Or.inl h.symm
  | cons x encodedHeaders =>
    rcases x with ⟨streamID, block⟩
    rw [hqueue] at h
    unfold sendFrameOnStream at h
    rcases Option.bind_eq_some_iff.mp h with ⟨frame, hframe, h⟩
    rcases Option.bind_eq_some_iff.mp h with ⟨buf, hbuf, h⟩
    rcases sendOnStream_cases h with ⟨f, stream, hnew, hs'⟩
    have hf := newStreamFrame_frame hnew
    refine Or.inr ⟨streamID, block, encodedHeaders, f, stream, rfl, by rw [hf], ?_, hs'⟩
    intro hzero
    change f = ⟨true, true, (s.streams.get streamID).writeOffset > 0, streamID,
      (s.streams.get streamID).writeOffset, buf.length, buf⟩ at hf
    rw [requestFrame_eq hframe hbuf, hf, hzero]
    rfl

theorem Writes.handleEncodedHeaders (h : Writes hist s) (hstep : handleEncodedHeaders s = some s')
    : Writes hist s' := by
  rcases handleEncodedHeaders_cases hstep
    with hs' | ⟨streamID, block, encodedHeaders, f, stream, hqueue, hfid, hrequest, hs'⟩
  . rw [hs']
    exact h
  . rcases h.written with ⟨written, hwritten, hmap, hoffset⟩
    rw [hqueue] at hwritten
    have hid := onStreams_split hwritten
    have hframe : requestFrame (streamID, block) = some f := by
      apply hrequest
      rw [hid]
      exact hoffset written.length (Nat.le_refl _)
    rw [hs']
    refine ⟨h.nextRequestStream, ?_, h.taken, written ++ [(streamID, block)], ?_, ?_, ?_⟩
    . have hne : f.streamId ≠ encoderStreamID := by
        unfold encoderStreamID
        omega
      rw [← h.encoderStream]
      unfold Requests.encoderStream
      rw [List.filter_append, List.flatMap_append, List.filter_singleton]
      simp [hne]
    . rw [hwritten]
      simp
    . have hmod : f.streamId % 4 = 0 := by omega
      rw [List.map_append, hmap]
      unfold requestFrames
      rw [List.filter_append, List.filter_singleton]
      simp [hmod, hframe]
    . intro k hk
      rw [List.length_append, List.length_singleton] at hk
      change (Streams.get (Function.update s.streams streamID (some stream)) (4 * k)).writeOffset = 0
      rw [Streams.get_update, if_neg (by omega)]
      exact hoffset k (by omega)

theorem Writes.completeHeaders (h : Writes hist s) {block : Nat} {headers : List HTTPHeader}
    {decoderStream : List UInt8} (hstep : completeHeaders s block headers decoderStream = some s')
    : Writes hist s' := by
  rcases completeHeaders_cases hstep with hs' | ⟨streamID, headerBlock, _, hs'⟩
  . rw [hs']
    exact h
  . have hcompleted : Writes hist (completed s block streamID headers) :=
      ⟨h.nextRequestStream, h.encoderStream, h.taken, h.written⟩
    rcases hs' with hs' | hs'
    . rw [hs']
      exact hcompleted
    . exact hcompleted.beside (by decide) (wroteBeside_sendOnStream (by decide) hs')

theorem Writes.execute (h : Writes hist s) {event : Event} (hok : Requested s event)
    (hstep : execute s event = some s')
    : Writes (hist ++ [event]) s' := by
  cases event with
  | readStreamFrame f => exact h.same (sameWrites_withPeer hstep) rfl rfl
  | submitPacket pnSpace => exact h.same (sameWrites_withPeer hstep) rfl rfl
  | handlePacket agent => exact h.same (sameWrites_withPeer hstep) rfl rfl
  | resume agent => exact h.same (sameWrites_withPeer hstep) rfl rfl
  | peerControlStream spare => exact h.same (sameWrites_handlePeerControlStream hstep) rfl rfl
  | peerEncoderStream => exact h.same (sameWrites_withPeer hstep) rfl rfl
  | peerDecoderStream => exact h.same (sameWrites_withPeer hstep) rfl rfl
  | sendRequest r =>
    injection hstep with hstep
    rw [← hstep]
    exact h.sendRequest r hok
  | pipe streamID =>
    injection hstep with hstep
    rw [← hstep]
    exact h.same (sameWrites_pipe s streamID) rfl rfl
  | streamData spare => exact h.same (sameWrites_handleStreamData hstep) rfl rfl
  | frameReceived =>
    injection hstep with hstep
    rw [← hstep]
    exact h.same (sameWrites_handleFrameReceived s) rfl rfl
  | decodedHeaders =>
    injection hstep with hstep
    rw [← hstep]
    exact h.same (sameWrites_handleDecodedHeaders s) rfl rfl
  | encodedHeaders => exact (h.handleEncodedHeaders hstep).quiet rfl rfl
  | encode payload encStream => exact h.encode hok.2 hstep
  | qpack block headers decoderStream => exact (h.completeHeaders hstep).quiet rfl rfl

theorem Writes.step (h : Writes hist s) {event : Event} (hok : Requested s event)
    (hstep : step s event = some s')
    : Writes (hist ++ [event]) s' := by
  by_cases hencode : ∃ payload encStream, event = .encode payload encStream
  . rcases hencode with ⟨payload, encStream, rfl⟩
    unfold Requests.step at hstep
    rw [if_pos (by simpa [Event.select?] using hok.1)] at hstep
    exact h.execute hok hstep
  . rcases step_cases hstep with hstep | ⟨rfl, hselect⟩
    . exact h.execute hok hstep
    . cases event with
      | sendRequest r => exact absurd rfl hselect
      | encode payload encStream => exact absurd ⟨payload, encStream, rfl⟩ hencode
      | _ => exact h.quiet rfl rfl

end Writes

theorem writes_start {streams : Streams} (hunused : ∀ id, id % 4 = 0 → streams id = none) {s : State}
    (hstart : start streams = some s)
    : Writes [] s := by
  unfold start at hstart
  rcases Option.bind_eq_some_iff.mp hstart with ⟨s1, h1, hstart⟩
  rcases Option.bind_eq_some_iff.mp hstart with ⟨s2, h2, hstart⟩
  rcases Option.bind_eq_some_iff.mp hstart with ⟨s3, h3, hstart⟩
  unfold sendFrameOnStream at hstart
  rcases Option.bind_eq_some_iff.mp hstart with ⟨frame, _, hstart⟩
  rcases Option.bind_eq_some_iff.mp hstart with ⟨buf, _, hstart⟩
  have hwrote := wroteBeside_sendOnStream (by decide) h1
  have hopened : Writes [] s1 := by
    constructor
    . exact hwrote.nextRequestStream
    . rw [hwrote.encoderStream]
      rfl
    . refine ⟨[], ?_, rfl⟩
      rw [hwrote.encodeHeaders]
      rfl
    . refine ⟨[], ?_, ?_, ?_⟩
      . rw [hwrote.encodedHeaders]
        rfl
      . rw [hwrote.requestFrames]
        rfl
      . intro k _
        rw [hwrote.writeOffset]
        unfold fresh State.streams Streams.get
        dsimp only
        rw [hunused (4 * k) (by omega)]
        rfl
  apply Writes.beside _ (by decide) (wroteBeside_sendOnStream (by decide) hstart)
  apply Writes.beside _ (by decide) (wroteBeside_sendOnStream (by decide) h3)
  exact hopened.beside (by decide) (wroteBeside_sendOnStream (by decide) h2)

theorem run_writes_requests (streams : Streams) (hunused : ∀ id, id % 4 = 0 → streams id = none)
    (s₀ : State) (hstart : start streams = some s₀) (events : List Event)
    (hrequested : Run.Guarded step Requested s₀ events) (s : State)
    (hrun : Run.run step s₀ events = some s)
    : (∃ taken, onStreams ((requests events).map Request.hdrs) = taken ++ s.encodeHeaders ∧
        taken.length = (encodings events).length) ∧
      (∃ written, onStreams ((encodings events).map Prod.fst) = written ++ s.encodedHeaders ∧
        written.map requestFrame = (requestFrames s).map some) ∧
      encoderStream s = 'H'.toUInt8 :: (encodings events).flatMap Prod.snd := by
  have hstep (hist : List Event) (s : State) (event : Event) (s' : State) (h : Writes hist s)
      (hok : Requested s event) (hstep : step s event = some s')
      : Writes (hist ++ [event]) s' := by
    exact h.step hok hstep
  have hwrites := Run.inv_of_run step hstep [] s₀ events (writes_start hunused hstart) hrequested hrun
  rcases hwrites.written with ⟨written, hwritten, hmap, _⟩
  exact ⟨hwrites.taken, ⟨written, hwritten, hmap⟩, hwrites.encoderStream⟩

theorem run_writes_requests_two
    : ∃ s₀, start (fun _ => none) = some s₀ ∧ ∃ s, Run.run step s₀ sampleEvents = some s ∧
        s.encodedHeaders = [] ∧ (∃ written, onStreams [[1], [3]] = written ++ s.encodedHeaders ∧
          written.map requestFrame = (requestFrames s).map some) := by
  have hrun : ∃ s₀, start (fun _ => none) = some s₀ ∧ Run.Guarded step Requested s₀ sampleEvents ∧
      ∃ s, Run.run step s₀ sampleEvents = some s ∧ s.encodedHeaders = [] := by
    decide +kernel
  rcases hrun with ⟨s₀, hstart, hrequested, s, hrun, hempty⟩
  refine ⟨s₀, hstart, s, hrun, hempty, ?_⟩
  exact (run_writes_requests _ (fun _ _ => rfl) s₀ hstart sampleEvents hrequested s hrun).2.1

end Requests

end HTTPAgent

end QuicTracker
