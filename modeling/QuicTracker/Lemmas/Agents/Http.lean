import QuicTracker.Lemmas.Http3
import QuicTracker.Lemmas.Delivery

/-!
This module contains what the HTTP agent knows about a response while its stream arrives, and when it
reports the response.
-/

namespace QuicTracker

open HTTP3

namespace HTTPAgent

def body (ws : List WireFrame) : List UInt8 := ws.flatMap WireFrame.body

def State.taken (s : State) : List UInt8 := (s.stream.readChan.take s.piped).flatten

/-- The frames of `ws` that were handled, wait in `FrameReceived` and are not decoded. -/
structure Split (ws : List WireFrame) (s : State) (handled queued unread : List WireFrame) : Prop where
  frames : ws = handled ++ (queued ++ unread)
  taken : content handled ++ (content queued ++ (s.streamDataBuffer ++ s.streamData.flatten)) = s.taken
  frameReceived : s.frameReceived = queued.map WireFrame.frame
  totalProcessed : s.response.totalProcessed = (content handled).length
  body : s.response.body = body handled

structure Tracks (ws : List WireFrame) (s : State) : Prop where
  conveys : s.stream.Conveys (content ws)
  readClosed : s.stream.readClosed → s.stream.readOffset = (content ws).length
  piped_le : s.piped ≤ s.stream.readChan.length
  totalReceived : s.response.totalReceived = s.taken.length
  headersRemaining :
    (s.decodeHeaders.length : Int) + s.decodedHeaders.length ≤ s.response.headersRemaining
  split : ∃ handled queued unread, Split ws s handled queued unread

def Delivers (d : List UInt8) (s : State) (event : Event) : Prop :=
  match event with
  | .addToRead f => ∃ stream, s.stream.addToRead f = some stream ∧ stream.Conveys d
  | _ => True

instance (d : List UInt8) (s : State) (event : Event) : Decidable (Delivers d s event) :=
  match event with
  | .addToRead f =>
    inferInstanceAs (Decidable (∃ stream, s.stream.addToRead f = some stream ∧ stream.Conveys d))
  | .pipe | .streamData _ | .frameReceived | .decodedHeaders | .qpack _ _ => isTrue trivial

def received (s : State) (data : List UInt8) : State :=
  { s with
    piped := s.piped + 1
    streamData := s.streamData ++ [data]
    response := { s.response with totalReceived := s.response.totalReceived + data.length } }

def finished (s : State) : State := { s with response := { s.response with fin := true } }

def processed (s : State) (w : WireFrame) (queued : List WireFrame) : State :=
  { s with
    frameReceived := queued.map WireFrame.frame
    response := { s.response with
      totalProcessed := s.response.totalProcessed + w.bytes.length
      body := s.response.body ++ w.body } }

def awaitHeaders (s : State) (block : List UInt8) : State :=
  { s with
    decodeHeaders := s.decodeHeaders ++ [block]
    response := { s.response with headersRemaining := s.response.headersRemaining + 1 } }

/-- What a step does while the agent is on track, without the wrapping and the decoding. -/
inductive Moved (ws : List WireFrame) (s : State) : Event → State → Prop where
  | addToRead (f : StreamFrame) (stream : Stream)
    (heq : s.stream.addToRead f = some stream) (hconveys : stream.Conveys (content ws))
    : Moved ws s (.addToRead f) { s with stream := stream }
  | wait (event : Event) (hevent : ∀ f, event ≠ .addToRead f) : Moved ws s event s
  | received (data : List UInt8) (hdata : s.stream.readChan[s.piped]? = some data)
    (hopen : ¬ (s.stream.readClosed ∨
      s.response.totalReceived + data.length = s.stream.readCloseOffset))
    : Moved ws s .pipe (received s data)
  | finished (data : List UInt8) (hdata : s.stream.readChan[s.piped]? = some data)
    (hclosed : s.stream.readClosed ∨
      s.response.totalReceived + data.length = s.stream.readCloseOffset)
    : Moved ws s .pipe (checkResponse (finished (received s data)))
  | decoded (spare data rest : List UInt8) (streamData : List (List UInt8))
    (handled queued done todo : List WireFrame) (hdata : s.streamData = data :: streamData)
    (hsplit : Split ws s handled queued (done ++ todo))
    (hbytes : s.streamDataBuffer ++ data = content done ++ rest)
    (hstop : ∀ w : WireFrame, w.length.length ≤ 4 → ¬ w.bytes <+: rest)
    : Moved ws s (.streamData spare) { s with
        streamData := streamData
        streamDataBuffer := rest
        frameReceived := (queued ++ done).map WireFrame.frame }
  | headers (w : WireFrame) (handled queued unread : List WireFrame)
    (hsplit : Split ws s handled (w :: queued) unread)
    : Moved ws s .frameReceived (awaitHeaders (processed s w queued) w.payload)
  | data (w : WireFrame) (handled queued unread : List WireFrame)
    (hsplit : Split ws s handled (w :: queued) unread)
    : Moved ws s .frameReceived (checkResponse (processed s w queued))
  | decodedHeaders (headers : List HTTPHeader) (decodedHeaders : List (List HTTPHeader))
    (hheaders : s.decodedHeaders = headers :: decodedHeaders)
    : Moved ws s .decodedHeaders (checkResponse { s with
        decodedHeaders := decodedHeaders
        response := { s.response with
          headersRemaining := s.response.headersRemaining - 1
          headers := s.response.headers ++ headers } })
  | qpack (block : Nat) (headers : List HTTPHeader) (hblock : block < s.decodeHeaders.length)
    (hheaders : headers ≠ [])
    : Moved ws s (.qpack block headers) { s with
        decodeHeaders := s.decodeHeaders.eraseIdx block
        decodedHeaders := s.decodedHeaders ++ [headers] }
  | lost (block : Nat) (hblock : block < s.decodeHeaders.length)
    : Moved ws s (.qpack block []) { s with decodeHeaders := s.decodeHeaders.eraseIdx block }

section Tracks

variable {ws : List WireFrame} {s : State}

def later (d : List UInt8) (s : State) : List UInt8 :=
  (s.stream.readChan.drop s.piped).flatten ++ d.drop s.stream.readOffset

theorem Tracks.taken_later (h : Tracks ws s) : s.taken ++ later (content ws) s = content ws := by
  unfold State.taken later
  rw [← List.append_assoc, ← List.flatten_append, List.take_append_drop, h.conveys.1]
  rw [List.take_append_drop]

theorem taken_received {data : List UInt8} (hdata : s.stream.readChan[s.piped]? = some data)
    : (received s data).taken = s.taken ++ data := by
  unfold State.taken received
  dsimp only
  rw [List.take_add_one, hdata]
  simp

theorem later_received {data : List UInt8} (hdata : s.stream.readChan[s.piped]? = some data)
    (d : List UInt8)
    : later d s = data ++ later d (received s data) := by
  rcases List.getElem?_eq_some_iff.mp hdata with ⟨hlt, hget⟩
  unfold later received
  dsimp only
  rw [List.drop_eq_getElem_cons hlt, hget]
  simp

theorem Tracks.taken_data_later (h : Tracks ws s) {data : List UInt8}
    (hdata : s.stream.readChan[s.piped]? = some data)
    : s.taken ++ data ++ later (content ws) (received s data) = content ws := by
  rw [List.append_assoc, ← later_received hdata]
  exact h.taken_later

theorem Tracks.received_le (h : Tracks ws s) {data : List UInt8}
    (hdata : s.stream.readChan[s.piped]? = some data)
    : s.response.totalReceived + data.length ≤ (content ws).length := by
  rw [← h.taken_data_later hdata, h.totalReceived]
  simp only [List.length_append]
  omega

theorem Split.content_eq {handled queued unread : List WireFrame}
    (hsplit : Split ws s handled queued unread)
    : content ws = content handled ++ (content queued ++ content unread) := by
  rw [hsplit.frames]
  simp

theorem Split.content_unread {handled queued unread : List WireFrame}
    (h : Tracks ws s) (hsplit : Split ws s handled queued unread)
    : s.streamDataBuffer ++ (s.streamData.flatten ++ later (content ws) s) = content unread := by
  have htaken := h.taken_later.trans hsplit.content_eq
  rw [← hsplit.taken] at htaken
  simp only [List.append_assoc] at htaken
  exact List.append_cancel_left (List.append_cancel_left htaken)

def AllHandled (ws : List WireFrame) : Prop := ∀ w ∈ ws, w.IsData ∨ w.IsHeaders

instance (ws : List WireFrame) : Decidable (AllHandled ws) :=
  inferInstanceAs (Decidable (∀ w ∈ ws, _))

theorem frames_eq_map {done : List WireFrame} {frames : List HTTPFrame}
    (h : List.Forall₂ ReadsAs done frames) (hdone : AllHandled done)
    : frames = done.map WireFrame.frame := by
  induction h with
  | nil => rfl
  | cons hread _ ih =>
    rename_i w frame done frames _
    rcases hread with ⟨unread, hread⟩
    rw [w.readHTTPFrame_bytes (hdone w (by simp))] at hread
    injection hread with hread
    injection hread with hframe
    rw [List.map_cons, hframe]
    rw [← ih (fun v hv => hdone v (by simp [hv]))]

theorem pipe_moved (hd : (content ws).length < 2 ^ 62) (h : Tracks ws s)
    : Moved ws s .pipe (pipe s) := by
  unfold pipe
  split
  . apply Moved.wait
    intro f
    exact Event.noConfusion
  . next data hdata =>
    have hle := h.received_le hdata
    have hwrap : u64 (s.response.totalReceived + data.length)
        = s.response.totalReceived + data.length := by
      unfold u64
      omega
    dsimp only
    rw [hwrap]
    split
    . next hclosed => exact Moved.finished data hdata hclosed
    . next hopen => exact Moved.received data hdata hopen

theorem handleStreamData_moved (hws : AllHandled ws) (h : Tracks ws s) {spare : List UInt8} {s' : State}
    (heq : handleStreamData s spare = some s')
    : Moved ws s (.streamData spare) s' := by
  unfold handleStreamData at heq
  split at heq
  . injection heq with heq
    rw [← heq]
    apply Moved.wait
    intro f
    exact Event.noConfusion
  . next data streamData hdata =>
    rcases Option.bind_eq_some_iff.mp heq with ⟨⟨frames, rest⟩, hdecode, heq⟩
    injection heq with heq
    rcases h.split with ⟨handled, queued, unread, hsplit⟩
    have hunread := hsplit.content_unread h
    rw [hdata, List.flatten_cons, List.append_assoc, ← List.append_assoc] at hunread
    rcases attemptDecoding_content hdecode hunread with ⟨done, todo, hdone, hframes, _, hrest⟩
    have hsplit' : Split ws s handled queued (done ++ todo) := by
      rw [← hdone]
      exact hsplit
    have hbytes : s.streamDataBuffer ++ data = content done ++ rest := by
      rw [hdone, content_append, ← hrest] at hunread
      exact List.append_cancel_right (hunread.trans (List.append_assoc _ _ _).symm)
    have hmap : frames = done.map WireFrame.frame := by
      apply frames_eq_map hframes
      intro w hw
      apply hws
      rw [hsplit'.frames]
      simp [hw]
    rw [← heq, hmap, hsplit.frameReceived, ← List.map_append]
    apply Moved.decoded spare data rest streamData handled queued done todo hdata hsplit' hbytes
    intro w hw
    exact attemptDecoding_not_prefix hdecode hw

theorem handleFrameReceived_moved (hd : (content ws).length < 2 ^ 62) (h : Tracks ws s)
    : Moved ws s .frameReceived (handleFrameReceived s) := by
  rcases h.split with ⟨handled, queued, unread, hsplit⟩
  have hqueue := hsplit.frameReceived
  unfold handleFrameReceived
  rw [hqueue]
  cases queued with
  | nil =>
    apply Moved.wait
    intro f
    exact Event.noConfusion
  | cons w queued =>
    have hlen := congrArg List.length hsplit.content_eq
    simp only [content_cons, List.length_append] at hlen
    have hwrap : u64 (s.response.totalProcessed + w.header.wireLength)
        = s.response.totalProcessed + w.bytes.length := by
      rw [w.wireLength_header (by omega), hsplit.totalProcessed]
      unfold u64
      omega
    rw [List.map_cons]
    unfold WireFrame.frame handleFrame
    by_cases hw : w.IsData
    . have hbody : w.body = w.payload := if_pos hw
      have := Moved.data w handled queued unread hsplit
      unfold processed at this
      rw [hbody] at this
      simp only [hw, hwrap, ↓reduceIte]
      exact this
    . have hbody : w.body = [] := if_neg hw
      have := Moved.headers w handled queued unread hsplit
      unfold awaitHeaders processed at this
      rw [hbody] at this
      simp only [List.append_nil] at this
      simp only [hw, hwrap, ↓reduceIte]
      exact this

theorem step_moved (hd : (content ws).length < 2 ^ 62) (hws : AllHandled ws) (h : Tracks ws s)
    {event : Event} (hok : Delivers (content ws) s event) {s' : State} (hstep : step s event = some s')
    : Moved ws s event s' := by
  cases event with
  | addToRead f =>
    rcases hok with ⟨stream, heq, hconveys⟩
    change HTTPAgent.addToRead s f = some s' at hstep
    unfold HTTPAgent.addToRead at hstep
    rw [heq] at hstep
    injection hstep with hstep
    rw [← hstep]
    exact Moved.addToRead f stream heq hconveys
  | pipe =>
    injection hstep with hstep
    rw [← hstep]
    exact pipe_moved hd h
  | streamData spare => exact handleStreamData_moved hws h hstep
  | frameReceived =>
    injection hstep with hstep
    rw [← hstep]
    exact handleFrameReceived_moved hd h
  | decodedHeaders =>
    injection hstep with hstep
    rw [← hstep]
    unfold handleDecodedHeaders
    split
    . apply Moved.wait
      intro f
      exact Event.noConfusion
    . next headers decodedHeaders hheaders =>
      exact Moved.decodedHeaders headers decodedHeaders hheaders
  | qpack block headers =>
    injection hstep with hstep
    rw [← hstep]
    unfold completeHeaders
    split
    . next hblock =>
      dsimp only
      cases headers with
      | nil => exact Moved.lost block hblock
      | cons header headers => exact Moved.qpack block (header :: headers) hblock (by simp)
    . apply Moved.wait
      intro f
      exact Event.noConfusion

end Tracks

theorem tracks_initial (ws : List WireFrame) : Tracks ws initial := by
  constructor
  . exact ⟨rfl, Nat.zero_le _, Or.inl rfl⟩
  . intro h
    contradiction
  . exact Nat.zero_le _
  . rfl
  . exact Int.le_refl _
  . exact ⟨[], [], ws, rfl, rfl, rfl, rfl, rfl⟩

section Tracks

variable {ws : List WireFrame} {s : State}

theorem Tracks.checkResponse (h : Tracks ws s) : Tracks ws (checkResponse s) := by
  unfold HTTPAgent.checkResponse
  split
  . rcases h.split with ⟨handled, queued, unread, hsplit⟩
    refine ⟨h.conveys, h.readClosed, h.piped_le, h.totalReceived, h.headersRemaining, ?_⟩
    exact ⟨handled, queued, unread, hsplit.frames, hsplit.taken, hsplit.frameReceived,
      hsplit.totalProcessed, hsplit.body⟩
  . exact h

theorem Tracks.addToRead (hd : (content ws).length < 2 ^ 62) (h : Tracks ws s) {f : StreamFrame}
    {stream : Stream} (heq : s.stream.addToRead f = some stream)
    (hconveys : stream.Conveys (content ws))
    : Tracks ws { s with stream := stream } := by
  have hnoted := Stream.addToRead_noted heq
  rcases hnoted.readChan with ⟨chunks, hchunks⟩
  have htaken : (stream.readChan.take s.piped).flatten = s.taken := by
    rw [← hchunks, List.take_append_of_le_length h.piped_le]
    rfl
  have hmono : s.stream.readOffset ≤ stream.readOffset := by
    rw [← h.conveys.length_readChan, ← hconveys.length_readChan, ← hchunks]
    simp
  rcases h.split with ⟨handled, queued, unread, hsplit⟩
  constructor
  . exact hconveys
  . intro hclosed
    have hle := hconveys.2.1
    cases hnoted.readClosed.mp hclosed with
    | inl hold =>
      have := h.readClosed hold
      dsimp only
      omega
    | inr hnew =>
      cases hconveys.2.2 with
      | inl hmax =>
        unfold maxUint64 at hmax
        omega
      | inr hsize => exact hnew.trans hsize
  . have := h.piped_le
    dsimp only
    rw [← hchunks, List.length_append]
    omega
  . exact h.totalReceived.trans (congrArg List.length htaken.symm)
  . exact h.headersRemaining
  . exact ⟨handled, queued, unread, hsplit.frames, hsplit.taken.trans htaken.symm,
      hsplit.frameReceived, hsplit.totalProcessed, hsplit.body⟩

theorem Tracks.received (h : Tracks ws s) {data : List UInt8}
    (hdata : s.stream.readChan[s.piped]? = some data)
    : Tracks ws (received s data) := by
  have htaken := taken_received hdata
  rcases List.getElem?_eq_some_iff.mp hdata with ⟨hlt, -⟩
  rcases h.split with ⟨handled, queued, unread, hsplit⟩
  constructor
  . exact h.conveys
  . exact h.readClosed
  . exact hlt
  . rw [htaken, List.length_append, ← h.totalReceived]
    rfl
  . exact h.headersRemaining
  . refine ⟨handled, queued, unread, hsplit.frames, ?_, hsplit.frameReceived,
      hsplit.totalProcessed, hsplit.body⟩
    rw [htaken, ← hsplit.taken]
    simp [HTTPAgent.received]

theorem Tracks.finished (h : Tracks ws s) : Tracks ws (finished s) := by
  rcases h.split with ⟨handled, queued, unread, hsplit⟩
  refine ⟨h.conveys, h.readClosed, h.piped_le, h.totalReceived, h.headersRemaining, ?_⟩
  exact ⟨handled, queued, unread, hsplit.frames, hsplit.taken, hsplit.frameReceived,
    hsplit.totalProcessed, hsplit.body⟩

theorem Tracks.processed (h : Tracks ws s) {w : WireFrame} {handled queued unread : List WireFrame}
    (hsplit : Split ws s handled (w :: queued) unread)
    : Tracks ws (processed s w queued) := by
  refine ⟨h.conveys, h.readClosed, h.piped_le, h.totalReceived, h.headersRemaining, ?_⟩
  refine ⟨handled ++ [w], queued, unread, ?_, ?_, rfl, ?_, ?_⟩
  . rw [hsplit.frames]
    simp
  . refine Eq.trans ?_ hsplit.taken
    simp [HTTPAgent.processed]
  . have := hsplit.totalProcessed
    simp [HTTPAgent.processed, this]
  . have := hsplit.body
    simp [HTTPAgent.processed, HTTPAgent.body, this]

theorem Tracks.headers (h : Tracks ws s) (decodeHeaders : List (List UInt8))
    (decodedHeaders : List (List HTTPHeader)) (headersRemaining : Int) (headers : List HTTPHeader)
    (hle : (decodeHeaders.length : Int) + decodedHeaders.length ≤ headersRemaining)
    : Tracks ws { s with
        decodeHeaders := decodeHeaders
        decodedHeaders := decodedHeaders
        response := { s.response with headersRemaining := headersRemaining, headers := headers } } := by
  rcases h.split with ⟨handled, queued, unread, hsplit⟩
  refine ⟨h.conveys, h.readClosed, h.piped_le, h.totalReceived, hle, ?_⟩
  exact ⟨handled, queued, unread, hsplit.frames, hsplit.taken, hsplit.frameReceived,
    hsplit.totalProcessed, hsplit.body⟩

theorem Moved.tracks (hd : (content ws).length < 2 ^ 62) (h : Tracks ws s) {event : Event} {s' : State}
    (hmoved : Moved ws s event s')
    : Tracks ws s' := by
  have hheaders := h.headersRemaining
  cases hmoved with
  | addToRead f stream heq hconveys => exact h.addToRead hd heq hconveys
  | wait => exact h
  | received data hdata => exact h.received hdata
  | finished data hdata => exact (h.received hdata).finished.checkResponse
  | decoded spare data rest streamData handled queued done todo hdata hsplit hbytes =>
    refine ⟨h.conveys, h.readClosed, h.piped_le, h.totalReceived, h.headersRemaining, ?_⟩
    refine ⟨handled, queued ++ done, todo, ?_, ?_, rfl, hsplit.totalProcessed, hsplit.body⟩
    . rw [hsplit.frames]
      simp
    . refine Eq.trans ?_ hsplit.taken
      rw [hdata, content_append, List.flatten_cons]
      rw [← List.append_assoc s.streamDataBuffer, hbytes]
      simp
  | headers w handled queued unread hsplit =>
    apply (h.processed hsplit).headers
    simp only [HTTPAgent.processed, List.length_append, List.length_singleton]
    omega
  | data w handled queued unread hsplit => exact (h.processed hsplit).checkResponse
  | decodedHeaders headers decodedHeaders hdecoded =>
    rw [hdecoded, List.length_cons] at hheaders
    apply Tracks.checkResponse
    apply h.headers
    omega
  | qpack block headers hblock =>
    apply h.headers _ _ s.response.headersRemaining s.response.headers
    rw [List.length_eraseIdx_of_lt hblock, List.length_append, List.length_singleton]
    omega
  | lost block hblock =>
    apply h.headers _ _ s.response.headersRemaining s.response.headers
    rw [List.length_eraseIdx_of_lt hblock]
    omega

end Tracks

end HTTPAgent

end QuicTracker
