import QuicTracker.Lemmas.Agents.Http

/-!
This module says when the HTTP agent reports a response, and what it then contains.
-/

namespace QuicTracker

open HTTP3

namespace HTTPAgent

theorem complete_iff (r : HTTPResponse)
    : r.complete ↔
        r.fin ∧ r.totalReceived > 0 ∧ r.totalProcessed = r.totalReceived ∧ r.headersRemaining = 0 := by
  unfold HTTPResponse.complete
  rw [decide_eq_true_iff]

/--
When the stream is closed, no byte is left in the channel behind the chunk that is taken, and a chunk
without bytes is not taken after the response was complete.
-/
def PipesWhole (s : State) (event : Event) : Prop :=
  match event with
  | .pipe =>
    (s.stream.readClosed → (s.stream.readChan.drop (s.piped + 1)).flatten = []) ∧
      (s.stream.readChan[s.piped]? = some [] → ¬ s.response.complete)
  | _ => True

instance (s : State) (event : Event) : Decidable (PipesWhole s event) :=
  match event with
  | .pipe => inferInstanceAs (Decidable (_ ∧ _))
  | .addToRead _ | .streamData _ | .frameReceived | .decodedHeaders | .qpack _ _ => isTrue trivial

structure Once (ws : List WireFrame) (s : State) : Prop where
  fin : s.response.fin → s.response.totalReceived = (content ws).length
  pending : ¬ s.response.complete → s.responses = []
  reported : s.response.complete → ∃ r, s.responses = [r] ∧ r.body = body ws

theorem once_initial (ws : List WireFrame) : Once ws initial := by
  constructor
  . intro h
    contradiction
  . intro _
    rfl
  . intro h
    contradiction

section Once

variable {ws : List WireFrame} {s : State}

theorem Tracks.body_of_complete (h : Tracks ws s)
    (hfin : s.response.fin → s.response.totalReceived = (content ws).length)
    (hcomplete : s.response.complete)
    : s.response.body = body ws := by
  rcases (complete_iff _).mp hcomplete with ⟨hf, -, hprocessed, -⟩
  rcases h.split with ⟨handled, queued, unread, hsplit⟩
  have hlen := congrArg List.length hsplit.content_eq
  rw [List.length_append, ← hfin hf, ← hprocessed, hsplit.totalProcessed] at hlen
  have hrest : content (queued ++ unread) = [] := by
    apply List.eq_nil_of_length_eq_zero
    rw [content_append]
    omega
  rw [hsplit.body, hsplit.frames, content_eq_nil hrest, List.append_nil]

theorem Once.not_complete (ho : Once ws s) {w : WireFrame} {handled queued unread : List WireFrame}
    (hsplit : Split ws s handled (w :: queued) unread)
    : ¬ s.response.complete := by
  intro hcomplete
  rcases (complete_iff _).mp hcomplete with ⟨hf, -, hprocessed, -⟩
  have hlen := congrArg List.length hsplit.content_eq
  have hw := w.length_bytes
  rw [← ho.fin hf, ← hprocessed, hsplit.totalProcessed] at hlen
  simp only [content_cons, List.length_append] at hlen
  omega

theorem Once.of_checkResponse (h : Tracks ws s)
    (hfin : s.response.fin → s.response.totalReceived = (content ws).length)
    (hnone : s.responses = [])
    : Once ws (checkResponse s) := by
  unfold checkResponse
  split
  . next hcomplete =>
    refine ⟨hfin, fun hnot => absurd hcomplete hnot, ?_⟩
    intro _
    refine ⟨s.response, ?_, h.body_of_complete hfin hcomplete⟩
    dsimp only
    rw [hnone, List.nil_append]
  . next hcomplete => exact ⟨hfin, fun _ => hnone, fun h => absurd h hcomplete⟩

theorem Once.not_fin (h : Tracks ws s) (ho : Once ws s) {data : List UInt8}
    (hdata : s.stream.readChan[s.piped]? = some data) (hne : data ≠ [])
    : s.response.fin = false := by
  by_contra hfin
  rw [Bool.not_eq_false] at hfin
  have hle := h.received_le hdata
  have hpos := List.length_pos_of_ne_nil hne
  have := ho.fin hfin
  omega

theorem Once.of_received (h : Tracks ws s) (ho : Once ws s) {data : List UInt8}
    (hdata : s.stream.readChan[s.piped]? = some data)
    : Once ws (received s data) := by
  by_cases hne : data = []
  . rw [hne]
    exact ⟨ho.fin, ho.pending, ho.reported⟩
  . have hfin := ho.not_fin h hdata hne
    have hnot : ∀ r : HTTPResponse, r.fin = false → ¬ r.complete := by
      intro r hr hcomplete
      rw [((complete_iff r).mp hcomplete).1] at hr
      contradiction
    constructor
    . intro hfin'
      exact absurd (hfin'.symm.trans hfin) (by decide)
    . intro _
      exact ho.pending (hnot _ hfin)
    . intro hcomplete
      exact absurd hcomplete (hnot _ hfin)

theorem Once.of_finished (hd : (content ws).length < 2 ^ 62) (h : Tracks ws s) (ho : Once ws s)
    (hok : PipesWhole s .pipe) {data : List UInt8}
    (hdata : s.stream.readChan[s.piped]? = some data)
    (hclosed : s.stream.readClosed ∨
      s.response.totalReceived + data.length = s.stream.readCloseOffset)
    : Once ws (checkResponse (finished (received s data))) := by
  have hle := h.received_le hdata
  have hsize : s.response.totalReceived + data.length = (content ws).length := by
    cases hclosed with
    | inl hclosed =>
      have hlater : later (content ws) (received s data) = [] := by
        have hdrop := h.readClosed hclosed
        unfold later received
        dsimp only
        rw [hok.1 hclosed, hdrop, List.drop_length]
        rfl
      have htaken := h.taken_data_later hdata
      rw [hlater, List.append_nil] at htaken
      rw [← htaken, List.length_append, h.totalReceived]
    | inr hclosed =>
      cases h.conveys.2.2 with
      | inl hmax =>
        unfold maxUint64 at hmax
        omega
      | inr hsize => omega
  have hpending : ¬ s.response.complete := by
    by_cases hne : data = []
    . apply hok.2
      rw [← hne]
      exact hdata
    . intro hcomplete
      have := ho.not_fin h hdata hne
      rw [((complete_iff _).mp hcomplete).1] at this
      contradiction
  apply Once.of_checkResponse
  . exact (h.received hdata).finished
  . intro _
    exact hsize
  . exact ho.pending hpending

theorem Moved.once (hd : (content ws).length < 2 ^ 62) (h : Tracks ws s) (ho : Once ws s)
    {event : Event} (hok : PipesWhole s event) {s' : State} (hmoved : Moved ws s event s')
    : Once ws s' := by
  have htracks := hmoved.tracks hd h
  have hheaders := h.headersRemaining
  cases hmoved with
  | addToRead => exact ⟨ho.fin, ho.pending, ho.reported⟩
  | wait => exact ho
  | received data hdata => exact ho.of_received h hdata
  | finished data hdata hclosed => exact ho.of_finished hd h hok hdata hclosed
  | decoded => exact ⟨ho.fin, ho.pending, ho.reported⟩
  | headers w handled queued unread hsplit =>
    refine ⟨ho.fin, fun _ => ho.pending (ho.not_complete hsplit), ?_⟩
    intro hcomplete
    have := ((complete_iff _).mp hcomplete).2.2.2
    simp only [awaitHeaders, processed] at this
    omega
  | data w handled queued unread hsplit =>
    apply Once.of_checkResponse
    . exact h.processed hsplit
    . exact ho.fin
    . exact ho.pending (ho.not_complete hsplit)
  | decodedHeaders headers decodedHeaders hdecoded =>
    rw [hdecoded, List.length_cons] at hheaders
    apply Once.of_checkResponse
    . apply h.headers
      omega
    . exact ho.fin
    . apply ho.pending
      intro hcomplete
      have := ((complete_iff _).mp hcomplete).2.2.2
      omega
  | qpack => exact ⟨ho.fin, ho.pending, ho.reported⟩
  | lost => exact ⟨ho.fin, ho.pending, ho.reported⟩

end Once

theorem run_reports_once (ws : List WireFrame) (hws : AllHandled ws)
    (hd : (content ws).length < 2 ^ 62) (events : List Event)
    (hdelivers : Run.Guarded step (Delivers (content ws)) initial events)
    (hwhole : Run.Guarded step PipesWhole initial events)
    (s : State) (hrun : Run.run step initial events = some s)
    : s.responses.length ≤ 1 ∧ ∀ r ∈ s.responses, r.body = body ws := by
  have hstep : ∀ (hist : List Event) s event s', (Tracks ws s ∧ Once ws s) →
      (Delivers (content ws) s event ∧ PipesWhole s event) → step s event = some s' →
      (Tracks ws s' ∧ Once ws s') := by
    intro _ s event s' hs hok hstep
    have hmoved := step_moved hd hws hs.1 hok.1 hstep
    exact ⟨hmoved.tracks hd hs.1, hmoved.once hd hs.1 hs.2 hok.2⟩
  have hinv := Run.inv_of_run step hstep [] initial events ⟨tracks_initial ws, once_initial ws⟩
    (hdelivers.and step hwhole) hrun
  by_cases hcomplete : s.response.complete
  . rcases hinv.2.reported hcomplete with ⟨r, hr, hbody⟩
    rw [hr]
    simp [hbody]
  . rw [hinv.2.pending hcomplete]
    simp

def sampleResponse : List WireFrame :=
  [⟨[1], 1, [0xc0], fun _ => rfl⟩, ⟨[1], 0, [65], fun _ => rfl⟩, ⟨[1], 0, [66], fun _ => rfl⟩]

def sampleEvents : List Event :=
  [.addToRead ⟨false, true, true, 0, 0, 4, [1, 1, 0xc0, 1]⟩, .pipe, .streamData (List.replicate 60 0),
    .frameReceived, .addToRead ⟨true, true, true, 0, 4, 5, [0, 65, 1, 0, 66]⟩, .pipe,
    .streamData (List.replicate 55 0), .qpack 0 [⟨":status", "200"⟩], .frameReceived,
    .decodedHeaders, .frameReceived]

theorem run_reports_once_sample
    : ∃ s, Run.run step initial sampleEvents = some s ∧ s.responses ≠ [] ∧
        s.responses.length ≤ 1 ∧ ∀ r ∈ s.responses, r.body = body sampleResponse := by
  have hrun : ∃ s, Run.run step initial sampleEvents = some s ∧ s.responses ≠ [] := by
    decide +kernel
  rcases hrun with ⟨s, hrun, hne⟩
  refine ⟨s, hrun, hne, ?_⟩
  apply run_reports_once sampleResponse _ _ sampleEvents _ _ s hrun
  . decide
  . decide
  . decide +kernel
  . decide +kernel

/--
The parser has closed the stream when the goroutine takes the first of two chunks, the two frames in it are
reported as the whole response. And an empty last frame that is sent again is one more chunk.
-/
theorem not_run_reports_once
    : AllHandled sampleResponse ∧
      (∃ events, Run.Guarded step (Delivers (content sampleResponse)) initial events ∧
        ∃ s, Run.run step initial events = some s ∧
          s.responses.map HTTPResponse.body = [[65], body sampleResponse]) ∧
      ∃ events, Run.Guarded step (Delivers (content sampleResponse)) initial events ∧
        ∃ s, Run.run step initial events = some s ∧
          s.responses.map HTTPResponse.body = [body sampleResponse, body sampleResponse] := by
  refine ⟨by decide, ?_, ?_⟩
  . refine ⟨[.addToRead ⟨false, true, true, 0, 0, 6, [1, 1, 0xc0, 1, 0, 65]⟩,
      .addToRead ⟨true, true, true, 0, 6, 3, [1, 0, 66]⟩, .pipe, .streamData (List.replicate 58 0),
      .frameReceived, .frameReceived, .qpack 0 [⟨":status", "200"⟩], .decodedHeaders, .pipe,
      .streamData (List.replicate 55 0), .frameReceived], ?_, ?_⟩
    . decide +kernel
    . decide +kernel
  . refine ⟨sampleEvents ++ [.addToRead ⟨true, true, true, 0, 9, 0, []⟩, .pipe], ?_, ?_⟩
    . decide +kernel
    . decide +kernel

end HTTPAgent

end QuicTracker
