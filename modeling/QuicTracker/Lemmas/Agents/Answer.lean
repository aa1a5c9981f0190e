import QuicTracker.Lemmas.Agents.Response

/-!
This module says when a response that was received completely has been reported.
-/

namespace QuicTracker

open HTTP3

namespace HTTPAgent

def framesOf (events : List Event) : List StreamFrame :=
  events.filterMap fun event =>
    match event with
    | .addToRead f => some f
    | _ => none

/--
The stream delivers what it received, the FIN does not come on data that the goroutine has already taken,
and no block of headers is empty.
-/
def Answers (d : List UInt8) (s : State) (event : Event) : Prop :=
  match event with
  | .addToRead f =>
    s.stream.FillsFromStart f ∧ s.stream.KeepsUp f ∧
      (f.finBit → s.stream.readCloseOffset = maxUint64 → s.stream.readOffset = d.length →
        s.piped = s.stream.readChan.length → f.length = 0)
  | .qpack _ headers => headers ≠ []
  | _ => True

instance (d : List UInt8) (s : State) (event : Event) : Decidable (Answers d s event) :=
  match event with
  | .addToRead _ => inferInstanceAs (Decidable (_ ∧ _))
  | .qpack _ headers => inferInstanceAs (Decidable (headers ≠ []))
  | .pipe | .streamData _ | .frameReceived | .decodedHeaders => isTrue trivial

/-- Everything was given to `addToRead`, every channel is drained and every block is decoded. -/
def Quiescent (d : List UInt8) (events : List Event) (s : State) : Prop :=
  (∀ x < d.length, Received (framesOf events) x) ∧ (∃ f ∈ framesOf events, f.finBit) ∧
    s.piped = s.stream.readChan.length ∧ s.streamData = [] ∧ s.frameReceived = [] ∧
    s.decodeHeaders = [] ∧ s.decodedHeaders = []

instance (d : List UInt8) (events : List Event) (s : State) : Decidable (Quiescent d events s) :=
  inferInstanceAs (Decidable (_ ∧ _))

structure Answered (ws : List WireFrame) (s : State) : Prop where
  stopped : ∀ w : WireFrame, w.length.length ≤ 4 → ¬ w.bytes <+: s.streamDataBuffer
  headersRemaining :
    s.response.headersRemaining = (s.decodeHeaders.length : Int) + s.decodedHeaders.length
  fin : s.stream.readCloseOffset = (content ws).length → s.stream.readOffset = (content ws).length →
    s.piped = s.stream.readChan.length → s.response.fin
  answered : s.response.complete → s.response ∈ s.responses

theorem answered_initial {ws : List WireFrame} (hd : (content ws).length < 2 ^ 62)
    : Answered ws initial := by
  constructor
  . intro w _ hstart
    exact w.bytes_ne_nil (List.prefix_nil.mp hstart)
  . rfl
  . intro h
    change maxUint64 = _ at h
    unfold maxUint64 at h
    omega
  . intro h
    contradiction

section Answered

variable {ws : List WireFrame} {s : State}

theorem Tracks.processed_le (h : Tracks ws s)
    : s.response.totalProcessed ≤ s.response.totalReceived := by
  rcases h.split with ⟨handled, queued, unread, hsplit⟩
  rw [h.totalReceived, hsplit.totalProcessed, ← hsplit.taken, List.length_append]
  omega

theorem Tracks.taken_eq (h : Tracks ws s) (hoff : s.stream.readOffset = (content ws).length)
    (hpiped : s.piped = s.stream.readChan.length)
    : s.taken = content ws := by
  unfold State.taken
  rw [hpiped, List.take_length, h.conveys.1, hoff, List.take_length]

theorem Answered.of_checkResponse (stopped : ∀ w : WireFrame, w.length.length ≤ 4 →
      ¬ w.bytes <+: s.streamDataBuffer)
    (headersRemaining :
      s.response.headersRemaining = (s.decodeHeaders.length : Int) + s.decodedHeaders.length)
    (fin : s.stream.readCloseOffset = (content ws).length →
      s.stream.readOffset = (content ws).length → s.piped = s.stream.readChan.length →
      s.response.fin)
    : Answered ws (checkResponse s) := by
  unfold checkResponse
  split
  . exact ⟨stopped, headersRemaining, fin, by simp⟩
  . next hcomplete => exact ⟨stopped, headersRemaining, fin, fun h => absurd h hcomplete⟩

theorem Answered.of_addToRead (hd : (content ws).length < 2 ^ 62) (h : Tracks ws s)
    (ha : Answered ws s) {fs : List StreamFrame} (hc : s.stream.Carried (content ws) fs)
    {f : StreamFrame} (hf : f.LastOf (content ws)) (hok : Answers (content ws) s (.addToRead f))
    {stream : Stream} (heq : s.stream.addToRead f = some stream)
    (hconveys : stream.Conveys (content ws))
    : Answered ws { s with stream := stream } := by
  refine ⟨ha.stopped, ha.headersRemaining, ?_, ha.answered⟩
  intro hclose hoff hpiped
  dsimp only at hclose hoff hpiped
  have hnoted := Stream.addToRead_noted heq
  -- The frame brought no chunk.
  have hchan : s.stream.readChan = stream.readChan := by
    apply hnoted.readChan.eq_of_length_le
    have := h.piped_le
    omega
  have hoff' : s.stream.readOffset = (content ws).length := by
    rw [← h.conveys.length_readChan, hchan, hconveys.length_readChan, hoff]
  have hpiped' : s.piped = s.stream.readChan.length := by
    rw [hchan]
    exact hpiped
  cases hc.readCloseOffset with
  | inr hold => exact ha.fin hold hoff' hpiped'
  | inl hold =>
    exfalso
    have hnote := hnoted.readCloseOffset
    rw [hc.noteFin hd hf, hclose] at hnote
    by_cases hfin : f.finBit
    . have hlen := hok.2.2 hfin hold hoff' hpiped'
      have hsize := hf.2 hfin
      have hle := hc.delivered.shape.readOffset_le
      have hmax := hc.delivered.maxReadReceived_le
      have hnext := hnoted.next (by omega) (by omega)
      rw [← hchan] at hnext
      have := congrArg List.length hnext
      simp at this
    . rw [if_neg hfin, hold] at hnote
      unfold maxUint64 at hnote
      omega

theorem Answered.of_received (h : Tracks ws s) (ha : Answered ws s) {data : List UInt8}
    (hdata : s.stream.readChan[s.piped]? = some data)
    (hopen : ¬ (s.stream.readClosed ∨
      s.response.totalReceived + data.length = s.stream.readCloseOffset))
    : Answered ws (received s data) := by
  have hreceived := h.received hdata
  refine ⟨ha.stopped, ha.headersRemaining, ?_, ?_⟩
  . intro hclose hoff hpiped
    exfalso
    apply hopen
    right
    have htotal := hreceived.totalReceived
    rw [hreceived.taken_eq hoff hpiped, ← hclose] at htotal
    exact htotal
  . by_cases hne : data = []
    . rw [hne]
      exact ha.answered
    . intro hcomplete
      exfalso
      have hprocessed := ((complete_iff _).mp hcomplete).2.2.1
      have hle := h.processed_le
      have hpos := List.length_pos_of_ne_nil hne
      simp only [received] at hprocessed
      omega

theorem Moved.answered (hd : (content ws).length < 2 ^ 62) (h : Tracks ws s) (ha : Answered ws s)
    {fs : List StreamFrame} (hc : s.stream.Carried (content ws) fs) {event : Event}
    (hf : ∀ f, event = .addToRead f → f.LastOf (content ws))
    (hok : Answers (content ws) s event) {s' : State} (hmoved : Moved ws s event s')
    : Answered ws s' := by
  have hheaders := ha.headersRemaining
  cases hmoved with
  | addToRead f stream heq hconveys => exact ha.of_addToRead hd h hc (hf f rfl) hok heq hconveys
  | wait => exact ha
  | received data hdata hopen => exact ha.of_received h hdata hopen
  | finished data hdata =>
    apply Answered.of_checkResponse
    . exact ha.stopped
    . exact ha.headersRemaining
    . intro _ _ _
      rfl
  | decoded spare data rest streamData handled queued done todo hdata hsplit hbytes hstop =>
    exact ⟨hstop, ha.headersRemaining, ha.fin, ha.answered⟩
  | headers w handled queued unread hsplit =>
    refine ⟨ha.stopped, ?_, ha.fin, ?_⟩
    . simp only [awaitHeaders, processed, List.length_append, List.length_singleton]
      omega
    . intro hcomplete
      have := ((complete_iff _).mp hcomplete).2.2.2
      simp only [awaitHeaders, processed] at this
      omega
  | data w handled queued unread hsplit =>
    exact Answered.of_checkResponse ha.stopped ha.headersRemaining ha.fin
  | decodedHeaders headers decodedHeaders hdecoded =>
    rw [hdecoded, List.length_cons] at hheaders
    apply Answered.of_checkResponse
    . exact ha.stopped
    . dsimp only
      omega
    . exact ha.fin
  | qpack block headers hblock =>
    refine ⟨ha.stopped, ?_, ha.fin, ha.answered⟩
    dsimp only
    rw [List.length_eraseIdx_of_lt hblock, List.length_append, List.length_singleton]
    omega
  | lost => exact absurd rfl hok

theorem Answered.of_quiescent (hne : ws ≠ []) (hshort : ∀ w ∈ ws, w.length.length ≤ 4)
    (h : Tracks ws s) (ha : Answered ws s) {events : List Event}
    (hc : s.stream.Carried (content ws) (framesOf events))
    (hquiet : Quiescent (content ws) events s)
    : s.response ∈ s.responses ∧ s.response.body = body ws := by
  rcases hquiet with ⟨hall, hfin, hpiped, hdata, hframes, hblocks, hheaders⟩
  have hoff : s.stream.readOffset = (content ws).length := by
    have hle := h.conveys.2.1
    have hge := hc.live.le_readOffset _ hall
    omega
  have htaken := h.taken_eq hoff hpiped
  rcases h.split with ⟨handled, queued, unread, hsplit⟩
  have hqueued : queued = [] := by
    have := hsplit.frameReceived
    rw [hframes] at this
    exact List.map_eq_nil_iff.mp this.symm
  have hunread : unread = [] := by
    have hbuffer := hsplit.content_unread h
    unfold later at hbuffer
    rw [hdata, hpiped, hoff, List.drop_length, List.drop_length] at hbuffer
    simp only [List.flatten_nil, List.append_nil] at hbuffer
    cases hunread : unread with
    | nil => rfl
    | cons w unread =>
      exfalso
      rw [hunread] at hsplit hbuffer
      apply ha.stopped w
      . apply hshort
        rw [hsplit.frames]
        simp
      . rw [hbuffer, content_cons]
        exact List.prefix_append _ _
  have hprocessed : s.response.totalProcessed = (content ws).length := by
    rw [hsplit.totalProcessed, hsplit.content_eq, hqueued, hunread]
    simp
  have hreceived : s.response.totalReceived = (content ws).length := by
    rw [h.totalReceived, htaken]
  have hcomplete : s.response.complete := by
    rw [complete_iff]
    refine ⟨ha.fin (hc.fin hfin) hoff hpiped, ?_, ?_, ?_⟩
    . rw [hreceived]
      apply List.length_pos_of_ne_nil
      intro hnil
      exact hne (content_eq_nil hnil)
    . rw [hprocessed, hreceived]
    . rw [ha.headersRemaining, hblocks, hheaders]
      rfl
  exact ⟨ha.answered hcomplete, h.body_of_complete (fun _ => hreceived) hcomplete⟩

end Answered

theorem checkResponse_stream (s : State) : (checkResponse s).stream = s.stream := by
  unfold checkResponse
  split
  . rfl
  . rfl

theorem Moved.stream_eq {ws : List WireFrame} {s s' : State} {event : Event}
    (hmoved : Moved ws s event s') (hevent : ∀ f, event ≠ .addToRead f)
    : s'.stream = s.stream := by
  cases hmoved with
  | addToRead f => exact absurd rfl (hevent f)
  | wait => rfl
  | received => rfl
  | finished => apply checkResponse_stream
  | decoded => rfl
  | headers => rfl
  | data => apply checkResponse_stream
  | decodedHeaders => apply checkResponse_stream
  | qpack => rfl
  | lost => rfl

structure Followed (ws : List WireFrame) (events : List Event) (s : State) : Prop where
  tracks : Tracks ws s
  answered : Answered ws s
  carried : s.stream.Carried (content ws) (framesOf events)

section Followed

variable {ws : List WireFrame} {hist : List Event} {s : State} {event : Event}

theorem Followed.delivers (hd : (content ws).length < 2 ^ 62) (h : Followed ws hist s)
    (hf : ∀ f, event = .addToRead f → f.LastOf (content ws)) (hok : Answers (content ws) s event)
    : Delivers (content ws) s event := by
  cases event with
  | addToRead f =>
    rcases h.carried.step hd (hf f rfl) hok.1 hok.2.1 with ⟨stream, heq, hcarried⟩
    exact ⟨stream, heq, hcarried.conveys⟩
  | pipe => trivial
  | streamData => trivial
  | frameReceived => trivial
  | decodedHeaders => trivial
  | qpack => trivial

theorem framesOf_concat (hist : List Event) (hevent : ∀ f, event ≠ .addToRead f)
    : framesOf (hist ++ [event]) = framesOf hist := by
  cases event with
  | addToRead f => exact absurd rfl (hevent f)
  | pipe => simp [framesOf]
  | streamData => simp [framesOf]
  | frameReceived => simp [framesOf]
  | decodedHeaders => simp [framesOf]
  | qpack => simp [framesOf]

theorem Followed.step (hd : (content ws).length < 2 ^ 62) (hws : AllHandled ws)
    (h : Followed ws hist s) (hf : ∀ f, event = .addToRead f → f.LastOf (content ws))
    (hok : Answers (content ws) s event) {s' : State} (hstep : step s event = some s')
    : Followed ws (hist ++ [event]) s' := by
  have hmoved := step_moved hd hws h.tracks (h.delivers hd hf hok) hstep
  refine ⟨hmoved.tracks hd h.tracks, hmoved.answered hd h.tracks h.answered h.carried hf hok, ?_⟩
  by_cases hevent : ∃ f, event = .addToRead f
  . rcases hevent with ⟨f, rfl⟩
    rcases h.carried.step hd (hf f rfl) hok.1 hok.2.1 with ⟨stream, heq, hcarried⟩
    change addToRead s f = some s' at hstep
    unfold addToRead at hstep
    rw [heq] at hstep
    injection hstep with hstep
    rw [← hstep]
    have : framesOf (hist ++ [.addToRead f]) = framesOf hist ++ [f] := by
      simp [framesOf]
    rw [this]
    exact hcarried
  . rw [not_exists] at hevent
    rw [hmoved.stream_eq hevent, framesOf_concat hist hevent]
    exact h.carried

theorem Followed.step_isSome (hd : (content ws).length < 2 ^ 62) (hws : AllHandled ws)
    (h : Followed ws hist s) (hf : ∀ f, event = .addToRead f → f.LastOf (content ws))
    (hok : Answers (content ws) s event)
    (hspare : ∀ spare, event = .streamData spare → 3 ≤ spare.length)
    : ∃ s', HTTPAgent.step s event = some s' := by
  cases event with
  | addToRead f =>
    rcases h.delivers hd hf hok with ⟨stream, heq, -⟩
    refine ⟨{ s with stream := stream }, ?_⟩
    change addToRead s f = _
    unfold addToRead
    rw [heq]
    rfl
  | pipe => exact ⟨_, rfl⟩
  | streamData spare =>
    change ∃ s', handleStreamData s spare = some s'
    unfold handleStreamData
    split
    . exact ⟨_, rfl⟩
    . next data streamData hdata =>
      rcases h.tracks.split with ⟨handled, queued, unread, hsplit⟩
      have hunread := hsplit.content_unread h.tracks
      rw [hdata, List.flatten_cons, List.append_assoc, ← List.append_assoc] at hunread
      have hread : ∀ w ∈ unread, ∃ frame, ReadsAs w frame := by
        intro w hw
        refine ⟨w.frame, [], w.readHTTPFrame_bytes (hws w ?_)⟩
        rw [hsplit.frames]
        simp [hw]
      rcases attemptDecoding_isSome (.of_spare _ _ (hspare spare rfl)) hread hunread (Nat.lt_succ_self _)
        with ⟨r, hr⟩
      dsimp only
      rw [hr]
      exact ⟨_, rfl⟩
  | frameReceived => exact ⟨_, rfl⟩
  | decodedHeaders => exact ⟨_, rfl⟩
  | qpack => exact ⟨_, rfl⟩

end Followed

theorem mem_framesOf {f : StreamFrame} {events : List Event} (h : .addToRead f ∈ events)
    : f ∈ framesOf events := by
  unfold framesOf
  rw [List.mem_filterMap]
  exact ⟨.addToRead f, h, rfl⟩

theorem run_reports (ws : List WireFrame) (hne : ws ≠ []) (hd : (content ws).length < 2 ^ 62)
    (hws : AllHandled ws) (hshort : ∀ w ∈ ws, w.length.length ≤ 4) (events : List Event)
    (hframes : ∀ f ∈ framesOf events, f.LastOf (content ws))
    (hok : Run.Guarded step (Answers (content ws)) initial events)
    : (∀ s, Run.run step initial events = some s → Quiescent (content ws) events s →
        s.response ∈ s.responses ∧ s.response.body = body ws) ∧
      ((∀ spare, .streamData spare ∈ events → 3 ≤ spare.length) →
        ∃ s, Run.run step initial events = some s) := by
  have hlast : Run.Guarded step (fun _ event => ∀ f, event = .addToRead f → f.LastOf (content ws))
      initial events := by
    apply Run.Guarded.of_forall
    intro event hevent _ f hf
    apply hframes
    apply mem_framesOf
    rw [← hf]
    exact hevent
  have hinitial : Followed ws [] initial :=
    ⟨tracks_initial ws, answered_initial hd, Stream.Carried.new _⟩
  constructor
  . intro s hrun hquiet
    have hinv : Followed ws ([] ++ events) s := by
      apply Run.inv_of_run step _ [] initial events hinitial (hlast.and step hok) hrun
      intro hist s event s' hs hok hstep
      exact hs.step hd hws hok.1 hok.2 hstep
    rw [List.nil_append] at hinv
    exact hinv.answered.of_quiescent hne hshort hinv.tracks hinv.carried hquiet
  . intro hspare
    have hroom : Run.Guarded step
        (fun _ event => ∀ spare, event = .streamData spare → 3 ≤ spare.length) initial events := by
      apply Run.Guarded.of_forall
      intro event hevent _ spare hs
      apply hspare
      rw [← hs]
      exact hevent
    have hrun : ∃ s, Run.run step initial events = some s ∧ Followed ws ([] ++ events) s := by
      apply Run.run_of_step step _ [] initial events hinitial ((hlast.and step hok).and step hroom)
      intro hist s event hs hok
      rcases hs.step_isSome hd hws hok.1.1 hok.1.2 hok.2 with ⟨s', hs'⟩
      exact ⟨s', hs', hs.step hd hws hok.1.1 hok.1.2 hs'⟩
    rcases hrun with ⟨s, hrun, -⟩
    exact ⟨s, hrun⟩

theorem run_reports_sample
    : ∃ s, Run.run step initial sampleEvents = some s ∧
        Quiescent (content sampleResponse) sampleEvents s ∧
        s.response ∈ s.responses ∧ s.response.body = body sampleResponse := by
  have hquiet : ∀ s, Run.run step initial sampleEvents = some s →
      Quiescent (content sampleResponse) sampleEvents s := by
    decide +kernel
  have hreports := run_reports sampleResponse (by decide) (by decide) (by decide) (by decide)
    sampleEvents (by decide) (by decide +kernel)
  have hspare : ∀ spare, .streamData spare ∈ sampleEvents → 3 ≤ spare.length := by
    intro spare hspare
    simp [sampleEvents] at hspare
    rcases hspare with rfl | rfl
    . decide
    . decide
  rcases hreports.2 hspare with ⟨s, hrun⟩
  exact ⟨s, hrun, hquiet s hrun, hreports.1 s hrun (hquiet s hrun)⟩

/--
No response is reported with a frame of an unknown type behind the body, when the FIN comes with a
retransmission of the whole stream, and with a length of eight bytes.
-/
theorem not_run_reports
    : (∃ ws events, (∀ f ∈ framesOf events, f.LastOf (content ws)) ∧
        (∃ w ∈ ws, w.type = 0x20) ∧
        ∃ s, Run.run step initial events = some s ∧ Quiescent (content ws) events s ∧
          s.responses = []) ∧
      (∃ events, (∀ f ∈ framesOf events, f.LastOf (content sampleResponse)) ∧
        ∃ s, Run.run step initial events = some s ∧ Quiescent (content sampleResponse) events s ∧
          s.responses = []) ∧
      ∃ ws events, (∀ f ∈ framesOf events, f.LastOf (content ws)) ∧
        (∃ w ∈ ws, w.length.length = 8) ∧
        ∃ s, Run.run step initial events = some s ∧ Quiescent (content ws) events s ∧
          s.responses = [] := by
  refine ⟨?_, ?_, ?_⟩
  . refine ⟨[⟨[1], 0, [65], fun _ => rfl⟩, ⟨[0], 0x20, [], fun _ => rfl⟩],
      [.addToRead ⟨true, true, true, 0, 0, 5, [1, 0, 65, 0, 0x20]⟩, .pipe,
        .streamData (List.replicate 59 0), .frameReceived, .frameReceived], ?_, ?_, ?_⟩
    . decide
    . decide
    . decide +kernel
  . refine ⟨[.addToRead ⟨false, true, true, 0, 0, 9, [1, 1, 0xc0, 1, 0, 65, 1, 0, 66]⟩, .pipe,
      .streamData (List.replicate 55 0), .frameReceived, .frameReceived, .frameReceived,
      .qpack 0 [⟨":status", "200"⟩], .decodedHeaders,
      .addToRead ⟨true, true, true, 0, 0, 9, [1, 1, 0xc0, 1, 0, 65, 1, 0, 66]⟩], ?_, ?_⟩
    . decide
    . decide +kernel
  . refine ⟨[⟨[0xc0, 0, 0, 0, 0, 0, 0, 1], 0, [65], fun _ => rfl⟩],
      [.addToRead ⟨true, true, true, 0, 0, 10, [0xc0, 0, 0, 0, 0, 0, 0, 1, 0, 65]⟩, .pipe,
        .streamData (List.replicate 54 0)], ?_, ?_, ?_⟩
    . decide
    . decide
    . decide +kernel

end HTTPAgent

end QuicTracker
