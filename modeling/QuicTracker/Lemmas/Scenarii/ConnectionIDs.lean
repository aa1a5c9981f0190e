import QuicTracker.Impl.Scenarii.ConnectionIDs
import QuicTracker.Lemmas.Client
import QuicTracker.Lemmas.Scenarii.Scenario

/-!
This module contains the verdicts of `new_connection_id` and of `retire_connection_id`, for any packets that the
peer sends.
-/

namespace QuicTracker

/-- The NEW_CONNECTION_ID frames that the two scenarii see in a packet. -/
def Packet.newConnectionIDs (p : Packet) : List NewConnectionIdFrame :=
  match p.protectedPacket with
  | some pp => pp.frames.filterMap Frame.newConnectionId?
  | none => []

namespace NewConnectionID

variable {τ : Type} {config : Config} {s s' : State τ}

structure Switched (config : Config) (code : Nat) (ids : List String) (s : State τ) : Prop where
  expectingResponse : s.expectingResponse = true
  sourceCID : s.conn.sourceCID = config.scid
  errorCode : s.trace.errorCode = code
  alternativeConnectionIDs : s.alternativeConnectionIDs = ids

theorem Switched.handleFrame {code : Nat} {ids : List String} {nci : NewConnectionIdFrame}
    (hs : Switched config code ids s) (h : handleFrame config s (.newConnectionId nci) = some s')
    : Switched config (if nci.hasInvalidLength then hostSentInvalidCIDLength else code)
        (ids ++ [encodeToString nci.connectionId]) s' := by
  unfold NewConnectionID.handleFrame at h
  dsimp only at h
  rw [if_neg (by rw [hs.expectingResponse]; simp)] at h
  injection h with h
  rw [← h]
  refine ⟨rfl, hs.sourceCID, ?_, ?_⟩
  . dsimp only
    split
    . rfl
    . exact hs.errorCode
  . dsimp only
    rw [hs.alternativeConnectionIDs]

theorem Switched.handleFrames {code : Nat} {ids : List String} {ncis : List NewConnectionIdFrame}
    (hs : Switched config code ids s)
    (h : (ncis.map Frame.newConnectionId).foldlM (NewConnectionID.handleFrame config) s = some s')
    : Switched config (if ncis.any (·.hasInvalidLength) then hostSentInvalidCIDLength else code)
        (ids ++ ncis.map (fun nci => encodeToString nci.connectionId)) s' := by
  induction ncis generalizing code ids s with
  | nil =>
    injection h with h
    rw [← h]
    simpa using hs
  | cons nci ncis ih =>
    rw [List.map_cons, List.foldlM_cons] at h
    rcases Option.bind_eq_some_iff.mp h with ⟨s1, hs1, h⟩
    have hrest := ih (hs.handleFrame hs1) h
    rw [List.any_cons, List.map_cons, List.append_cons]
    cases hnci : nci.hasInvalidLength with
    | false => simpa [hnci] using hrest
    | true => simpa [hnci] using hrest

def answerCode (config : Config) (p : Packet) : Nat :=
  if p.header.map Header.destinationConnectionID = some config.scid then 0 else hostDidNotAdaptCID

theorem Switched.step {code : Nat} {ids : List String} {p : Packet} (hs : Switched config code ids s)
    (h : step config s p = some s')
    : Switched config (answerCode config p) ids s' := by
  unfold NewConnectionID.step at h
  rw [hs.expectingResponse, if_pos rfl] at h
  rcases Option.bind_eq_some_iff.mp h with ⟨header, hheader, h⟩
  unfold answerCode
  rw [hheader]
  dsimp only [Option.map_some]
  rw [hs.sourceCID] at h
  split at h
  . next hne =>
    injection h with h
    rw [← h, if_neg (by simpa using hne)]
    exact ⟨hs.expectingResponse, hs.sourceCID, rfl, hs.alternativeConnectionIDs⟩
  . next heq =>
    injection h with h
    rw [← h, if_pos (by simpa using heq)]
    exact ⟨hs.expectingResponse, hs.sourceCID, rfl, hs.alternativeConnectionIDs⟩

theorem Switched.run {code : Nat} {ids : List String} {packets : List Packet}
    (hs : Switched config code ids s) (h : Run.run (NewConnectionID.step config) s packets = some s')
    : Switched config (packets.getLast?.elim code (answerCode config)) ids s' := by
  induction packets generalizing code s with
  | nil =>
    injection h with h
    rw [← h]
    exact hs
  | cons p packets ih =>
    rw [Run.run_cons] at h
    rcases Option.bind_eq_some_iff.mp h with ⟨s1, hs1, h⟩
    have hrest := ih (hs.step hs1) h
    cases packets with
    | nil => exact hrest
    | cons q packets =>
      rw [List.getLast?_cons_cons]
      exact hrest

def samplePacket (destinationCID : ConnectionID) (ncis : List NewConnectionIdFrame) : Packet :=
  .frames ⟨.short ⟨false, destinationCID, ⟨0, 1⟩, 0⟩, .appData, .oneRTT, ncis.map Frame.newConnectionId⟩

def sampleOffer (length : UInt8) : NewConnectionIdFrame := ⟨1, length, [9], Vector.replicate 16 0⟩

end NewConnectionID

namespace RetireConnectionID

variable {τ : Type} {s s' : State τ}

def provided (packets : List Packet) : List (List NewConnectionIdFrame) :=
  (packets.map Packet.newConnectionIDs).filter (fun ncis => ncis ≠ [])

def code (provided : List (List NewConnectionIdFrame)) : Nat :=
  match provided with
  | [] => hostDidNotProvideCID
  | [_] => hostDidNotProvideNewCID
  | _ => 0

def retire (nci : NewConnectionIdFrame) : QueuedFrame := ⟨.retireConnectionId ⟨nci.sequence⟩, .oneRTT⟩

structure Judged (frameQueue : List QueuedFrame) (provided : List (List NewConnectionIdFrame)) (s : State τ) :
    Prop where
  hasRetiredCIDs : s.hasRetiredCIDs = true ↔ provided ≠ []
  errorCode : s.trace.errorCode = code provided
  frameQueue : s.conn.frameQueue = frameQueue ++ (provided.headD []).map retire
  alternativeConnectionIDs :
    s.alternativeConnectionIDs = provided.flatten.map (fun nci => encodeToString nci.connectionId)

/-- The frames of one packet, whether or not connection IDs were retired before it. -/
structure Handled (ncis : List NewConnectionIdFrame) (s s' : State τ) : Prop where
  hasRetiredCIDs : s'.hasRetiredCIDs = s.hasRetiredCIDs
  errorCode : s.hasRetiredCIDs = true → ncis ≠ [] → s'.trace.errorCode = 0
  kept : ncis = [] → s'.trace.errorCode = s.trace.errorCode
  frameQueue : s'.conn.frameQueue
    = s.conn.frameQueue ++ if s.hasRetiredCIDs then [] else ncis.map retire
  alternativeConnectionIDs : s'.alternativeConnectionIDs
    = s.alternativeConnectionIDs ++ ncis.map (fun nci => encodeToString nci.connectionId)

theorem handleFrame_handled (s : State τ) (nci : NewConnectionIdFrame)
    : ∃ s', handleFrame s (.newConnectionId nci) = some s' ∧ Handled [nci] s s' := by
  unfold handleFrame
  cases hretired : s.hasRetiredCIDs with
  | false =>
    refine ⟨_, rfl, ⟨hretired.symm, ?_, ?_, ?_, rfl⟩⟩
    . intro h
      rw [hretired] at h
      contradiction
    . intro h
      contradiction
    . rw [hretired]
      rfl
  | true =>
    refine ⟨_, rfl, ⟨hretired.symm, ?_, ?_, ?_, rfl⟩⟩
    . intro _ _
      rfl
    . intro h
      contradiction
    . rw [hretired]
      exact (List.append_nil _).symm

theorem Handled.trans {s₁ s₂ s₃ : State τ} {ncis ncis' : List NewConnectionIdFrame} (h : Handled ncis s₁ s₂)
    (h' : Handled ncis' s₂ s₃)
    : Handled (ncis ++ ncis') s₁ s₃ := by
  refine ⟨?_, ?_, ?_, ?_, ?_⟩
  . rw [h'.hasRetiredCIDs, h.hasRetiredCIDs]
  . intro hretired hne
    cases ncis' with
    | nil =>
      rw [h'.kept rfl]
      exact h.errorCode hretired (by simpa using hne)
    | cons nci ncis' =>
      apply h'.errorCode
      . rw [h.hasRetiredCIDs]
        exact hretired
      . simp
  . intro hnil
    rw [List.append_eq_nil_iff] at hnil
    rw [h'.kept hnil.2, h.kept hnil.1]
  . rw [h'.frameQueue, h.frameQueue, h.hasRetiredCIDs]
    cases s₁.hasRetiredCIDs with
    | false => simp
    | true => simp
  . rw [h'.alternativeConnectionIDs, h.alternativeConnectionIDs]
    simp

theorem handleFrames_handled (s : State τ) (ncis : List NewConnectionIdFrame)
    : ∃ s', (ncis.map Frame.newConnectionId).foldlM handleFrame s = some s' ∧ Handled ncis s s' := by
  induction ncis generalizing s with
  | nil =>
    refine ⟨s, rfl, ⟨rfl, fun _ h => absurd rfl h, fun _ => rfl, ?_, ?_⟩⟩
    . simp
    . simp
  | cons nci ncis ih =>
    rcases handleFrame_handled s nci with ⟨s1, hs1, hfirst⟩
    rcases ih s1 with ⟨s2, hs2, hrest⟩
    refine ⟨s2, ?_, hfirst.trans hrest⟩
    rw [List.map_cons, List.foldlM_cons, hs1]
    exact hs2

theorem Handled.judged_nil {frameQueue : List QueuedFrame} {ps : List (List NewConnectionIdFrame)}
    (h : Handled [] s s') (hs : Judged frameQueue ps s)
    : Judged frameQueue ps s' := by
  refine ⟨?_, ?_, ?_, ?_⟩
  . rw [h.hasRetiredCIDs]
    exact hs.hasRetiredCIDs
  . rw [h.kept rfl]
    exact hs.errorCode
  . rw [h.frameQueue, hs.frameQueue]
    simp
  . rw [h.alternativeConnectionIDs, hs.alternativeConnectionIDs]
    simp

theorem Handled.judged_again {frameQueue : List QueuedFrame} {ps : List (List NewConnectionIdFrame)}
    {ncis : List NewConnectionIdFrame} (h : Handled ncis s s') (hs : Judged frameQueue ps s) (hps : ps ≠ [])
    (hncis : ncis ≠ [])
    : Judged frameQueue (ps ++ [ncis]) s' := by
  have hretired := hs.hasRetiredCIDs.mpr hps
  refine ⟨?_, ?_, ?_, ?_⟩
  . rw [h.hasRetiredCIDs, hretired]
    simp
  . rw [h.errorCode hretired hncis]
    rcases ps with _ | ⟨first, _ | ⟨second, ps⟩⟩
    . contradiction
    . rfl
    . rfl
  . rw [h.frameQueue, hs.frameQueue, hretired]
    cases ps with
    | nil => contradiction
    | cons first ps => simp
  . rw [h.alternativeConnectionIDs, hs.alternativeConnectionIDs]
    simp

theorem Handled.judged_first {frameQueue : List QueuedFrame} {ncis : List NewConnectionIdFrame}
    (h : Handled ncis s s') (hs : Judged frameQueue [] s)
    : Judged frameQueue [ncis] { s' with
        hasRetiredCIDs := true
        trace := { s'.trace with errorCode := hostDidNotProvideNewCID } } := by
  have hretired : s.hasRetiredCIDs = false := by
    rw [← Bool.not_eq_true, hs.hasRetiredCIDs]
    simp
  refine ⟨by simp, rfl, ?_, ?_⟩
  . dsimp only
    rw [h.frameQueue, hs.frameQueue, hretired]
    simp
  . dsimp only
    rw [h.alternativeConnectionIDs, hs.alternativeConnectionIDs]
    simp

theorem handlePacket_eq (pp : FramePacket) (s : State τ)
    : ∃ s', handlePacket s pp
          = some (if ¬ s'.hasRetiredCIDs ∧ pp.frames.filterMap Frame.newConnectionId? ≠ [] then
              { s' with
                hasRetiredCIDs := true
                trace := { s'.trace with errorCode := hostDidNotProvideNewCID } }
            else
              s') ∧
        Handled (pp.frames.filterMap Frame.newConnectionId?) s s' := by
  rcases handleFrames_handled s (pp.frames.filterMap Frame.newConnectionId?) with ⟨s', hs', hhandled⟩
  refine ⟨s', ?_, hhandled⟩
  unfold handlePacket
  rw [Frame.kind_newConnectionId.getAll, hs']
  simp only [Option.bind_eq_bind, Option.bind_some, Frame.kind_newConnectionId.contains]
  split
  . rfl
  . rfl

theorem provided_append (hist : List Packet) (p : Packet)
    : provided (hist ++ [p])
        = provided hist ++ if p.newConnectionIDs = [] then [] else [p.newConnectionIDs] := by
  unfold provided
  rw [List.map_append, List.filter_append]
  congr 1
  cases hp : p.newConnectionIDs with
  | nil => simp [hp]
  | cons nci ncis => simp [hp]

theorem Judged.step {frameQueue : List QueuedFrame} {hist : List Packet} (hs : Judged frameQueue (provided hist) s)
    (p : Packet)
    : ∃ s', RetireConnectionID.step s p = some s' ∧ Judged frameQueue (provided (hist ++ [p])) s' := by
  rw [provided_append]
  unfold RetireConnectionID.step Packet.newConnectionIDs
  cases hpp : p.protectedPacket with
  | none => exact ⟨s, rfl, by simpa using hs⟩
  | some pp =>
    dsimp only
    rcases handlePacket_eq pp s with ⟨s1, heq, hhandled⟩
    refine ⟨_, heq, ?_⟩
    rw [hhandled.hasRetiredCIDs]
    by_cases hncis : pp.frames.filterMap Frame.newConnectionId? = []
    . rw [if_pos hncis, if_neg (fun h => h.2 hncis), List.append_nil]
      rw [hncis] at hhandled
      exact hhandled.judged_nil hs
    . rw [if_neg hncis]
      by_cases hps : provided hist = []
      . rw [hps] at hs ⊢
        have hretired := hs.hasRetiredCIDs
        rw [if_pos ⟨by simp [hretired], hncis⟩]
        exact hhandled.judged_first hs
      . rw [if_neg (by simp [hs.hasRetiredCIDs.mpr hps])]
        exact hhandled.judged_again hs hps hncis

theorem Judged.run {conn : Client τ} {trace : Trace} (packets : List Packet)
    : ∃ s', Run.run RetireConnectionID.step (start conn trace) packets = some s' ∧
        Judged conn.frameQueue (provided packets) s' := by
  have hstart : Judged conn.frameQueue (provided []) (start conn trace) :=
    ⟨by simp [start, provided], rfl, by simp [start, provided], rfl⟩
  have hstep (hist : List Packet) (s : State τ) (p : Packet) (hs : Judged conn.frameQueue (provided hist) s)
      (_ : True)
      : ∃ s', RetireConnectionID.step s p = some s' ∧ Judged conn.frameQueue (provided (hist ++ [p])) s' := by
    exact hs.step p
  have hall := Run.Guarded.of_forall RetireConnectionID.step
    (fun (_ : Packet) (_ : _ ∈ packets) (_ : State τ) => trivial) (start conn trace)
  exact Run.run_of_step RetireConnectionID.step hstep [] _ packets hstart hall

/-- The scenario always ends, and an invalid length is never its verdict. -/
theorem second_offer_decides (conn : Client τ) (trace : Trace) {status : HandshakeStatus}
    (hstatus : status.completed = true) (packets : List Packet)
    : ∃ conn' trace', run conn trace (some status) packets
          = some (conn', trace',
              (packets.flatMap Packet.newConnectionIDs).map fun nci => encodeToString nci.connectionId) ∧
        trace'.errorCode = code (provided packets) ∧
        conn'.frameQueue = conn.frameQueue ++ ((provided packets).headD []).map retire := by
  rcases Judged.run packets with ⟨s', hs', hjudged⟩
  refine ⟨s'.conn, s'.trace, ?_, hjudged.errorCode, hjudged.frameQueue⟩
  have hids := hjudged.alternativeConnectionIDs
  unfold provided at hids
  rw [List.flatten_filter_ne_nil, ← List.flatMap_def] at hids
  unfold run
  rw [completeHandshake_completed trace _ hstatus, Option.bind_eq_bind, Option.bind_some]
  dsimp only
  rw [if_pos rfl, hs', ← hids]
  rfl

theorem second_offer_decides_two
    : ∃ conn' trace', run sampleClient {} (some ⟨true, none, none⟩)
          [NewConnectionID.samplePacket [] [NewConnectionID.sampleOffer 8],
            NewConnectionID.samplePacket [] [NewConnectionID.sampleOffer 1]] = some (conn', trace', ["09", "09"]) ∧
        trace'.errorCode = 0 ∧ conn'.frameQueue = [⟨.retireConnectionId ⟨1⟩, .oneRTT⟩] := by
  exact second_offer_decides sampleClient {} rfl
    [NewConnectionID.samplePacket [] [NewConnectionID.sampleOffer 8],
      NewConnectionID.samplePacket [] [NewConnectionID.sampleOffer 1]]

end RetireConnectionID

end QuicTracker
