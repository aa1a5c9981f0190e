import QuicTracker.Lib.Run
import QuicTracker.Impl.Client
import QuicTracker.Lemmas.Frames.Payload

/-!
This module contains the verification of a stream from its sender to its receiver: the frames that
`NewStreamFrame` makes are written, read in the same order by `NewFrame`, and what they carry is what the
receiver has read.
-/

namespace QuicTracker

structure StreamWrite where
  streamId : Nat
  data : List UInt8
  fin : Bool
  deriving DecidableEq, Repr

namespace StreamWrite

/-- The streams of the sender and the connection of the receiver after one write. -/
def transfer (s : Streams × Connection) (w : StreamWrite) : Option (Streams × Connection) := do
  let (frame, stream) ← newStreamFrame w.streamId (s.1.get w.streamId) w.data w.fin
  let buffer ← frame.writeTo []
  let res ← newFrame buffer s.2
  return (Function.update s.1 w.streamId (some stream), res.conn)

def written (ws : List StreamWrite) (streamId : Nat) : List UInt8 :=
  (ws.filter (·.streamId = streamId)).flatMap (·.data)

/-- No write follows the end of its stream, and no stream is longer than an offset can tell. -/
structure Admissible (ws : List StreamWrite) : Prop where
  streamId_lt : ∀ w ∈ ws, w.streamId < 2 ^ 62
  written_lt : ∀ streamId, (written ws streamId).length < 2 ^ 62
  fin_last : ws.Pairwise (fun v w => v.streamId = w.streamId → v.fin = false)

end StreamWrite

/-- What the receiver has of a stream is what the sender has written. -/
structure Stream.InStep (sent received : Stream) : Prop where
  readData : received.readData = sent.writeData
  readOffset : received.readOffset = sent.writeOffset
  maxReadReceived : received.maxReadReceived = sent.writeOffset
  readChan : received.readChan.flatten = sent.writeData
  readClosed : received.readClosed = sent.writeClosed

structure Stream.Matched (sent received : Stream) : Prop extends Stream.InStep sent received where
  writeOffset : sent.writeOffset = sent.writeData.length
  shape : received.Shape
  readCloseOffset : sent.writeClosed = false → received.readCloseOffset = maxUint64

namespace Stream

def wrote (sent : Stream) (f : StreamFrame) : Stream :=
  { sent with
    writeOffset := sent.writeOffset + f.length
    writeData := sent.writeData ++ f.streamData
    writeClosed := f.finBit }

theorem matched_newStream : Matched newStream newStream := by
  exact ⟨⟨rfl, rfl, rfl, rfl, rfl⟩, rfl, shape_newStream, fun _ => rfl⟩

theorem Matched.step {sent received : Stream} (h : Matched sent received)
    (hopen : sent.writeClosed = false) {f : StreamFrame} (hf : f.Fits)
    (hoffset : f.offset = sent.writeOffset) (hend : f.offset + f.length < 2 ^ 62)
    : ∃ received', received.addToRead f = some received'
        ∧ Matched (sent.wrote f) received' := by
  rcases addToRead_added h.shape hf with ⟨received', heq, hadd⟩
  have hshape := hadd.shape h.shape hf
  have hnoted := addToRead_noted heq
  have hclosed : received.readClosed = false := h.readClosed.trans hopen
  have hcloseOffset : received'.readCloseOffset
      = if f.finBit then f.offset + f.length else maxUint64 := by
    rw [hnoted.readCloseOffset]
    unfold noteFin
    rw [h.readCloseOffset hopen]
    rw [u64_of_lt (by omega)]
    split
    . simp
    . exact h.readCloseOffset hopen
  refine ⟨received', heq, ?_⟩
  -- The frame continues what was received, the other branches of `addToRead` are not taken.
  cases hadd with
  | append _ _ readOffset maxReadReceived readData readChan _ =>
    have hfin : received'.readClosed = f.finBit := by
      have hiff := hnoted.readClosed
      rw [hclosed, hcloseOffset, readOffset] at hiff
      cases hbit : f.finBit with
      | true => simpa [hbit] using hiff
      | false =>
        have hne : f.offset + f.length ≠ maxUint64 := by
          unfold maxUint64
          omega
        simpa [hbit, hne] using hiff
    unfold wrote
    constructor
    . constructor
      . rw [readData, h.readData]
      . rw [readOffset, hoffset]
      . rw [maxReadReceived, hoffset]
      . rw [readChan, h.readChan]
      . exact hfin
    . rw [List.length_append, ← h.writeOffset, hf.length_eq]
    . exact hshape
    . intro hbit
      dsimp only at hbit
      rw [hcloseOffset, hbit]
      rfl
  | extend hnext => exact absurd ⟨hoffset.trans h.readOffset.symm, hoffset.trans h.maxReadReceived.symm⟩ hnext
  | fill hnext => exact absurd ⟨hoffset.trans h.readOffset.symm, hoffset.trans h.maxReadReceived.symm⟩ hnext

end Stream

theorem newFrame_stream (f : StreamFrame) (h : f.WellFormed) {conn : Connection}
    {stream : Stream} (hadd : (conn.streams.get f.streamId).addToRead f = some stream)
    : newFrame f.bytes conn
        = some ⟨.ok (some (.stream f)), [], conn.setStream f.streamId stream⟩ := by
  have hbounds := f.typeByte_bounds
  have hparse := f.parseStreamFrame_append h [] (fun _ => rfl)
  rw [List.append_nil] at hparse
  calc
    newFrame f.bytes conn
    _ = NewFrame.stream (readStreamFrame f.bytes conn) := by
      apply newFrame_streamType hbounds.1 hbounds.2
    _ = some ⟨.ok (some (.stream f)), [], conn.setStream f.streamId stream⟩ := by
      unfold readStreamFrame
      rw [hparse]
      dsimp only
      rw [hadd]
      rfl

namespace StreamWrite

/-- What the sender has of its streams after some writes, and the receiver with it. -/
structure Transferred (ws : List StreamWrite) (s : Streams × Connection) : Prop where
  matched : ∀ id, Stream.Matched (s.1.get id) (s.2.streams.get id)
  writeData : ∀ id, (s.1.get id).writeData = written ws id
  fin : ∀ id, (s.1.get id).writeClosed → ∃ w ∈ ws, w.streamId = id ∧ w.fin

theorem transferred_nil : Transferred [] (fun _ => none, {}) := by
  exact ⟨fun _ => Stream.matched_newStream, fun _ => rfl, fun _ h => by contradiction⟩

theorem written_concat (ws : List StreamWrite) (w : StreamWrite) (id : Nat)
    : written (ws ++ [w]) id = written ws id ++ if id = w.streamId then w.data else [] := by
  unfold written
  rw [List.filter_append, List.flatMap_append]
  by_cases hid : id = w.streamId
  . simp [hid]
  . simp [hid, Ne.symm hid]

theorem Admissible.of_concat {ws : List StreamWrite} {w : StreamWrite} (h : Admissible (ws ++ [w]))
    : Admissible ws := by
  refine ⟨?_, ?_, (List.pairwise_append.mp h.fin_last).1⟩
  . intro v hv
    exact h.streamId_lt v (List.mem_append_left _ hv)
  . intro id
    have hlt := h.written_lt id
    rw [written_concat, List.length_append] at hlt
    omega

def frame (w : StreamWrite) (sent : Stream) : StreamFrame where
  finBit := w.fin
  lenBit := true
  offBit := sent.writeOffset > 0
  streamId := w.streamId
  offset := sent.writeOffset
  length := w.data.length
  streamData := w.data

theorem newStreamFrame_eq (w : StreamWrite) {sent : Stream} (hoffset : sent.writeOffset = sent.writeData.length)
    (hlt : sent.writeOffset + w.data.length < 2 ^ 62)
    : newStreamFrame w.streamId sent w.data w.fin = some (w.frame sent, sent.wrote (w.frame sent)) := by
  unfold newStreamFrame Stream.write
  rw [if_pos (by omega)]
  rw [u64_of_lt (by omega)]
  rfl

theorem frame_wellFormed (w : StreamWrite) {sent : Stream} (hid : w.streamId < 2 ^ 62)
    (hlt : sent.writeOffset + w.data.length < 2 ^ 62)
    : (w.frame sent).WellFormed := by
  refine ⟨hid, ⟨rfl, ?_, ?_⟩, ?_⟩
  . dsimp only [frame]
    omega
  . dsimp only [frame]
    omega
  . intro hoff
    simpa [frame] using hoff

theorem Transferred.writable {ws : List StreamWrite} {s : Streams × Connection} {w : StreamWrite}
    (h : Transferred ws s) (hws : Admissible (ws ++ [w]))
    : (s.1.get w.streamId).writeClosed = false
        ∧ (s.1.get w.streamId).writeOffset + w.data.length < 2 ^ 62 := by
  apply And.intro
  . by_contra hclosed
    rcases h.fin w.streamId (by simpa using hclosed) with ⟨v, hv, hid, hfin⟩
    have hlast := (List.pairwise_append.mp hws.fin_last).2.2 v hv w (by simp) hid
    rw [hlast] at hfin
    contradiction
  . have hlt := hws.written_lt w.streamId
    rw [written_concat, if_pos rfl, List.length_append] at hlt
    rw [(h.matched w.streamId).writeOffset, h.writeData]
    exact hlt

theorem Transferred.step {ws : List StreamWrite} {s : Streams × Connection} {w : StreamWrite}
    (h : Transferred ws s) (hws : Admissible (ws ++ [w]))
    : ∃ s', transfer s w = some s' ∧ Transferred (ws ++ [w]) s' := by
  have hmatched := h.matched w.streamId
  rcases h.writable hws with ⟨hopen, hlt⟩
  have hwell := w.frame_wellFormed (hws.streamId_lt w (by simp)) hlt
  rcases hmatched.step hopen hwell.fits rfl hlt with ⟨received, hadd, hmatched'⟩
  refine ⟨(Function.update s.1 w.streamId
      (some ((s.1.get w.streamId).wrote (w.frame (s.1.get w.streamId)))),
    s.2.setStream w.streamId received), ?_, ?_⟩
  . unfold transfer
    rw [newStreamFrame_eq w hmatched.writeOffset hlt]
    simp only [Option.bind_eq_bind, Option.bind_some]
    rw [StreamFrame.writeTo_eq _ hwell, List.nil_append, Option.bind_some]
    rw [newFrame_stream _ hwell hadd]
    rfl
  . constructor
    . intro id
      dsimp only [Connection.setStream]
      rw [Streams.get_update, Streams.get_update]
      split
      . exact hmatched'
      . exact h.matched id
    . intro id
      dsimp only
      rw [Streams.get_update, written_concat, ← h.writeData]
      split
      . next hid =>
        rw [hid]
        rfl
      . exact (List.append_nil _).symm
    . intro id
      dsimp only
      rw [Streams.get_update]
      split
      . next hid =>
        intro hfin
        exact ⟨w, by simp, hid.symm, hfin⟩
      . intro hfin
        rcases h.fin id hfin with ⟨v, hv, hv'⟩
        exact ⟨v, List.mem_append_left _ hv, hv'⟩

theorem transfer_inStep (ws : List StreamWrite) (hws : Admissible ws)
    : ∃ sent received, Run.run transfer (fun _ => none, {}) ws = some (sent, received)
        ∧ ∀ id, Stream.InStep (sent.get id) (received.streams.get id) := by
  have hrun : ∃ s, Run.run transfer (fun _ => none, {}) ws = some s ∧ Transferred ws s := by
    induction ws using List.reverseRecOn with
    | nil => exact ⟨_, rfl, transferred_nil⟩
    | append_singleton ws w ih =>
      rcases ih hws.of_concat with ⟨s, hs, htransferred⟩
      rcases htransferred.step hws with ⟨s', hs', htransferred'⟩
      refine ⟨s', ?_, htransferred'⟩
      rw [Run.run_append, hs, Option.bind_some]
      rw [Run.run_cons, hs']
      rfl
  rcases hrun with ⟨⟨sent, received⟩, hrun, htransferred⟩
  exact ⟨sent, received, hrun, fun id => (htransferred.matched id).toInStep⟩

/-- Two streams are written in turns, with an empty write and an end of its own. -/
theorem transfer_inStep_two
    : ∃ sent received, Run.run transfer (fun _ => none, {})
          [⟨0, [1, 2], false⟩, ⟨4, [], false⟩, ⟨0, [], true⟩, ⟨4, [3], false⟩] = some (sent, received)
        ∧ ∀ id, Stream.InStep (sent.get id) (received.streams.get id) := by
  apply transfer_inStep
  refine ⟨by decide, ?_, by decide⟩
  intro id
  refine lt_of_le_of_lt (List.Sublist.length_le (List.Sublist.flatMap List.filter_sublist _)) ?_
  decide

end StreamWrite

end QuicTracker
