import QuicTracker.Impl.Agents.Http
import QuicTracker.Lemmas.Varint

/-!
This module contains the decoding of a sequence of HTTP/3 frames that arrives piece by piece.
-/

namespace QuicTracker

open ByteReader

theorem IsVarInt.unique {a b ra rb : List UInt8} {i j : Nat} (ha : IsVarInt a i) (hb : IsVarInt b j)
    (h : a ++ ra = b ++ rb)
    : a = b ∧ i = j := by
  have hread : (some i, ra) = (some j, rb) := by
    rw [← ha ra, ← hb rb, h]
  injection hread with hi hr
  injection hi with hi
  rw [hr] at h
  exact ⟨List.append_cancel_right h, hi⟩

theorem readVarInt_isVarInt {b : List UInt8} {l : VarInt} (h : (readVarInt b).1 = some l)
    : ∃ bytes rest, b = bytes ++ rest ∧ IsVarInt bytes l.value ∧ bytes.length = l.length := by
  cases readVarIntValue_cases b with
  | inl hnone =>
    unfold readVarInt at h
    rw [hnone] at h
    contradiction
  | inr hsome =>
    rcases hsome with ⟨bytes, i, rest, hb, hi⟩
    rw [hb, hi.readVarInt] at h
    injection h with h
    rw [← h]
    exact ⟨bytes, rest, hb, hi, rfl⟩

namespace HTTP3

/-- A frame on the wire. Its length need not be in the shortest form. -/
structure WireFrame where
  length : List UInt8
  type : UInt8
  payload : List UInt8
  isVarInt : IsVarInt length payload.length

namespace WireFrame

def bytes (w : WireFrame) : List UInt8 := w.length ++ w.type :: w.payload

def header (w : WireFrame) : HTTPFrameHeader := ⟨⟨w.payload.length, w.length.length⟩, w.type⟩

theorem length_bytes (w : WireFrame) : w.bytes.length = w.length.length + 1 + w.payload.length := by
  unfold bytes
  rw [List.length_append, List.length_cons]
  omega

theorem bytes_ne_nil (w : WireFrame) : w.bytes ≠ [] := by
  simp [bytes]

theorem wireLength_header (w : WireFrame) (h : w.bytes.length < 2 ^ 64)
    : w.header.wireLength = w.bytes.length := by
  rw [length_bytes] at h ⊢
  exact Nat.mod_eq_of_lt h

theorem readByteOrZero_cons (b : UInt8) (rest : List UInt8)
    : readByteOrZero (b :: rest) = (b, rest) := by
  rfl

theorem readVarIntOrZero_append (w : WireFrame) (rest : List UInt8)
    : readVarIntOrZero (w.bytes ++ rest) = (w.header.length, w.type :: (w.payload ++ rest)) := by
  unfold readVarIntOrZero bytes
  rw [List.append_assoc]
  rw [w.isVarInt.readVarInt]
  rfl

theorem readHTTPFrameHeader_append (w : WireFrame) (rest : List UInt8)
    : readHTTPFrameHeader (w.bytes ++ rest) = (w.header, w.payload ++ rest) := by
  unfold readHTTPFrameHeader
  rw [w.readVarIntOrZero_append rest]
  rfl

theorem readPayload_append (w : WireFrame) (mk : HTTPFrameHeader → List UInt8 → HTTPFrame)
    (rest : List UInt8)
    : readPayload mk (w.bytes ++ rest) = (mk w.header w.payload, rest) := by
  unfold readPayload
  rw [w.readHTTPFrameHeader_append rest]
  dsimp only
  rw [readInto_append _ _ (by rfl)]

theorem seekBack_append (w : WireFrame) (rest : List UInt8)
    : seekBack (w.bytes ++ rest) (w.payload ++ rest) (w.header.length.length + 1)
        = w.bytes ++ rest := by
  have hposition : (w.bytes ++ rest).length - (w.payload ++ rest).length
      = w.header.length.length + 1 := by
    rw [List.length_append, List.length_append, w.length_bytes]
    dsimp only [header]
    omega
  unfold seekBack
  dsimp only
  rw [hposition]
  rw [if_pos (Nat.le_refl _)]
  rw [Nat.sub_self, List.drop_zero]

/-- The `switch` over the type, which has been peeked at. -/
def readTyped (type : UInt8) (buffer : List UInt8) : Option (HTTPFrame × List UInt8) :=
  if type = FrameType.data then some (readDATA buffer)
  else if type = FrameType.headers then some (readHEADERS buffer)
  else if type = FrameType.priority then some (readPRIORITY buffer)
  else if type = FrameType.cancelPush then some (readCANCEL_PUSH buffer)
  else if type = FrameType.settings then some (readSETTINGS buffer)
  else if type = FrameType.pushPromise then readPUSH_PROMISE buffer
  else if type = FrameType.goaway then some (readGOAWAY buffer)
  else if type = FrameType.maxPushID then some (readMAX_PUSH_ID buffer)
  else some (readUnknownFrame buffer)

theorem readHTTPFrame_append (w : WireFrame) (rest : List UInt8)
    : readHTTPFrame (w.bytes ++ rest) = readTyped w.type (w.bytes ++ rest) := by
  unfold readHTTPFrame
  rw [w.readVarIntOrZero_append rest]
  dsimp only
  rw [readByteOrZero_cons]
  dsimp only
  rw [w.seekBack_append rest]
  rfl

def IsData (w : WireFrame) : Prop := w.type = FrameType.data

def IsHeaders (w : WireFrame) : Prop := w.type = FrameType.headers

instance (w : WireFrame) : Decidable w.IsData := inferInstanceAs (Decidable (_ = _))

instance (w : WireFrame) : Decidable w.IsHeaders := inferInstanceAs (Decidable (_ = _))

def frame (w : WireFrame) : HTTPFrame :=
  if w.IsData then .data w.header w.payload else .headers w.header w.payload

def body (w : WireFrame) : List UInt8 := if w.IsData then w.payload else []

theorem readHTTPFrame_bytes (w : WireFrame) (h : w.IsData ∨ w.IsHeaders)
    : readHTTPFrame w.bytes = some (w.frame, []) := by
  have hread := w.readHTTPFrame_append []
  have hpayload (mk : HTTPFrameHeader → List UInt8 → HTTPFrame) := w.readPayload_append mk []
  rw [List.append_nil] at hread hpayload
  rw [hread]
  unfold frame
  cases h with
  | inl h =>
    have htype : w.type = FrameType.data := h
    rw [htype, if_pos h]
    exact congrArg some (hpayload .data)
  | inr h =>
    have htype : w.type = FrameType.headers := h
    have hdata : ¬ w.IsData := by
      unfold IsData
      rw [htype]
      decide
    rw [htype, if_neg hdata]
    exact congrArg some (hpayload .headers)

end WireFrame

def content (ws : List WireFrame) : List UInt8 := ws.flatMap WireFrame.bytes

@[simp]
theorem content_nil : content [] = [] := by
  rfl

@[simp]
theorem content_cons (w : WireFrame) (ws : List WireFrame)
    : content (w :: ws) = w.bytes ++ content ws := by
  rfl

@[simp]
theorem content_append (ws vs : List WireFrame) : content (ws ++ vs) = content ws ++ content vs := by
  unfold content
  rw [List.flatMap_append]

theorem content_eq_nil {ws : List WireFrame} (h : content ws = []) : ws = [] := by
  cases ws with
  | nil => rfl
  | cons w ws =>
    rw [content_cons, List.append_eq_nil_iff] at h
    exact absurd h.1 w.bytes_ne_nil

end HTTP3

namespace HTTPAgent

open HTTP3

theorem peekVarInt_isVarInt {buffer spare : List UInt8} {l : VarInt}
    (h : peekVarInt buffer spare = some (some l)) (hle : l.length ≤ buffer.length)
    : ∃ bytes rest, buffer = bytes ++ rest ∧ IsVarInt bytes l.value ∧ bytes.length = l.length := by
  unfold peekVarInt at h
  split at h
  . injection h with h
    contradiction
  . split at h
    . injection h with h
      rcases readVarInt_isVarInt h with ⟨bytes, rest, hb, hi, hlen⟩
      -- What was read lies in the part of the window that was written.
      have hwindow : bytes <+: (buffer ++ spare).take 4 := by
        rw [hb]
        exact List.prefix_append _ _
      have hbytes : bytes <+: buffer := by
        apply List.prefix_of_prefix_length_le
        . exact hwindow.trans (List.take_prefix _ _)
        . exact List.prefix_append _ _
        . omega
      rcases hbytes with ⟨rest', hrest⟩
      exact ⟨bytes, rest', hrest.symm, hi, hlen⟩
    . contradiction

theorem peekVarInt_length_le {buffer spare : List UInt8} {l : VarInt}
    (h : peekVarInt buffer spare = some (some l))
    : l.length ≤ 4 := by
  unfold peekVarInt at h
  split at h
  . injection h with h
    contradiction
  . split at h
    . injection h with h
      rcases readVarInt_isVarInt h with ⟨bytes, rest, hb, _, hlen⟩
      have hwindow := congrArg List.length hb
      rw [List.length_append, List.length_take] at hwindow
      omega
    . contradiction

theorem peekVarInt_content {buffer spare later : List UInt8} {l : VarInt} {ws : List WireFrame}
    (h : peekVarInt buffer spare = some (some l)) (hle : l.length + 1 + l.value ≤ buffer.length)
    (hcontent : buffer ++ later = content ws)
    : ∃ w ws', ws = w :: ws' ∧ w.length.length ≤ 4 ∧ l.length + 1 + l.value = w.bytes.length ∧
        buffer.take w.bytes.length = w.bytes ∧
        buffer.drop w.bytes.length ++ later = content ws' := by
  rcases peekVarInt_isVarInt h (by omega) with ⟨bytes, rest, hb, hi, hlen⟩
  cases ws with
  | nil =>
    rw [content_nil, List.append_eq_nil_iff] at hcontent
    rw [hcontent.1] at hle
    simp at hle
  | cons w ws =>
    rw [content_cons] at hcontent
    have hsame : bytes ++ (rest ++ later) = w.length ++ (w.type :: w.payload ++ content ws) := by
      rw [← List.append_assoc, ← hb, hcontent]
      simp [WireFrame.bytes]
    have hw := hi.unique w.isVarInt hsame
    have hn : l.length + 1 + l.value = w.bytes.length := by
      rw [w.length_bytes, ← hw.1, ← hw.2, hlen]
    have hshort : w.length.length ≤ 4 := by
      rw [← hw.1, hlen]
      exact peekVarInt_length_le h
    refine ⟨w, ws, rfl, hshort, hn, ?_, ?_⟩
    . have htake : (buffer ++ later).take w.bytes.length = buffer.take w.bytes.length := by
        apply List.take_append_of_le_length
        omega
      rw [← htake, hcontent, List.take_left]
    . rw [← List.drop_append_of_le_length (by omega), hcontent, List.drop_left]

def ReadsAs (w : WireFrame) (frame : HTTPFrame) : Prop :=
  ∃ unread, readHTTPFrame w.bytes = some (frame, unread)

theorem attemptDecoding_cases {fuel : Nat} {buffer spare rest : List UInt8} {frames : List HTTPFrame}
    (h : attemptDecoding (fuel + 1) buffer spare = some (frames, rest))
    : (frames = [] ∧ rest = buffer ∧ ∃ peeked, peekVarInt buffer spare = some peeked ∧
        ∀ l, peeked = some l → buffer.length < l.length + 1 + l.value) ∨
      (∃ l frame unread frames', frames = frame :: frames' ∧
        peekVarInt buffer spare = some (some l) ∧ l.length + 1 + l.value ≤ buffer.length ∧
        readHTTPFrame (buffer.take (l.length + 1 + l.value)) = some (frame, unread) ∧
        attemptDecoding fuel (buffer.drop (l.length + 1 + l.value)) spare
          = some (frames', rest)) := by
  unfold attemptDecoding at h
  rcases Option.bind_eq_some_iff.mp h with ⟨peeked, hpeek, h⟩
  cases peeked with
  | none =>
    injection h with h
    injection h with hframes hrest
    exact .inl ⟨hframes.symm, hrest.symm, none, hpeek, by simp⟩
  | some l =>
    dsimp only at h
    split at h
    . next hle =>
      rcases Option.bind_eq_some_iff.mp h with ⟨⟨frame, unread⟩, hread, h⟩
      rcases Option.bind_eq_some_iff.mp h with ⟨⟨frames', rest'⟩, hrec, h⟩
      injection h with h
      injection h with hframes hrest
      dsimp only at hrest
      rw [hrest] at hrec
      exact .inr ⟨l, frame, unread, frames', hframes.symm, hpeek, hle, hread, hrec⟩
    . next hlt =>
      injection h with h
      injection h with hframes hrest
      refine .inl ⟨hframes.symm, hrest.symm, some l, hpeek, ?_⟩
      rintro _ ⟨⟩
      omega

theorem attemptDecoding_content {fuel : Nat} {buffer spare later rest : List UInt8}
    {frames : List HTTPFrame} {ws : List WireFrame}
    (h : attemptDecoding fuel buffer spare = some (frames, rest))
    (hcontent : buffer ++ later = content ws)
    : ∃ done todo, ws = done ++ todo ∧ List.Forall₂ ReadsAs done frames ∧
        (∀ w ∈ done, w.length.length ≤ 4) ∧ rest ++ later = content todo := by
  induction fuel generalizing buffer frames ws with
  | zero => contradiction
  | succ fuel ih =>
    rcases attemptDecoding_cases h with
      ⟨hframes, hrest, _⟩ | ⟨l, frame, unread, frames', hframes, hpeek, hle, hread, hrec⟩
    . exact ⟨[], ws, rfl, by simp [hframes], by simp, by rw [hrest, hcontent]⟩
    . rcases peekVarInt_content hpeek hle hcontent with ⟨w, ws', hws, hshort, hn, htake, hdrop⟩
      rw [hn, htake] at hread
      rw [hn] at hrec
      rcases ih hrec hdrop with ⟨done, todo, hsplit, hdone, hshorts, htodo⟩
      refine ⟨w :: done, todo, ?_, ?_, ?_, htodo⟩
      . rw [hws, hsplit]
        rfl
      . rw [hframes]
        exact List.Forall₂.cons ⟨unread, hread⟩ hdone
      . exact List.forall_mem_cons.mpr ⟨hshort, hshorts⟩

theorem attemptDecoding_stops {fuel : Nat} {buffer spare rest : List UInt8} {frames : List HTTPFrame}
    (h : attemptDecoding fuel buffer spare = some (frames, rest))
    : ∃ peeked, peekVarInt rest spare = some peeked ∧
        ∀ l, peeked = some l → rest.length < l.length + 1 + l.value := by
  induction fuel generalizing buffer frames with
  | zero => contradiction
  | succ fuel ih =>
    rcases attemptDecoding_cases h with ⟨_, hrest, hstop⟩ | ⟨_, _, _, _, _, _, _, _, hrec⟩
    . rw [hrest]
      exact hstop
    . exact ih hrec

theorem peekVarInt_bytes {w : WireFrame} (hw : w.length.length ≤ 4) {tail spare : List UInt8}
    {peeked : Option VarInt} (h : peekVarInt (w.bytes ++ tail) spare = some peeked)
    : peeked = some w.header.length := by
  have hwindow : (w.bytes ++ tail ++ spare).take 4
      = w.length ++ (w.type :: w.payload ++ tail ++ spare).take (4 - w.length.length) := by
    unfold WireFrame.bytes
    rw [List.append_assoc, List.append_assoc, List.take_append, List.take_of_length_le hw]
    simp
  unfold peekVarInt at h
  split at h
  . next hnil =>
    simp [WireFrame.bytes] at hnil
  . split at h
    . injection h with h
      rw [← h, hwindow, w.isVarInt.readVarInt]
      rfl
    . contradiction

theorem attemptDecoding_not_prefix {fuel : Nat} {buffer spare rest : List UInt8}
    {frames : List HTTPFrame} (h : attemptDecoding fuel buffer spare = some (frames, rest))
    {w : WireFrame} (hw : w.length.length ≤ 4)
    : ¬ w.bytes <+: rest := by
  rintro ⟨tail, rfl⟩
  rcases attemptDecoding_stops h with ⟨peeked, hpeek, hlt⟩
  have := hlt _ (peekVarInt_bytes hw hpeek)
  rw [List.length_append, w.length_bytes] at this
  dsimp [WireFrame.header] at this
  omega

/--
The call on `buffer` never slices past the end of the backing array: at the start of each frame four bytes
are left, counting those in `spare`.
-/
def Reslices (ws : List WireFrame) (buffer spare : List UInt8) : Prop :=
  ∀ done todo, ws = done ++ todo → (content done).length < buffer.length →
    4 + (content done).length ≤ buffer.length + spare.length

theorem Reslices.of_spare (ws : List WireFrame) (buffer : List UInt8) {spare : List UInt8}
    (h : 3 ≤ spare.length)
    : Reslices ws buffer spare := by
  intro done todo _ hlt
  omega

theorem Reslices.peekVarInt {ws : List WireFrame} {buffer spare : List UInt8}
    (h : Reslices ws buffer spare)
    : ∃ peeked, peekVarInt buffer spare = some peeked := by
  unfold HTTPAgent.peekVarInt
  split
  . exact ⟨_, rfl⟩
  . next hne =>
    have := h [] ws rfl (by rw [content_nil, List.length_nil]; omega)
    rw [content_nil, List.length_nil] at this
    rw [if_pos (by omega)]
    exact ⟨_, rfl⟩

theorem Reslices.drop {done todo : List WireFrame} {buffer spare : List UInt8}
    (h : Reslices (done ++ todo) (content done ++ buffer) spare)
    : Reslices todo buffer spare := by
  intro next rest hsplit hlt
  have := h (done ++ next) rest (by rw [hsplit, List.append_assoc])
  simp only [content_append, List.length_append] at this
  omega

theorem Reslices.append {done todo : List WireFrame} {buffer spare : List UInt8}
    (h : Reslices todo buffer spare) (hne : buffer ≠ [])
    : Reslices (done ++ todo) (content done ++ buffer) spare := by
  have hpos := List.length_pos_iff.mpr hne
  have hfirst := h [] todo rfl (by simpa using hpos)
  rw [content_nil, List.length_nil] at hfirst
  intro next rest hsplit hlt
  rw [List.length_append] at hlt ⊢
  -- A frame that starts before the rest of the buffer has more bytes left than the rest.
  rcases List.append_eq_append_iff.mp hsplit with ⟨more, hnext, htodo⟩ | ⟨more, hdone, _⟩
  . have := h more rest htodo
    rw [hnext, content_append, List.length_append] at hlt ⊢
    omega
  . rw [hdone, content_append, List.length_append]
    omega

theorem attemptDecoding_isSome {fuel : Nat} {buffer spare later : List UInt8} {ws : List WireFrame}
    (hspare : Reslices ws buffer spare) (hws : ∀ w ∈ ws, ∃ frame, ReadsAs w frame)
    (hcontent : buffer ++ later = content ws) (hfuel : buffer.length < fuel)
    : ∃ r, attemptDecoding fuel buffer spare = some r := by
  induction fuel generalizing buffer ws with
  | zero => omega
  | succ fuel ih =>
    unfold attemptDecoding
    rcases hspare.peekVarInt with ⟨peeked, hpeek⟩
    rw [hpeek]
    cases peeked with
    | none => exact ⟨_, rfl⟩
    | some l =>
      simp only [Option.bind_eq_bind, Option.bind_some]
      split
      . next hle =>
        rcases peekVarInt_content hpeek hle hcontent with ⟨w, ws', hws', _, hn, htake, hdrop⟩
        rcases hws w (by simp [hws']) with ⟨frame, unread, hread⟩
        have hlen := w.length_bytes
        have hbuffer : buffer = content [w] ++ buffer.drop w.bytes.length := by
          have hparts := (List.take_append_drop w.bytes.length buffer).symm
          rw [htake] at hparts
          rw [content_cons, content_nil, List.append_nil]
          exact hparts
        have hrest : Reslices ws' (buffer.drop w.bytes.length) spare := by
          rw [hws', ← List.singleton_append, hbuffer] at hspare
          exact Reslices.drop hspare
        rcases ih hrest (fun v hv => hws v (by simp [hws', hv])) hdrop (by simp; omega)
          with ⟨r, hrec⟩
        rw [hn, htake, hread, Option.bind_some, hrec]
        exact ⟨_, rfl⟩
      . exact ⟨_, rfl⟩

end HTTPAgent

end QuicTracker
