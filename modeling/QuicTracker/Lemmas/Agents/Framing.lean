import QuicTracker.Lemmas.Http3

/-!
This module contains the decoding of a response that is cut into chunks. The chunks are written to the
buffer of `attemptDecoding` one by one, each with what then lies behind the written part of the buffer.
-/

namespace QuicTracker

namespace HTTPAgent

open HTTP3

structure Chunk where
  data : List UInt8
  spare : List UInt8
  data_ne_nil : data ≠ []

def written (chunks : List Chunk) : List UInt8 := chunks.flatMap Chunk.data

@[simp]
theorem written_nil : written [] = [] := by
  rfl

@[simp]
theorem written_cons (c : Chunk) (chunks : List Chunk)
    : written (c :: chunks) = c.data ++ written chunks := by
  rfl

def receiveChunks (buffer : List UInt8) (chunks : List Chunk) :
    Option (List HTTPFrame × List UInt8) :=
  match chunks with
  | [] => some ([], buffer)
  | c :: chunks => do
    let buffer := buffer ++ c.data
    let (frames, buffer) ← attemptDecoding (buffer.length + 1) buffer c.spare
    let (frames', buffer) ← receiveChunks buffer chunks
    return (frames ++ frames', buffer)

theorem receiveChunks_cons {buffer rest : List UInt8} {c : Chunk} {chunks : List Chunk}
    {frames : List HTTPFrame}
    : receiveChunks buffer (c :: chunks) = some (frames, rest) ↔
        ∃ now kept later,
          attemptDecoding ((buffer ++ c.data).length + 1) (buffer ++ c.data) c.spare
            = some (now, kept) ∧
          receiveChunks kept chunks = some (later, rest) ∧ frames = now ++ later := by
  simp only [receiveChunks, Option.bind_eq_bind, Option.bind_eq_some_iff, Prod.exists, pure,
    Option.some.injEq, Prod.mk.injEq]
  constructor
  . rintro ⟨now, kept, hnow, later, rest', hlater, hframes, hrest⟩
    rw [hrest] at hlater
    exact ⟨now, kept, later, hnow, hlater, hframes.symm⟩
  . rintro ⟨now, kept, later, hnow, hlater, hframes⟩
    exact ⟨now, kept, hnow, later, rest, hlater, hframes.symm, rfl⟩

theorem ReadsAs.unique {w : WireFrame} {frame frame' : HTTPFrame} (h : ReadsAs w frame)
    (h' : ReadsAs w frame')
    : frame = frame' := by
  rcases h with ⟨unread, h⟩
  rcases h' with ⟨unread', h'⟩
  rw [h] at h'
  injection h' with h'
  exact congrArg Prod.fst h'

theorem readsAs_forall₂_unique {ws : List WireFrame} {frames frames' : List HTTPFrame}
    (h : List.Forall₂ ReadsAs ws frames) (h' : List.Forall₂ ReadsAs ws frames')
    : frames = frames' := by
  induction h generalizing frames' with
  | nil =>
    cases h'
    rfl
  | cons hw _ ih =>
    cases h' with
    | cons hw' h' => rw [hw.unique hw', ih h']

theorem four_le_of_peekVarInt {buffer spare : List UInt8} {peeked : Option VarInt}
    (h : peekVarInt buffer spare = some peeked) (hne : (content []).length < buffer.length)
    : 4 + (content []).length ≤ buffer.length + spare.length := by
  rw [content_nil, List.length_nil] at hne ⊢
  unfold peekVarInt at h
  rw [if_neg (by omega)] at h
  split at h
  . omega
  . contradiction

/--
The converse of `attemptDecoding_isSome`. A call that returns has looked at the start of every frame that is
in the buffer, unless it gave up at one whose length it could not read.
-/
theorem attemptDecoding_reslices {fuel : Nat} {buffer spare later rest : List UInt8}
    {frames : List HTTPFrame} {ws : List WireFrame}
    (h : attemptDecoding fuel buffer spare = some (frames, rest))
    (hshort : ∀ w ∈ ws, w.length.length ≤ 4) (hcontent : buffer ++ later = content ws)
    : Reslices ws buffer spare := by
  induction fuel generalizing buffer frames ws with
  | zero => contradiction
  | succ fuel ih =>
    rcases attemptDecoding_cases h with
      ⟨_, _, peeked, hpeek, hlt⟩ | ⟨l, _, _, _, _, hpeek, hle, _, hrec⟩
    . intro done todo hws hdone
      cases done with
      | nil => exact four_le_of_peekVarInt hpeek hdone
      | cons w done =>
        -- The whole of `w` is in the buffer, the call does not stop in front of it.
        exfalso
        rw [hws, List.cons_append, content_cons] at hcontent
        rw [content_cons, List.length_append] at hdone
        have hall : w.bytes <+: buffer ++ later := by
          rw [hcontent]
          exact List.prefix_append _ _
        have hw : w.bytes <+: buffer := by
          apply List.prefix_of_prefix_length_le hall (List.prefix_append _ _)
          omega
        rcases hw with ⟨tail, rfl⟩
        have hbytes := hlt _ (peekVarInt_bytes (hshort w (by simp [hws])) hpeek)
        rw [List.length_append, w.length_bytes] at hbytes
        dsimp only [WireFrame.header] at hbytes
        omega
    . rcases peekVarInt_content hpeek hle hcontent with ⟨w, ws', hws, _, hn, htake, hdrop⟩
      rw [hn] at hrec
      have hrest := ih hrec (fun v hv => hshort v (by simp [hws, hv])) hdrop
      intro done todo hsplit hdone
      cases done with
      | nil => exact four_le_of_peekVarInt hpeek hdone
      | cons v done =>
        rw [hws, List.cons_append] at hsplit
        injection hsplit with hv hsplit
        rw [content_cons, List.length_append, ← hv] at hdone ⊢
        have := hrest done todo hsplit
        rw [List.length_drop] at this
        omega

/-- Every call that is made for the chunks stays within the backing array of the buffer. -/
def ReslicesAll (ws : List WireFrame) (buffer : List UInt8) (chunks : List Chunk) : Prop :=
  ∀ before c after, chunks = before ++ c :: after →
    Reslices ws (buffer ++ written (before ++ [c])) c.spare

theorem written_append_singleton_ne_nil (before : List Chunk) (c : Chunk)
    : written (before ++ [c]) ≠ [] := by
  simp [written, c.data_ne_nil]

theorem reslicesAll_cons_iff {done todo : List WireFrame} {buffer kept : List UInt8} {c : Chunk}
    {chunks : List Chunk} (hkept : buffer ++ c.data = content done ++ kept)
    : ReslicesAll (done ++ todo) buffer (c :: chunks) ↔
        Reslices (done ++ todo) (buffer ++ c.data) c.spare ∧ ReslicesAll todo kept chunks := by
  have hshift (before : List Chunk) (c' : Chunk)
      : buffer ++ written (c :: before ++ [c'])
          = content done ++ (kept ++ written (before ++ [c'])) := by
    rw [List.cons_append, written_cons, ← List.append_assoc, hkept, List.append_assoc]
  constructor
  . intro h
    refine ⟨?_, ?_⟩
    . simpa using h [] c chunks rfl
    . intro before c' after hchunks
      have hcall := h (c :: before) c' after (by rw [hchunks, List.cons_append])
      rw [hshift] at hcall
      exact hcall.drop
  . rintro ⟨hnow, hlater⟩ before c' after hchunks
    cases before with
    | nil =>
      injection hchunks with hc _
      simpa [← hc] using hnow
    | cons c₀ before =>
      injection hchunks with hc hchunks
      rw [← hc, hshift]
      apply (hlater before c' after hchunks).append
      exact List.append_ne_nil_of_right_ne_nil _ (written_append_singleton_ne_nil before c')

theorem kept_eq_of_content {done todo : List WireFrame} {data kept later : List UInt8}
    (h : data ++ later = content (done ++ todo)) (hkept : kept ++ later = content todo)
    : data = content done ++ kept := by
  rw [content_append, ← hkept, ← List.append_assoc] at h
  exact List.append_cancel_right h

/--
The buffer starts with the frames `ws` that are not decoded yet. The first of them is not complete when the
decoding of the chunks before has stopped (`hstopped`).
-/
theorem receiveChunks_of_reslicesAll {ws : List WireFrame} {frames : List HTTPFrame}
    {buffer : List UInt8} {chunks : List Chunk} (hframes : List.Forall₂ ReadsAs ws frames)
    (hcontent : buffer ++ written chunks = content ws) (hshort : ∀ w ∈ ws, w.length.length ≤ 4)
    (hstopped : ∀ w ∈ ws, ¬ w.bytes <+: buffer) (hslices : ReslicesAll ws buffer chunks)
    : receiveChunks buffer chunks = some (frames, []) := by
  induction chunks generalizing ws frames buffer with
  | nil =>
    rw [written_nil, List.append_nil] at hcontent
    cases hframes with
    | nil =>
      rw [hcontent]
      rfl
    | cons hw _ =>
      exfalso
      apply hstopped _ (List.mem_cons_self ..)
      rw [hcontent]
      exact List.prefix_append _ _
  | cons c chunks ih =>
    rw [written_cons, ← List.append_assoc] at hcontent
    have hreads : ∀ w ∈ ws, ∃ frame, ReadsAs w frame := by
      intro w hw
      rcases List.forall₂_iff_get.mp hframes with ⟨hlen, hget⟩
      rcases List.get_of_mem hw with ⟨i, rfl⟩
      exact ⟨_, hget i i.isLt (hlen ▸ i.isLt)⟩
    have hnow := hslices [] c chunks rfl
    rw [List.nil_append, written_cons, written_nil, List.append_nil] at hnow
    rcases attemptDecoding_isSome hnow hreads hcontent (Nat.lt_succ_self _) with
      ⟨⟨now, kept⟩, hdecode⟩
    rcases attemptDecoding_content hdecode hcontent with ⟨done, todo, hws, hdone, _, htodo⟩
    have hlater : List.Forall₂ ReadsAs todo (frames.drop done.length) := by
      have hdrop := List.forall₂_drop done.length hframes
      rw [hws, List.drop_left] at hdrop
      exact hdrop
    have hall : frames = now ++ frames.drop done.length := by
      apply readsAs_forall₂_unique hframes
      rw [hws]
      exact List.rel_append hdone hlater
    rw [hws] at hcontent hslices
    have hkept := (reslicesAll_cons_iff (kept_eq_of_content hcontent htodo)).mp hslices
    apply receiveChunks_cons.mpr
    refine ⟨now, kept, frames.drop done.length, hdecode, ?_, hall⟩
    apply ih hlater htodo _ _ hkept.2
    . intro w hw
      exact hshort w (by simp [hws, hw])
    . intro w hw
      exact attemptDecoding_not_prefix hdecode (hshort w (by simp [hws, hw]))

theorem reslicesAll_of_receiveChunks {ws : List WireFrame} {frames : List HTTPFrame}
    {buffer : List UInt8} {chunks : List Chunk}
    (hcontent : buffer ++ written chunks = content ws)
    (h : receiveChunks buffer chunks = some (frames, []))
    : (∀ w ∈ ws, w.length.length ≤ 4) ∧ ReslicesAll ws buffer chunks := by
  induction chunks generalizing ws frames buffer with
  | nil =>
    injection h with h
    injection h with _ hbuffer
    rw [hbuffer, written_nil, List.append_nil] at hcontent
    rw [content_eq_nil hcontent.symm]
    refine ⟨by simp, ?_⟩
    intro before c after hchunks
    simp at hchunks
  | cons c chunks ih =>
    rcases receiveChunks_cons.mp h with ⟨now, kept, later, hnow, hlater, _⟩
    rw [written_cons, ← List.append_assoc] at hcontent
    rcases attemptDecoding_content hnow hcontent with ⟨done, todo, hws, _, hdone, htodo⟩
    rcases ih htodo hlater with ⟨htodoShort, hslices⟩
    have hshort : ∀ w ∈ ws, w.length.length ≤ 4 := by
      intro w hw
      rw [hws, List.mem_append] at hw
      exact hw.elim (hdone w) (htodoShort w)
    refine ⟨hshort, ?_⟩
    have hcall := attemptDecoding_reslices hnow hshort hcontent
    rw [hws] at hcontent hcall ⊢
    exact (reslicesAll_cons_iff (kept_eq_of_content hcontent htodo)).mpr ⟨hcall, hslices⟩

theorem receiveChunks_iff_short_lengths {ws : List WireFrame} {frames : List HTTPFrame}
    {chunks : List Chunk} (hframes : List.Forall₂ ReadsAs ws frames)
    (hcontent : written chunks = content ws)
    : receiveChunks [] chunks = some (frames, []) ↔
        (∀ w ∈ ws, w.length.length ≤ 4) ∧
          ∀ before c after, chunks = before ++ c :: after →
            Reslices ws (written (before ++ [c])) c.spare := by
  constructor
  . intro h
    exact reslicesAll_of_receiveChunks hcontent h
  . rintro ⟨hshort, hslices⟩
    have hall : ReslicesAll ws [] chunks := hslices
    apply receiveChunks_of_reslicesAll hframes hcontent hshort _ hall
    intro w _ hbytes
    exact w.bytes_ne_nil (List.prefix_nil.mp hbytes)

def emptyData : WireFrame := ⟨[0], FrameType.data, [], fun _ => rfl⟩

def emptyDataLong : WireFrame := ⟨[0xc0, 0, 0, 0, 0, 0, 0, 0], FrameType.data, [], fun _ => rfl⟩

/-- The second chunk ends the first frame. The byte that is peeked behind the first chunk is not its own. -/
theorem receiveChunks_emptyData_twice
    : receiveChunks []
        [⟨[0], [0xff, 0xff, 0xff], by simp⟩, ⟨[0, 0, 0], [0xff, 0xff, 0xff], by simp⟩]
        = some ([.data ⟨⟨0, 1⟩, 0⟩ [], .data ⟨⟨0, 1⟩, 0⟩ []], []) := by
  have hreads : ReadsAs emptyData (.data ⟨⟨0, 1⟩, 0⟩ []) := ⟨[], by decide⟩
  have hframes : List.Forall₂ ReadsAs [emptyData, emptyData] _ := .cons hreads (.cons hreads .nil)
  apply (receiveChunks_iff_short_lengths hframes (by decide)).mpr
  refine ⟨by decide, ?_⟩
  intro before c after hchunks
  have hc : c ∈ before ++ c :: after := by simp
  rw [← hchunks] at hc
  apply Reslices.of_spare
  simp only [List.mem_cons, List.not_mem_nil, or_false] at hc
  rcases hc with rfl | rfl
  . decide
  . decide

theorem not_receiveChunks_emptyDataLong
    : ReadsAs emptyDataLong (.data ⟨⟨0, 8⟩, 0⟩ []) ∧
      ∃ c : Chunk, written [c] = content [emptyDataLong] ∧
        receiveChunks [] [c] = some ([], emptyDataLong.bytes) := by
  refine ⟨⟨[], by decide⟩, ⟨emptyDataLong.bytes, List.replicate 64 0, by decide⟩, by decide, ?_⟩
  decide

end HTTPAgent

end QuicTracker
