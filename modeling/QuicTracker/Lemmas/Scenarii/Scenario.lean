import QuicTracker.Impl.Scenarii.Scenario

/-!
This module contains what the verdicts of the scenarii share: the wait for the handshake, and what `Contains`,
`GetFirst` and `GetAll` of a packet find for the types that belong to one kind of frame.
-/

namespace QuicTracker

theorem completeHandshake_completed (trace : Trace) (handshakeErrorCode : Nat) {status : HandshakeStatus}
    (h : status.completed = true)
    : completeHandshake trace handshakeErrorCode (some status) = some (true, trace) := by
  unfold completeHandshake
  simp [h]

/-- The frames of this type are the ones that `proj` accepts, and `inj` is its inverse. -/
structure Frame.Kind {α : Type} (frameType : Nat) (proj : Frame → Option α) (inj : α → Frame) : Prop where
  proj_inj : ∀ a, proj (inj a) = some a
  frameType_inj : ∀ a, (inj a).frameType = frameType
  cases : ∀ f, (∃ a, f = inj a) ∨ (f.frameType ≠ frameType ∧ proj f = none)

namespace Frame

def newConnectionId? (f : Frame) : Option NewConnectionIdFrame :=
  match f with
  | .newConnectionId f => some f
  | _ => none

def connectionClose? (f : Frame) : Option ConnectionCloseFrame :=
  match f with
  | .connectionClose f => some f
  | _ => none

/-- The constructor of the frames of a type, two of them stand for two types. -/
def ctorOf (frameType : Nat) : Nat :=
  if frameType < 0x10 then
    frameType
  else if frameType < 0x13 then
    frameType - 7
  else if frameType < 0x17 then
    frameType - 8
  else
    frameType - 9

theorem ctorOf_frameType (f : Frame) : ctorOf f.frameType = f.ctorIdx := by
  cases f with
  | maxStreams f => rcases f with ⟨_ | _, _⟩ <;> rfl
  | streamsBlocked f => rcases f with ⟨_ | _, _⟩ <;> rfl
  | _ => rfl

theorem Kind.of_ctor {α : Type} {frameType n : Nat} {proj : Frame → Option α} {inj : α → Frame}
    (hproj : ∀ a, proj (inj a) = some a) (htype : ∀ a, (inj a).frameType = frameType)
    (hn : ctorOf frameType = n) (hinj : ∀ f : Frame, f.ctorIdx = n → ∃ a, f = inj a)
    (hnone : ∀ f : Frame, f.ctorIdx ≠ n → proj f = none)
    : Kind frameType proj inj := by
  refine ⟨hproj, htype, ?_⟩
  intro f
  by_cases hf : f.ctorIdx = n
  . exact Or.inl (hinj f hf)
  . refine Or.inr ⟨?_, hnone f hf⟩
    intro heq
    rw [← ctorOf_frameType, heq] at hf
    exact hf hn

theorem kind_newConnectionId : Kind FrameType.newConnectionId newConnectionId? newConnectionId := by
  refine .of_ctor (fun _ => rfl) (fun _ => rfl) rfl (fun f h => newConnectionId.elim f h fun a => ⟨a, rfl⟩) ?_
  intro f hf
  cases f <;> first | rfl | exact absurd rfl hf

theorem kind_connectionClose : Kind FrameType.connectionClose connectionClose? connectionClose := by
  refine .of_ctor (fun _ => rfl) (fun _ => rfl) rfl (fun f h => connectionClose.elim f h fun a => ⟨a, rfl⟩) ?_
  intro f hf
  cases f <;> first | rfl | exact absurd rfl hf

end Frame

namespace Frame.Kind

variable {α : Type} {frameType : Nat} {proj : Frame → Option α} {inj : α → Frame}

theorem proj_of_ne (h : Kind frameType proj inj) {f : Frame} (hf : f.frameType ≠ frameType)
    : proj f = none := by
  rcases h.cases f with ⟨a, rfl⟩ | ⟨_, hnone⟩
  . exact absurd (h.frameType_inj a) hf
  . exact hnone

theorem exists_inj (h : Kind frameType proj inj) {f : Frame} (hf : f.frameType = frameType)
    : ∃ a, f = inj a := by
  rcases h.cases f with hinj | ⟨hne, _⟩
  . exact hinj
  . exact absurd hf hne

theorem getAll (h : Kind frameType proj inj) (p : FramePacket)
    : p.getAll frameType = (p.frames.filterMap proj).map inj := by
  unfold FramePacket.getAll
  induction p.frames with
  | nil => rfl
  | cons f frames ih =>
    rw [List.filter_cons]
    split
    . next hf =>
      rcases h.exists_inj (of_decide_eq_true hf) with ⟨a, rfl⟩
      rw [List.filterMap_cons_some (h.proj_inj a), List.map_cons]
      rw [ih]
    . next hf =>
      rw [List.filterMap_cons_none (h.proj_of_ne (by simpa using hf))]
      exact ih

theorem getFirst (h : Kind frameType proj inj) (p : FramePacket)
    : p.getFirst frameType = (p.frames.filterMap proj).head?.map inj := by
  unfold FramePacket.getFirst
  rw [← List.head?_map, ← h.getAll]
  exact List.head?_filter.symm

theorem contains (h : Kind frameType proj inj) (p : FramePacket)
    : p.contains frameType = true ↔ p.frames.filterMap proj ≠ [] := by
  rw [← List.isSome_head?, ← Option.isSome_map (f := inj), ← h.getFirst]
  unfold FramePacket.getFirst
  rw [List.isSome_find?]
  rfl

end Frame.Kind

/-- The frames that a loop over `GetFrames` sees. -/
def Packet.allFrames (p : Packet) : List Frame :=
  match p with
  | .frames p => p.frames
  | _ => []

def Packet.closes (p : Packet) : List ConnectionCloseFrame := p.allFrames.filterMap Frame.connectionClose?

end QuicTracker
