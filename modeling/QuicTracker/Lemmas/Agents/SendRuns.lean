import QuicTracker.Lemmas.Agents.SendLoop
import Mathlib.Algebra.BigOperators.Group.Finset.Basic

/-!
This module contains what the sending agent keeps over a whole run: no frame is lost or duplicated,
every frame is sent at a level that its sender allowed, and the lengths of the buffers are exact as
long as no frame overtakes a buffer that is not empty.
-/

namespace QuicTracker

instance : Fintype EncryptionLevel where
  elems := {.none, .initial, .zeroRTT, .handshake, .oneRTT, .best, .bestAppData}
  complete := by
    intro level
    cases level <;> decide

theorem sum_update {α β M : Type} [Fintype α] [DecidableEq α] [AddCommMonoid M] (g : α → β → M)
    (f : α → β) (a : α) (b : β)
    : ∑ x, g x (Function.update f a b x) + g a (f a) = ∑ x, g x (f x) + g a b := by
  have hrest : ∑ x ∈ Finset.univ.erase a, g x (Function.update f a b x)
      = ∑ x ∈ Finset.univ.erase a, g x (f x) := by
    apply Finset.sum_congr rfl
    intro x hx
    rw [Function.update_of_ne (Finset.ne_of_mem_erase hx)]
  rw [← Finset.add_sum_erase Finset.univ _ (Finset.mem_univ a)]
  rw [← Finset.add_sum_erase Finset.univ (fun x => g x (f x)) (Finset.mem_univ a)]
  rw [hrest]
  rw [Function.update_self]
  abel

theorem sum_update_add {α β M : Type} [Fintype α] [DecidableEq α] [AddCancelCommMonoid M]
    (g : α → β → M) {f : α → β} {a : α} {b : β} {m : M} (h : g a b = g a (f a) + m)
    : ∑ x, g x (Function.update f a b x) = ∑ x, g x (f x) + m := by
  apply add_right_cancel (b := g a (f a))
  rw [sum_update]
  rw [h]
  abel

namespace SendingAgent

section

variable (newHeader : EncryptionLevel → Nat → Header) (mtu : Nat)

theorem guarded_run (inv : List Event → State → Prop) {ok : State → Event → Prop}
    (hinitial : inv [] initial)
    (hmove : ∀ events s event s', inv events s → Move newHeader mtu s event s' → ok s event →
      inv (events ++ [event]) s')
    (events : List Event)
    (h : Run.Guarded (step newHeader mtu) (fun s event => event.Served ∧ ok s event) initial events)
    : ∃ s, Run.run (step newHeader mtu) initial events = some s ∧ inv events s := by
  have hstep : ∀ events s event, (inv events s ∧ Measured s) → (event.Served ∧ ok s event) →
      ∃ s', step newHeader mtu s event = some s' ∧ (inv (events ++ [event]) s' ∧ Measured s') := by
    intro events s event hs hok
    rcases step_move hs.2 hok.1 with ⟨s', hs', hmove'⟩
    exact ⟨s', hs', hmove events s event s' hs.1 hmove' hok.2, hmove'.measured hs.2⟩
  have hmeasured : Measured initial := by
    intro level frame hframe
    contradiction
  rcases Run.run_of_step _ hstep [] initial events ⟨hinitial, hmeasured⟩ h with ⟨s, hs, hinv, _⟩
  exact ⟨s, hs, hinv⟩

theorem run_of_move (inv : List Event → State → Prop) (hinitial : inv [] initial)
    (hmove : ∀ events s event s', inv events s → Move newHeader mtu s event s' →
      inv (events ++ [event]) s')
    (events : List Event)
    : (∃ event ∈ events, ¬ event.Served) ∨
      ∃ s, Run.run (step newHeader mtu) initial events = some s ∧ inv events s := by
  by_cases hserved : ∀ event ∈ events, event.Served
  . have hguarded : Run.Guarded (step newHeader mtu) (fun _ event => event.Served ∧ True) initial
        events := by
      apply Run.Guarded.of_forall
      intro event hevent s
      exact ⟨hserved event hevent, trivial⟩
    apply Or.inr
    apply guarded_run newHeader mtu inv hinitial _ events hguarded
    intro events s event s' hs hmove' _
    exact hmove events s event s' hs hmove'
  . apply Or.inl
    simpa using hserved

def Event.frame? (event : Event) : Option Frame :=
  match event with
  | .queue frame _ => some frame
  | _ => none

def nonAcks (frames : List Frame) : Multiset Frame :=
  (frames.filter (fun f => f.ack?.isNone) : Multiset Frame)

/-- The frames other than acknowledgements that were sent, are in a packet that waits, or wait for a packet. -/
def held (s : State) : Multiset Frame :=
  (s.sent.map fun p => nonAcks p.1.frames).sum +
    ∑ level, ((s.packetBuffer level).map fun packet => nonAcks packet.frames).sum +
    ∑ level, nonAcks (s.frameBuffer level)

theorem nonAcks_append (frames frames' : List Frame)
    : nonAcks (frames ++ frames') = nonAcks frames + nonAcks frames' := by
  simp [nonAcks]

theorem nonAcks_map_ack (acks : List AckFrame) : nonAcks (acks.map .ack) = 0 := by
  simp [nonAcks, Frame.ack?]

theorem nonAcks_packed (buffer : List Frame) : nonAcks (packed buffer) = nonAcks buffer := by
  have hacks : nonAcks (packedAcks buffer) = 0 := by
    unfold packedAcks
    dsimp only
    split <;> apply nonAcks_map_ack
  unfold packed
  rw [nonAcks_append]
  rw [hacks]
  simp [nonAcks]

variable {s s' : State}

theorem held_append (level : EncryptionLevel) (frame : Frame)
    : held (s.append level frame) = held s + nonAcks [frame] := by
  have hsum : ∑ l, nonAcks ((s.append level frame).frameBuffer l)
      = ∑ l, nonAcks (s.frameBuffer l) + nonAcks [frame] := by
    apply sum_update_add (fun _ => nonAcks)
    apply nonAcks_append
  unfold held
  rw [hsum]
  rw [← add_assoc]
  rfl

theorem held_clear (level : EncryptionLevel)
    : held (s.clear level) + nonAcks (s.frameBuffer level) = held s := by
  have hsum : ∑ l, nonAcks ((s.clear level).frameBuffer l) + nonAcks (s.frameBuffer level)
      = ∑ l, nonAcks (s.frameBuffer l) + 0 := sum_update (fun _ => nonAcks) s.frameBuffer level []
  unfold held
  rw [add_assoc]
  rw [hsum]
  rw [add_zero]
  rfl

theorem held_sendPacket (packet : FramePacket) (level : EncryptionLevel)
    : held (s.sendPacket packet level) = held s + nonAcks packet.frames := by
  unfold held State.sendPacket
  simp only [List.map_append, List.sum_append, List.map_cons, List.map_nil, List.sum_singleton]
  abel

theorem held_holdPacket (packet : FramePacket)
    : held (s.holdPacket packet) = held s + nonAcks packet.frames := by
  have hsum : ∑ l, (((s.holdPacket packet).packetBuffer l).map fun p => nonAcks p.frames).sum
      = ∑ l, ((s.packetBuffer l).map fun p => nonAcks p.frames).sum + nonAcks packet.frames := by
    apply sum_update_add (fun _ (packets : List FramePacket) => (packets.map fun p => nonAcks p.frames).sum)
    simp
  unfold held
  rw [hsum]
  unfold State.holdPacket
  abel

theorem held_deliver (packet : FramePacket) (level : EncryptionLevel)
    : held (s.deliver packet level) = held s + nonAcks packet.frames := by
  unfold State.deliver
  split
  . apply held_sendPacket
  . apply held_holdPacket

theorem held_moveFrames {frames : List Frame} {level : EncryptionLevel} {s moved : State}
    (h : frames.foldlM (moveFrame level) s = some moved)
    : held moved = held s + nonAcks frames := by
  rcases moveFrames_spec h with ⟨hframes, hpackets, hsent, _⟩
  have hsum : ∑ l, nonAcks (moved.frameBuffer l)
      = ∑ l, nonAcks (s.frameBuffer l) + nonAcks frames := by
    rw [hframes]
    apply sum_update_add (fun _ => nonAcks)
    apply nonAcks_append
  unfold held
  rw [hsum, hpackets, hsent]
  rw [← add_assoc]

theorem held_writable (level : EncryptionLevel)
    : held { s with
        encryptionLevelsAvailable := Function.update s.encryptionLevelsAvailable level true
        sent := s.sent ++ (s.packetBuffer level).map (fun packet => (packet, level))
        packetBuffer := Function.update s.packetBuffer level [] } = held s := by
  have hsum := sum_update (fun _ (packets : List FramePacket) => (packets.map fun p => nonAcks p.frames).sum)
    s.packetBuffer level []
  unfold held
  simp only [List.map_append, List.sum_append, List.map_map, Function.comp_def]
  simp only [List.map_nil, List.sum_nil, add_zero] at hsum
  rw [← hsum]
  abel

theorem Move.held_eq {event : Event} {newHeader : EncryptionLevel → Nat → Header} {mtu : Nat}
    (h : Move newHeader mtu s event s')
    : held s' = held s + nonAcks event.frame?.toList := by
  cases h with
  | enqueue frame level length hlength hfits => exact held_append level frame
  | alone frame level length packet hlength hover hpacket hempty =>
    have hclear : held (s.create.clear (retarget s level)) + nonAcks (s.frameBuffer (retarget s level))
        = held s.create := held_clear (retarget s level)
    rw [hempty] at hclear
    rw [held_deliver]
    rw [← add_zero (held (s.create.clear (retarget s level)))]
    rw [show (0 : Multiset Frame) = nonAcks [] from rfl]
    rw [hclear]
    rfl
  | flush frame level length packet hlength hover hpacket hne =>
    rw [held_deliver]
    rw [held_append]
    rw [nonAcks_packed]
    rw [add_right_comm]
    have hclear : held (s.create.clear (retarget s level)) + nonAcks (s.frameBuffer (retarget s level))
        = held s.create := held_clear (retarget s level)
    rw [hclear]
    rfl
  | idle level => exact (add_zero _).symm
  | fire level packet hpacket hne havailable =>
    rw [held_sendPacket]
    rw [nonAcks_packed]
    have hclear : held (s.create.clear level) + nonAcks (s.frameBuffer level) = held s.create :=
      held_clear level
    rw [hclear]
    exact (add_zero _).symm
  | move source moved hsource hmoved =>
    have hclear : held (moved.clear source) + nonAcks (moved.frameBuffer source) = held moved :=
      held_clear source
    have hbuffer : moved.frameBuffer source = s.frameBuffer source := by
      rw [(moveFrames_spec hmoved).1]
      exact Function.update_of_ne (retarget_ne s hsource).symm _ _
    rw [held_moveFrames hmoved] at hclear
    rw [hbuffer] at hclear
    rw [add_right_cancel hclear]
    exact (add_zero _).symm
  | readable level => exact (add_zero _).symm
  | writable level =>
    rw [held_writable]
    exact (add_zero _).symm

theorem run_conserves (newHeader : EncryptionLevel → Nat → Header) (mtu : Nat)
    (events : List Event)
    : (∃ event ∈ events, ¬ event.Served) ∨
      ∃ s, Run.run (step newHeader mtu) initial events = some s ∧
        nonAcks (events.filterMap Event.frame?) = held s := by
  apply run_of_move newHeader mtu (fun events s => nonAcks (events.filterMap Event.frame?) = held s)
  . rfl
  . intro events s event s' hs hmove
    rw [hmove.held_eq]
    rw [List.filterMap_append]
    rw [nonAcks_append]
    rw [hs]
    cases event <;> rfl

end

/-- The levels that a frame for a packet of `level` may be queued at. -/
def Serves (level level' : EncryptionLevel) : Prop :=
  level' = level ∨ level' = .best ∨ (level' = .bestAppData ∧ (level = .zeroRTT ∨ level = .oneRTT))

instance (level level' : EncryptionLevel) : Decidable (Serves level level') :=
  inferInstanceAs (Decidable (_ ∨ _ ∨ _))

def Event.queuedFor (level : EncryptionLevel) (event : Event) : Option Frame :=
  match event with
  | .queue frame level' => if Serves level level' then some frame else none
  | _ => none

def queuedFor (events : List Event) (level : EncryptionLevel) : List Frame :=
  events.filterMap (Event.queuedFor level)

/--
The frames are among the queued ones, each as often as it was queued. One ACK frame may instead be the
merge of at least two that were queued.
-/
def Carried (queued frames : List Frame) : Prop :=
  frames.Subperm queued ∨
    ∃ others acks ack, frames = others ++ [.ack ack] ∧ 2 ≤ acks.length ∧
      mergeAckFrames acks = some ack ∧ (others ++ acks.map .ack).Subperm queued

def Announced (events : List Event) (level : EncryptionLevel) : Prop :=
  level = .initial ∨ .announce level false ∈ events

structure Permitted (events : List Event) (packet : FramePacket) (level : EncryptionLevel) : Prop where
  encryptionLevel : packet.encryptionLevel = level
  frames_ne_nil : packet.frames ≠ []
  frames : Carried (queuedFor events level) packet.frames

def share (level level' : EncryptionLevel) (frames : List Frame) : Multiset Frame :=
  if Serves level level' then frames else 0

/-- The frames that may still go into a packet of the level. -/
def waits (s : State) (level : EncryptionLevel) : Multiset Frame :=
  ∑ level', share level level' (s.frameBuffer level')

/-- The permission of everything that waits or is sent. -/
structure Placed (events : List Event) (s : State) : Prop where
  waiting : ∀ level, waits s level ≤ queuedFor events level
  available : ∀ level, s.encryptionLevelsAvailable level → level = .none ∨ Announced events level
  held : ∀ level, ∀ packet ∈ s.packetBuffer level, Permitted events packet level
  sent : ∀ packet level, (packet, level) ∈ s.sent →
    Announced events level ∧ Permitted events packet level

theorem others_append_acks_perm (buffer : List Frame)
    : (buffer.filter (fun f => f.ack?.isNone) ++ (buffer.filterMap Frame.ack?).map Frame.ack).Perm
        buffer := by
  induction buffer with
  | nil => rfl
  | cons frame buffer ih =>
    cases hack : frame.ack? with
    | none => simpa [hack] using ih.cons frame
    | some f =>
      rw [eq_ack_of_ack? hack]
      exact List.perm_middle.trans (ih.cons (.ack f))

theorem packed_singleton (frame : Frame) : packed [frame] = [frame] := by
  cases hack : frame.ack? with
  | none => simp [packed, packedAcks, hack]
  | some f =>
    rw [eq_ack_of_ack? hack]
    rfl

theorem carried_packed {buffer queued : List Frame} (h : buffer.Subperm queued)
    : Carried queued (packed buffer) := by
  have hall := (others_append_acks_perm buffer).subperm.trans h
  unfold packed packedAcks
  dsimp only
  split
  . next hlen =>
    rcases exists_mergeAckFrames_of_length hlen with ⟨ack, hack⟩
    exact Or.inr ⟨_, _, ack, by simp [hack], hlen, hack, hall⟩
  . exact Or.inl hall

section

variable {events events' : List Event} {level : EncryptionLevel}

theorem queuedFor_append (events events' : List Event) (level : EncryptionLevel)
    : queuedFor (events ++ events') level = queuedFor events level ++ queuedFor events' level :=
  List.filterMap_append

theorem Carried.mono {queued queued' frames : List Frame} (hsub : queued.Subperm queued')
    (h : Carried queued frames)
    : Carried queued' frames := by
  rcases h with h | ⟨others, acks, ack, hframes, hlen, hmerge, hqueued⟩
  . exact Or.inl (h.trans hsub)
  . exact Or.inr ⟨others, acks, ack, hframes, hlen, hmerge, hqueued.trans hsub⟩

theorem Announced.concat (h : Announced events level) (event : Event)
    : Announced (events ++ [event]) level := by
  cases h with
  | inl h => exact Or.inl h
  | inr h => exact Or.inr (List.mem_append_left _ h)

theorem Permitted.concat {packet : FramePacket} (h : Permitted events packet level) (event : Event)
    : Permitted (events ++ [event]) packet level := by
  refine ⟨h.encryptionLevel, h.frames_ne_nil, h.frames.mono ?_⟩
  rw [queuedFor_append]
  exact (List.sublist_append_left _ _).subperm

theorem retarget_cases (s : State) (level : EncryptionLevel)
    : retarget s level = level ∨ level = .best ∨
        (level = .bestAppData ∧ (retarget s level = .zeroRTT ∨ retarget s level = .oneRTT)) := by
  by_cases hbest : level = .best ∨ level = .bestAppData
  . rcases hbest with rfl | rfl
    . exact Or.inr (Or.inl rfl)
    . have hmem := chooseBest_mem s.encryptionLevelsAvailable true
      simp only [if_true, elAppDataOrder, List.mem_cons, List.not_mem_nil, or_false] at hmem
      exact Or.inr (Or.inr ⟨rfl, hmem.symm⟩)
  . exact Or.inl (if_neg hbest)

theorem serves_of_retarget {s : State} {level' : EncryptionLevel} (h : Serves level (retarget s level'))
    : Serves level level' := by
  rcases retarget_cases s level' with heq | rfl | ⟨rfl, htarget⟩
  . rw [heq] at h
    exact h
  . exact Or.inr (Or.inl rfl)
  . have heq : retarget s .bestAppData = level := by
      rcases htarget with htarget | htarget <;> simpa [Serves, htarget] using h
    rw [heq] at htarget
    exact Or.inr (Or.inr ⟨rfl, htarget⟩)

theorem share_append (level level' : EncryptionLevel) (frames frames' : List Frame)
    : share level level' (frames ++ frames') = share level level' frames + share level level' frames' := by
  unfold share
  split
  . rfl
  . rfl

theorem share_retarget_le (s : State) (level level' : EncryptionLevel) (frames : List Frame)
    : share level (retarget s level') frames ≤ share level level' frames := by
  by_cases h : Serves level (retarget s level')
  . unfold share
    rw [if_pos h, if_pos (serves_of_retarget h)]
  . unfold share
    rw [if_neg h]
    exact zero_le

theorem queuedFor_queue (frame : Frame) (level level' : EncryptionLevel)
    : (queuedFor [.queue frame level'] level : Multiset Frame) = share level level' [frame] := by
  by_cases h : Serves level level'
  . simp [queuedFor, Event.queuedFor, share, h]
  . simp [queuedFor, Event.queuedFor, share, h]

theorem frameBuffer_le_waits (s : State) (level : EncryptionLevel)
    : (s.frameBuffer level : Multiset Frame) ≤ waits s level := by
  have hself : (s.frameBuffer level : Multiset Frame) = share level level (s.frameBuffer level) := by
    unfold share
    exact (if_pos (Or.inl rfl)).symm
  rw [hself]
  exact Finset.single_le_sum (f := fun level' => share level level' (s.frameBuffer level'))
    (fun _ _ => zero_le) (Finset.mem_univ level)

theorem waits_append (s : State) (level level' : EncryptionLevel) (frame : Frame)
    : waits (s.append level' frame) level = waits s level + share level level' [frame] := by
  apply sum_update_add (share level)
  apply share_append

theorem waits_clear (s : State) (level level' : EncryptionLevel)
    : waits (s.clear level') level + share level level' (s.frameBuffer level') = waits s level := by
  have hnil : share level level' [] = 0 := by
    unfold share
    split <;> rfl
  rw [← add_zero (waits s level), ← hnil]
  exact sum_update (share level) s.frameBuffer level' []

theorem waits_clear_le (s : State) (level level' : EncryptionLevel)
    : waits (s.clear level') level ≤ waits s level := by
  rw [← waits_clear s level level']
  exact le_self_add

theorem waits_deliver (s : State) (packet : FramePacket) (level level' : EncryptionLevel)
    : waits (s.deliver packet level') level = waits s level := by
  unfold waits
  rw [frameBuffer_deliver]

theorem Move.waits_le {s s' : State} {event : Event} {newHeader : EncryptionLevel → Nat → Header}
    {mtu : Nat} (h : Move newHeader mtu s event s') (level : EncryptionLevel)
    : waits s' level ≤ waits s level + queuedFor [event] level := by
  cases h with
  | enqueue frame level' length hlength hfits =>
    rw [queuedFor_queue]
    exact (waits_append s level level' frame).le
  | alone frame level' length packet hlength hover hpacket hempty =>
    rw [waits_deliver]
    exact (waits_clear_le s.create level _).trans le_self_add
  | flush frame level' length packet hlength hover hpacket hne =>
    rw [waits_deliver, waits_append, queuedFor_queue]
    exact add_le_add (waits_clear_le s.create level _) (share_retarget_le s level level' _)
  | idle level' => exact le_self_add
  | fire level' packet hpacket hne havailable =>
    exact (waits_clear_le s.create level level').trans le_self_add
  | move source moved hsource hmoved =>
    -- What the target gets is what the source loses.
    have hbuffer : moved.frameBuffer source = s.frameBuffer source := by
      rw [(moveFrames_spec hmoved).1]
      exact Function.update_of_ne (retarget_ne s hsource).symm _ _
    have hmoved' : waits moved level
        = waits s level + share level (retarget s source) (s.frameBuffer source) := by
      unfold waits
      rw [(moveFrames_spec hmoved).1]
      apply sum_update_add (share level)
      apply share_append
    have hclear := waits_clear moved level source
    rw [hbuffer, hmoved'] at hclear
    apply le_trans _ le_self_add
    apply le_of_add_le_add_right (a := share level source (s.frameBuffer source))
    rw [hclear]
    exact add_le_add_right (share_retarget_le s level source _) _
  | readable level' => exact le_self_add
  | writable level' => exact le_self_add

theorem Placed.frameBuffer_subperm {s : State} (hs : Placed events s) (level : EncryptionLevel)
    : (s.frameBuffer level).Subperm (queuedFor events level) := by
  rw [← Multiset.coe_le]
  exact (frameBuffer_le_waits s level).trans (hs.waiting level)

theorem Placed.permitted_of_built {s : State} (hs : Placed events s) {event : Event} {mtu : Nat}
    {packet : FramePacket} (h : Built mtu s event packet level)
    : Permitted (events ++ [event]) packet level := by
  rcases h with ⟨hlevel, _, hframes⟩
  rcases hframes with ⟨frame, level', rfl, rfl, hframes⟩ | ⟨_, hne, hframes⟩
  . have hqueued : queuedFor [.queue frame level'] (retarget s level') = [frame] := by
      have hserves : Serves (retarget s level') level' := serves_of_retarget (Or.inl rfl)
      simp [queuedFor, Event.queuedFor, hserves]
    refine ⟨hlevel, by simp [hframes], ?_⟩
    rw [hframes, ← packed_singleton, queuedFor_append, hqueued]
    exact carried_packed (List.sublist_append_right _ _).subperm
  . refine ⟨hlevel, ?_, ?_⟩
    . rw [hframes]
      exact mt packed_eq_nil.mp hne
    . rw [hframes, queuedFor_append]
      exact carried_packed ((hs.frameBuffer_subperm level).trans (List.sublist_append_left _ _).subperm)

theorem Placed.move {s s' : State} {event : Event} {newHeader : EncryptionLevel → Nat → Header}
    {mtu : Nat} (hs : Placed events s) (h : Move newHeader mtu s event s')
    : Placed (events ++ [event]) s' := by
  constructor
  . intro level
    rw [queuedFor_append, ← Multiset.coe_add]
    exact (h.waits_le level).trans (add_le_add_left (hs.waiting level) _)
  . intro level havailable
    rcases h.available havailable with hold | rfl
    . rcases hs.available level hold with hnone | hannounced
      . exact Or.inl hnone
      . exact Or.inr (hannounced.concat event)
    . exact Or.inr (Or.inr (by simp))
  . intro level packet hpacket
    rcases h.mem_packetBuffer hpacket with hold | hbuilt
    . exact (hs.held level packet hold).concat event
    . exact hs.permitted_of_built hbuilt
  . intro packet level hpacket
    rcases h.mem_sent hpacket with hold | ⟨havailable, hbuilt⟩ | ⟨rfl, hheld⟩
    . rcases hs.sent packet level hold with ⟨hannounced, hpermitted⟩
      exact ⟨hannounced.concat event, hpermitted.concat event⟩
    . refine ⟨?_, hs.permitted_of_built hbuilt⟩
      rcases hs.available level havailable with rfl | hannounced
      . have hconcrete := hbuilt.2.1
        simp [Concrete] at hconcrete
      . exact hannounced.concat event
    . exact ⟨Or.inr (by simp), (hs.held level packet hheld).concat _⟩

end

theorem run_permitted (newHeader : EncryptionLevel → Nat → Header) (mtu : Nat)
    (events : List Event)
    : (∃ event ∈ events, ¬ event.Served) ∨
      ∃ s, Run.run (step newHeader mtu) initial events = some s ∧
        ∀ packet level, (packet, level) ∈ s.sent →
          Announced events level ∧ packet.encryptionLevel = level ∧ packet.frames ≠ [] ∧
            Carried (queuedFor events level) packet.frames := by
  have hinitial : Placed [] initial := by
    constructor
    . intro level
      simp [waits, share, initial]
    . intro level havailable
      simp only [initial, decide_eq_true_eq] at havailable
      rcases havailable with hnone | hinitial
      . exact Or.inl hnone
      . exact Or.inr (Or.inl hinitial)
    . simp [initial]
    . simp [initial]
  rcases run_of_move newHeader mtu Placed hinitial (fun _ _ _ _ hs h => hs.move h) events with
    hcrash | ⟨s, hrun, hs⟩
  . exact Or.inl hcrash
  . refine Or.inr ⟨s, hrun, ?_⟩
    intro packet level hpacket
    rcases hs.sent packet level hpacket with ⟨hannounced, hpermitted⟩
    exact ⟨hannounced, hpermitted.encryptionLevel, hpermitted.frames_ne_nil, hpermitted.frames⟩

def shortPacketHeader : Header := .short ⟨false, [], ⟨0, 1⟩, 0⟩

/-- Two acknowledgements for the packets 5 and 3 become one that nobody queued. -/
theorem exists_sent_not_queued
    : ∃ s, Run.run (step (fun _ _ => shortPacketHeader) 1200) initial
        [.queue (.ack ⟨5, 0, 0, [⟨0, 0⟩]⟩) .initial, .queue (.ack ⟨3, 0, 0, [⟨0, 0⟩]⟩) .initial,
          .timer .initial] = some s ∧
        ∃ p ∈ s.sent, p.2 = .initial ∧ ∃ frame ∈ p.1.frames, frame ∉ queuedFor
          [.queue (.ack ⟨5, 0, 0, [⟨0, 0⟩]⟩) .initial, .queue (.ack ⟨3, 0, 0, [⟨0, 0⟩]⟩) .initial,
            .timer .initial] .initial := by
  decide +kernel

def sumFrameLengths (frames : List Frame) : Option Nat := do
  let lengths ← frames.mapM Frame.frameLength
  return u16 lengths.sum

def Accounted (s : State) : Prop :=
  ∀ level, sumFrameLengths (s.frameBuffer level) = some (s.frameBufferLength level)

/-- A frame that does not fit finds nothing that waits for the level it is sent at. -/
def Drained (mtu : Nat) (s : State) (event : Event) : Prop :=
  match event with
  | .queue frame level =>
    mtu < u16 (s.frameBufferLength level + frame.frameLength.getD 0) →
      s.frameBuffer (retarget s level) = []
  | _ => True

instance (mtu : Nat) (s : State) (event : Event) : Decidable (Drained mtu s event) :=
  match event with
  | .queue _ _ => inferInstanceAs (Decidable (_ → _))
  | .timer _ => isTrue trivial
  | .announce _ _ => isTrue trivial

theorem sumFrameLengths_append {frames : List Frame} {n : Nat} (h : sumFrameLengths frames = some n)
    {frame : Frame} {length : Nat} (hlength : frame.frameLength = some length)
    : sumFrameLengths (frames ++ [frame]) = some (u16 (n + length)) := by
  rcases Option.bind_eq_some_iff.mp h with ⟨lengths, hlengths, hn⟩
  injection hn with hn
  unfold sumFrameLengths
  rw [List.mapM_append]
  simp [hlengths, hlength, ← hn, u16]

theorem Accounted.append {s : State} (h : Accounted s) (level : EncryptionLevel) {frame : Frame}
    {length : Nat} (hlength : frame.frameLength = some length)
    : Accounted ((s.append level frame).addLength level length) := by
  intro level'
  by_cases heq : level' = level
  . subst heq
    simp only [State.append, State.addLength, Function.update_self]
    exact sumFrameLengths_append (h level') hlength
  . simp only [State.append, State.addLength, Function.update_of_ne heq]
    exact h level'

theorem Accounted.clear {s : State} (h : Accounted s) (level : EncryptionLevel)
    : Accounted (s.clear level) := by
  intro level'
  by_cases heq : level' = level
  . subst heq
    simp only [State.clear, Function.update_self]
    rfl
  . simp only [State.clear, Function.update_of_ne heq]
    exact h level'

theorem Accounted.deliver {s : State} (h : Accounted s) (packet : FramePacket)
    (level : EncryptionLevel)
    : Accounted (s.deliver packet level) := by
  unfold State.deliver
  split <;> exact h

theorem Accounted.moveFrames {frames : List Frame} {level : EncryptionLevel} {s moved : State}
    (hs : Accounted s) (h : frames.foldlM (moveFrame level) s = some moved)
    : Accounted moved := by
  induction frames generalizing s with
  | nil =>
    injection h with h
    rw [← h]
    exact hs
  | cons frame frames ih =>
    rw [List.foldlM_cons] at h
    rcases Option.bind_eq_some_iff.mp h with ⟨s₁, hs₁, h₁⟩
    rcases Option.bind_eq_some_iff.mp hs₁ with ⟨length, hlength, heq⟩
    injection heq with heq
    apply ih _ h₁
    rw [← heq]
    exact hs.append level hlength

theorem Accounted.move {s s' : State} {event : Event}
    {newHeader : EncryptionLevel → Nat → Header} {mtu : Nat} (hs : Accounted s)
    (h : Move newHeader mtu s event s') (hdrained : Drained mtu s event)
    : Accounted s' := by
  cases h with
  | enqueue frame level length hlength hfits => exact hs.append level hlength
  | alone frame level length packet hlength hover hpacket hempty =>
    exact (Accounted.clear (s := s.create) hs _).deliver _ _
  | flush frame level length packet hlength hover hpacket hne =>
    unfold Drained at hdrained
    simp only [hlength, Option.getD_some] at hdrained
    exact absurd (hdrained hover) hne
  | idle level => exact hs
  | fire level packet hpacket hne havailable => exact Accounted.clear (s := s.create) hs level
  | move source moved hsource hmoved => exact (hs.moveFrames hmoved).clear source
  | readable level => exact hs
  | writable level => exact hs

theorem run_accounted (newHeader : EncryptionLevel → Nat → Header) (mtu : Nat)
    (events : List Event)
    (h : Run.Guarded (step newHeader mtu) (fun s event => event.Served ∧ Drained mtu s event)
      initial events) (n : Nat)
    : ∃ s, Run.run (step newHeader mtu) initial (events.take n) = some s ∧
        ∀ level, sumFrameLengths (s.frameBuffer level) = some (s.frameBufferLength level) := by
  apply guarded_run newHeader mtu (fun _ s => Accounted s) _ _ (events.take n) (h.take _ n)
  . intro level
    rfl
  . intro _ s event s' hs hmove hdrained
    exact hs.move hmove hdrained

def cryptoFrame (offset length : Nat) : Frame :=
  .crypto ⟨offset, length, List.replicate length 0⟩

theorem run_accounted_two_levels
    : ∃ s, Run.run (step (fun _ _ => shortPacketHeader) 1200) initial
        ([.queue (cryptoFrame 0 700) .initial, .timer .initial, .queue (cryptoFrame 0 1300) .handshake,
          .queue .ping .best, .timer .best].take 5) = some s ∧
        ∀ level, sumFrameLengths (s.frameBuffer level) = some (s.frameBufferLength level) := by
  apply run_accounted
  decide +kernel

/-- The second frame sends the first and waits without being counted. -/
theorem not_accounted_overtaking
    : ∃ s, Run.run (step (fun _ _ => shortPacketHeader) 1200) initial
        [.queue (cryptoFrame 0 700) .initial, .queue (cryptoFrame 700 700) .initial] = some s ∧
        sumFrameLengths (s.frameBuffer .initial) ≠ some (s.frameBufferLength .initial) := by
  decide +kernel

end SendingAgent

end QuicTracker
