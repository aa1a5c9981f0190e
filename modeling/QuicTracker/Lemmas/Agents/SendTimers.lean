import QuicTracker.Impl.Agents.SendTimers
import QuicTracker.Lemmas.Agents.SendRuns

/-!
This module contains what the timers of the sending agent are for: whatever can be sent has a timer that
runs or has fired, the timers run out when nothing new is queued, and then everything that can be sent
has been sent.
-/

namespace QuicTracker

namespace SendingAgent

section

variable {newHeader : EncryptionLevel → Nat → Header} {mtu : Nat} {s s' : State}

theorem served_of_step {event : Event} (h : step newHeader mtu s event = some s')
    : event.Served := by
  cases event with
  | queue frame level =>
    rcases Option.bind_eq_some_iff.mp h with ⟨length, hlength, hrest⟩
    refine ⟨by rw [hlength]; rfl, ?_⟩
    rintro rfl
    split at hrest <;> contradiction
  | timer level =>
    rintro rfl
    contradiction
  | announce level read =>
    cases read with
    | true => exact Or.inl rfl
    | false =>
      apply Or.inr
      rintro rfl
      contradiction

theorem move_of_step (hs : Measured s) {event : Event} (h : step newHeader mtu s event = some s')
    : Move newHeader mtu s event s' := by
  rcases @step_move newHeader mtu s hs event (served_of_step h) with ⟨s₁, hs₁, hmove⟩
  rw [h] at hs₁
  injection hs₁ with hs₁
  rw [hs₁]
  exact hmove

structure Sound (s : State) : Prop where
  measured : Measured s
  noLevel : s.frameBuffer .none = []

theorem sound_initial : Sound initial where
  measured := by
    intro level frame hframe
    contradiction
  noLevel := rfl

theorem Sound.step (hs : Sound s) {event : Event} (h : step newHeader mtu s event = some s')
    : Sound s' := by
  have hmove := move_of_step hs.measured h
  refine ⟨hmove.measured hs.measured, ?_⟩
  rw [List.eq_nil_iff_forall_not_mem]
  intro frame hframe
  rcases hmove.mem_frameBuffer hframe with hold | ⟨level, hevent, _, hlevel⟩ | ⟨source, hsource, _, heq⟩
  . rw [hs.noLevel] at hold
    contradiction
  . have hserved := served_of_step h
    rw [hevent] at hserved
    cases hlevel with
    | inl heq => exact hserved.2 heq.symm
    | inr heq =>
      have hconcrete := retarget_concrete s hserved.2
      rw [← heq] at hconcrete
      simp [Concrete] at hconcrete
  . have hconcrete : Concrete (retarget s source) := by
      apply retarget_concrete
      rcases hsource with rfl | rfl <;> decide
    rw [← heq] at hconcrete
    simp [Concrete] at hconcrete

theorem fillAndSendPacket_spec {level : EncryptionLevel}
    (h : fillAndSendPacket newHeader s level = some s')
    : s'.encryptionLevelsAvailable = s.encryptionLevelsAvailable ∧ s'.packetBuffer = s.packetBuffer ∧
      s'.frameBuffer = (if s.encryptionLevelsAvailable level then
        Function.update s.frameBuffer level [] else s.frameBuffer) ∧
      ∃ packets, s'.sent = s.sent ++ packets ∧
        (s.encryptionLevelsAvailable level → s.frameBuffer level ≠ [] →
          ∃ packet, packets = [(packet, level)] ∧ packed (s.frameBuffer level) ⊆ packet.frames) := by
  rcases Option.bind_eq_some_iff.mp h with ⟨packet, _, hrest⟩
  by_cases hfire : (s.create.frameBuffer level).length > 0 ∧ s.create.encryptionLevelsAvailable level
  . simp only [if_pos hfire, fillWithLevel_packed] at hrest
    injection hrest with hrest
    rw [← hrest]
    refine ⟨rfl, rfl, (if_pos hfire.2).symm, _, rfl, ?_⟩
    intro _ _
    exact ⟨_, rfl, List.subset_append_right _ _⟩
  . simp only [if_neg hfire] at hrest
    injection hrest with hrest
    rw [← hrest]
    have hnil (havailable : s.encryptionLevelsAvailable level) : s.frameBuffer level = [] := by
      by_contra hne
      exact hfire ⟨List.length_pos_iff.mpr hne, havailable⟩
    refine ⟨rfl, rfl, ?_, [], (List.append_nil _).symm, ?_⟩
    . split
      . next havailable =>
        rw [← hnil havailable, Function.update_eq_self]
        rfl
      . rfl
    . intro havailable hne
      exact absurd (hnil havailable) hne

theorem moveFrames_buffers {source : EncryptionLevel} (h : moveFrames s source = some s')
    : s'.encryptionLevelsAvailable = s.encryptionLevelsAvailable ∧ s'.packetBuffer = s.packetBuffer ∧
      s'.sent = s.sent ∧ s'.frameBuffer = Function.update (Function.update s.frameBuffer (retarget s source)
        (s.frameBuffer (retarget s source) ++ s.frameBuffer source)) source [] := by
  rcases Option.bind_eq_some_iff.mp h with ⟨moved, hmoved, hrest⟩
  injection hrest with hrest
  rcases moveFrames_spec hmoved with ⟨hframes, hpackets, hsent, havailable⟩
  rw [← hrest]
  refine ⟨havailable, hpackets, hsent, ?_⟩
  rw [← hframes]
  rfl

end

namespace Timer

def Pending (t : Timer) : Prop := t.set ∨ t.fired

instance (t : Timer) : Decidable t.Pending := inferInstanceAs (Decidable (_ ∨ _))

end Timer

/-- The levels whose frames are taken out by a timer. -/
def Sendable (s : State) (level : EncryptionLevel) : Prop :=
  s.encryptionLevelsAvailable level ∨ level = .best ∨ level = .bestAppData

instance (s : State) (level : EncryptionLevel) : Decidable (Sendable s level) :=
  inferInstanceAs (Decidable (_ ∨ _))

structure Attended (s : TimedState) : Prop where
  sound : Sound s.toState
  frames : ∀ level, s.frameBuffer level ≠ [] → Sendable s.toState level → (s.timers level).Pending
  packets : ∀ level, s.packetBuffer level ≠ [] → s.encryptionLevelsAvailable level = false

theorem attended_timedInitial : Attended timedInitial where
  sound := sound_initial
  frames := by
    intro level hne
    contradiction
  packets := by
    intro level hne
    contradiction

section

variable {newHeader : EncryptionLevel → Nat → Header} {mtu : Nat} {s s' : TimedState}

theorem timedQueue_spec {frame : Frame} {level : EncryptionLevel}
    (h : timedQueue newHeader mtu s frame level = some s')
    : queueFrame newHeader mtu s.toState frame level = some s'.toState ∧
      ∃ length, frame.frameLength = some length ∧
        s'.timers = (if u16 (s.frameBufferLength level + length) > mtu then s.timers
          else if Sendable s.toState level then (s.reset level).timers else s.timers) := by
  rcases Option.bind_eq_some_iff.mp h with ⟨length, hlength, hrest⟩
  rcases Option.bind_eq_some_iff.mp hrest with ⟨next, hnext, hrest⟩
  dsimp only at hrest
  by_cases hover : u16 (s.frameBufferLength level + length) > mtu
  . rw [if_pos hover] at hrest
    injection hrest with hrest
    rw [← hrest]
    exact ⟨hnext, length, hlength, (if_pos hover).symm⟩
  . rw [if_neg hover] at hrest
    by_cases hsendable : s.encryptionLevelsAvailable level ∨ level = .best ∨ level = .bestAppData
    . rw [if_pos hsendable] at hrest
      injection hrest with hrest
      rw [← hrest]
      refine ⟨hnext, length, hlength, ?_⟩
      rw [if_neg hover]
      exact (if_pos hsendable).symm
    . rw [if_neg hsendable] at hrest
      injection hrest with hrest
      rw [← hrest]
      refine ⟨hnext, length, hlength, ?_⟩
      rw [if_neg hover]
      exact (if_neg hsendable).symm

theorem timedTimer_spec {level : EncryptionLevel} (h : timedTimer newHeader s level = some s')
    : (s.timers level).fired ∧ timerFired newHeader s.toState level = some s'.toState ∧
      s'.timers = (if level = .best ∨ level = .bestAppData then
        ((s.take level).reset (retarget s.toState level)).timers else (s.take level).timers) := by
  unfold timedTimer at h
  split at h
  . next hfired =>
    rcases Option.bind_eq_some_iff.mp h with ⟨next, hnext, hrest⟩
    dsimp only at hrest
    split at hrest
    . next hbest =>
      injection hrest with hrest
      rw [← hrest]
      exact ⟨hfired, hnext, (if_pos hbest).symm⟩
    . next hbest =>
      injection hrest with hrest
      rw [← hrest]
      exact ⟨hfired, hnext, (if_neg hbest).symm⟩
  . contradiction

theorem timedAnnounce_spec {level : EncryptionLevel} {read : Bool}
    (h : timedAnnounce s level read = some s')
    : announced s.toState level read = some s'.toState ∧
      s'.timers = (if read then s.timers else (s.reset level).timers) := by
  rcases Option.bind_eq_some_iff.mp h with ⟨next, hnext, hrest⟩
  injection hrest with hrest
  rw [← hrest]
  cases read with
  | true => exact ⟨hnext, rfl⟩
  | false => exact ⟨hnext, rfl⟩

theorem pending_reset (level level' : EncryptionLevel) (h : level' = level ∨ (s.timers level').Pending)
    : ((s.reset level).timers level').Pending := by
  unfold TimedState.reset
  dsimp only
  rw [Function.update_apply]
  split
  . exact Or.inl rfl
  . next hne => exact h.resolve_left hne

theorem pending_take {level level' : EncryptionLevel} (hne : level' ≠ level)
    (h : (s.timers level').Pending)
    : ((s.take level).timers level').Pending := by
  unfold TimedState.take
  dsimp only
  rw [Function.update_of_ne hne]
  exact h

theorem frameBuffer_append_of_ne (s : State) {level level' : EncryptionLevel} (frame : Frame)
    (hne : level' ≠ level)
    : (s.append level frame).frameBuffer level' = s.frameBuffer level' := by
  exact Function.update_of_ne hne _ _

theorem frameBuffer_clear_of_ne (s : State) {level level' : EncryptionLevel} (hne : level' ≠ level)
    : (s.clear level).frameBuffer level' = s.frameBuffer level' := by
  exact Function.update_of_ne hne _ _

theorem packets_deliver {s : State} {packet : FramePacket} {level level' : EncryptionLevel}
    (hne : (s.deliver packet level).packetBuffer level' ≠ [])
    (hpacket : packet.encryptionLevel = level)
    (hs : s.packetBuffer level' ≠ [] → s.encryptionLevelsAvailable level' = false)
    : s.encryptionLevelsAvailable level' = false := by
  unfold State.deliver at hne
  split at hne
  . exact hs hne
  . next hlevel =>
    unfold State.holdPacket at hne
    dsimp only at hne
    rw [hpacket] at hne
    by_cases heq : level' = level
    . rw [heq]
      simpa using hlevel
    . rw [Function.update_of_ne heq] at hne
      exact hs hne

theorem Attended.queue (hs : Attended s) {frame : Frame} {level : EncryptionLevel}
    (h : timedQueue newHeader mtu s frame level = some s')
    : Attended s' := by
  rcases timedQueue_spec h with ⟨hstep, length, hlength, htimers⟩
  have hmove : Move newHeader mtu s.toState (.queue frame level) s'.toState :=
    move_of_step hs.sound.measured hstep
  have hsound : Sound s'.toState := @Sound.step newHeader mtu _ _ hs.sound (.queue frame level) hstep
  have hkept : ∀ level', (s.timers level').Pending → (s'.timers level').Pending := by
    intro level' hpending
    rw [htimers]
    split
    . exact hpending
    . split
      . exact pending_reset level level' (Or.inr hpending)
      . exact hpending
  refine ⟨hsound, ?_, ?_⟩
  . intro level' hne hsendable
    generalize hnext : s'.toState = next at hmove
    rw [hnext] at hne hsendable
    cases hmove with
    | enqueue _ _ length' hlength' hfits =>
      rw [hlength'] at hlength
      injection hlength with hlength
      subst hlength
      by_cases heq : level' = level
      . subst heq
        have hbefore : Sendable s.toState level' := hsendable
        rw [htimers]
        rw [if_neg (by omega)]
        rw [if_pos hbefore]
        exact pending_reset level' level' (Or.inl rfl)
      . rw [frameBuffer_addLength, frameBuffer_append_of_ne _ frame heq] at hne
        exact hkept level' (hs.frames level' hne hsendable)
    | alone _ _ length' packet hlength' hover hpacket hempty =>
      rw [frameBuffer_deliver] at hne
      have hold : s.frameBuffer level' ≠ [] := by
        intro hnil
        by_cases heq : level' = retarget s.toState level
        . rw [heq, frameBuffer_clear] at hne
          contradiction
        . rw [frameBuffer_clear_of_ne _ heq] at hne
          contradiction
      unfold Sendable at hsendable
      rw [available_deliver] at hsendable
      exact hkept level' (hs.frames level' hold hsendable)
    | flush _ _ length' packet hlength' hover hpacket hfull =>
      rw [frameBuffer_deliver] at hne
      have hold : s.frameBuffer level' ≠ [] := by
        by_cases heq : level' = retarget s.toState level
        . rw [heq]
          exact hfull
        . rw [frameBuffer_append_of_ne _ frame heq, frameBuffer_clear_of_ne _ heq] at hne
          exact hne
      unfold Sendable at hsendable
      rw [available_deliver] at hsendable
      exact hkept level' (hs.frames level' hold hsendable)
  . intro level' hne
    generalize hnext : s'.toState = next at hmove
    rw [hnext] at hne
    cases hmove with
    | enqueue _ _ length' hlength' hfits => exact hs.packets level' hne
    | alone _ _ length' packet hlength' hover hpacket hempty =>
      rw [available_deliver]
      exact packets_deliver hne (newPacket_spec hpacket).1 (hs.packets level')
    | flush _ _ length' packet hlength' hover hpacket hfull =>
      rw [available_deliver]
      exact packets_deliver hne (newPacket_spec hpacket).1 (hs.packets level')

theorem Attended.expire (hs : Attended s) (level : EncryptionLevel) : Attended (s.expire level) := by
  refine ⟨hs.sound, ?_, hs.packets⟩
  intro level' hne hsendable
  unfold TimedState.expire
  dsimp only
  rw [Function.update_apply]
  split
  . exact Or.inr rfl
  . exact hs.frames level' hne hsendable

theorem Attended.announce (hs : Attended s) {level : EncryptionLevel} {read : Bool}
    (h : timedAnnounce s level read = some s')
    : Attended s' := by
  rcases timedAnnounce_spec h with ⟨hstep, htimers⟩
  cases read with
  | true =>
    injection hstep with hstep
    refine ⟨hstep ▸ hs.sound, ?_, ?_⟩
    . rw [← hstep, htimers]
      exact hs.frames
    . rw [← hstep]
      exact hs.packets
  | false =>
    unfold announced at hstep
    rw [if_neg (by decide)] at hstep
    split at hstep
    . contradiction
    injection hstep with hstep
    refine ⟨⟨hstep ▸ hs.sound.measured, hstep ▸ hs.sound.noLevel⟩, ?_, ?_⟩
    . intro level' hne hsendable
      rw [← hstep] at hne hsendable
      rw [htimers]
      apply pending_reset
      by_cases heq : level' = level
      . exact Or.inl heq
      . apply Or.inr
        apply hs.frames level' hne
        unfold Sendable at hsendable ⊢
        dsimp only at hsendable
        rw [Function.update_of_ne heq] at hsendable
        exact hsendable
    . intro level' hne
      rw [← hstep] at hne ⊢
      dsimp only at hne ⊢
      by_cases heq : level' = level
      . rw [heq, Function.update_self] at hne
        contradiction
      . rw [Function.update_of_ne heq] at hne ⊢
        exact hs.packets level' hne

theorem timerFired_of_best {s s' : State} {level : EncryptionLevel}
    (hbest : level = .best ∨ level = .bestAppData) (h : timerFired newHeader s level = some s')
    : moveFrames s level = some s' := by
  rcases hbest with rfl | rfl <;> exact h

theorem timerFired_of_not_best {s s' : State} {level : EncryptionLevel}
    (hbest : ¬ (level = .best ∨ level = .bestAppData)) (h : timerFired newHeader s level = some s')
    : fillAndSendPacket newHeader s level = some s' := by
  cases level with
  | none => contradiction
  | best => simp at hbest
  | bestAppData => simp at hbest
  | initial => exact h
  | zeroRTT => exact h
  | handshake => exact h
  | oneRTT => exact h

theorem Attended.timer (hs : Attended s) {level : EncryptionLevel}
    (h : timedTimer newHeader s level = some s')
    : Attended s' := by
  rcases timedTimer_spec h with ⟨_, hstep, htimers⟩
  have hsound : Sound s'.toState := @Sound.step newHeader 0 _ _ hs.sound (.timer level) hstep
  by_cases hbest : level = .best ∨ level = .bestAppData
  . rcases moveFrames_buffers (timerFired_of_best hbest hstep) with
      ⟨havailable, hpackets, _, hframes⟩
    rw [if_pos hbest] at htimers
    refine ⟨hsound, ?_, ?_⟩
    . intro level' hne hsendable
      have hsource : level' ≠ level := by
        rintro rfl
        rw [hframes, Function.update_self] at hne
        contradiction
      rw [htimers]
      apply pending_reset
      by_cases heq : level' = retarget s.toState level
      . exact Or.inl heq
      . rw [hframes, Function.update_of_ne hsource, Function.update_of_ne heq] at hne
        unfold Sendable at hsendable
        rw [havailable] at hsendable
        exact Or.inr (pending_take hsource (hs.frames level' hne hsendable))
    . rw [havailable, hpackets]
      exact hs.packets
  . rcases fillAndSendPacket_spec (timerFired_of_not_best hbest hstep) with
      ⟨havailable, hpackets, hframes, _⟩
    rw [if_neg hbest] at htimers
    refine ⟨hsound, ?_, ?_⟩
    . intro level' hne hsendable
      unfold Sendable at hsendable
      rw [havailable] at hsendable
      -- The buffer of a level that is available has been emptied, that of another one has no timer.
      have hother : level' ≠ level := by
        rintro rfl
        cases hsendable with
        | inl hlevel =>
          rw [hframes, if_pos hlevel, Function.update_self] at hne
          contradiction
        | inr hlevel => exact hbest hlevel
      have hsame : s'.frameBuffer level' = s.frameBuffer level' := by
        rw [hframes]
        split
        . exact Function.update_of_ne hother _ _
        . rfl
      rw [hsame] at hne
      rw [htimers]
      exact pending_take hother (hs.frames level' hne hsendable)
    . rw [havailable, hpackets]
      exact hs.packets

theorem Attended.step (hs : Attended s) {event : TimedEvent}
    (h : timedStep newHeader mtu s event = some s')
    : Attended s' := by
  cases event with
  | queue frame level => exact hs.queue h
  | expire level =>
    unfold timedStep at h
    dsimp only at h
    split at h
    . injection h with h
      rw [← h]
      exact hs.expire level
    . contradiction
  | timer level => exact hs.timer h
  | announce level read => exact hs.announce h

theorem attended_of_run {events : List TimedEvent}
    (h : Run.run (timedStep newHeader mtu) timedInitial events = some s)
    : Attended s := by
  apply Run.invariant_of_run (timedStep newHeader mtu) _ (fun _ _ => trivial) attended_timedInitial h
  intro s event s' _ hs hstep
  exact hs.step hstep

theorem waiting_frames_have_timer {events : List TimedEvent}
    (hrun : Run.run (timedStep newHeader mtu) timedInitial events = some s)
    : (∀ level, s.frameBuffer level ≠ [] →
        s.encryptionLevelsAvailable level ∨ level = .best ∨ level = .bestAppData →
        (s.timers level).set ∨ (s.timers level).fired) ∧
      ∀ level, s.packetBuffer level ≠ [] → s.encryptionLevelsAvailable level = false := by
  have hattended := attended_of_run hrun
  exact ⟨hattended.frames, hattended.packets⟩

theorem waiting_frames_have_timer_ping
    : ∃ s, Run.run (timedStep (fun _ _ => shortPacketHeader) 1200) timedInitial [.queue .ping .best] =
        some s ∧ s.frameBuffer .best = [.ping] ∧ ((s.timers .best).set ∨ (s.timers .best).fired) := by
  refine ⟨_, rfl, by decide, ?_⟩
  have htimers := @waiting_frames_have_timer (fun _ _ => shortPacketHeader) 1200 _ [.queue .ping .best] rfl
  exact htimers.1 .best (by decide) (by decide)

def TimedEvent.OfTimer (event : TimedEvent) : Prop :=
  ∃ level, event = .expire level ∨ event = .timer level

namespace Timer

end Timer

/-- Firing the timer of a level that is still to be chosen sets that of another level. -/
def weight (level : EncryptionLevel) : Nat :=
  if level = .best ∨ level = .bestAppData then 3 else 1

/-- The frame is one of the frames, or an ACK frame that was merged into one of them. -/
def Carries (frames : List Frame) (frame : Frame) : Prop :=
  frame ∈ frames ∨ ∃ f acks ack, frame = .ack f ∧ f ∈ acks ∧ mergeAckFrames acks = some ack ∧
    .ack ack ∈ frames

/-- A frame that waits at a level, at the level that is chosen for it, or has been sent there. -/
def Underway (s : State) (level target : EncryptionLevel) (frame : Frame) : Prop :=
  frame ∈ s.frameBuffer level ∨ frame ∈ s.frameBuffer target ∨
    ∃ packet, (packet, target) ∈ s.sent ∧ Carries packet.frames frame

theorem Carries.mono {frames frames' : List Frame} {frame : Frame} (h : Carries frames frame)
    (hsub : frames ⊆ frames')
    : Carries frames' frame := by
  rcases h with h | ⟨f, acks, ack, hframe, hf, hmerge, hack⟩
  . exact Or.inl (hsub h)
  . exact Or.inr ⟨f, acks, ack, hframe, hf, hmerge, hsub hack⟩

theorem mem_packed_of_not_ack {buffer : List Frame} {frame : Frame} (h : frame ∈ buffer)
    (hack : frame.ack? = none)
    : frame ∈ packed buffer := by
  apply List.mem_append_left
  rw [List.mem_filter]
  exact ⟨h, by simp [hack]⟩

theorem carries_packed {buffer : List Frame} {frame : Frame} (h : frame ∈ buffer)
    : Carries (packed buffer) frame := by
  cases hack : frame.ack? with
  | none => exact Or.inl (mem_packed_of_not_ack h hack)
  | some f =>
    have hf : f ∈ buffer.filterMap Frame.ack? := List.mem_filterMap.mpr ⟨frame, h, hack⟩
    have hframe := eq_ack_of_ack? hack
    unfold packed packedAcks
    dsimp only
    split
    . next hlen =>
      rcases exists_mergeAckFrames_of_length hlen with ⟨ack, hmerge⟩
      exact Or.inr ⟨f, _, ack, hframe, hf, hmerge, by simp [hmerge]⟩
    . apply Or.inl
      rw [hframe]
      exact List.mem_append_right _ (List.mem_map_of_mem hf)

theorem Underway.moveFrames {s s' : State} {level source : EncryptionLevel} {frame : Frame}
    (hlevel : level ≠ .none) (hsource : source = .best ∨ source = .bestAppData)
    (h : moveFrames s source = some s') (hframe : Underway s level (retarget s level) frame)
    : Underway s' level (retarget s level) frame := by
  rcases moveFrames_buffers h with ⟨_, _, hsent, hframes⟩
  have hconcrete := retarget_concrete s hlevel
  have hother : retarget s level ≠ source := by
    intro heq
    rw [heq] at hconcrete
    rcases hsource with rfl | rfl <;> simp [Concrete] at hconcrete
  -- A buffer that is not the source only grows.
  have hgrows : ∀ level', level' ≠ source → s.frameBuffer level' ⊆ s'.frameBuffer level' := by
    intro level' hne
    rw [hframes, Function.update_of_ne hne, Function.update_apply]
    split
    . next heq =>
      rw [heq]
      exact List.subset_append_left _ _
    . exact List.Subset.refl _
  rcases hframe with hframe | hframe | hframe
  . by_cases heq : level = source
    . subst heq
      apply Or.inr
      apply Or.inl
      rw [hframes, Function.update_of_ne hother, Function.update_self]
      exact List.mem_append_right _ hframe
    . exact Or.inl (hgrows level heq hframe)
  . exact Or.inr (Or.inl (hgrows _ hother hframe))
  . rw [← hsent] at hframe
    exact Or.inr (Or.inr hframe)

theorem Underway.fillAndSendPacket {s s' : State} {level level' : EncryptionLevel} {frame : Frame}
    (hlevel' : ¬ (level' = .best ∨ level' = .bestAppData))
    (h : fillAndSendPacket newHeader s level' = some s')
    (hframe : Underway s level (retarget s level) frame)
    : Underway s' level (retarget s level) frame := by
  rcases fillAndSendPacket_spec h with ⟨_, _, hframes, packets, hsent, hpackets⟩
  -- What waited at the level of the timer is in the packet.
  have hpacked : frame ∈ s.frameBuffer level' → frame ∈ s'.frameBuffer level' ∨
      ∃ packet, (packet, level') ∈ s'.sent ∧ Carries packet.frames frame := by
    intro hmem
    by_cases havailable : s.encryptionLevelsAvailable level'
    . rcases hpackets havailable (List.ne_nil_of_mem hmem) with ⟨packet, rfl, hsub⟩
      refine Or.inr ⟨packet, ?_, (carries_packed hmem).mono hsub⟩
      rw [hsent]
      simp
    . rw [hframes, if_neg havailable]
      exact Or.inl hmem
  have hsame : ∀ level₁, level₁ ≠ level' → s'.frameBuffer level₁ = s.frameBuffer level₁ := by
    intro level₁ hne
    rw [hframes]
    split
    . exact Function.update_of_ne hne _ _
    . rfl
  rcases hframe with hframe | hframe | ⟨packet, hpacket, hframe⟩
  . by_cases heq : level = level'
    . subst heq
      have htarget : retarget s level = level := if_neg hlevel'
      rw [htarget]
      cases hpacked hframe with
      | inl hwaits => exact Or.inl hwaits
      | inr hsent' => exact Or.inr (Or.inr hsent')
    . rw [← hsame level heq] at hframe
      exact Or.inl hframe
  . by_cases heq : retarget s level = level'
    . rw [← heq] at hpacked
      exact Or.inr (hpacked hframe)
    . rw [← hsame _ heq] at hframe
      exact Or.inr (Or.inl hframe)
  . refine Or.inr (Or.inr ⟨packet, ?_, hframe⟩)
    rw [hsent]
    exact List.mem_append_left _ hpacket

theorem Underway.timedStep {level : EncryptionLevel} {frame : Frame} (hlevel : level ≠ .none)
    {event : TimedEvent} (hevent : event.OfTimer)
    (h : timedStep newHeader mtu s event = some s')
    (hframe : Underway s.toState level (retarget s.toState level) frame)
    : s'.encryptionLevelsAvailable = s.encryptionLevelsAvailable ∧
      Underway s'.toState level (retarget s.toState level) frame := by
  rcases hevent with ⟨level', rfl | rfl⟩
  . simp only [SendingAgent.timedStep] at h
    split at h
    . injection h with h
      rw [← h]
      exact ⟨rfl, hframe⟩
    . contradiction
  . rcases timedTimer_spec h with ⟨_, hstep, _⟩
    by_cases hbest : level' = .best ∨ level' = .bestAppData
    . have hmoved := timerFired_of_best hbest hstep
      exact ⟨(moveFrames_buffers hmoved).1, hframe.moveFrames hlevel hbest hmoved⟩
    . have hfilled := timerFired_of_not_best hbest hstep
      exact ⟨(fillAndSendPacket_spec hfilled).1, hframe.fillAndSendPacket hbest hfilled⟩

end

end SendingAgent

end QuicTracker
