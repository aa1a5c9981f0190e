import QuicTracker.Lib.Run
import QuicTracker.Lib.Shared
import QuicTracker.Impl.Agents.Arrivals
import QuicTracker.Lemmas.Agents.EarlyPackets

/-!
This module contains the verification of the way from the socket to the packets of a connection. Whenever
the keys arrive, every packet of a datagram is either recovered once or still waits in one place.
-/

namespace QuicTracker

open ParsingAgent Shared

namespace Arrivals

variable {keys : EncryptionLevel → Keys} {cid : ConnectionID}

/-- A datagram of packets that the peer has protected with its keys, or what is left of one. -/
structure Load (keys : EncryptionLevel → Keys) (cid : ConnectionID) where
  packets : List FramePacket
  sent : List (List UInt8)
  protection : List.Forall₂ (fun p bytes => p.Sent keys bytes) packets sent
  packed : Packed cid packets
  framesKnown : ∀ p ∈ packets, p.FramesKnown
  length_lt : sent.flatten.length < 2 ^ 62

namespace Load

def udpPayload (l : Load keys cid) : List UInt8 := l.sent.flatten

def drop (l : Load keys cid) (k : Nat) : Load keys cid where
  packets := l.packets.drop k
  sent := l.sent.drop k
  protection := List.forall₂_drop k l.protection
  packed := l.packed.drop k
  framesKnown := fun p hp => l.framesKnown p (List.mem_of_mem_drop hp)
  length_lt := Nat.lt_of_le_of_lt (List.Sublist.length_le (List.drop_sublist k l.sent).flatten) l.length_lt

def level (l : Load keys cid) : EncryptionLevel :=
  match l.packets with
  | [] => .none
  | p :: _ => p.encryptionLevel

theorem level_of_cons (l : Load keys cid) {p : FramePacket} {packets : List FramePacket}
    (h : l.packets = p :: packets)
    : l.level = p.encryptionLevel := by
  unfold level
  rw [h]

def unprocessed (l : Load keys cid) : UnprocessedPayload := ⟨l.level, l.udpPayload⟩

/-- The connection has started without the keys for it. -/
def Late (first : Connection) (l : Load keys cid) : Prop :=
  l.packets ≠ [] ∧ ¬ (keys l.level).MirroredBy (first.cryptoStates l.level)

end Load

def packetsOf (loads : List (Load keys cid)) : List FramePacket := loads.flatMap Load.packets

@[simp]
theorem packetsOf_append (loads loads' : List (Load keys cid))
    : packetsOf (loads ++ loads') = packetsOf loads ++ packetsOf loads' := by
  unfold packetsOf
  rw [List.flatMap_append]

@[simp]
theorem packetsOf_cons (l : Load keys cid) (loads : List (Load keys cid))
    : packetsOf (l :: loads) = l.packets ++ packetsOf loads := by
  rfl

@[simp]
theorem packetsOf_nil : packetsOf ([] : List (Load keys cid)) = [] := by
  rfl

/-- What the buffer agent has kept for the levels that it does not know yet. -/
def unreleased (available : EncryptionLevel → Bool) (stored : List (EncryptionLevel × Load keys cid)) :
    List (Load keys cid) :=
  (stored.filter fun x => !available x.1).map Prod.snd

/-- Where the packets of the datagrams are. -/
structure Places (keys : EncryptionLevel → Keys) (cid : ConnectionID) where
  network : List (Load keys cid)
  queue : List (Load keys cid)
  waiting : List (Load keys cid)
  stored : List (EncryptionLevel × Load keys cid)
  recovered : List FramePacket

namespace Places

/-- The places are the queues, the channels and the buffer of a state. -/
structure At (places : Places keys cid) (s : State) : Prop where
  network : s.network = places.network.map Load.udpPayload
  queue : s.incomingPayloads = places.queue.map Load.udpPayload
  waiting : s.unprocessedPayloads = places.waiting.map Load.unprocessed
  stored : ∀ level, s.buffer.unprocessedPayloads level = (seenBy level places.stored).map Load.udpPayload
  recovered : List.Forall₂ (FramePacket.RecoveredAs keys) places.recovered s.incomingPackets

def held (places : Places keys cid) (s : State) : List FramePacket :=
  packetsOf places.network ++ packetsOf places.queue ++ packetsOf places.waiting ++
    packetsOf (unreleased s.buffer.encryptionLevelsAvailable places.stored)

end Places

structure Holds (total : List FramePacket) (first : Connection) (s : State) (places : Places keys cid) :
    Prop where
  reads : s.conn.Reads total cid
  hasKeys : s.conn.HasKeys keys
  kept : ∀ level, (keys level).MirroredBy (first.cryptoStates level) →
    (keys level).MirroredBy (s.conn.cryptoStates level)
  placed : places.At s
  waitingLate : ∀ l ∈ places.waiting, l.Late first
  storedLate : ∀ x ∈ places.stored, x.2.Late first ∧ x.2.level = x.1
  conserved : ∀ p, total.count p = places.recovered.count p + (packetsOf places.network).count p +
    (packetsOf places.queue).count p + (packetsOf places.waiting).count p +
    (packetsOf (unreleased s.buffer.encryptionLevelsAvailable places.stored)).count p
  announced : ∀ level, s.announced ⟨level, true⟩ = true ↔
    s.buffer.encryptionLevelsAvailable level = true ∨ ⟨level, true⟩ ∈ s.encryptionLevelsAvailable
  once : ∀ level, ⟨level, true⟩ ∈ s.encryptionLevelsAvailable →
    s.buffer.encryptionLevelsAvailable level = false
  nodup : (s.encryptionLevelsAvailable.filter (·.read)).Nodup
  installed : ∀ level, s.announced ⟨level, true⟩ = true → (keys level).MirroredBy (s.conn.cryptoStates level)

/-- The keys that are installed are the ones of the peer and stay. -/
def KeysArrive (keys : EncryptionLevel → Keys) (s : State) (event : Event) : Prop :=
  match event with
  | .install level state => (keys level).MirroredBy (some state) ∨
      state.headerRead = none ∧ headerRead (s.conn.cryptoStates level) = none
  | _ => True

section Buffer

variable {s : State} {u : UnprocessedPayload} {unprocessedPayloads : List UnprocessedPayload}
  {level : EncryptionLevel} {levels : List DirectionalEncryptionLevel}

theorem handleUnprocessed_store (hqueue : s.unprocessedPayloads = u :: unprocessedPayloads)
    (havailable : s.buffer.encryptionLevelsAvailable u.encryptionLevel = false)
    : handleUnprocessed s = { s with
        unprocessedPayloads := unprocessedPayloads
        buffer := { s.buffer with
          unprocessedPayloads := Function.update s.buffer.unprocessedPayloads u.encryptionLevel
            (s.buffer.unprocessedPayloads u.encryptionLevel ++ [u.payload]) } } := by
  unfold handleUnprocessed
  rw [hqueue]
  unfold feedBuffer BufferAgent.step BufferAgent.handleUnprocessed
  dsimp only
  rw [havailable, if_pos (by decide), List.drop_length, List.map_nil, List.append_nil]

theorem handleUnprocessed_back (hqueue : s.unprocessedPayloads = u :: unprocessedPayloads)
    (havailable : s.buffer.encryptionLevelsAvailable u.encryptionLevel = true)
    : handleUnprocessed s = { s with
        incomingPayloads := s.incomingPayloads ++ [u.payload]
        unprocessedPayloads := unprocessedPayloads
        buffer := { s.buffer with incomingPayloads := s.buffer.incomingPayloads ++ [u] } } := by
  unfold handleUnprocessed
  rw [hqueue]
  unfold feedBuffer BufferAgent.step BufferAgent.handleUnprocessed
  dsimp only
  rw [havailable, if_neg (by decide), List.drop_left, List.map_singleton]

theorem handleAvailable_write (hlevels : s.encryptionLevelsAvailable = ⟨level, false⟩ :: levels)
    : handleAvailable s = { s with encryptionLevelsAvailable := levels } := by
  unfold handleAvailable
  rw [hlevels]
  unfold feedBuffer BufferAgent.step BufferAgent.handleAvailable
  dsimp only
  rw [if_neg (by decide), List.drop_length, List.map_nil, List.append_nil]

theorem handleAvailable_read (hlevels : s.encryptionLevelsAvailable = ⟨level, true⟩ :: levels)
    : handleAvailable s = { s with
        incomingPayloads := s.incomingPayloads ++ s.buffer.unprocessedPayloads level
        encryptionLevelsAvailable := levels
        buffer := { s.buffer with
          encryptionLevelsAvailable := Function.update s.buffer.encryptionLevelsAvailable level true
          incomingPayloads := s.buffer.incomingPayloads ++
            (s.buffer.unprocessedPayloads level).map (fun uP => ⟨level, uP⟩) } } := by
  unfold handleAvailable
  rw [hlevels]
  unfold feedBuffer BufferAgent.step BufferAgent.handleAvailable
  dsimp only
  rw [if_pos rfl, List.drop_left, List.map_map]
  have hpayload : (fun u : UnprocessedPayload => u.payload) ∘ (fun uP => ⟨level, uP⟩) = id := rfl
  rw [hpayload, List.map_id]

end Buffer

section Steps

variable {total : List FramePacket} {first : Connection} {s : State} {places : Places keys cid}

theorem mem_packetsOf {l : Load keys cid} {loads : List (Load keys cid)} (h : l ∈ loads)
    : l.packets ⊆ packetsOf loads := by
  intro p hp
  exact List.mem_flatMap.mpr ⟨l, h, hp⟩

theorem Holds.mem_of_queue (h : Holds total first s places) {l : Load keys cid} (hl : l ∈ places.queue)
    : l.packets ⊆ total := by
  intro p hp
  have hpos := List.count_pos_iff.mpr (mem_packetsOf hl hp)
  have hcount := h.conserved p
  rw [← List.count_pos_iff]
  omega

theorem Holds.readSocket (h : Holds total first s places)
    : ∃ places : Places keys cid, Holds total first (readSocket s) places := by
  have hnetwork := h.placed.network
  unfold Arrivals.readSocket
  cases hplaces : places.network with
  | nil =>
    rw [hplaces] at hnetwork
    rw [hnetwork]
    exact ⟨places, h⟩
  | cons l network =>
    rw [hplaces] at hnetwork
    rw [hnetwork, List.map_cons]
    dsimp only
    refine ⟨{ places with network := network, queue := places.queue ++ [l] }, h.reads, h.hasKeys, h.kept,
      ⟨rfl, ?_, h.placed.waiting, h.placed.stored, h.placed.recovered⟩, h.waitingLate, h.storedLate, ?_,
      h.announced, h.once, h.nodup, h.installed⟩
    . dsimp only
      rw [h.placed.queue, List.map_append]
      rfl
    . intro p
      have hcount := h.conserved p
      rw [hplaces] at hcount
      simp only [packetsOf_append, packetsOf_cons, packetsOf_nil, List.count_append, List.count_nil]
        at hcount ⊢
      omega

theorem Holds.install (h : Holds total first s places) {level : EncryptionLevel} {state : CryptoState}
    (hok : KeysArrive keys s (.install level state))
    : Holds total first (install s level state) places := by
  have hmirrored (level' : EncryptionLevel)
      (hold : (keys level').MirroredBy (s.conn.cryptoStates level'))
      : (keys level').MirroredBy (Function.update s.conn.cryptoStates level (some state) level') := by
    by_cases hlevel : level' = level
    . rw [hlevel] at hold ⊢
      rw [Function.update_self]
      rcases hok with hnew | ⟨_, hnone⟩
      . exact hnew
      . rcases hold with ⟨state', hstate', _, hheader⟩
        unfold headerRead at hnone
        rw [hstate', Option.bind_some, hheader] at hnone
        contradiction
    . rw [Function.update_of_ne hlevel]
      exact hold
  refine ⟨?_, ?_, fun level' hlevel => hmirrored level' (h.kept level' hlevel),
    ⟨h.placed.network, h.placed.queue, h.placed.waiting, h.placed.stored, h.placed.recovered⟩,
    h.waitingLate, h.storedLate, h.conserved, h.announced, h.once, h.nodup,
    fun level' hlevel => hmirrored level' (h.installed level' hlevel)⟩
  . exact ⟨⟨h.reads.readable.streams, h.reads.readable.cryptoStreams⟩, h.reads.sourceCID,
      h.reads.largest_lt, h.reads.numbered⟩
  . intro level'
    rcases h.hasKeys level' with hold | hold
    . exact Or.inl (hmirrored level' hold)
    . unfold Arrivals.install
      dsimp only
      by_cases hlevel : level' = level
      . rw [hlevel, Function.update_self]
        rcases hok with hnew | ⟨hnew, _⟩
        . exact Or.inl hnew
        . exact Or.inr hnew
      . rw [Function.update_of_ne hlevel]
        exact Or.inr hold

theorem mirrored_of_installed (hkeys : s.conn.HasKeys keys) {level : EncryptionLevel}
    (h : TLSAgent.installed s.conn ⟨level, true⟩ = true)
    : (keys level).MirroredBy (s.conn.cryptoStates level) := by
  rcases hkeys level with hmirrored | hnone
  . exact hmirrored
  . unfold TLSAgent.installed at h
    unfold headerRead at hnone
    dsimp only at h
    cases hstate : s.conn.cryptoStates level with
    | none =>
      rw [hstate] at h
      contradiction
    | some state =>
      rw [hstate] at h hnone
      rw [Option.bind_some] at hnone
      simp [hnone] at h

theorem Holds.announce (h : Holds total first s places) (e : DirectionalEncryptionLevel)
    : Holds total first (announce s e) places := by
  unfold Arrivals.announce TLSAgent.announceLevel
  dsimp only
  split
  . next hnew =>
    rcases hnew with ⟨hnew, hinstalled⟩
    have hneither (level : EncryptionLevel) (he : e = ⟨level, true⟩)
        : ¬ (s.buffer.encryptionLevelsAvailable level = true ∨
            ⟨level, true⟩ ∈ s.encryptionLevelsAvailable) := by
      rw [← h.announced, ← he]
      exact hnew
    refine ⟨h.reads, h.hasKeys, h.kept,
      ⟨h.placed.network, h.placed.queue, h.placed.waiting, h.placed.stored, h.placed.recovered⟩,
      h.waitingLate, h.storedLate, h.conserved, ?_, ?_, ?_, ?_⟩
    . intro level
      dsimp only
      rw [List.mem_append, List.mem_singleton, ← or_assoc, ← h.announced]
      by_cases hsame : ⟨level, true⟩ = e
      . rw [hsame, Function.update_self]
        simp
      . rw [Function.update_of_ne hsame]
        simp [hsame]
    . intro level hlevel
      dsimp only at hlevel ⊢
      rw [List.mem_append, List.mem_singleton] at hlevel
      cases hlevel with
      | inl hlevel => exact h.once level hlevel
      | inr hlevel => exact Bool.eq_false_iff.mpr fun hav => hneither level hlevel.symm (Or.inl hav)
    . dsimp only
      rw [List.filter_append]
      rcases e with ⟨level, read⟩
      cases read with
      | false =>
        rw [List.filter_cons_of_neg Bool.false_ne_true, List.filter_nil, List.append_nil]
        exact h.nodup
      | true =>
        rw [List.filter_cons_of_pos rfl, List.filter_nil]
        apply h.nodup.append (List.nodup_singleton _)
        rw [List.disjoint_singleton]
        intro hmem
        exact hneither level rfl (Or.inr (List.mem_of_mem_filter hmem))
    . intro level hlevel
      dsimp only at hlevel ⊢
      by_cases hsame : ⟨level, true⟩ = e
      . rw [← hsame] at hinstalled
        exact mirrored_of_installed h.hasKeys hinstalled
      . rw [Function.update_of_ne hsame] at hlevel
        exact h.installed level hlevel
  . exact h

theorem Holds.submitWrite (h : Holds total first s places) (level : EncryptionLevel)
    : Holds total first (submitWrite s level) places := by
  have hmem (level' : EncryptionLevel)
      : ⟨level', true⟩ ∈ s.encryptionLevelsAvailable ++ [⟨level, false⟩] ↔
          ⟨level', true⟩ ∈ s.encryptionLevelsAvailable := by
    rw [List.mem_append, List.mem_singleton]
    simp
  refine ⟨h.reads, h.hasKeys, h.kept,
    ⟨h.placed.network, h.placed.queue, h.placed.waiting, h.placed.stored, h.placed.recovered⟩,
    h.waitingLate, h.storedLate, h.conserved, ?_, ?_, ?_, h.installed⟩
  . intro level'
    unfold Arrivals.submitWrite
    dsimp only
    rw [hmem]
    exact h.announced level'
  . intro level' hlevel'
    exact h.once level' ((hmem level').mp hlevel')
  . unfold Arrivals.submitWrite
    dsimp only
    rw [List.filter_append, List.filter_cons_of_neg Bool.false_ne_true, List.filter_nil, List.append_nil]
    exact h.nodup

theorem receive_load (hall : Interchangeable total) {l : Load keys cid} (hl : l.packets ⊆ total)
    {conn : Connection} (hreads : conn.Reads total cid) (hkeys : conn.HasKeys keys)
    : ∃ k progress, receive conn l.udpPayload = some progress ∧
        TakenApart keys total cid l.packets l.sent { conn := conn } progress k := by
  exact rounds_early hall l.protection l.packed l.framesKnown hl hreads hkeys rfl (Nat.zero_le _)
    l.length_lt (Nat.le_refl _)

def rest (l : Load keys cid) (k : Nat) : List (Load keys cid) :=
  if l.packets.drop k = [] then [] else [l.drop k]

theorem packetsOf_rest (l : Load keys cid) (k : Nat) : packetsOf (rest l k) = l.packets.drop k := by
  unfold rest
  split
  . next hnil => rw [hnil, packetsOf_nil]
  . rw [packetsOf_cons, packetsOf_nil, List.append_nil]
    rfl

theorem TakenApart.unprocessed_rest {l : Load keys cid} {conn : Connection} {progress : Progress} {k : Nat}
    (h : TakenApart keys total cid l.packets l.sent { conn := conn } progress k)
    : (progress.unprocessed.map fun u => UnprocessedPayload.mk u.1 u.2)
        = (rest l k).map Load.unprocessed := by
  unfold rest
  rcases h.unprocessed with ⟨hnil, hunprocessed⟩ | ⟨p, packets, hcons, _, hunprocessed⟩
  . rw [hunprocessed, if_pos hnil]
    rfl
  . have hlevel := (l.drop k).level_of_cons hcons
    rw [hunprocessed, if_neg (by rw [hcons]; exact List.cons_ne_nil _ _), List.map_singleton]
    unfold Load.unprocessed
    rw [hlevel]
    rfl

theorem Holds.late_rest (h : Holds total first s places) {l : Load keys cid} {progress : Progress} {k : Nat}
    (htaken : TakenApart keys total cid l.packets l.sent { conn := s.conn } progress k)
    : ∀ l' ∈ rest l k, l'.Late first := by
  intro l' hl'
  unfold rest at hl'
  rcases htaken.unprocessed with ⟨hnil, _⟩ | ⟨p, packets, hcons, hnone, _⟩
  . rw [if_pos hnil] at hl'
    contradiction
  . have hne : l.packets.drop k ≠ [] := by
      rw [hcons]
      exact List.cons_ne_nil p packets
    rw [if_neg hne, List.mem_singleton] at hl'
    rw [hl']
    refine ⟨hne, ?_⟩
    rw [(l.drop k).level_of_cons hcons]
    intro hmirrored
    rw [(h.kept p.encryptionLevel hmirrored).headerCipher] at hnone
    contradiction

theorem Holds.parse (hall : Interchangeable total) (h : Holds total first s places)
    : ∃ s', parse s = some s' ∧ ∃ places : Places keys cid, Holds total first s' places := by
  have hqueue := h.placed.queue
  unfold Arrivals.parse
  cases hplaces : places.queue with
  | nil =>
    rw [hplaces] at hqueue
    rw [hqueue]
    exact ⟨s, rfl, places, h⟩
  | cons l queue =>
    rw [hplaces] at hqueue
    rw [hqueue, List.map_cons]
    dsimp only
    have hl := h.mem_of_queue (hplaces ▸ List.mem_cons_self)
    rcases receive_load hall hl h.reads h.hasKeys with ⟨k, progress, hreceive, htaken⟩
    rw [hreceive]
    refine ⟨_, rfl, { places with
      queue := queue
      waiting := places.waiting ++ rest l k
      recovered := places.recovered ++ l.packets.take k }, ?_⟩
    have hstates := htaken.cryptoStates
    rcases htaken.incoming with ⟨received, hincoming, hrecovered⟩
    refine ⟨htaken.conn, ?_, ?_, ⟨h.placed.network, rfl, ?_, h.placed.stored, ?_⟩, ?_, h.storedLate, ?_,
      h.announced, h.once, h.nodup, ?_⟩
    . unfold Connection.HasKeys
      rw [hstates]
      exact h.hasKeys
    . dsimp only
      rw [hstates]
      exact h.kept
    . rw [List.map_append, ← h.placed.waiting, TakenApart.unprocessed_rest htaken]
    . dsimp only
      rw [hincoming]
      exact List.rel_append h.placed.recovered hrecovered
    . intro l' hl'
      rw [List.mem_append] at hl'
      cases hl' with
      | inl hl' => exact h.waitingLate l' hl'
      | inr hl' => exact h.late_rest htaken l' hl'
    . intro p
      have hcount := h.conserved p
      have hsplit := congrArg (List.count p) (List.take_append_drop k l.packets)
      rw [hplaces] at hcount
      simp only [packetsOf_append, packetsOf_cons, packetsOf_rest, List.count_append] at hcount hsplit ⊢
      omega
    . dsimp only
      rw [hstates]
      exact h.installed

theorem Holds.store (h : Holds total first s places) {l : Load keys cid} {waiting : List (Load keys cid)}
    (hplaces : places.waiting = l :: waiting) (havailable : s.buffer.encryptionLevelsAvailable l.level = false)
    : Holds total first (handleUnprocessed s)
        { places with waiting := waiting, stored := places.stored ++ [(l.level, l)] } := by
  have hwaiting := h.placed.waiting
  have hlate := h.waitingLate
  rw [hplaces] at hwaiting hlate
  rw [List.forall_mem_cons] at hlate
  rw [handleUnprocessed_store hwaiting havailable]
  refine ⟨h.reads, h.hasKeys, h.kept, ⟨h.placed.network, h.placed.queue, rfl, ?_, h.placed.recovered⟩, hlate.2,
    ?_, ?_, h.announced, h.once, h.nodup, h.installed⟩
  . intro level
    dsimp only
    rw [seenBy_append, List.map_append, ← h.placed.stored]
    by_cases hsame : level = l.level
    . rw [hsame, seenBy_cons_self]
      exact Function.update_self _ _ _
    . rw [seenBy_cons_of_ne (Ne.symm hsame), seenBy_nil, List.map_nil, List.append_nil]
      exact Function.update_of_ne hsame _ _
  . intro x hx
    rw [List.mem_append, List.mem_singleton] at hx
    cases hx with
    | inl hx => exact h.storedLate x hx
    | inr hx =>
      rw [hx]
      exact ⟨hlate.1, rfl⟩
  . intro p
    have hcount := h.conserved p
    rw [hplaces] at hcount
    simp only [unreleased, List.filter_append, List.map_append, packetsOf_append, packetsOf_cons,
      List.count_append] at hcount ⊢
    rw [List.filter_cons_of_pos (by rw [havailable]; rfl), List.filter_nil, List.map_singleton,
      packetsOf_cons, packetsOf_nil, List.append_nil]
    dsimp only
    omega

theorem Holds.back (h : Holds total first s places) {l : Load keys cid} {waiting : List (Load keys cid)}
    (hplaces : places.waiting = l :: waiting) (havailable : s.buffer.encryptionLevelsAvailable l.level = true)
    : Holds total first (handleUnprocessed s)
        { places with waiting := waiting, queue := places.queue ++ [l] } := by
  have hwaiting := h.placed.waiting
  have hlate := h.waitingLate
  rw [hplaces] at hwaiting hlate
  rw [List.forall_mem_cons] at hlate
  rw [handleUnprocessed_back hwaiting havailable]
  refine ⟨h.reads, h.hasKeys, h.kept, ⟨h.placed.network, ?_, rfl, h.placed.stored, h.placed.recovered⟩, hlate.2,
    h.storedLate, ?_, h.announced, h.once, h.nodup, h.installed⟩
  . dsimp only
    rw [List.map_append, ← h.placed.queue]
    rfl
  . intro p
    have hcount := h.conserved p
    rw [hplaces] at hcount
    simp only [packetsOf_append, packetsOf_cons, packetsOf_nil, List.count_append, List.count_nil]
      at hcount ⊢
    omega

theorem Holds.handleUnprocessed (h : Holds total first s places)
    : ∃ places : Places keys cid, Holds total first (handleUnprocessed s) places := by
  cases hplaces : places.waiting with
  | nil =>
    have hwaiting := h.placed.waiting
    rw [hplaces] at hwaiting
    unfold Arrivals.handleUnprocessed
    rw [hwaiting]
    exact ⟨places, h⟩
  | cons l waiting =>
    cases havailable : s.buffer.encryptionLevelsAvailable l.level with
    | false => exact ⟨_, h.store hplaces havailable⟩
    | true => exact ⟨_, h.back hplaces havailable⟩

/-- What is kept for a level is put back when the level is announced, and counts no longer. -/
theorem count_unreleased {available : EncryptionLevel → Bool} {level : EncryptionLevel}
    (hlevel : available level = false) (stored : List (EncryptionLevel × Load keys cid)) (p : FramePacket)
    : (packetsOf (unreleased available stored)).count p
        = (packetsOf (unreleased (Function.update available level true) stored)).count p +
          (packetsOf (seenBy level stored)).count p := by
  induction stored with
  | nil => rfl
  | cons x stored ih =>
    unfold unreleased at ih ⊢
    rw [seenBy_cons, List.filter_cons, List.filter_cons]
    by_cases hx : x.1 = level
    . rw [hx, hlevel, Function.update_self, if_pos rfl]
      simp only [Bool.not_false, Bool.not_true, Bool.false_eq_true, ↓reduceIte, List.map_cons,
        packetsOf_cons, List.count_append]
      omega
    . rw [Function.update_of_ne hx, if_neg hx]
      cases available x.1 with
      | true => exact ih
      | false =>
        simp only [Bool.not_false, ↓reduceIte, List.map_cons, packetsOf_cons, List.count_append]
        omega

theorem Holds.noteWrite (h : Holds total first s places) {level : EncryptionLevel}
    {levels : List DirectionalEncryptionLevel}
    (hlevels : s.encryptionLevelsAvailable = ⟨level, false⟩ :: levels)
    : Holds total first (handleAvailable s) places := by
  have hannounced := h.announced
  have honce := h.once
  have hnodup := h.nodup
  rw [hlevels] at hannounced honce hnodup
  rw [handleAvailable_write hlevels]
  refine ⟨h.reads, h.hasKeys, h.kept,
    ⟨h.placed.network, h.placed.queue, h.placed.waiting, h.placed.stored, h.placed.recovered⟩,
    h.waitingLate, h.storedLate, h.conserved, ?_, ?_, ?_, h.installed⟩
  . intro level'
    rw [hannounced, List.mem_cons]
    simp
  . intro level' hlevel'
    exact honce level' (List.mem_cons_of_mem _ hlevel')
  . rw [List.filter_cons_of_neg Bool.false_ne_true] at hnodup
    exact hnodup

theorem Holds.release (h : Holds total first s places) {level : EncryptionLevel}
    {levels : List DirectionalEncryptionLevel}
    (hlevels : s.encryptionLevelsAvailable = ⟨level, true⟩ :: levels)
    : Holds total first (handleAvailable s)
        { places with queue := places.queue ++ seenBy level places.stored } := by
  have hannounced := h.announced
  have honce := h.once
  have hnodup := h.nodup
  rw [hlevels] at hannounced honce hnodup
  rw [List.filter_cons_of_pos rfl, List.nodup_cons] at hnodup
  rw [handleAvailable_read hlevels]
  refine ⟨h.reads, h.hasKeys, h.kept,
    ⟨h.placed.network, ?_, h.placed.waiting, h.placed.stored, h.placed.recovered⟩, h.waitingLate, h.storedLate,
    ?_, ?_, ?_, hnodup.2, h.installed⟩
  . dsimp only
    rw [List.map_append, ← h.placed.queue, h.placed.stored]
  . intro p
    have hcount := h.conserved p
    rw [count_unreleased (honce level List.mem_cons_self)] at hcount
    simp only [packetsOf_append, List.count_append]
    omega
  . intro level'
    dsimp only
    rw [hannounced, List.mem_cons]
    by_cases hsame : level' = level
    . rw [hsame, Function.update_self]
      simp
    . rw [Function.update_of_ne hsame]
      simp [hsame]
  . intro level' hlevel'
    dsimp only at hlevel' ⊢
    rw [Function.update_of_ne]
    . exact honce level' (List.mem_cons_of_mem _ hlevel')
    . intro hsame
      rw [hsame] at hlevel'
      exact hnodup.1 (List.mem_filter.mpr ⟨hlevel', rfl⟩)

theorem Holds.handleAvailable (h : Holds total first s places)
    : ∃ places : Places keys cid, Holds total first (handleAvailable s) places := by
  cases hlevels : s.encryptionLevelsAvailable with
  | nil =>
    unfold Arrivals.handleAvailable
    rw [hlevels]
    exact ⟨places, h⟩
  | cons dEL levels =>
    rcases dEL with ⟨level, read⟩
    cases read with
    | false => exact ⟨_, h.noteWrite hlevels⟩
    | true => exact ⟨_, h.release hlevels⟩

theorem Holds.step (hall : Interchangeable total) (h : Holds total first s places) {event : Event}
    (hok : KeysArrive keys s event)
    : ∃ s', step s event = some s' ∧ ∃ places : Places keys cid, Holds total first s' places := by
  cases event with
  | readSocket => exact ⟨_, rfl, h.readSocket⟩
  | parse => exact h.parse hall
  | unprocessed => exact ⟨_, rfl, h.handleUnprocessed⟩
  | available => exact ⟨_, rfl, h.handleAvailable⟩
  | install level state => exact ⟨_, rfl, places, h.install hok⟩
  | announce e => exact ⟨_, rfl, places, h.announce e⟩
  | submitWrite level => exact ⟨_, rfl, places, h.submitWrite level⟩

end Steps

def Drained (s : State) : Prop :=
  s.network = [] ∧ s.incomingPayloads = [] ∧ s.unprocessedPayloads = [] ∧ s.encryptionLevelsAvailable = []

instance (s : State) : Decidable (Drained s) := inferInstanceAs (Decidable (_ ∧ _))

section Run

variable {total : List FramePacket} {first : Connection} {s : State} {places : Places keys cid}

theorem Holds.perm (h : Holds total first s places) : total.Perm (places.recovered ++ places.held s) := by
  rw [List.perm_iff_count]
  intro p
  have hcount := h.conserved p
  unfold Places.held
  simp only [List.count_append]
  omega

/-- The connection has started with the keys for the packet, or the TLS agent has announced them. -/
def Announced (keys : EncryptionLevel → Keys) (first : Connection) (s : State) (p : FramePacket) : Prop :=
  (keys p.encryptionLevel).MirroredBy (first.cryptoStates p.encryptionLevel) ∨
    s.announced ⟨p.encryptionLevel, true⟩ = true

theorem Holds.held_eq_nil (h : Holds total first s places) (hdrained : Drained s)
    (hannounced : ∀ p ∈ total, Announced keys first s p)
    : places.held s = [] := by
  rcases hdrained with ⟨hnetwork, hqueue, hwaiting, hlevels⟩
  have hnone : unreleased s.buffer.encryptionLevelsAvailable places.stored = [] := by
    unfold unreleased
    rw [List.map_eq_nil_iff, List.filter_eq_nil_iff]
    intro x hx hclosed
    rcases h.storedLate x hx with ⟨⟨hne, hlate⟩, hlevel⟩
    rcases List.exists_cons_of_ne_nil hne with ⟨p, packets, hcons⟩
    have hmem : p ∈ packetsOf (unreleased s.buffer.encryptionLevelsAvailable places.stored) := by
      apply List.mem_flatMap.mpr
      refine ⟨x.2, List.mem_map.mpr ⟨x, List.mem_filter.mpr ⟨hx, hclosed⟩, rfl⟩, ?_⟩
      rw [hcons]
      exact List.mem_cons_self
    have htotal : p ∈ total := by
      have hpos := List.count_pos_iff.mpr hmem
      have hcount := h.conserved p
      rw [← List.count_pos_iff]
      omega
    rw [← hlevel] at hclosed
    rw [x.2.level_of_cons hcons] at hlate hclosed
    rcases hannounced p htotal with hfirst | hannounced
    . exact hlate hfirst
    . rw [h.announced, hlevels] at hannounced
      rcases hannounced with havailable | hmem
      . rw [havailable] at hclosed
        contradiction
      . contradiction
  have hnetwork' := List.map_eq_nil_iff.mp (h.placed.network.symm.trans hnetwork)
  have hqueue' := List.map_eq_nil_iff.mp (h.placed.queue.symm.trans hqueue)
  have hwaiting' := List.map_eq_nil_iff.mp (h.placed.waiting.symm.trans hwaiting)
  unfold Places.held
  rw [hnone, hnetwork', hqueue', hwaiting']
  rfl

theorem holds_start (loads : List (Load keys cid)) {conn : Connection}
    (hreads : conn.Reads (packetsOf loads) cid) (hkeys : conn.HasKeys keys)
    : Holds (packetsOf loads) conn (start (loads.map Load.udpPayload) conn) ⟨loads, [], [], [], []⟩ := by
  refine ⟨hreads, hkeys, fun _ hlevel => hlevel, ⟨rfl, rfl, rfl, fun _ => rfl, List.Forall₂.nil⟩, ?_, ?_, ?_, ?_,
    ?_, List.nodup_nil, ?_⟩
  . intro l hl
    contradiction
  . intro x hx
    contradiction
  . intro p
    simp [unreleased]
  . intro level
    simp [start, BufferAgent.initial]
  . intro level hlevel
    contradiction
  . intro level hlevel
    contradiction

end Run

theorem run_holds {loads : List (Load keys cid)} (hall : Interchangeable (packetsOf loads)) {conn : Connection}
    (hreads : conn.Reads (packetsOf loads) cid) (hkeys : conn.HasKeys keys) {events : List Event}
    (harrive : Run.Guarded step (KeysArrive keys) (start (loads.map Load.udpPayload) conn) events)
    : ∃ s, Run.run step (start (loads.map Load.udpPayload) conn) events = some s ∧
        ∃ places : Places keys cid, Holds (packetsOf loads) conn s places := by
  have hstep (hist : List Event) (s : State) (event : Event)
      (h : ∃ places : Places keys cid, Holds (packetsOf loads) conn s places) (hok : KeysArrive keys s event)
      : ∃ s', step s event = some s' ∧
          ∃ places : Places keys cid, Holds (packetsOf loads) conn s' places := by
    rcases h with ⟨places, h⟩
    exact h.step hall hok
  exact Run.run_of_step step hstep [] _ events ⟨_, holds_start loads hreads hkeys⟩ harrive

theorem early_packets_recovered (keys : EncryptionLevel → Keys) (cid : ConnectionID)
    (loads : List (Load keys cid)) (hall : Interchangeable (packetsOf loads)) (conn : Connection)
    (hreads : conn.Reads (packetsOf loads) cid) (hkeys : conn.HasKeys keys) (events : List Event)
    (harrive : Run.Guarded step (KeysArrive keys) (start (loads.map Load.udpPayload) conn) events)
    : ∃ s, Run.run step (start (loads.map Load.udpPayload) conn) events = some s ∧
        ∃ places : Places keys cid, places.At s ∧
          (packetsOf loads).Perm (places.recovered ++ places.held s) ∧
          (Drained s → (∀ p ∈ packetsOf loads, Announced keys conn s p) → places.held s = []) := by
  rcases run_holds hall hreads hkeys harrive with ⟨s, hrun, places, h⟩
  exact ⟨s, hrun, places, h.placed, h.perm, h.held_eq_nil⟩

def samplePackets : List FramePacket :=
  [initialWith [.ping, .ping, .ping], shortWith [.maxStreams ⟨.uniStreams, 5⟩]]

def sampleSent : List (List UInt8) :=
  [[0xC5, 0, 0, 0, 1, 0x11, 1, 2, 3, 4, 5, 6, 7, 8, 0, 20, 0x11, 1, 1, 1] ++ tag,
    [0x50, 1, 2, 3, 4, 0x16, 0x1E, 0x13, 5] ++ tag]

theorem samplePackets_sent
    : List.Forall₂ (fun p bytes => FramePacket.Sent p (fun _ => tagKeys) bytes) samplePackets sampleSent := by
  refine .cons ?_ (.cons ?_ .nil)
  . exact .of_unprotected ⟨rfl, rfl, rfl⟩ (by decide) (by decide)
  . exact .of_unprotected ⟨rfl, rfl, rfl⟩ (by decide) (by decide)

theorem samplePackets_packed : Packed tagReader.sourceCID samplePackets := by
  apply Packed.long
  . exact ⟨rfl, Or.inl ⟨rfl, rfl, rfl⟩, by decide, by decide, by decide, by decide, Or.inl rfl⟩
  . exact .short ⟨rfl, ⟨rfl, rfl⟩, rfl⟩

theorem samplePackets_framesKnown : ∀ p ∈ samplePackets, p.FramesKnown := by
  unfold samplePackets
  simp only [List.mem_cons, List.not_mem_nil, or_false, forall_eq_or_imp, forall_eq]
  exact ⟨⟨_, rfl, by decide +kernel⟩, ⟨_, rfl, by decide +kernel⟩⟩

theorem sampleSent_length_lt : sampleSent.flatten.length < 2 ^ 62 := by
  decide

def sampleLoad : Load (fun _ => tagKeys) tagReader.sourceCID :=
  ⟨samplePackets, sampleSent, samplePackets_sent, samplePackets_packed, samplePackets_framesKnown,
    sampleSent_length_lt⟩

def earlyReader : Connection where
  sourceCID := tagReader.sourceCID
  cryptoStates := fun level => if level = .initial then tagReader.cryptoStates level else none

theorem samplePackets_numbered {p : FramePacket} (hp : p ∈ samplePackets) {largest : Nat}
    (hlargest : largest < 256)
    : p.Numbered largest := by
  unfold samplePackets at hp
  rw [List.mem_cons, List.mem_singleton] at hp
  rcases hp with hp | hp
  . rw [hp]
    refine ⟨⟨?_, ?_, ?_⟩, ?_, ?_⟩
    all_goals simp [initialWith, Header.truncatedPN, Header.packetNumber]
    omega
  . rw [hp]
    refine ⟨⟨?_, ?_, ?_⟩, ?_, ?_⟩
    all_goals simp [shortWith, Header.truncatedPN, Header.packetNumber]
    omega

theorem packetsOf_sampleLoad : packetsOf [sampleLoad] = samplePackets := by
  rfl

theorem sampleLoad_interchangeable : Interchangeable (packetsOf [sampleLoad]) := by
  rw [packetsOf_sampleLoad]
  intro p hp q hq _
  have hsmall : ∀ q ∈ samplePackets, q.header.packetNumber < 256 := by decide
  exact samplePackets_numbered hp (hsmall q hq)

theorem earlyReader_reads : earlyReader.Reads (packetsOf [sampleLoad]) tagReader.sourceCID := by
  refine ⟨⟨fun _ => Stream.shape_newStream, fun _ => Stream.shape_newStream⟩, rfl, fun _ => Nat.two_pow_pos 64, ?_⟩
  rw [packetsOf_sampleLoad]
  intro p hp
  exact samplePackets_numbered hp (Nat.zero_lt_succ _)

theorem earlyReader_hasKeys : earlyReader.HasKeys (fun _ => tagKeys) := by
  intro level
  unfold earlyReader
  dsimp only
  split
  . exact Or.inl (mirroredBy_tagReader level)
  . exact Or.inr rfl

def tagState : CryptoState := { read := some tagKeys.decrypt, headerRead := some tagKeys.mask }

theorem mirroredBy_tagState : tagKeys.MirroredBy (some tagState) :=
  ⟨_, rfl, rfl, rfl⟩

def sampleArrivals : List Event :=
  [.readSocket, .parse, .unprocessed, .install .oneRTT tagState, .announce ⟨.oneRTT, true⟩]

def sampleStart : State := start ([sampleLoad].map Load.udpPayload) earlyReader

theorem keysArrive_sample {event : Event} (h : event ∈ sampleArrivals ++ [.available, .parse]) (s : State)
    : KeysArrive (fun _ => tagKeys) s event := by
  unfold sampleArrivals at h
  simp only [List.cons_append, List.nil_append, List.mem_cons, List.not_mem_nil, or_false] at h
  rcases h with h | h | h | h | h | h | h
  all_goals rw [h]
  all_goals first | trivial | exact Or.inl mirroredBy_tagState

theorem early_packets_recovered_two
    : ∃ s, Run.run step sampleStart (sampleArrivals ++ [.available, .parse]) = some s ∧
        ∃ recovered, samplePackets.Perm recovered ∧
          List.Forall₂ (FramePacket.RecoveredAs (fun _ => tagKeys)) recovered s.incomingPackets := by
  rcases early_packets_recovered (fun _ => tagKeys) tagReader.sourceCID [sampleLoad]
    sampleLoad_interchangeable earlyReader earlyReader_reads earlyReader_hasKeys
    (sampleArrivals ++ [.available, .parse]) (.of_forall step (fun _ h => keysArrive_sample h) _)
    with ⟨s, hrun, places, hplaces, hperm, hheld⟩
  have hend : ∀ s, Run.run step sampleStart (sampleArrivals ++ [.available, .parse]) = some s →
      Drained s ∧ s.announced ⟨.oneRTT, true⟩ = true := by
    decide +kernel
  rcases hend s hrun with ⟨hdrained, hannounced⟩
  have hnil : places.held s = [] := by
    apply hheld hdrained
    rw [packetsOf_sampleLoad]
    unfold samplePackets
    simp only [List.mem_cons, List.not_mem_nil, or_false, forall_eq_or_imp, forall_eq]
    exact ⟨Or.inl (mirroredBy_tagReader .initial), Or.inr hannounced⟩
  rw [hnil, List.append_nil, packetsOf_sampleLoad] at hperm
  exact ⟨s, hrun, places.recovered, hperm, hplaces.recovered⟩

def Busy (s : State) (event : Event) : Prop :=
  match event with
  | .readSocket => s.network ≠ []
  | .parse => s.incomingPayloads ≠ []
  | .unprocessed => s.unprocessedPayloads ≠ []
  | .available => s.encryptionLevelsAvailable ≠ []
  | _ => False

instance (s : State) (event : Event) : Decidable (Busy s event) := by
  unfold Busy
  cases event <;> infer_instance

def waitingWork (conn : Connection) (u : UnprocessedPayload) : Nat :=
  if headerCipher (conn.cryptoStates u.encryptionLevel) = none then 1 else 4

def announcedWork (kept : EncryptionLevel → List (List UInt8)) (dEL : DirectionalEncryptionLevel) : Nat :=
  if dEL.read then 1 + 3 * (kept dEL.encryptionLevel).length else 1

/--
A payload without a key goes to the buffer and stays, one with a key comes back to the parsing agent once.
-/
def work (s : State) : Nat :=
  3 * s.network.length + 2 * s.incomingPayloads.length +
    (s.unprocessedPayloads.map (waitingWork s.conn)).sum +
    (s.encryptionLevelsAvailable.map (announcedWork s.buffer.unprocessedPayloads)).sum

theorem waitingWork_pos (conn : Connection) (u : UnprocessedPayload) : 1 ≤ waitingWork conn u := by
  unfold waitingWork
  split
  . exact Nat.le_refl 1
  . decide

section Work

variable {total : List FramePacket} {first : Connection} {s s' : State} {places : Places keys cid}

theorem work_readSocket (hbusy : s.network ≠ []) : work (readSocket s) < work s := by
  rcases List.exists_cons_of_ne_nil hbusy with ⟨udpPayload, network, hnetwork⟩
  unfold readSocket work
  rw [hnetwork]
  simp only [List.length_cons, List.length_append, List.length_nil]
  omega

theorem Holds.work_parse (hall : Interchangeable total) (h : Holds total first s places)
    (hbusy : s.incomingPayloads ≠ []) (hparse : Arrivals.parse s = some s')
    : work s' < work s := by
  have hqueue := h.placed.queue
  cases hplaces : places.queue with
  | nil =>
    rw [hplaces] at hqueue
    exact absurd hqueue hbusy
  | cons l queue =>
    rw [hplaces, List.map_cons] at hqueue
    have hl := h.mem_of_queue (hplaces ▸ List.mem_cons_self)
    rcases receive_load hall hl h.reads h.hasKeys with ⟨k, progress, hreceive, htaken⟩
    unfold Arrivals.parse at hparse
    rw [hqueue] at hparse
    dsimp only at hparse
    rw [hreceive] at hparse
    injection hparse with hparse
    have hstates : waitingWork progress.conn = waitingWork s.conn := by
      unfold waitingWork
      rw [htaken.cryptoStates]
    have hrest : ((progress.unprocessed.map fun u => UnprocessedPayload.mk u.1 u.2).map
        (waitingWork s.conn)).sum ≤ 1 := by
      rcases htaken.unprocessed with ⟨_, hunprocessed⟩ | ⟨p, packets, _, hnone, hunprocessed⟩
      . rw [hunprocessed]
        exact Nat.zero_le 1
      . rw [hunprocessed]
        simp only [List.nil_append, List.map_singleton, List.sum_singleton]
        unfold waitingWork
        rw [if_pos hnone]
    unfold work
    rw [← hparse, hqueue]
    dsimp only
    rw [hstates, List.map_append, List.sum_append, List.length_cons]
    omega

theorem sum_announcedWork_store {levels : List DirectionalEncryptionLevel}
    (hnodup : (levels.filter (·.read)).Nodup) (kept : EncryptionLevel → List (List UInt8))
    (level : EncryptionLevel) (payload : List UInt8)
    : (levels.map (announcedWork (Function.update kept level (kept level ++ [payload])))).sum
        = (levels.map (announcedWork kept)).sum + if ⟨level, true⟩ ∈ levels then 3 else 0 := by
  induction levels with
  | nil => rfl
  | cons dEL levels ih =>
    rcases dEL with ⟨level', read⟩
    rw [List.map_cons, List.map_cons, List.sum_cons, List.sum_cons]
    cases read with
    | false =>
      rw [List.filter_cons_of_neg Bool.false_ne_true] at hnodup
      rw [ih hnodup]
      have hmem : ⟨level, true⟩ ∈ (⟨level', false⟩ :: levels) ↔ ⟨level, true⟩ ∈ levels := by
        rw [List.mem_cons]
        simp
      simp only [hmem]
      unfold announcedWork
      simp only [Bool.false_eq_true, ↓reduceIte]
      omega
    | true =>
      rw [List.filter_cons_of_pos rfl, List.nodup_cons] at hnodup
      rw [ih hnodup.2]
      by_cases hsame : level = level'
      . have hnot : ⟨level, true⟩ ∉ levels := by
          intro hmem
          apply hnodup.1
          rw [← hsame]
          exact List.mem_filter.mpr ⟨hmem, rfl⟩
        rw [if_neg hnot, ← hsame, if_pos List.mem_cons_self]
        unfold announcedWork
        simp only [↓reduceIte, Function.update_self, List.length_append, List.length_singleton]
        omega
      . have hmem : ⟨level, true⟩ ∈ (⟨level', true⟩ :: levels) ↔ ⟨level, true⟩ ∈ levels := by
          rw [List.mem_cons]
          simp [hsame]
        simp only [hmem]
        unfold announcedWork
        simp only [↓reduceIte, Function.update_of_ne (Ne.symm hsame)]
        omega

theorem Holds.waitingWork_eq (h : Holds total first s places) {u : UnprocessedPayload}
    (hannounced : s.buffer.encryptionLevelsAvailable u.encryptionLevel = true ∨
      ⟨u.encryptionLevel, true⟩ ∈ s.encryptionLevelsAvailable)
    : waitingWork s.conn u = 4 := by
  have hmirrored := h.installed u.encryptionLevel ((h.announced u.encryptionLevel).mpr hannounced)
  unfold waitingWork
  rw [hmirrored.headerCipher, if_neg (Option.some_ne_none _)]

theorem Holds.work_handleUnprocessed (h : Holds total first s places) (hbusy : s.unprocessedPayloads ≠ [])
    : work (Arrivals.handleUnprocessed s) < work s := by
  rcases List.exists_cons_of_ne_nil hbusy with ⟨u, unprocessedPayloads, hunprocessed⟩
  cases havailable : s.buffer.encryptionLevelsAvailable u.encryptionLevel with
  | false =>
    rw [handleUnprocessed_store hunprocessed havailable]
    unfold work
    dsimp only
    rw [hunprocessed, List.map_cons, List.sum_cons, sum_announcedWork_store h.nodup]
    split
    . next hmem =>
      have hwork := h.waitingWork_eq (Or.inr hmem)
      omega
    . have hwork := waitingWork_pos s.conn u
      omega
  | true =>
    have hwork := h.waitingWork_eq (Or.inl havailable)
    rw [handleUnprocessed_back hunprocessed havailable]
    unfold work
    dsimp only
    rw [hunprocessed, List.map_cons, List.sum_cons, List.length_append, List.length_singleton]
    omega

theorem work_handleAvailable (hbusy : s.encryptionLevelsAvailable ≠ []) : work (handleAvailable s) < work s := by
  rcases List.exists_cons_of_ne_nil hbusy with ⟨⟨level, read⟩, levels, hlevels⟩
  cases read with
  | false =>
    have hone : announcedWork s.buffer.unprocessedPayloads ⟨level, false⟩ = 1 := rfl
    rw [handleAvailable_write hlevels]
    unfold work
    dsimp only
    rw [hlevels, List.map_cons, List.sum_cons]
    omega
  | true =>
    have hback : announcedWork s.buffer.unprocessedPayloads ⟨level, true⟩
        = 1 + 3 * (s.buffer.unprocessedPayloads level).length := rfl
    rw [handleAvailable_read hlevels]
    unfold work
    dsimp only
    rw [hlevels, List.map_cons, List.sum_cons, List.length_append]
    omega

theorem Holds.work_step (hall : Interchangeable total) (h : Holds total first s places) {event : Event}
    (hbusy : Busy s event) (hstep : Arrivals.step s event = some s')
    : work s' < work s := by
  cases event with
  | readSocket =>
    injection hstep with hstep
    rw [← hstep]
    exact work_readSocket hbusy
  | parse => exact h.work_parse hall hbusy hstep
  | unprocessed =>
    injection hstep with hstep
    rw [← hstep]
    exact h.work_handleUnprocessed hbusy
  | available =>
    injection hstep with hstep
    rw [← hstep]
    exact work_handleAvailable hbusy
  | install level state => contradiction
  | announce e => contradiction
  | submitWrite level => contradiction

theorem KeysArrive.of_busy {event : Event} (h : Busy s event) : KeysArrive keys s event := by
  cases event with
  | readSocket => trivial
  | parse => trivial
  | unprocessed => trivial
  | available => trivial
  | install level state => contradiction
  | announce e => contradiction
  | submitWrite level => contradiction

end Work

theorem agents_come_to_rest (keys : EncryptionLevel → Keys) (cid : ConnectionID)
    (loads : List (Load keys cid)) (hall : Interchangeable (packetsOf loads)) (conn : Connection)
    (hreads : conn.Reads (packetsOf loads) cid) (hkeys : conn.HasKeys keys) (events : List Event)
    (harrive : Run.Guarded step (KeysArrive keys) (start (loads.map Load.udpPayload) conn) events) (s : State)
    (hrun : Run.run step (start (loads.map Load.udpPayload) conn) events = some s) (more : List Event)
    (hbusy : Run.Guarded step Busy s more)
    : ∃ s', Run.run step s more = some s' ∧ more.length + work s' ≤ work s := by
  rcases run_holds hall hreads hkeys harrive with ⟨s₀, hrun₀, hs⟩
  rw [hrun] at hrun₀
  injection hrun₀ with hrun₀
  rw [← hrun₀] at hs
  have hstep (hist : List Event) (s1 : State) (event : Event)
      (h : (∃ places : Places keys cid, Holds (packetsOf loads) conn s1 places) ∧
        hist.length + work s1 ≤ work s) (hok : Busy s1 event)
      : ∃ s2, step s1 event = some s2 ∧ (∃ places : Places keys cid, Holds (packetsOf loads) conn s2 places) ∧
          (hist ++ [event]).length + work s2 ≤ work s := by
    rcases h with ⟨⟨places, h⟩, hwork⟩
    rcases h.step hall (KeysArrive.of_busy hok) with ⟨s2, hs2, hholds⟩
    have hless := h.work_step hall hok hs2
    refine ⟨s2, hs2, hholds, ?_⟩
    rw [List.length_append, List.length_singleton]
    omega
  have hzero : ([] : List Event).length + work s ≤ work s := Nat.le_of_eq (Nat.zero_add _)
  rcases Run.run_of_step step hstep [] s more ⟨hs, hzero⟩ hbusy with ⟨s', hs', _, hwork⟩
  exact ⟨s', hs', hwork⟩

theorem agents_come_to_rest_two
    : ∃ s, Run.run step sampleStart sampleArrivals = some s ∧
        Run.Guarded step Busy s [.available, .parse] ∧
        ∃ s', Run.run step s [.available, .parse] = some s' ∧ 2 + work s' ≤ work s := by
  have hbusy : ∃ s, Run.run step sampleStart sampleArrivals = some s ∧
      Run.Guarded step Busy s [.available, .parse] := by
    decide +kernel
  rcases hbusy with ⟨s, hrun, hbusy⟩
  refine ⟨s, hrun, hbusy, ?_⟩
  exact agents_come_to_rest (fun _ => tagKeys) tagReader.sourceCID [sampleLoad] sampleLoad_interchangeable
    earlyReader earlyReader_reads earlyReader_hasKeys sampleArrivals
    (.of_forall step (fun _ h => keysArrive_sample (List.mem_append_left _ h)) _) s hrun [.available, .parse] hbusy

end Arrivals

end QuicTracker
