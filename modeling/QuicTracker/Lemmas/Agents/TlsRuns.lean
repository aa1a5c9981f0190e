import QuicTracker.Lib.Run
import QuicTracker.Lib.Shared
import QuicTracker.Lemmas.Agents.Tls

/-!
This module contains the verification of what the TLS agent carries over a whole run: the TLS library is given
the bytes of each crypto stream in order, and what it answers goes out in CRYPTO frames.
-/

namespace QuicTracker

open Shared

namespace TLSAgent

variable {τ : Type} (lib : Libraries τ)

def Input.cryptoData (i : Input) : Option (PNSpace × List UInt8) :=
  match i with
  | .crypto space data => some (space, data)
  | .packet _ => none

/-- The library after `HandleMessage` was called with data of a packet number space. -/
def feed (tls : τ) (call : PNSpace × List UInt8) : τ := (lib.handleMessage call.2 call.1.epoch tls).2

def answers (tls : τ) (calls : List (PNSpace × List UInt8)) : List Pigotls.Message :=
  match calls with
  | [] => []
  | call :: calls => (lib.handleMessage call.2 call.1.epoch tls).1.output ++ answers (feed lib tls call) calls

theorem answers_concat (tls : τ) (calls : List (PNSpace × List UInt8)) (call : PNSpace × List UInt8)
    : answers lib tls (calls ++ [call])
        = answers lib tls calls ++
          (lib.handleMessage call.2 call.1.epoch (calls.foldl (feed lib) tls)).1.output := by
  induction calls generalizing tls with
  | nil => exact List.append_nil _
  | cons first calls ih =>
    rw [List.cons_append, List.foldl_cons, answers, answers, ih, List.append_assoc]

def advance (offsets : PNSpace → Nat) (m : Pigotls.Message) : PNSpace → Nat :=
  Function.update offsets m.epoch.pnSpace (u64 (offsets m.epoch.pnSpace + m.data.length))

/-- Each message is one CRYPTO frame, at the offset where the ones of its space before it end. -/
def carried (offsets : PNSpace → Nat) (messages : List Pigotls.Message) : List QueuedFrame :=
  match messages with
  | [] => []
  | m :: messages =>
    ⟨.crypto ⟨offsets m.epoch.pnSpace, m.data.length, m.data⟩, m.epoch.encryptionLevel⟩ ::
      carried (advance offsets m) messages

theorem carried_append (offsets : PNSpace → Nat) (messages messages' : List Pigotls.Message)
    : carried offsets (messages ++ messages')
        = carried offsets messages ++ carried (messages.foldl advance offsets) messages' := by
  induction messages generalizing offsets with
  | nil => rfl
  | cons m messages ih => rw [List.cons_append, carried, carried, ih, List.cons_append, List.foldl_cons]

def totalLength (messages : List Pigotls.Message) : Nat := (messages.map (·.data.length)).sum

theorem totalLength_cons (m : Pigotls.Message) (messages : List Pigotls.Message)
    : totalLength (m :: messages) = m.data.length + totalLength messages := by
  rfl

def writeOffsets (c : Client τ) (space : PNSpace) : Nat := (c.cryptoStreams.get space).writeOffset

def Room (c : Client τ) (messages : List Pigotls.Message) : Prop :=
  ∀ m ∈ messages, (c.cryptoStreams.get m.epoch.pnSpace).writeData.length + totalLength messages < 2 ^ 63

instance (c : Client τ) (messages : List Pigotls.Message) : Decidable (Room c messages) :=
  inferInstanceAs (Decidable (∀ m ∈ messages, _))

theorem get_setCryptoStream (c : Client τ) (space space' : PNSpace) (stream : Stream)
    : (c.withCryptoStream space stream).cryptoStreams.get space'
        = if space' = space then stream else c.cryptoStreams.get space' := by
  unfold Client.withCryptoStream Connection.setCryptoStream CryptoStreams.get
  dsimp only
  by_cases hspace : space' = space
  . rw [hspace, Function.update_self, if_pos rfl]
  . rw [Function.update_of_ne hspace, if_neg hspace]

theorem queueMessage_carried {c : Client τ} {m : Pigotls.Message}
    (hroom : (c.cryptoStreams.get m.epoch.pnSpace).writeData.length + m.data.length < 2 ^ 63)
    : ∃ c', queueMessage c m = some c' ∧ c'.frameQueue = c.frameQueue ++ carried (writeOffsets c) [m] ∧
        writeOffsets c' = advance (writeOffsets c) m ∧
        ∀ space, (c'.cryptoStreams.get space).writeData.length
          ≤ (c.cryptoStreams.get space).writeData.length + m.data.length := by
  unfold queueMessage newCryptoFrame Stream.write
  dsimp only
  rw [if_pos hroom]
  refine ⟨_, rfl, rfl, ?_, ?_⟩
  . funext space
    unfold writeOffsets advance Client.submitFrame
    dsimp only
    rw [get_setCryptoStream]
    by_cases hspace : space = m.epoch.pnSpace
    . rw [if_pos hspace, hspace, Function.update_self]
    . rw [if_neg hspace, Function.update_of_ne hspace]
  . intro space
    unfold Client.submitFrame
    dsimp only
    rw [get_setCryptoStream]
    by_cases hspace : space = m.epoch.pnSpace
    . rw [if_pos hspace, hspace, List.length_append]
    . rw [if_neg hspace]
      exact Nat.le_add_right _ _

theorem queueMessages_carried {c : Client τ} {messages : List Pigotls.Message} (hroom : Room c messages)
    : ∃ c', messages.foldlM queueMessage c = some c' ∧
        c'.frameQueue = c.frameQueue ++ carried (writeOffsets c) messages ∧
        writeOffsets c' = messages.foldl advance (writeOffsets c) := by
  induction messages generalizing c with
  | nil =>
    refine ⟨c, rfl, ?_, rfl⟩
    exact (List.append_nil _).symm
  | cons m messages ih =>
    have hfirst := hroom m List.mem_cons_self
    rw [totalLength_cons] at hfirst
    rcases queueMessage_carried (c := c) (m := m) (by omega) with ⟨c₁, hc₁, hframes, hoffsets, hlength⟩
    have hrest : Room c₁ messages := by
      intro m' hm'
      have hold := hroom m' (List.mem_cons_of_mem m hm')
      have hnew := hlength m'.epoch.pnSpace
      rw [totalLength_cons] at hold
      omega
    rcases ih hrest with ⟨c', hc', hframes', hoffsets'⟩
    refine ⟨c', ?_, ?_, ?_⟩
    . rw [List.foldlM_cons, hc₁]
      exact hc'
    . rw [hframes', hframes, hoffsets, List.append_assoc]
      rfl
    . rw [hoffsets', hoffsets]
      rfl

structure Same (s s' : State τ) : Prop where
  tls : s'.conn.tls = s.conn.tls
  frameQueue : s'.conn.frameQueue = s.conn.frameQueue
  cryptoStreams : s'.conn.cryptoStreams = s.conn.cryptoStreams
  cryptoChans : s'.cryptoChans = s.cryptoChans
  disableFrameSending : s'.disableFrameSending = s.disableFrameSending

theorem Same.refl (s : State τ) : Same s s := ⟨rfl, rfl, rfl, rfl, rfl⟩

theorem Same.trans {s s1 s' : State τ} (h : Same s s1) (h' : Same s1 s') : Same s s' :=
  ⟨h'.tls.trans h.tls, h'.frameQueue.trans h.frameQueue, h'.cryptoStreams.trans h.cryptoStreams,
    h'.cryptoChans.trans h.cryptoChans, h'.disableFrameSending.trans h.disableFrameSending⟩

theorem Same.writeOffsets {s s' : State τ} (h : Same s s')
    : TLSAgent.writeOffsets s'.conn = TLSAgent.writeOffsets s.conn := by
  funext space
  unfold TLSAgent.writeOffsets
  rw [h.cryptoStreams]

theorem same_reportError (s : State τ) (p : FramePacket) (err : Option String)
    : Same s (reportError s p err) := by
  unfold reportError
  split
  . exact ⟨rfl, rfl, rfl, rfl, rfl⟩
  . exact Same.refl s

theorem same_installHandshake (s : State τ) : Same s (installHandshake lib s) :=
  ⟨rfl, rfl, rfl, rfl, rfl⟩

theorem same_complete (s : State τ) (p : FramePacket) (notCompleted : Bool)
    : Same s (complete lib s p notCompleted) := by
  unfold complete
  split
  . exact ⟨rfl, rfl, rfl, rfl, rfl⟩
  . exact Same.refl s

theorem same_announce (s : State τ) (e : DirectionalEncryptionLevel) : Same s (announce s e) := by
  exact ⟨rfl, rfl, rfl, rfl, rfl⟩

theorem same_announceAll (s : State τ) (es : List DirectionalEncryptionLevel)
    : Same s (es.foldl announce s) := by
  induction es generalizing s with
  | nil => exact Same.refl s
  | cons e es ih => exact (same_announce s e).trans (ih (announce s e))

theorem same_submitTicket (s : State τ) : Same s (submitTicket lib s) := by
  unfold submitTicket
  dsimp only
  split
  . exact ⟨rfl, rfl, rfl, rfl, rfl⟩
  . exact Same.refl s

def queued (s : State τ) (output : List Pigotls.Message) : List QueuedFrame :=
  if s.disableFrameSending then [] else carried (writeOffsets s.conn) output

theorem queueOutput_carried {s : State τ} {output : List Pigotls.Message}
    (hroom : s.disableFrameSending = false → Room s.conn output)
    : ∃ s', queueOutput s output = some s' ∧ s'.conn.tls = s.conn.tls ∧ s'.cryptoChans = s.cryptoChans ∧
        s'.disableFrameSending = s.disableFrameSending ∧
        s'.conn.frameQueue = s.conn.frameQueue ++ queued s output ∧
        (s.disableFrameSending = false → writeOffsets s'.conn = output.foldl advance (writeOffsets s.conn)) := by
  unfold queueOutput queued
  cases hdisable : s.disableFrameSending with
  | true =>
    rw [if_pos rfl, if_pos rfl, List.append_nil]
    exact ⟨s, rfl, rfl, rfl, hdisable, rfl, fun h => absurd h (by decide)⟩
  | false =>
    rcases queueMessages_carried (hroom hdisable) with ⟨c, hc, hframes, hoffsets⟩
    rw [if_neg Bool.false_ne_true, if_neg Bool.false_ne_true, hc]
    exact ⟨_, rfl, (queueMessages_cases hc).1, rfl, rfl, hframes, fun _ => hoffsets⟩

theorem handleData_carried {s : State τ} {p : FramePacket} {data : List UInt8}
    {output : List Pigotls.Message}
    (houtput : (lib.handleMessage data p.pnSpace.epoch s.conn.tls).1.output = output)
    (hroom : s.disableFrameSending = false → Room s.conn output)
    : ∃ s', handleData lib s p data = some s' ∧ s'.conn.tls = feed lib s.conn.tls (p.pnSpace, data) ∧
        s'.cryptoChans = s.cryptoChans ∧ s'.disableFrameSending = s.disableFrameSending ∧
        s'.conn.frameQueue = s.conn.frameQueue ++ queued s output ∧
        (s.disableFrameSending = false → writeOffsets s'.conn = output.foldl advance (writeOffsets s.conn)) := by
  let called : State τ := { s with conn := { s.conn with
    tls := (lib.handleMessage data p.pnSpace.epoch s.conn.tls).2 } }
  let before := installHandshake lib
    (reportError called p (lib.handleMessage data p.pnSpace.epoch s.conn.tls).1.error)
  have hbefore : Same called before := (same_reportError called p _).trans (same_installHandshake lib _)
  have hroom' : before.disableFrameSending = false → Room before.conn output := by
    intro hdisable
    unfold Room
    rw [hbefore.cryptoStreams]
    exact hroom (hbefore.disableFrameSending.symm.trans hdisable)
  rcases queueOutput_carried hroom' with ⟨s₁, hs₁, htls, hchans, hdisable, hframes, hoffsets⟩
  have hqueued : queued before output = queued s output := by
    unfold queued
    rw [hbefore.disableFrameSending, hbefore.writeOffsets]
    rfl
  have hafter (notCompleted : Bool)
      : Same s₁ (submitTicket lib (encryptionLevels.foldl announce (complete lib s₁ p notCompleted))) :=
    (same_complete lib s₁ p notCompleted).trans ((same_announceAll _ _).trans (same_submitTicket lib _))
  have hend := hafter (lib.handleMessage data p.pnSpace.epoch s.conn.tls).1.notCompleted
  refine ⟨submitTicket lib (encryptionLevels.foldl announce (complete lib s₁ p
    (lib.handleMessage data p.pnSpace.epoch s.conn.tls).1.notCompleted)), ?_, ?_, ?_, ?_, ?_, ?_⟩
  . unfold handleData
    dsimp only
    rw [houtput]
    exact congrArg (· >>= fun s₁ => some (submitTicket lib (encryptionLevels.foldl announce
      (complete lib s₁ p (lib.handleMessage data p.pnSpace.epoch s.conn.tls).1.notCompleted)))) hs₁
  . rw [hend.tls, htls, hbefore.tls]
    rfl
  . rw [hend.cryptoChans, hchans, hbefore.cryptoChans]
  . rw [hend.disableFrameSending, hdisable, hbefore.disableFrameSending]
  . rw [hend.frameQueue, hframes, hbefore.frameQueue, hqueued]
  . intro hsends
    have hsends' : before.disableFrameSending = false := hbefore.disableFrameSending.trans hsends
    rw [hend.writeOffsets, hoffsets hsends', hbefore.writeOffsets]
    rfl

def Fits (s : State τ) (i : Input) : Prop :=
  match i with
  | .packet (.frames p) => (s.cryptoChans p.pnSpace).flatten.length > 0 → s.disableFrameSending = false →
      Room s.conn (lib.handleMessage (s.cryptoChans p.pnSpace).flatten p.pnSpace.epoch s.conn.tls).1.output
  | _ => True

instance (s : State τ) (i : Input) : Decidable (Fits lib s i) :=
  match i with
  | .packet (.frames p) => inferInstanceAs (Decidable ((s.cryptoChans p.pnSpace).flatten.length > 0 →
      s.disableFrameSending = false → Room s.conn
      (lib.handleMessage (s.cryptoChans p.pnSpace).flatten p.pnSpace.epoch s.conn.tls).1.output))
  | .packet (.versionNegotiation _) => inferInstanceAs (Decidable True)
  | .packet (.retry _) => inferInstanceAs (Decidable True)
  | .crypto _ _ => inferInstanceAs (Decidable True)

theorem ite_carried_append (disable : Bool) (offsets : PNSpace → Nat) (messages messages' : List Pigotls.Message)
    : (if disable then [] else carried offsets (messages ++ messages'))
        = (if disable then [] else carried offsets messages) ++
          if disable then [] else carried (messages.foldl advance offsets) messages' := by
  cases disable with
  | true => rfl
  | false => exact carried_append offsets messages messages'

structure Converses (conn : Client τ) (disableFrameSending : Bool) (calls : List (PNSpace × List UInt8))
    (inputs : List Input) (s : State τ) : Prop where
  tls : s.conn.tls = calls.foldl (feed lib) conn.tls
  bytes : ∀ space, (seenBy space calls).flatten ++ (s.cryptoChans space).flatten
    = (seenBy space (inputs.filterMap Input.cryptoData)).flatten
  disabled : s.disableFrameSending = disableFrameSending
  frames : s.conn.frameQueue = conn.frameQueue ++
    if disableFrameSending then [] else carried (writeOffsets conn) (answers lib conn.tls calls)
  offsets : disableFrameSending = false →
    writeOffsets s.conn = (answers lib conn.tls calls).foldl advance (writeOffsets conn)
  emptied : ∀ p, inputs.getLast? = some (.packet (.frames p)) → (s.cryptoChans p.pnSpace).flatten = []

section Steps

variable {conn : Client τ} {disableFrameSending : Bool} {calls : List (PNSpace × List UInt8)}
  {inputs : List Input} {s : State τ}

theorem converses_start (conn : Client τ) (disableFrameSending : Bool)
    : Converses lib conn disableFrameSending [] [] (start conn disableFrameSending) := by
  refine ⟨rfl, fun _ => rfl, rfl, ?_, fun _ => rfl, ?_⟩
  . cases disableFrameSending with
    | true => exact (List.append_nil _).symm
    | false => exact (List.append_nil _).symm
  . intro p hlast
    contradiction

theorem Converses.crypto (h : Converses lib conn disableFrameSending calls inputs s) (space : PNSpace)
    (data : List UInt8)
    : Converses lib conn disableFrameSending calls (inputs ++ [.crypto space data])
        { s with cryptoChans := Function.update s.cryptoChans space (s.cryptoChans space ++ [data]) } := by
  have hnew : [Input.crypto space data].filterMap Input.cryptoData = [(space, data)] := rfl
  refine ⟨h.tls, ?_, h.disabled, h.frames, h.offsets, ?_⟩
  . intro space'
    rw [List.filterMap_append, hnew, seenBy_append, List.flatten_append, ← h.bytes, List.append_assoc]
    dsimp only
    by_cases hspace : space' = space
    . rw [hspace, Function.update_self, seenBy_cons_self, List.flatten_append]
      rfl
    . rw [Function.update_of_ne hspace, seenBy_cons_of_ne (Ne.symm hspace)]
      exact congrArg _ (List.append_nil _).symm
  . intro p hlast
    rw [List.getLast?_concat] at hlast
    injection hlast with hlast
    contradiction

theorem Converses.other (h : Converses lib conn disableFrameSending calls inputs s) {p : Packet}
    (hp : ∀ q, p ≠ .frames q)
    : Converses lib conn disableFrameSending calls (inputs ++ [.packet p]) s := by
  have hnone : [Input.packet p].filterMap Input.cryptoData = [] := rfl
  refine ⟨h.tls, ?_, h.disabled, h.frames, h.offsets, ?_⟩
  . rw [List.filterMap_append, hnone, List.append_nil]
    exact h.bytes
  . intro q hlast
    rw [List.getLast?_concat] at hlast
    injection hlast with hlast
    injection hlast with hlast
    exact absurd hlast (hp q)

theorem Converses.taken (h : Converses lib conn disableFrameSending calls inputs s) (p : FramePacket)
    (space : PNSpace)
    : (seenBy space (calls ++ [(p.pnSpace, (s.cryptoChans p.pnSpace).flatten)])).flatten ++
          (Function.update s.cryptoChans p.pnSpace [] space).flatten
        = (seenBy space ((inputs ++ [Input.packet (.frames p)]).filterMap Input.cryptoData)).flatten := by
  have hnone : [Input.packet (.frames p)].filterMap Input.cryptoData = [] := rfl
  rw [List.filterMap_append, hnone, List.append_nil, ← h.bytes, seenBy_append, List.flatten_append,
    List.append_assoc]
  by_cases hspace : space = p.pnSpace
  . rw [hspace, Function.update_self, seenBy_cons_self, seenBy_nil, List.flatten_nil, List.append_nil,
      List.flatten_cons, List.flatten_nil, List.append_nil]
  . rw [Function.update_of_ne hspace, seenBy_cons_of_ne (Ne.symm hspace), seenBy_nil, List.flatten_nil,
      List.nil_append]

theorem Converses.queued_eq (h : Converses lib conn disableFrameSending calls inputs s)
    (output : List Pigotls.Message)
    : queued s output = if disableFrameSending then [] else
        carried ((answers lib conn.tls calls).foldl advance (writeOffsets conn)) output := by
  unfold queued
  rw [h.disabled]
  cases hsends : disableFrameSending with
  | true => rfl
  | false => rw [h.offsets hsends]

theorem emptied_packet (chans : PNSpace → List (List UInt8)) {p q : FramePacket}
    (hlast : (inputs ++ [Input.packet (.frames p)]).getLast? = some (.packet (.frames q)))
    : (Function.update chans p.pnSpace [] q.pnSpace).flatten = [] := by
  rw [List.getLast?_concat] at hlast
  injection hlast with hlast
  injection hlast with hlast
  injection hlast with hlast
  rw [hlast, Function.update_self]
  rfl

theorem Converses.packet_without_data (h : Converses lib conn disableFrameSending calls inputs s)
    {p : FramePacket} (hnil : (s.cryptoChans p.pnSpace).flatten = [])
    : Converses lib conn disableFrameSending calls (inputs ++ [.packet (.frames p)])
        { s with cryptoChans := Function.update s.cryptoChans p.pnSpace [] } := by
  refine ⟨h.tls, ?_, h.disabled, h.frames, h.offsets, fun q hlast => emptied_packet _ hlast⟩
  intro space
  have htaken := h.taken lib p space
  rw [seenBy_append, List.flatten_append, hnil] at htaken
  by_cases hspace : p.pnSpace = space
  . rw [← hspace, seenBy_cons_self] at htaken
    rw [← hspace]
    simpa using htaken
  . rw [seenBy_cons_of_ne hspace] at htaken
    simpa using htaken

theorem Converses.packet_with_data (h : Converses lib conn disableFrameSending calls inputs s)
    {p : FramePacket} (hfits : Fits lib s (.packet (.frames p)))
    (hdata : (s.cryptoChans p.pnSpace).flatten.length > 0)
    : ∃ s', handleData lib { s with cryptoChans := Function.update s.cryptoChans p.pnSpace [] } p
          (s.cryptoChans p.pnSpace).flatten = some s' ∧
        Converses lib conn disableFrameSending (calls ++ [(p.pnSpace, (s.cryptoChans p.pnSpace).flatten)])
          (inputs ++ [.packet (.frames p)]) s' := by
  rcases handleData_carried lib (s := { s with cryptoChans := Function.update s.cryptoChans p.pnSpace [] })
    (p := p) rfl (hfits hdata) with ⟨s', hs', htls, hchans, hdisable, hframes, hoffsets⟩
  dsimp only at htls hchans hdisable hframes hoffsets
  refine ⟨s', hs', ?_, ?_, ?_, ?_, ?_, ?_⟩
  . rw [htls, h.tls, List.foldl_append]
    rfl
  . intro space
    rw [hchans]
    exact h.taken lib p space
  . exact hdisable.trans h.disabled
  . rw [hframes, h.frames, answers_concat, ← h.tls, ite_carried_append, List.append_assoc,
      ← h.queued_eq lib]
    rfl
  . intro hsends
    rw [hoffsets (h.disabled.trans hsends), answers_concat, ← h.tls, List.foldl_append, ← h.offsets hsends]
  . rw [hchans]
    exact fun q hlast => emptied_packet _ hlast

theorem Converses.packet (h : Converses lib conn disableFrameSending calls inputs s) {p : FramePacket}
    (hfits : Fits lib s (.packet (.frames p)))
    : ∃ s', handlePacket lib s p = some s' ∧
        ∃ calls, Converses lib conn disableFrameSending calls (inputs ++ [.packet (.frames p)]) s' := by
  unfold handlePacket
  dsimp only
  by_cases hdata : (s.cryptoChans p.pnSpace).flatten.length > 0
  . rw [if_pos hdata]
    rcases h.packet_with_data lib hfits hdata with ⟨s', hs', h'⟩
    exact ⟨s', hs', _, h'⟩
  . rw [if_neg hdata]
    have hnil : (s.cryptoChans p.pnSpace).flatten = [] := by
      rw [← List.length_eq_zero_iff]
      omega
    exact ⟨_, rfl, calls, h.packet_without_data lib hnil⟩

theorem Converses.step (h : Converses lib conn disableFrameSending calls inputs s) {i : Input}
    (hfits : Fits lib s i)
    : ∃ s', step lib s i = some s' ∧
        ∃ calls, Converses lib conn disableFrameSending calls (inputs ++ [i]) s' := by
  cases i with
  | crypto space data => exact ⟨_, rfl, calls, h.crypto lib space data⟩
  | packet p =>
    cases p with
    | frames p => exact h.packet lib hfits
    | versionNegotiation p => exact ⟨s, rfl, calls, h.other lib (fun _ => Packet.noConfusion)⟩
    | retry p => exact ⟨s, rfl, calls, h.other lib (fun _ => Packet.noConfusion)⟩

end Steps

theorem library_gets_streams (conn : Client τ) (disableFrameSending : Bool) (inputs : List Input)
    (hfits : Run.Guarded (step lib) (Fits lib) (start conn disableFrameSending) inputs)
    : ∃ s, Run.run (step lib) (start conn disableFrameSending) inputs = some s ∧
        ∃ calls : List (PNSpace × List UInt8), s.conn.tls = calls.foldl (feed lib) conn.tls ∧
          (∀ space, (seenBy space calls).flatten ++ (s.cryptoChans space).flatten
            = (seenBy space (inputs.filterMap Input.cryptoData)).flatten) ∧
          (∀ p, inputs.getLast? = some (.packet (.frames p)) → (s.cryptoChans p.pnSpace).flatten = []) ∧
          s.conn.frameQueue = conn.frameQueue ++
            if disableFrameSending then [] else carried (writeOffsets conn) (answers lib conn.tls calls) := by
  have hstep (hist : List Input) (s : State τ) (i : Input)
      (h : ∃ calls, Converses lib conn disableFrameSending calls hist s) (hok : Fits lib s i)
      : ∃ s', step lib s i = some s' ∧
          ∃ calls, Converses lib conn disableFrameSending calls (hist ++ [i]) s' := by
    rcases h with ⟨calls, h⟩
    exact h.step lib hok
  rcases Run.run_of_step (step lib) hstep [] _ inputs ⟨[], converses_start lib conn disableFrameSending⟩ hfits
    with ⟨s, hrun, calls, h⟩
  exact ⟨s, hrun, calls, h.tls, h.bytes, h.emptied, h.frames⟩

def echoLibraries : Libraries Bool :=
  { sampleLibraries with handleMessage := fun data epoch tls => (⟨[⟨data, epoch⟩], true, none⟩, tls) }

def sampleInputs : List Input :=
  [.crypto .handshake [8], .crypto .initial [7], .crypto .handshake [9],
    .packet (.frames HandshakeAgent.samplePacket)]

theorem library_gets_streams_echo
    : ∃ s, Run.run (step echoLibraries) (start sampleClient false) sampleInputs = some s ∧
        ∃ calls, (seenBy .handshake calls).flatten = [8, 9] ∧
          (seenBy .initial calls).flatten ++ (s.cryptoChans .initial).flatten = [7] ∧
          s.conn.frameQueue = sampleClient.frameQueue ++
            carried (writeOffsets sampleClient) (answers echoLibraries sampleClient.tls calls) := by
  rcases library_gets_streams echoLibraries sampleClient false sampleInputs (by decide +kernel)
    with ⟨s, hrun, calls, _, hbytes, hemptied, hframes⟩
  have hempty : (s.cryptoChans .handshake).flatten = [] := hemptied HandshakeAgent.samplePacket rfl
  have hhandshake := hbytes .handshake
  rw [hempty, List.append_nil] at hhandshake
  exact ⟨s, hrun, calls, hhandshake, hbytes .initial, hframes⟩

end TLSAgent

end QuicTracker
