import QuicTracker.Impl.Agents.Socket
import QuicTracker.Lib.Run

/-!
This module contains what `findECNValue` returns for a buffer of control messages, and what the socket agent
makes of the datagrams. From one message to the next the loop leaves out the padding.
-/

namespace QuicTracker

open ByteReader

theorem cmsgHdr_append {length level type : List UInt8} (hlength : length.length = 8)
    (hlevel : level.length = 4) (htype : type.length = 4) (rest : List UInt8)
    : cmsgHdr (length ++ (level ++ (type ++ rest))) = some ⟨leNat length, leNat level, leNat type⟩ := by
  have hlong : ¬ (length ++ (level ++ (type ++ rest))).length < 16 := by
    simp only [List.length_append]
    omega
  have h12 : (length ++ level).length = 12 := by
    rw [List.length_append, hlength, hlevel]
  have hdrop : (length ++ (level ++ (type ++ rest))).drop 12 = type ++ rest := by
    rw [← List.append_assoc, List.drop_left' h12]
  unfold cmsgHdr
  rw [if_neg hlong, hdrop]
  rw [List.take_left' hlength, List.drop_left' hlength, List.take_left' hlevel, List.take_left' htype]

namespace ECNLoop

def Returns (oob : List UInt8) (value : Except String UInt8) : Prop :=
  ∃ passes, findECNValue passes oob = .returned value

theorem returns_of_returned {oob : List UInt8} {value : Except String UInt8}
    (h : step oob = .returned value)
    : Returns oob value := by
  refine ⟨1, ?_⟩
  unfold findECNValue
  rw [h]

theorem returns_iff_of_next {oob oob' : List UInt8} (h : step oob = .next oob')
    (value : Except String UInt8)
    : Returns oob value ↔ Returns oob' value := by
  constructor
  . rintro ⟨passes, hpasses⟩
    cases passes with
    | zero => contradiction
    | succ passes =>
      unfold findECNValue at hpasses
      rw [h] at hpasses
      exact ⟨passes, hpasses⟩
  . rintro ⟨passes, hpasses⟩
    refine ⟨passes + 1, ?_⟩
    unfold findECNValue
    rw [h]
    exact hpasses

theorem not_returns_of_outside {oob : List UInt8} (h : step oob = .outside)
    (value : Except String UInt8)
    : ¬ Returns oob value := by
  rintro ⟨passes, hpasses⟩
  cases passes with
  | zero => contradiction
  | succ passes =>
    unfold findECNValue at hpasses
    rw [h] at hpasses
    contradiction

theorem step_of_hdr {oob : List UInt8} {hdr : CmsgHdr} (h : cmsgHdr oob = some hdr)
    : step oob = if hdr.cLevel = 0 ∧ hdr.cType = 1 then
        (oob[u64Sub hdr.cLength 1]?).elim .outside (fun b => .returned (.ok b))
      else if hdr.cLength ≤ oob.length then .next (oob.drop hdr.cLength) else .outside := by
  have hlength : oob.length > 0 := by
    unfold cmsgHdr at h
    split at h
    . contradiction
    . omega
  unfold step
  rw [if_pos hlength, h]
  dsimp only
  cases oob[u64Sub hdr.cLength 1]? with
  | none => rfl
  | some b => rfl

theorem step_of_short {oob : List UInt8} (hpos : 0 < oob.length) (hshort : oob.length < 16)
    : step oob = .outside := by
  unfold step cmsgHdr
  rw [if_pos hpos, if_pos hshort]

theorem step_next {oob oob' : List UInt8} (h : step oob = .next oob')
    : oob' = oob ∨ oob'.length < oob.length := by
  cases hhdr : cmsgHdr oob with
  | none =>
    unfold step at h
    rw [hhdr] at h
    split at h
    . contradiction
    . contradiction
  | some hdr =>
    rw [step_of_hdr hhdr] at h
    split at h
    . cases hb : oob[u64Sub hdr.cLength 1]? with
      | none =>
        rw [hb] at h
        contradiction
      | some b =>
        rw [hb] at h
        contradiction
    . split at h
      . injection h with h
        rw [← h, List.length_drop]
        by_cases hzero : hdr.cLength = 0
        . rw [hzero]
          exact Or.inl rfl
        . exact Or.inr (by omega)
      . contradiction

theorem findECNValue_of_returns {oob : List UInt8} {value : Except String UInt8}
    (h : Returns oob value) {n : Nat} (hn : oob.length < n)
    : findECNValue n oob = .returned value := by
  rcases h with ⟨passes, hpasses⟩
  induction passes generalizing oob n with
  | zero => contradiction
  | succ passes ih =>
    rcases Nat.exists_eq_succ_of_ne_zero (by omega : n ≠ 0) with ⟨n, rfl⟩
    unfold findECNValue at hpasses
    cases hstep : step oob with
    | returned value' =>
      rw [hstep] at hpasses
      unfold findECNValue
      rw [hstep]
      exact hpasses
    | outside =>
      rw [hstep] at hpasses
      contradiction
    | next oob' =>
      rw [hstep] at hpasses
      rcases step_next hstep with rfl | hlt
      . exact ih hn hpasses
      . unfold findECNValue
        rw [hstep]
        exact ih (by omega) hpasses

end ECNLoop

/-- A control message as `recvmsg` lays it out. The `padding` takes it to a multiple of eight bytes. -/
structure ControlMessage where
  level : Nat
  type : Nat
  data : List UInt8
  padding : List UInt8
  level_lt : level < 2 ^ 32 := by decide
  type_lt : type < 2 ^ 32 := by decide
  length_lt : 16 + data.length < 2 ^ 64 := by decide
  padding_lt : padding.length < 8 := by decide
  padded : (16 + data.length + padding.length) % 8 = 0 := by decide
  data_ne : level = 0 → type = 1 → data ≠ [] := by decide

namespace ControlMessage

def length (m : ControlMessage) : Nat := 16 + m.data.length

def IsECN (m : ControlMessage) : Prop := m.level = 0 ∧ m.type = 1

instance : DecidablePred IsECN := fun m => inferInstanceAs (Decidable (m.level = 0 ∧ m.type = 1))

def header (m : ControlMessage) : List UInt8 :=
  leBytes 8 m.length ++ (leBytes 4 m.level ++ leBytes 4 m.type)

def bytes (m : ControlMessage) : List UInt8 := m.header ++ (m.data ++ m.padding)

def wire (ms : List ControlMessage) : List UInt8 := ms.flatMap bytes

def firstECN (ms : List ControlMessage) : Except String UInt8 :=
  match ms.find? (·.IsECN) with
  | some m => .ok (m.data.getLastD 0)
  | none => .error "could not find ecn control message"

/-- The messages that the loop has to pass take no padding. -/
def Aligned (ms : List ControlMessage) : Prop :=
  ∀ m ∈ ms.takeWhile (¬ ·.IsECN), 8 ∣ m.length

instance (ms : List ControlMessage) : Decidable (Aligned ms) :=
  inferInstanceAs (Decidable (∀ m ∈ ms.takeWhile (¬ ·.IsECN), 8 ∣ m.length))

@[simp]
theorem length_header (m : ControlMessage) : m.header.length = 16 := by
  simp [header]

theorem length_bytes (m : ControlMessage) : m.bytes.length = m.length + m.padding.length := by
  simp [bytes, length, Nat.add_assoc]

theorem cmsgHdr_bytes (m : ControlMessage) (rest : List UInt8)
    : cmsgHdr (m.bytes ++ rest) = some ⟨m.length, m.level, m.type⟩ := by
  unfold bytes header
  rw [List.append_assoc, List.append_assoc, List.append_assoc]
  rw [cmsgHdr_append (length_leBytes 8 _) (length_leBytes 4 _) (length_leBytes 4 _)]
  rw [leNat_leBytes m.length_lt, leNat_leBytes m.level_lt, leNat_leBytes m.type_lt]

theorem step_ecn {m : ControlMessage} (hecn : m.IsECN) (rest : List UInt8)
    : ECNLoop.step (m.bytes ++ rest) = .returned (.ok (m.data.getLastD 0)) := by
  rcases List.eq_nil_or_concat m.data with hnil | ⟨data, b, hdata⟩
  . exact absurd hnil (m.data_ne hecn.1 hecn.2)
  . rw [List.concat_eq_append] at hdata
    have hlength := m.length_lt
    have hindex : u64Sub m.length 1 = 16 + data.length := by
      unfold u64Sub u64 length
      rw [hdata, List.length_append, List.length_singleton] at hlength ⊢
      omega
    have hbyte : (m.bytes ++ rest)[16 + data.length]? = some b := by
      unfold bytes
      rw [List.append_assoc, List.getElem?_append_right (by simp)]
      simp [hdata]
    rw [ECNLoop.step_of_hdr (cmsgHdr_bytes m rest)]
    dsimp only
    rw [if_pos (by exact hecn), hindex, hbyte, hdata]
    simp

theorem step_other {m : ControlMessage} (hother : ¬ m.IsECN) (rest : List UInt8)
    : ECNLoop.step (m.bytes ++ rest) = .next (m.padding ++ rest) := by
  have hle : m.length ≤ (m.bytes ++ rest).length := by
    rw [List.length_append, length_bytes]
    omega
  have hdrop : (m.bytes ++ rest).drop m.length = m.padding ++ rest := by
    unfold bytes length
    rw [List.append_assoc, ← List.drop_drop]
    rw [List.drop_left' m.length_header]
    rw [List.append_assoc, List.drop_left]
  rw [ECNLoop.step_of_hdr (cmsgHdr_bytes m rest)]
  dsimp only
  rw [if_neg (by exact hother), if_pos hle, hdrop]

theorem padding_eq_nil_iff (m : ControlMessage) : m.padding = [] ↔ 8 ∣ m.length := by
  have hlt := m.padding_lt
  have hpadded := m.padded
  rw [← List.length_eq_zero_iff]
  unfold length
  omega

theorem aligned_cons_of_ecn {m : ControlMessage} (hecn : m.IsECN) (ms : List ControlMessage)
    : Aligned (m :: ms) := by
  unfold Aligned
  rw [List.takeWhile_cons_of_neg (by simpa using hecn)]
  simp

theorem aligned_cons_iff {m : ControlMessage} (hother : ¬ m.IsECN) (ms : List ControlMessage)
    : Aligned (m :: ms) ↔ 8 ∣ m.length ∧ Aligned ms := by
  unfold Aligned
  rw [List.takeWhile_cons_of_pos (by simpa using hother)]
  simp

theorem returns_cons_iff {m : ControlMessage} (hother : ¬ m.IsECN) (ms : List ControlMessage)
    : ECNLoop.Returns (wire (m :: ms)) (firstECN (m :: ms)) ↔
        ECNLoop.Returns (m.padding ++ wire ms) (firstECN ms) := by
  have hfirst : firstECN (m :: ms) = firstECN ms := by
    unfold firstECN
    rw [List.find?_cons_of_neg (by simpa using hother)]
  rw [hfirst]
  exact ECNLoop.returns_iff_of_next (step_other hother (wire ms)) (firstECN ms)

theorem returns_of_aligned {ms : List ControlMessage} (h : Aligned ms)
    : ECNLoop.Returns (wire ms) (firstECN ms) := by
  induction ms with
  | nil => exact ECNLoop.returns_of_returned rfl
  | cons m ms ih =>
    by_cases hecn : m.IsECN
    . have hfirst : firstECN (m :: ms) = .ok (m.data.getLastD 0) := by
        unfold firstECN
        rw [List.find?_cons_of_pos (by simpa using hecn)]
      rw [hfirst]
      exact ECNLoop.returns_of_returned (step_ecn hecn (wire ms))
    . rw [aligned_cons_iff hecn] at h
      rw [returns_cons_iff hecn, m.padding_eq_nil_iff.mpr h.1]
      exact ih h.2

/-- A header that is read from the padding on has the length of the next message in its upper bytes. -/
theorem cmsgHdr_shifted {padding : List UInt8} (hlt : padding.length < 8) (m : ControlMessage)
    (hm : m.length < 256) (rest : List UInt8)
    : ∃ hdr, cmsgHdr (padding ++ (m.bytes ++ rest)) = some hdr ∧
        hdr.cLength = leNat padding + 256 ^ padding.length * m.length ∧ hdr.cLength < 2 ^ 64 := by
  have hlong : ¬ (padding ++ (m.bytes ++ rest)).length < 16 := by
    rw [List.length_append, List.length_append, length_bytes]
    unfold length
    omega
  have htake : (padding ++ (m.bytes ++ rest)).take 8
      = padding ++ leBytes (8 - padding.length) m.length := by
    unfold bytes header
    rw [List.take_append, List.take_of_length_le (by omega)]
    rw [List.append_assoc, List.append_assoc]
    rw [List.take_append_of_le_length (by simp), take_leBytes (by omega)]
  have hm' : m.length < 256 ^ (8 - padding.length) := by
    apply Nat.lt_of_lt_of_le hm
    exact Nat.le_self_pow (by omega) 256
  unfold cmsgHdr
  rw [if_neg hlong]
  refine ⟨_, rfl, ?_, ?_⟩
  . dsimp only
    rw [htake, leNat_append, leNat_leBytes hm']
  . apply Nat.lt_of_lt_of_le (leNat_lt _)
    rw [List.length_take]
    exact Nat.pow_le_pow_right (by omega) (Nat.min_le_left 8 _)

theorem step_shifted {padding : List UInt8} (hpos : 0 < padding.length) (hlt : padding.length < 8)
    {ms : List ControlMessage} (hms : (wire ms).length < 256)
    : ECNLoop.step (padding ++ wire ms) = .outside := by
  cases ms with
  | nil =>
    rw [wire, List.flatMap_nil, List.append_nil]
    exact ECNLoop.step_of_short hpos (by omega)
  | cons m ms =>
    have hwire : wire (m :: ms) = m.bytes ++ wire ms := rfl
    rw [hwire] at hms ⊢
    rw [List.length_append, length_bytes] at hms
    have h16 : 16 ≤ m.length := Nat.le_add_right 16 _
    rcases cmsgHdr_shifted hlt m (by omega) (wire ms) with ⟨hdr, hhdr, hlength, h64⟩
    have h256 : 256 ≤ 256 ^ padding.length := Nat.le_self_pow (by omega) 256
    have hfar : 256 * 16 ≤ hdr.cLength := by
      rw [hlength]
      exact Nat.le_add_left_of_le (Nat.mul_le_mul h256 h16)
    have hbuffer : (padding ++ (m.bytes ++ wire ms)).length < 256 * 16 - 1 := by
      rw [List.length_append, List.length_append, length_bytes]
      omega
    have hindex : u64Sub hdr.cLength 1 = hdr.cLength - 1 := by
      unfold u64Sub u64
      omega
    have hnone : (padding ++ (m.bytes ++ wire ms))[u64Sub hdr.cLength 1]? = none := by
      rw [hindex]
      apply List.getElem?_eq_none
      omega
    rw [ECNLoop.step_of_hdr hhdr, hnone]
    rw [if_neg (by omega : ¬ hdr.cLength ≤ _)]
    rw [Option.elim_none, ite_self]

/--
The induction goes to the first message with padding. What follows it has fewer than 256 bytes, so that the
length found there points outside of them.
-/
theorem aligned_of_returns {ms : List ControlMessage} (hms : (wire ms).length < 280)
    (h : ECNLoop.Returns (wire ms) (firstECN ms))
    : Aligned ms := by
  induction ms with
  | nil => simp [Aligned]
  | cons m ms ih =>
    by_cases hecn : m.IsECN
    . exact aligned_cons_of_ecn hecn ms
    . have hwire : (wire (m :: ms)).length = m.length + m.padding.length + (wire ms).length := by
        rw [← length_bytes, ← List.length_append]
        rfl
      rw [returns_cons_iff hecn] at h
      rw [aligned_cons_iff hecn]
      by_cases hnil : m.padding = []
      . rw [hnil] at h
        exact ⟨m.padding_eq_nil_iff.mp hnil, ih (by omega) h⟩
      . have hpos := List.length_pos_of_ne_nil hnil
        have hpadded : (m.length + m.padding.length) % 8 = 0 := m.padded
        have h16 : 16 ≤ m.length := Nat.le_add_right 16 _
        have houtside : ECNLoop.step (m.padding ++ wire ms) = .outside :=
          step_shifted hpos m.padding_lt (by omega)
        exact absurd h (ECNLoop.not_returns_of_outside houtside _)

end ControlMessage

open ControlMessage

theorem findECNValue_returns_firstECN (ms : List ControlMessage)
    : (Aligned ms → ECNLoop.Returns (wire ms) (firstECN ms)) ∧
      ((wire ms).length < 280 → (ECNLoop.Returns (wire ms) (firstECN ms) ↔ Aligned ms)) :=
  ⟨returns_of_aligned, fun hms => ⟨aligned_of_returns hms, returns_of_aligned⟩⟩

/-- The messages `SO_TIMESTAMP`, `IP_TTL` and `IP_TOS` as Linux has them. -/
def sampleTimestamp : ControlMessage where
  level := 1
  type := 29
  data := List.replicate 16 9
  padding := []

def sampleTTL : ControlMessage where
  level := 0
  type := 2
  data := [64, 0, 0, 0]
  padding := [0, 0, 0, 0]

def sampleTOS : ControlMessage where
  level := 0
  type := 1
  data := [2]
  padding := [0, 0, 0, 0, 0, 0, 0]

theorem findECNValue_returns_firstECN_timestamp
    : ECNLoop.Returns (wire [sampleTimestamp, sampleTOS, sampleTTL]) (.ok 2) :=
  (findECNValue_returns_firstECN [sampleTimestamp, sampleTOS, sampleTTL]).1 (by decide)

theorem findECNValue_overruns
    : firstECN [sampleTTL, sampleTOS] = .ok 2 ∧
      ∀ value, ¬ ECNLoop.Returns (wire [sampleTTL, sampleTOS]) value := by
  have hnext : ECNLoop.step (wire [sampleTTL, sampleTOS]) = .next (sampleTTL.padding ++ wire [sampleTOS]) :=
    step_other (by decide) (wire [sampleTOS])
  refine ⟨rfl, ?_⟩
  intro value
  rw [ECNLoop.returns_iff_of_next hnext]
  exact ECNLoop.not_returns_of_outside rfl value

/--
From 280 bytes on the bytes of the padding and a length that is a multiple of 256 can lead the loop back to
a message, here to the end of the last one.
-/
def sampleShort : ControlMessage where
  level := 41
  type := 50
  data := [0]
  padding := [7, 1, 0, 0, 0, 0, 0]

def sampleLong : ControlMessage where
  level := 41
  type := 50
  data := List.replicate 240 0
  padding := []
  length_lt := by decide +kernel
  padded := by decide +kernel

theorem returns_of_not_aligned
    : (wire [sampleShort, sampleLong]).length = 280 ∧ ¬ Aligned [sampleShort, sampleLong] ∧
      ECNLoop.Returns (wire [sampleShort, sampleLong]) (firstECN [sampleShort, sampleLong]) :=
  ⟨by decide +kernel, by decide +kernel, 3, by decide +kernel⟩

namespace SocketAgent

def payload? (event : Event) : Option (List UInt8) :=
  match event with
  | .readMsg payload _ => some payload
  | _ => none

def received (events : List Event) : List (List UInt8) := events.filterMap payload?

/-- The payload that the reader holds until the other goroutine takes it. -/
def pending (s : State) : List (List UInt8) :=
  match s.reader with
  | .sending payload => [payload]
  | _ => []

def status (oob : List UInt8) : ECNStatus :=
  match findECNValue (oob.length + 1) oob with
  | .returned value => .ofByte (ECNLoop.byte value)
  | _ => .nonECT

/-- Whether ECN is configured, and the marks of the datagrams read while it is. -/
def watch (w : Bool × List ECNStatus) (event : Event) : Bool × List ECNStatus :=
  match event with
  | .configureECN configured => (configured, w.2)
  | .readMsg _ oob => if w.1 then (w.1, w.2 ++ [status oob]) else w
  | _ => w

structure Accounts (events : List Event) (s : State) : Prop where
  payloads : s.incomingPayloads ++ pending s = received events
  totalData : s.totalDataReceived = (received events).flatten.length
  datagrams : s.datagramsReceived = (received events).length
  ecn : (s.ecn, s.ecnStatus) = events.foldl watch (false, [])

theorem status_wire {ms : List ControlMessage} (h : Aligned ms)
    : status (wire ms) = .ofByte (ECNLoop.byte (firstECN ms)) := by
  unfold status
  rw [ECNLoop.findECNValue_of_returns (returns_of_aligned h) (Nat.lt_succ_self _)]

theorem readECN_eq_some {s s' : State} {oob : List UInt8} (h : readECN s oob = some s')
    : s' = { s with ecnStatus := if s.ecn then s.ecnStatus ++ [status oob] else s.ecnStatus } := by
  unfold readECN at h
  by_cases hecn : s.ecn = true
  . rw [if_pos hecn] at h ⊢
    unfold status
    cases hvalue : findECNValue (oob.length + 1) oob with
    | returned value =>
      rw [hvalue] at h
      injection h with h
      exact h.symm
    | next oob' =>
      rw [hvalue] at h
      contradiction
    | outside =>
      rw [hvalue] at h
      contradiction
  . rw [if_neg hecn] at h ⊢
    injection h with h
    exact h.symm

theorem readECN_wire {ms : List ControlMessage} (h : Aligned ms) (s : State)
    : ∃ s', readECN s (wire ms) = some s' := by
  unfold readECN
  rw [ECNLoop.findECNValue_of_returns (returns_of_aligned h) (Nat.lt_succ_self _)]
  split
  . exact ⟨_, rfl⟩
  . exact ⟨_, rfl⟩

theorem received_concat (events : List Event) (event : Event)
    : received (events ++ [event]) = received events ++ (payload? event).toList := by
  unfold received
  rw [List.filterMap_append]
  cases h : payload? event with
  | none => simp [h]
  | some payload => simp [h]

theorem readMsg_eq_some {s s' : State} {payload oob : List UInt8} (h : readMsg s payload oob = some s')
    : s' = { s with
        ecnStatus := if s.ecn then s.ecnStatus ++ [status oob] else s.ecnStatus
        totalDataReceived := s.totalDataReceived + payload.length
        datagramsReceived := s.datagramsReceived + 1
        reader := .sending payload } := by
  rcases Option.bind_eq_some_iff.mp h with ⟨s₁, hs₁, h⟩
  injection h with h
  rw [← h, readECN_eq_some hs₁]

theorem Accounts.keep {events : List Event} {s s' : State} (h : Accounts events s) {event : Event}
    (hpayload : payload? event = none)
    (hpayloads : s'.incomingPayloads ++ pending s' = s.incomingPayloads ++ pending s)
    (htotal : s'.totalDataReceived = s.totalDataReceived)
    (hdatagrams : s'.datagramsReceived = s.datagramsReceived)
    (hecn : (s'.ecn, s'.ecnStatus) = watch (s.ecn, s.ecnStatus) event)
    : Accounts (events ++ [event]) s' := by
  have hreceived : received (events ++ [event]) = received events := by
    rw [received_concat, hpayload]
    exact List.append_nil _
  refine ⟨?_, ?_, ?_, ?_⟩
  . rw [hreceived, hpayloads, h.payloads]
  . rw [hreceived, htotal, h.totalData]
  . rw [hreceived, hdatagrams, h.datagrams]
  . rw [List.foldl_append, ← h.ecn]
    exact hecn

theorem Accounts.readMsg {events : List Event} {s s' : State} (h : Accounts events s)
    (hreader : s.reader = .reading) {payload oob : List UInt8}
    (hread : SocketAgent.readMsg s payload oob = some s')
    : Accounts (events ++ [.readMsg payload oob]) s' := by
  have hreceived : received (events ++ [.readMsg payload oob]) = received events ++ [payload] :=
    received_concat events (.readMsg payload oob)
  have hpayloads := h.payloads
  unfold pending at hpayloads
  rw [hreader, List.append_nil] at hpayloads
  rw [readMsg_eq_some hread]
  refine ⟨?_, ?_, ?_, ?_⟩
  . rw [hreceived, ← hpayloads]
    rfl
  . rw [hreceived, List.flatten_append, List.length_append, ← h.totalData]
    simp
  . rw [hreceived, List.length_append, ← h.datagrams]
    rfl
  . rw [List.foldl_append, ← h.ecn]
    cases hecn : s.ecn with
    | false => simp [watch]
    | true => simp [watch]

theorem Accounts.step {events : List Event} {s s' : State} (h : Accounts events s) {event : Event}
    (hstep : SocketAgent.step s event = some s')
    : Accounts (events ++ [event]) s' := by
  unfold SocketAgent.step at hstep
  split at hstep
  . injection hstep with hstep
    rw [← hstep]
    exact h.keep rfl rfl rfl rfl rfl
  . next hreader =>
    split at hstep
    . exact h.readMsg hreader hstep
    . contradiction
  . next hreader =>
    injection hstep with hstep
    rw [← hstep]
    exact h.keep rfl (by simp [pending, hreader]) rfl rfl rfl
  . next hreader =>
    split at hstep
    . injection hstep with hstep
      rw [← hstep]
      exact h.keep rfl (by simp [pending, hreader]) rfl rfl rfl
    . contradiction
  . split at hstep
    . injection hstep with hstep
      rw [← hstep]
      exact h.keep rfl rfl rfl rfl rfl
    . contradiction
  . split at hstep
    . injection hstep with hstep
      rw [← hstep]
      exact h.keep rfl rfl rfl rfl rfl
    . contradiction
  . contradiction

theorem run_accounts {events : List Event} {s : State}
    (hrun : Run.run SocketAgent.step initial events = some s)
    : Accounts events s := by
  have hstart : Accounts [] initial := ⟨rfl, rfl, rfl, rfl⟩
  have hstep (hist : List Event) (s : State) (event : Event) (s' : State) (hs : Accounts hist s)
      (_ : True) (hstep : SocketAgent.step s event = some s')
      : Accounts (hist ++ [event]) s' :=
    hs.step hstep
  have hguarded : Run.Guarded SocketAgent.step (fun _ _ => True) initial events :=
    Run.Guarded.of_forall SocketAgent.step (by simp) initial
  have hinv := Run.inv_of_run SocketAgent.step hstep [] initial events hstart hguarded hrun
  rwa [List.nil_append] at hinv

theorem step_readMsg_wire {s : State} (hreader : s.reader = .reading) (hforwarding : s.forwarding = true)
    {ms : List ControlMessage} (hms : Aligned ms) (payload : List UInt8)
    : ∃ s', step s (.readMsg payload (wire ms)) = some s' ∧ s'.reader = .sending payload ∧
        (s.ecn = true → s'.ecnStatus = s.ecnStatus ++ [.ofByte (ECNLoop.byte (firstECN ms))]) := by
  rcases readECN_wire hms s with ⟨s₁, hs₁⟩
  have hread : ∃ s', readMsg s payload (wire ms) = some s' := by
    unfold readMsg
    rw [hs₁]
    exact ⟨_, rfl⟩
  rcases hread with ⟨s', hs'⟩
  refine ⟨s', ?_, ?_, ?_⟩
  . unfold step
    rw [hreader]
    dsimp only
    rw [if_pos hforwarding]
    exact hs'
  . rw [readMsg_eq_some hs']
  . intro hecn
    rw [readMsg_eq_some hs', ← status_wire hms]
    dsimp only
    rw [if_pos hecn]

/--
Datagrams are counted once, they are handed on in the order in which they were read and none is lost but the
last one, when the agent is closed before it is taken.
-/
theorem datagrams_accounted {events : List Event} {s : State}
    (hrun : Run.run SocketAgent.step initial events = some s)
    : Accounts events s ∧
        (s.reader = .reading → s.forwarding = true → ∀ ms, Aligned ms → ∀ payload,
          ∃ s', step s (.readMsg payload (wire ms)) = some s' ∧ s'.reader = .sending payload ∧
            (s.ecn = true → s'.ecnStatus = s.ecnStatus ++ [.ofByte (ECNLoop.byte (firstECN ms))])) := by
  refine ⟨run_accounts hrun, ?_⟩
  intro hreader hforwarding ms hms payload
  exact step_readMsg_wire hreader hforwarding hms payload

/-- The second datagram comes without a mark, and the agent is closed before it is taken. -/
theorem datagrams_accounted_two
    : ∃ s, Run.run SocketAgent.step initial [.configureECN true, .readMsg [1, 2] (wire [sampleTOS]), .forward,
          .readMsg [3] [], .close] = some s ∧
        s.incomingPayloads = [[1, 2]] ∧ pending s = [[3]] ∧ s.totalDataReceived = 3 ∧
        s.datagramsReceived = 2 ∧ s.ecnStatus = [.ect0, .nonECT] := by
  have hsome : (Run.run SocketAgent.step initial [.configureECN true, .readMsg [1, 2] (wire [sampleTOS]), .forward,
      .readMsg [3] [], .close]).isSome := by
    decide +kernel
  rcases Option.isSome_iff_exists.mp hsome with ⟨s, hrun⟩
  have hpending : ∀ s, Run.run SocketAgent.step initial [.configureECN true, .readMsg [1, 2] (wire [sampleTOS]),
      .forward, .readMsg [3] [], .close] = some s → pending s = [[3]] := by
    decide +kernel
  have haccounts := (datagrams_accounted hrun).1
  have hpayloads := haccounts.payloads
  rw [hpending s hrun] at hpayloads
  change s.incomingPayloads ++ [[3]] = [[1, 2]] ++ [[3]] at hpayloads
  have hecn : s.ecnStatus = _ := congrArg Prod.snd haccounts.ecn
  refine ⟨s, hrun, List.append_cancel_right hpayloads, hpending s hrun, ?_, ?_, ?_⟩
  . rw [haccounts.totalData]
    rfl
  . rw [haccounts.datagrams]
    rfl
  . rw [hecn]
    decide +kernel

end SocketAgent

end QuicTracker
