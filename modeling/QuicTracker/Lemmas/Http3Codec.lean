import QuicTracker.Lemmas.Frames.Basic
import QuicTracker.Lemmas.Http3

/-!
This module contains the round trip of the HTTP/3 frames. The header block of a PUSH_PROMISE frame is
left unread.
-/

namespace QuicTracker

open ByteReader

namespace HTTP3

def wire (type : UInt8) (payload : List UInt8) (h : payload.length < 2 ^ 62) : WireFrame where
  length := varIntBytes payload.length
  type := type
  payload := payload
  isVarInt := isVarInt_varIntBytes h

theorem header_wire {length : VarInt} {type : UInt8} {payload : List UInt8}
    (h : payload.length < 2 ^ 62) (hlength : newVarInt payload.length = some length)
    : ⟨length, type⟩ = (wire type payload h).header := by
  rw [eq_of_newVarInt hlength]
  rfl

theorem wireLength_wire {type : UInt8} {payload : List UInt8} (h : payload.length < 2 ^ 62)
    : (wire type payload h).header.wireLength = (wire type payload h).bytes.length := by
  have hlen := length_varIntBytes_le_eight h
  apply WireFrame.wireLength_header
  rw [WireFrame.length_bytes]
  dsimp only [wire]
  omega

/-- Written and read again, the frame is the same and what follows it is untouched. -/
def HTTPFrame.RoundTrips (f : HTTPFrame) : Prop :=
  ∃ bytes, (∀ buffer, f.writeTo buffer = some (buffer ++ bytes)) ∧
    (∀ rest, readHTTPFrame (bytes ++ rest) = some (f, rest)) ∧ f.wireLength = bytes.length

theorem roundTrips_of_wire {f : HTTPFrame} {type : UInt8} {payload : List UInt8}
    (h : payload.length < 2 ^ 62) (hheader : f.header = (wire type payload h).header)
    (hwrite : ∀ buffer, f.writeTo buffer = some (buffer ++ (wire type payload h).bytes))
    (hread : ∀ rest, WireFrame.readTyped type ((wire type payload h).bytes ++ rest) = some (f, rest))
    : f.RoundTrips := by
  refine ⟨_, hwrite, ?_, ?_⟩
  . intro rest
    rw [WireFrame.readHTTPFrame_append]
    exact hread rest
  . unfold HTTPFrame.wireLength
    rw [hheader]
    exact wireLength_wire h

theorem writeTo_header_wire {type : UInt8} {payload : List UInt8} (h : payload.length < 2 ^ 62)
    (buffer : List UInt8)
    : (wire type payload h).header.writeTo buffer
        = some (buffer ++ varIntBytes payload.length ++ [type]) := by
  unfold HTTPFrameHeader.writeTo VarInt.encode
  dsimp only [WireFrame.header, wire]
  rw [encodeVarInt_of_lt h]
  rfl

theorem bytes_wire {type : UInt8} {payload : List UInt8} (h : payload.length < 2 ^ 62)
    : (wire type payload h).bytes = varIntBytes payload.length ++ (type :: payload) := by
  rfl

theorem writePayload_wire {type : UInt8} {payload : List UInt8} (h : payload.length < 2 ^ 62)
    (buffer : List UInt8)
    : writePayload (wire type payload h).header payload buffer
        = some (buffer ++ (wire type payload h).bytes) := by
  unfold writePayload
  rw [writeTo_header_wire h]
  simp [bytes_wire]

theorem roundTrips_payload {mk : HTTPFrameHeader → List UInt8 → HTTPFrame}
    {type : UInt8} {payload : List UInt8} {length : VarInt}
    (hlength : newVarInt payload.length = some length)
    (hheader : ∀ header, (mk header payload).header = header)
    (hwrite : ∀ header, (mk header payload).writeTo = writePayload header payload)
    (hread : ∀ buffer, WireFrame.readTyped type buffer = some (readPayload mk buffer))
    : (mk ⟨length, type⟩ payload).RoundTrips := by
  have h := lt_of_newVarInt hlength
  rw [header_wire h hlength]
  apply roundTrips_of_wire h (hheader _)
  . rw [hwrite]
    exact writePayload_wire h
  . intro rest
    rw [hread, WireFrame.readPayload_append]
    rfl

theorem newIdentifier_eq_some {mk : HTTPFrameHeader → VarInt → HTTPFrame} {type : UInt8} {i : Nat}
    {f : HTTPFrame} (h : newIdentifier mk type i = some f)
    : ∃ length, i < 2 ^ 62 ∧ newVarInt (varIntBytes i).length = some length ∧
        f = mk ⟨length, type⟩ ⟨i, (varIntBytes i).length⟩ := by
  rcases Option.bind_eq_some_iff.mp h with ⟨n, hn, h₁⟩
  rcases Option.bind_eq_some_iff.mp h₁ with ⟨length, hlength, h₂⟩
  rcases Option.bind_eq_some_iff.mp h₂ with ⟨v, hv, h₃⟩
  injection h₃ with hf
  have hi := lt_of_varIntLen hn
  rw [varIntLen_of_lt hi] at hn
  injection hn with hn
  rw [← hn] at hlength
  rw [eq_of_newVarInt hv] at hf
  exact ⟨length, hi, hlength, hf.symm⟩

theorem readVarIntOrZero_varIntBytes {i : Nat} (h : i < 2 ^ 62) (rest : List UInt8)
    : readVarIntOrZero (varIntBytes i ++ rest) = (⟨i, (varIntBytes i).length⟩, rest) := by
  unfold readVarIntOrZero
  rw [(isVarInt_varIntBytes h).readVarInt]
  rfl

theorem roundTrips_identifier {mk : HTTPFrameHeader → VarInt → HTTPFrame} {type : UInt8} {i : Nat}
    {f : HTTPFrame} (hnew : newIdentifier mk type i = some f)
    (hheader : ∀ header v, (mk header v).header = header)
    (hwrite : ∀ header v, (mk header v).writeTo = writeIdentifier header v)
    (hread : ∀ buffer, WireFrame.readTyped type buffer = some (readIdentifier mk buffer))
    : f.RoundTrips := by
  rcases newIdentifier_eq_some hnew with ⟨length, hi, hlength, rfl⟩
  have h := lt_of_newVarInt hlength
  rw [header_wire h hlength]
  apply roundTrips_of_wire h (hheader _ _)
  . intro buffer
    rw [hwrite]
    unfold writeIdentifier
    rw [writeTo_header_wire h]
    simp [VarInt.encode, encodeVarInt_of_lt hi, bytes_wire]
  . intro rest
    rw [hread]
    unfold readIdentifier
    rw [WireFrame.readHTTPFrameHeader_append]
    dsimp only [wire]
    rw [readVarIntOrZero_varIntBytes hi]

theorem priority_firstByte {prioritizedType dependencyType : UInt8} (hp : prioritizedType < 4)
    (hd : dependencyType < 4) (exclusive : Bool) (v w : VarInt) (weight : UInt8)
    : let b := Priority.firstByte ⟨prioritizedType, dependencyType, 0, exclusive, v, w, weight⟩
      (b &&& 0xc0) >>> 6 = prioritizedType ∧ (b &&& 0x30) >>> 4 = dependencyType ∧
        (b &&& 0xe) >>> 1 = 0 ∧ decide (b &&& 0x1 = 0x1) = exclusive := by
  have hlt : ∀ t : UInt8, t < 4 → t = 0 ∨ t = 1 ∨ t = 2 ∨ t = 3 := by
    apply forall_byte
    decide +kernel
  intro b
  -- The other fields do not go into the byte.
  have hb : b = Priority.firstByte
      ⟨prioritizedType, dependencyType, 0, exclusive, ⟨0, 0⟩, ⟨0, 0⟩, 0⟩ := rfl
  rw [hb]
  clear hb b
  cases exclusive
  all_goals rcases hlt _ hp with rfl | rfl | rfl | rfl
  all_goals rcases hlt _ hd with rfl | rfl | rfl | rfl
  all_goals decide

theorem newPRIORITY_eq_some {prioritizedType dependencyType : UInt8} {exclusive : Bool} {i j : Nat}
    {weight : UInt8} {f : HTTPFrame}
    (h : newPRIORITY prioritizedType dependencyType exclusive i j weight = some f)
    : ∃ length, i < 2 ^ 62 ∧ j < 2 ^ 62 ∧
        newVarInt (1 + (varIntBytes i).length + (varIntBytes j).length + 1) = some length ∧
        f = .priority ⟨length, FrameType.priority⟩ ⟨prioritizedType, dependencyType, 0, exclusive,
          ⟨i, (varIntBytes i).length⟩, ⟨j, (varIntBytes j).length⟩, weight⟩ := by
  rcases Option.bind_eq_some_iff.mp h with ⟨n, hn, h₁⟩
  rcases Option.bind_eq_some_iff.mp h₁ with ⟨m, hm, h₂⟩
  rcases Option.bind_eq_some_iff.mp h₂ with ⟨length, hlength, h₃⟩
  rcases Option.bind_eq_some_iff.mp h₃ with ⟨v, hv, h₄⟩
  rcases Option.bind_eq_some_iff.mp h₄ with ⟨w, hw, h₅⟩
  injection h₅ with hf
  have hi := lt_of_varIntLen hn
  have hj := lt_of_varIntLen hm
  rw [varIntLen_of_lt hi] at hn
  rw [varIntLen_of_lt hj] at hm
  injection hn with hn
  injection hm with hm
  rw [← hn, ← hm] at hlength
  rw [eq_of_newVarInt hv, eq_of_newVarInt hw] at hf
  exact ⟨length, hi, hj, hlength, hf.symm⟩

theorem roundTrips_priority {prioritizedType dependencyType : UInt8} (hp : prioritizedType < 4)
    (hd : dependencyType < 4) {exclusive : Bool} {i j : Nat} {weight : UInt8} {f : HTTPFrame}
    (hnew : newPRIORITY prioritizedType dependencyType exclusive i j weight = some f)
    : f.RoundTrips := by
  rcases newPRIORITY_eq_some hnew with ⟨length, hi, hj, hlength, rfl⟩
  have hfirst := priority_firstByte hp hd exclusive ⟨i, (varIntBytes i).length⟩
    ⟨j, (varIntBytes j).length⟩ weight
  dsimp only at hfirst
  generalize hb : Priority.firstByte _ = b at hfirst
  have hpayload : 1 + (varIntBytes i).length + (varIntBytes j).length + 1
      = ([b] ++ varIntBytes i ++ varIntBytes j ++ [weight]).length := by
    simp
    omega
  rw [hpayload] at hlength
  have h := lt_of_newVarInt hlength
  rw [header_wire h hlength]
  apply roundTrips_of_wire h rfl
  . intro buffer
    unfold HTTPFrame.writeTo writePRIORITY
    dsimp only
    rw [writeTo_header_wire h, hb]
    simp [VarInt.encode, encodeVarInt_of_lt hi, encodeVarInt_of_lt hj, bytes_wire]
  . intro rest
    unfold WireFrame.readTyped readPRIORITY
    rw [WireFrame.readHTTPFrameHeader_append]
    have hbytes : [b] ++ varIntBytes i ++ varIntBytes j ++ [weight] ++ rest
        = b :: (varIntBytes i ++ (varIntBytes j ++ (weight :: rest))) := by
      simp
    dsimp only [wire]
    rw [hbytes]
    simp only [WireFrame.readByteOrZero_cons, readVarIntOrZero_varIntBytes hi,
      readVarIntOrZero_varIntBytes hj, hfirst]
    rfl

def Setting.Built (s : Setting) : Prop := s.identifier < 2 ^ 16 ∧ ∃ n, newVarInt n = some s.value

def Setting.bytes (s : Setting) : List UInt8 := beBytes 2 s.identifier ++ varIntBytes s.value.value

namespace Setting

theorem Built.value {s : Setting} (h : s.Built)
    : s.value.value < 2 ^ 62 ∧ s.value = ⟨s.value.value, (varIntBytes s.value.value).length⟩ := by
  rcases h with ⟨_, n, hn⟩
  have hlt := lt_of_newVarInt hn
  have heq := eq_of_newVarInt hn
  rw [heq]
  exact ⟨hlt, rfl⟩

theorem Built.writeTo {s : Setting} (h : s.Built) (buffer : List UInt8)
    : s.writeTo buffer = some (buffer ++ s.bytes) := by
  unfold Setting.writeTo Setting.bytes VarInt.encode
  rw [encodeVarInt_of_lt h.value.1]
  simp

theorem Built.readSetting {s : Setting} (h : s.Built) (rest : List UInt8)
    : readSetting (s.bytes ++ rest) = (s, rest) := by
  unfold HTTP3.readSetting Setting.bytes
  rw [List.append_assoc]
  rw [readUint16_append h.1]
  dsimp only
  rw [readVarIntOrZero_varIntBytes h.value.1]
  rw [← h.value.2]

theorem Built.length_bytes {s : Setting} (h : s.Built) : s.bytes.length = s.value.length + 2 := by
  unfold Setting.bytes
  rw [List.length_append, length_beBytes]
  rw [h.value.2]
  apply Nat.add_comm

end Setting

theorem foldl_settings {settings : List Setting} (h : ∀ s ∈ settings, s.Built) (length : Nat)
    : settings.foldl (fun length s => length + (s.value.length + 2)) length
        = length + (settings.flatMap Setting.bytes).length := by
  induction settings generalizing length with
  | nil => rfl
  | cons s settings ih =>
    rw [List.foldl_cons]
    rw [ih (fun s' hs' => h s' (List.mem_cons_of_mem s hs'))]
    rw [List.flatMap_cons, List.length_append]
    rw [(h s List.mem_cons_self).length_bytes]
    omega

theorem foldlM_settings {settings : List Setting} (h : ∀ s ∈ settings, s.Built)
    (buffer : List UInt8)
    : settings.foldlM (fun buffer s => s.writeTo buffer) buffer
        = some (buffer ++ settings.flatMap Setting.bytes) := by
  induction settings generalizing buffer with
  | nil => simp
  | cons s settings ih =>
    rw [List.foldlM_cons]
    rw [(h s List.mem_cons_self).writeTo]
    rw [Option.bind_eq_bind, Option.bind_some]
    rw [ih (fun s' hs' => h s' (List.mem_cons_of_mem s hs'))]
    simp

theorem readSettings_flatMap {settings : List Setting} (h : ∀ s ∈ settings, s.Built) {fuel : Nat}
    (hfuel : (settings.flatMap Setting.bytes).length ≤ fuel)
    : readSettings fuel (settings.flatMap Setting.bytes) = settings := by
  induction settings generalizing fuel with
  | nil =>
    cases fuel with
    | zero => rfl
    | succ fuel => rfl
  | cons s settings ih =>
    have hs := h s List.mem_cons_self
    have hlen := hs.length_bytes
    rw [List.flatMap_cons, List.length_append] at hfuel
    rw [List.flatMap_cons]
    cases fuel with
    | zero => omega
    | succ fuel =>
      have hne : s.bytes ++ settings.flatMap Setting.bytes ≠ [] := by
        intro hnil
        have := congrArg List.length hnil
        rw [List.length_append, List.length_nil] at this
        omega
      rw [readSettings]
      . rw [hs.readSetting]
        dsimp only
        rw [ih (fun s' hs' => h s' (List.mem_cons_of_mem s hs')) (by omega)]
      . exact hne

theorem roundTrips_settings {settings : List Setting} (hs : ∀ s ∈ settings, s.Built) {f : HTTPFrame}
    (hnew : newSETTINGS settings = some f)
    : f.RoundTrips := by
  rcases Option.bind_eq_some_iff.mp hnew with ⟨length, hlength, hf⟩
  injection hf with hf
  rw [foldl_settings hs, Nat.zero_add] at hlength
  have h := lt_of_newVarInt hlength
  rw [header_wire h hlength] at hf
  subst hf
  apply roundTrips_of_wire h rfl
  . intro buffer
    unfold HTTPFrame.writeTo writeSETTINGS
    dsimp only
    rw [writeTo_header_wire h]
    rw [Option.bind_eq_bind, Option.bind_some]
    rw [foldlM_settings hs]
    simp [bytes_wire]
  . intro rest
    unfold WireFrame.readTyped readSETTINGS
    rw [WireFrame.readHTTPFrameHeader_append]
    dsimp only
    rw [readInto_append _ _ (by rfl)]
    dsimp only [wire]
    rw [readSettings_flatMap hs (Nat.le_refl _)]
    rfl

theorem newPUSH_PROMISE_eq_some {i : Nat} {headerBlock : List UInt8} {f : HTTPFrame}
    (h : newPUSH_PROMISE i headerBlock = some f)
    : ∃ length, i < 2 ^ 62 ∧ newVarInt (varIntBytes i ++ headerBlock).length = some length ∧
        f = .pushPromise ⟨length, FrameType.pushPromise⟩ ⟨i, (varIntBytes i).length⟩ headerBlock := by
  rcases Option.bind_eq_some_iff.mp h with ⟨n, hn, h₁⟩
  rcases Option.bind_eq_some_iff.mp h₁ with ⟨length, hlength, h₂⟩
  rcases Option.bind_eq_some_iff.mp h₂ with ⟨v, hv, h₃⟩
  injection h₃ with hf
  have hi := lt_of_varIntLen hn
  rw [varIntLen_of_lt hi] at hn
  injection hn with hn
  rw [← hn, ← List.length_append] at hlength
  rw [eq_of_newVarInt hv] at hf
  exact ⟨length, hi, hlength, hf.symm⟩

theorem readHTTPFrame_pushPromise {i : Nat} (hi : i < 2 ^ 62) (headerBlock : List UInt8)
    (h : (varIntBytes i ++ headerBlock).length < 2 ^ 62) (rest : List UInt8)
    : let w := wire FrameType.pushPromise (varIntBytes i ++ headerBlock) h
      readHTTPFrame (w.bytes ++ rest)
        = some (.pushPromise w.header ⟨i, (varIntBytes i).length⟩
            (List.replicate headerBlock.length 0), headerBlock ++ rest) := by
  intro w
  have hblock : w.header.length.value - (varIntBytes i).length = headerBlock.length := by
    change (varIntBytes i ++ headerBlock).length - _ = _
    rw [List.length_append]
    omega
  have hle : (varIntBytes i).length ≤ w.header.length.value := by
    change _ ≤ (varIntBytes i ++ headerBlock).length
    rw [List.length_append]
    omega
  have hbytes : w.payload ++ rest = varIntBytes i ++ (headerBlock ++ rest) := by
    change varIntBytes i ++ headerBlock ++ rest = _
    rw [List.append_assoc]
  have htyped : WireFrame.readTyped w.type (w.bytes ++ rest) = readPUSH_PROMISE (w.bytes ++ rest) := rfl
  rw [WireFrame.readHTTPFrame_append, htyped]
  unfold readPUSH_PROMISE
  rw [WireFrame.readHTTPFrameHeader_append]
  dsimp only
  rw [hbytes, readVarIntOrZero_varIntBytes hi]
  dsimp only
  rw [if_pos hle, hblock]

theorem writePUSH_PROMISE_wire {i : Nat} (hi : i < 2 ^ 62) (headerBlock : List UInt8)
    (h : (varIntBytes i ++ headerBlock).length < 2 ^ 62) (buffer : List UInt8)
    : let w := wire FrameType.pushPromise (varIntBytes i ++ headerBlock) h
      writePUSH_PROMISE w.header ⟨i, (varIntBytes i).length⟩ headerBlock buffer
        = some (buffer ++ w.bytes) := by
  intro w
  unfold writePUSH_PROMISE
  rw [writeTo_header_wire h]
  simp [VarInt.encode, encodeVarInt_of_lt hi, w, bytes_wire]

theorem roundTrips_pushPromise_iff {i : Nat} {headerBlock : List UInt8} {f : HTTPFrame}
    (hnew : newPUSH_PROMISE i headerBlock = some f)
    : f.RoundTrips ↔ headerBlock = [] := by
  rcases newPUSH_PROMISE_eq_some hnew with ⟨length, hi, hlength, rfl⟩
  have h := lt_of_newVarInt hlength
  have hwrite := writePUSH_PROMISE_wire hi headerBlock h
  have hread := readHTTPFrame_pushPromise hi headerBlock h
  rw [header_wire h hlength]
  dsimp only at hwrite hread
  constructor
  . rintro ⟨bytes, hwrite', hread', _⟩
    have hbytes : bytes = (wire FrameType.pushPromise (varIntBytes i ++ headerBlock) h).bytes := by
      have heq := (hwrite' []).symm.trans (hwrite [])
      injection heq
    have hunread := hread' []
    rw [hbytes, hread []] at hunread
    injection hunread with hunread
    injection hunread with _ hrest
    rw [List.append_nil] at hrest
    exact hrest
  . rintro rfl
    refine ⟨_, hwrite, ?_, wireLength_wire h⟩
    intro rest
    rw [hread rest]
    rfl

/-- What the constructors return, and an unknown frame whose length is that of its payload. -/
inductive HTTPFrame.Built : HTTPFrame → Prop where
  | data {payload : List UInt8} {f : HTTPFrame} (h : newDATA payload = some f) : Built f
  | headers {headerBlock : List UInt8} {f : HTTPFrame} (h : newHEADERS headerBlock = some f) : Built f
  | priority {prioritizedType dependencyType : UInt8} {exclusive : Bool} {i j : Nat} {weight : UInt8}
      {f : HTTPFrame} (hp : prioritizedType < 4) (hd : dependencyType < 4)
      (h : newPRIORITY prioritizedType dependencyType exclusive i j weight = some f) : Built f
  | cancelPush {i : Nat} {f : HTTPFrame} (h : newCANCEL_PUSH i = some f) : Built f
  | settings {settings : List Setting} {f : HTTPFrame} (hs : ∀ s ∈ settings, s.Built)
      (h : newSETTINGS settings = some f) : Built f
  | pushPromise {i : Nat} {headerBlock : List UInt8} {f : HTTPFrame}
      (h : newPUSH_PROMISE i headerBlock = some f) : Built f
  | goaway {i : Nat} {f : HTTPFrame} (h : newGOAWAY i = some f) : Built f
  | maxPushID {i : Nat} {f : HTTPFrame} (h : newMAX_PUSH_ID i = some f) : Built f
  | unknown {length : VarInt} {type : UInt8} {payload : List UInt8}
      (hlength : newVarInt payload.length = some length)
      (htype : type ∉ [FrameType.data, FrameType.headers, FrameType.priority, FrameType.cancelPush,
        FrameType.settings, FrameType.pushPromise, FrameType.goaway, FrameType.maxPushID]) :
      Built (.unknown ⟨length, type⟩ payload)

/-- A PUSH_PROMISE frame promises nothing more than its identifier. -/
def HTTPFrame.BlockEmpty (f : HTTPFrame) : Prop :=
  match f with
  | .pushPromise _ _ headerBlock => headerBlock = []
  | _ => True

theorem readTyped_unknown {type : UInt8}
    (htype : type ∉ [FrameType.data, FrameType.headers, FrameType.priority, FrameType.cancelPush,
        FrameType.settings, FrameType.pushPromise, FrameType.goaway, FrameType.maxPushID])
    (buffer : List UInt8)
    : WireFrame.readTyped type buffer = some (readUnknownFrame buffer) := by
  simp only [List.mem_cons, List.not_mem_nil, or_false, not_or] at htype
  simp only [WireFrame.readTyped, htype, if_false]

theorem roundTrips_identifier_iff {mk : HTTPFrameHeader → VarInt → HTTPFrame} {type : UInt8} {i : Nat}
    {f : HTTPFrame} (hnew : newIdentifier mk type i = some f)
    (hheader : ∀ header v, (mk header v).header = header)
    (hwrite : ∀ header v, (mk header v).writeTo = writeIdentifier header v)
    (hread : ∀ buffer, WireFrame.readTyped type buffer = some (readIdentifier mk buffer))
    (hempty : ∀ header v, (mk header v).BlockEmpty)
    : f.RoundTrips ↔ f.BlockEmpty := by
  refine iff_of_true (roundTrips_identifier hnew hheader hwrite hread) ?_
  rcases newIdentifier_eq_some hnew with ⟨length, _, _, rfl⟩
  apply hempty

theorem roundTrips_iff_blockEmpty (f : HTTPFrame) (hf : f.Built) : f.RoundTrips ↔ f.BlockEmpty := by
  cases hf with
  | data h =>
    rcases Option.bind_eq_some_iff.mp h with ⟨length, hlength, h⟩
    injection h with h
    subst h
    exact iff_of_true (roundTrips_payload hlength (fun _ => rfl) (fun _ => rfl) (fun _ => rfl)) trivial
  | headers h =>
    rcases Option.bind_eq_some_iff.mp h with ⟨length, hlength, h⟩
    injection h with h
    subst h
    exact iff_of_true (roundTrips_payload hlength (fun _ => rfl) (fun _ => rfl) (fun _ => rfl)) trivial
  | priority hp hd h =>
    refine iff_of_true (roundTrips_priority hp hd h) ?_
    rcases newPRIORITY_eq_some h with ⟨length, _, _, _, rfl⟩
    trivial
  | cancelPush h =>
    exact roundTrips_identifier_iff h (fun _ _ => rfl) (fun _ _ => rfl) (fun _ => rfl)
      (fun _ _ => trivial)
  | settings hs h =>
    refine iff_of_true (roundTrips_settings hs h) ?_
    rcases Option.bind_eq_some_iff.mp h with ⟨length, _, h⟩
    injection h with h
    subst h
    trivial
  | pushPromise h =>
    rw [roundTrips_pushPromise_iff h]
    rcases newPUSH_PROMISE_eq_some h with ⟨length, _, _, rfl⟩
    rfl
  | goaway h =>
    exact roundTrips_identifier_iff h (fun _ _ => rfl) (fun _ _ => rfl) (fun _ => rfl)
      (fun _ _ => trivial)
  | maxPushID h =>
    exact roundTrips_identifier_iff h (fun _ _ => rfl) (fun _ _ => rfl) (fun _ => rfl)
      (fun _ _ => trivial)
  | unknown hlength htype =>
    exact iff_of_true (roundTrips_payload hlength (fun _ => rfl) (fun _ => rfl)
      (readTyped_unknown htype)) trivial

theorem roundTrips_iff_blockEmpty_settings
    : HTTPFrame.RoundTrips (.settings ⟨⟨4, 1⟩, FrameType.settings⟩ [⟨6, ⟨1024, 2⟩⟩]) := by
  have hbuilt : ∀ s ∈ [(⟨6, ⟨1024, 2⟩⟩ : Setting)], s.Built := by
    intro s hs
    rw [List.mem_singleton.mp hs]
    exact ⟨by decide, 1024, rfl⟩
  exact (roundTrips_iff_blockEmpty _ (.settings hbuilt rfl)).mpr trivial

theorem not_roundTrips_pushPromise
    : ¬ HTTPFrame.RoundTrips (.pushPromise ⟨⟨3, 1⟩, FrameType.pushPromise⟩ ⟨5, 1⟩ [0xaa, 0xbb]) := by
  rintro ⟨bytes, hwrite, hread, _⟩
  have hbytes : bytes = [3, 5, 5, 0xaa, 0xbb] := by
    have heq : some (([] : List UInt8) ++ bytes) = some [3, 5, 5, 0xaa, 0xbb] :=
      (hwrite []).symm.trans (by decide)
    injection heq
  have hread := hread []
  rw [hbytes] at hread
  exact absurd hread (by decide)

end HTTP3

end QuicTracker
