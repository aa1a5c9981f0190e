import QuicTracker.Impl.TransportParameters
import QuicTracker.Lemmas.Varint

/-!
This module contains the meaning of a list of transport parameters: the last value of a parameter counts, the
parameters that are not known are kept, and what a client announces is read back as it was.
-/

namespace QuicTracker

namespace TLSTransportParameterHandler

open TransportParametersType

inductive Value where
  | integer (n : Nat)
  | bytes (bytes : List UInt8)
  | flag (set : Bool)
  deriving DecidableEq

def field (r : QuicTransportParameters) (parameterType : Nat) : Value :=
  if parameterType = originalConnectionId then .bytes r.originalConnectionId
  else if parameterType = idleTimeout then .integer r.idleTimeout
  else if parameterType = statelessResetToken then .bytes r.statelessResetToken
  else if parameterType = maxPacketSize then .integer r.maxPacketSize
  else if parameterType = initialMaxData then .integer r.maxData
  else if parameterType = initialMaxStreamDataBidiLocal then .integer r.maxStreamDataBidiLocal
  else if parameterType = initialMaxStreamDataBidiRemote then .integer r.maxStreamDataBidiRemote
  else if parameterType = initialMaxStreamDataUni then .integer r.maxStreamDataUni
  else if parameterType = initialMaxStreamsBidi then .integer r.maxBidiStreams
  else if parameterType = initialMaxStreamsUni then .integer r.maxUniStreams
  else if parameterType = ackDelayExponent then .integer r.ackDelayExponent
  else if parameterType = maxAckDelay then .integer r.maxAckDelay
  else if parameterType = disableMigration then .flag r.disableMigration
  else .bytes r.preferredAddress

def Known (p : TransportParameter) : Prop := p.parameterType ≤ preferredAddress

instance (p : TransportParameter) : Decidable (Known p) := inferInstanceAs (Decidable (_ ≤ _))

def value? (p : TransportParameter) : Option Value :=
  if p.parameterType ∈ [originalConnectionId, statelessResetToken, preferredAddress] then
    some (.bytes p.value)
  else if p.parameterType = disableMigration then
    some (.flag true)
  else
    (readVarIntValue p.value).1.map .integer

/-- What one round of the loop does with a parameter that is known. -/
structure Receives (r r' : QuicTransportParameters) (p : TransportParameter) (v : Value) : Prop where
  fields : ∀ t ≤ preferredAddress, field r' t = if t = p.parameterType then v else field r t
  additionalParameters : r'.additionalParameters = r.additionalParameters

theorem receives_integer (r : QuicTransportParameters) {set : Nat → QuicTransportParameters}
    {p : TransportParameter} (hset : ∀ n, Receives r (set n) p (.integer n))
    (hvalue : value? p = (readVarIntValue p.value).1.map .integer)
    (hreceive : receiveParameter r p = receiveVarInt set p.value)
    : (value? p = none ∧ (receiveParameter r p).2 = false) ∨
      ∃ v r', value? p = some v ∧ receiveParameter r p = (r', true) ∧ Receives r r' p v := by
  rw [hvalue, hreceive]
  unfold receiveVarInt
  cases (readVarIntValue p.value).1 with
  | none => exact Or.inl ⟨rfl, rfl⟩
  | some n => exact Or.inr ⟨.integer n, set n, rfl, rfl, hset n⟩

theorem receives_of_fields {r r' : QuicTransportParameters} {p : TransportParameter} {v : Value}
    (hfields : ∀ t ∈ List.range 14, field r' t = if t = p.parameterType then v else field r t)
    (hadditional : r'.additionalParameters = r.additionalParameters)
    : Receives r r' p v := by
  refine ⟨?_, hadditional⟩
  intro t ht
  apply hfields
  rw [List.mem_range]
  exact Nat.lt_succ_of_le ht

theorem receiveParameter_known (r : QuicTransportParameters) {p : TransportParameter} (h : Known p)
    : (value? p = none ∧ (receiveParameter r p).2 = false) ∨
      ∃ v r', value? p = some v ∧ receiveParameter r p = (r', true) ∧ Receives r r' p v := by
  rcases p with ⟨parameterType, value⟩
  have hle : parameterType ≤ 13 := h
  interval_cases parameterType
  all_goals first
    | refine receives_integer r ?_ rfl rfl
      intro n
      refine receives_of_fields ?_ rfl
      simp only [List.range_succ, List.range_zero, List.nil_append, List.cons_append, List.forall_mem_cons]
      exact ⟨rfl, rfl, rfl, rfl, rfl, rfl, rfl, rfl, rfl, rfl, rfl, rfl, rfl, rfl, by simp⟩
    | refine Or.inr ⟨_, _, rfl, rfl, ?_⟩
      refine receives_of_fields ?_ rfl
      simp only [List.range_succ, List.range_zero, List.nil_append, List.cons_append, List.forall_mem_cons]
      exact ⟨rfl, rfl, rfl, rfl, rfl, rfl, rfl, rfl, rfl, rfl, rfl, rfl, rfl, rfl, by simp⟩

theorem receiveParameter_unknown (r : QuicTransportParameters) {p : TransportParameter} (h : ¬ Known p)
    : receiveParameter r p =
        ({ r with additionalParameters := r.additionalParameters ++ [p] }, true) := by
  have hgt : 13 < p.parameterType := Nat.lt_of_not_le h
  unfold receiveParameter originalConnectionId idleTimeout statelessResetToken maxPacketSize initialMaxData
    initialMaxStreamDataBidiLocal initialMaxStreamDataBidiRemote initialMaxStreamDataUni
    initialMaxStreamsBidi initialMaxStreamsUni ackDelayExponent maxAckDelay disableMigration
    preferredAddress
  repeat rw [if_neg (by omega)]

def lastValue (parameters : TransportParameterList) (t : Nat) : Option Value :=
  parameters.reverse.findSome? (fun p => if p.parameterType = t then value? p else none)

theorem lastValue_cons (p : TransportParameter) (parameters : TransportParameterList) (t : Nat)
    : lastValue (p :: parameters) t =
        (lastValue parameters t).or (if p.parameterType = t then value? p else none) := by
  unfold lastValue
  rw [List.reverse_cons, List.findSome?_append]
  congr 1
  rw [List.findSome?_cons]
  cases (if p.parameterType = t then value? p else none) <;> rfl

theorem receiveParameters_isSome (r : QuicTransportParameters) (parameters : TransportParameterList)
    : (receiveParameters r parameters).isSome ↔ ∀ p ∈ parameters, Known p → (value? p).isSome := by
  induction parameters generalizing r with
  | nil => simp [receiveParameters]
  | cons p parameters ih =>
    rw [List.forall_mem_cons]
    by_cases hknown : Known p
    . rcases receiveParameter_known r hknown with ⟨hvalue, hfails⟩ | ⟨v, r', hvalue, hreceive, _⟩
      . have hnone : receiveParameters r (p :: parameters) = none := by
          unfold receiveParameters
          rcases hr : receiveParameter r p with ⟨r', ok⟩
          rw [hr] at hfails
          rw [show ok = false from hfails]
        simp [hnone, hvalue, hknown]
      . have hnext : receiveParameters r (p :: parameters) = receiveParameters r' parameters := by
          conv =>
            lhs
            unfold receiveParameters
          rw [hreceive]
        simp [hnext, hvalue, ih]
    . have hnext : receiveParameters r (p :: parameters) = receiveParameters
          { r with additionalParameters := r.additionalParameters ++ [p] } parameters := by
        conv =>
          lhs
          unfold receiveParameters
        rw [receiveParameter_unknown r hknown]
      simp [hnext, hknown, ih]

theorem receiveParameters_fields {r r' : QuicTransportParameters} {parameters : TransportParameterList}
    (h : receiveParameters r parameters = some r')
    : (∀ t ≤ preferredAddress, field r' t = (lastValue parameters t).getD (field r t)) ∧
      r'.additionalParameters = r.additionalParameters ++ parameters.filter (fun p => ¬ Known p) := by
  induction parameters generalizing r with
  | nil =>
    injection h with h
    rw [← h]
    exact ⟨fun _ _ => rfl, (List.append_nil _).symm⟩
  | cons p parameters ih =>
    unfold receiveParameters at h
    by_cases hknown : Known p
    . rcases receiveParameter_known r hknown with ⟨_, hfails⟩ | ⟨v, r₁, hvalue, hreceive, hr₁⟩
      . rcases hr : receiveParameter r p with ⟨r₁, ok⟩
        rw [hr] at hfails h
        rw [show ok = false from hfails] at h
        contradiction
      . rw [hreceive] at h
        rcases ih h with ⟨hfields, hadditional⟩
        refine ⟨?_, ?_⟩
        . intro t ht
          rw [hfields t ht, hr₁.fields t ht, lastValue_cons]
          by_cases heq : p.parameterType = t
          . rw [if_pos heq, if_pos heq.symm, hvalue]
            cases lastValue parameters t <;> rfl
          . rw [if_neg heq, if_neg (Ne.symm heq)]
            cases lastValue parameters t <;> rfl
        . rw [hadditional, hr₁.additionalParameters]
          rw [List.filter_cons_of_neg (by simpa using hknown)]
    . rw [receiveParameter_unknown r hknown] at h
      rcases ih h with ⟨hfields, hadditional⟩
      refine ⟨?_, ?_⟩
      . intro t ht
        have hne : p.parameterType ≠ t := by
          rintro rfl
          exact hknown ht
        rw [hfields t ht, lastValue_cons, if_neg hne]
        cases lastValue parameters t <;> rfl
      . rw [hadditional, List.filter_cons_of_pos (by simpa using hknown)]
        simp

/-- The call fails if `Unmarshal` does, or if a known parameter that is an integer cannot be read. -/
theorem received_parameters
    (unmarshal : List UInt8 → EncryptedExtensionsTransportParameters →
      Option String × EncryptedExtensionsTransportParameters)
    (h : TLSTransportParameterHandler) (data : List UInt8)
    {err : Option String} {extensions : EncryptedExtensionsTransportParameters}
    (hunmarshal : unmarshal data (h.encryptedExtensionsTransportParameters.getD {}) = (err, extensions))
    : ((receiveExtensionData unmarshal h data).1 = none ↔
        err = none ∧ ∀ p ∈ extensions.parameters, Known p → (value? p).isSome) ∧
      ((receiveExtensionData unmarshal h data).1 ≠ none →
        (receiveExtensionData unmarshal h data).2.receivedParameters = h.receivedParameters) ∧
      ((receiveExtensionData unmarshal h data).1 = none →
        ∃ r, (receiveExtensionData unmarshal h data).2.receivedParameters = some r ∧
          (∀ t ≤ preferredAddress, field r t = (lastValue extensions.parameters t).getD (field {} t)) ∧
          r.additionalParameters = extensions.parameters.filter (fun p => ¬ Known p)) := by
  cases err with
  | some err =>
    have hresult : receiveExtensionData unmarshal h data = (some err,
        { h with encryptedExtensionsTransportParameters := some extensions }) := by
      simp [receiveExtensionData, hunmarshal]
    rw [hresult]
    simp
  | none =>
    have hsome := receiveParameters_isSome {} extensions.parameters
    cases hreceive : receiveParameters {} extensions.parameters with
    | none =>
      have hresult : receiveExtensionData unmarshal h data = (some "EOF",
          { h with encryptedExtensionsTransportParameters := some extensions }) := by
        simp [receiveExtensionData, hunmarshal, hreceive]
      rw [hreceive] at hsome
      rw [hresult, ← hsome]
      simp
    | some r =>
      have hresult : receiveExtensionData unmarshal h data = (none,
          { h with
            encryptedExtensionsTransportParameters := some extensions
            receivedParameters := some r }) := by
        simp [receiveExtensionData, hunmarshal, hreceive]
      rcases receiveParameters_fields hreceive with ⟨hfields, hadditional⟩
      rw [hreceive] at hsome
      rw [hresult, ← hsome]
      refine ⟨by simp, by simp, fun _ => ⟨r, rfl, hfields, hadditional⟩⟩

section Sample

open ByteReader

def readVector (head : Nat) (data : List UInt8) : Option (List UInt8 × List UInt8) := do
  let (length, data) := readFull head data
  let length ← length
  let (bytes, data) := readFull (beNat length) data
  return (← bytes, data)

def readVersions (data : List UInt8) : Option (List Nat) :=
  match data with
  | [] => some []
  | a :: b :: c :: d :: data => do
    let versions ← readVersions data
    return beNat [a, b, c, d] :: versions
  | _ => none

/-- Every parameter has a type and a length, so `fuel` bounds the parameters. -/
def readParameters (fuel : Nat) (data : List UInt8) : Option TransportParameterList :=
  match fuel, data with
  | _, [] => some []
  | 0, _ => none
  | fuel + 1, data => do
    let (parameterType, data) := readFull 2 data
    let parameterType ← parameterType
    let (value, data) ← readVector 2 data
    let parameters ← readParameters fuel data
    return ⟨beNat parameterType, value⟩ :: parameters

/-- The extension of a server, decoded as the tags of the structure say. -/
def readExtensions (data : List UInt8) : Option EncryptedExtensionsTransportParameters := do
  let (version, data) := readFull 4 data
  let version ← version
  let (versions, data) ← readVector 1 data
  let (parameters, _) ← readVector 2 data
  return ⟨beNat version, ← readVersions versions, ← readParameters parameters.length parameters⟩

def sampleUnmarshal (data : List UInt8) (extensions : EncryptedExtensionsTransportParameters) :
    Option String × EncryptedExtensionsTransportParameters :=
  match readExtensions data with
  | some extensions => (none, extensions)
  | none => (some "EOF", extensions)

end Sample

/-- A server that sends `initial_max_data` twice and a parameter that is not known. -/
def sampleData : List UInt8 :=
  [0xff, 0, 0, 0x11, 4, 0xff, 0, 0, 0x11, 0, 15, 0, 4, 0, 1, 5, 0xff, 0, 0, 1, 1, 0, 4, 0, 1, 7]

theorem received_parameters_twice
    : (receiveExtensionData sampleUnmarshal (newTLSTransportParameterHandler 0 0) sampleData).1 = none ∧
      ∃ r, (receiveExtensionData sampleUnmarshal
          (newTLSTransportParameterHandler 0 0) sampleData).2.receivedParameters = some r ∧
        field r initialMaxData = .integer 7 ∧ r.additionalParameters = [⟨0xff00, [1]⟩] := by
  have hunmarshal : sampleUnmarshal sampleData {} = (none, ⟨0xff000011, [0xff000011],
      [⟨initialMaxData, [5]⟩, ⟨0xff00, [1]⟩, ⟨initialMaxData, [7]⟩]⟩) := by
    decide
  have hreceived := received_parameters sampleUnmarshal (newTLSTransportParameterHandler 0 0) sampleData
    hunmarshal
  have hnone := hreceived.1.mpr ⟨rfl, by decide⟩
  rcases hreceived.2.2 hnone with ⟨r, hr, hfields, hadditional⟩
  refine ⟨hnone, r, hr, ?_, ?_⟩
  . rw [hfields initialMaxData (by decide)]
    decide
  . rw [hadditional]
    decide

theorem receiveParameters_unknown (r : QuicTransportParameters) {parameters : TransportParameterList}
    (h : ∀ p ∈ parameters, ¬ Known p)
    : receiveParameters r parameters =
        some { r with additionalParameters := r.additionalParameters ++ parameters } := by
  induction parameters generalizing r with
  | nil => simp [receiveParameters]
  | cons p parameters ih =>
    rw [List.forall_mem_cons] at h
    unfold receiveParameters
    rw [receiveParameter_unknown r h.1]
    dsimp only
    rw [ih _ h.2, List.append_assoc]
    rfl

theorem parameterType_addParameter {parameterType i : Nat} {p : TransportParameter}
    (h : addParameter parameterType i = some p)
    : p.parameterType = parameterType := by
  rcases Option.bind_eq_some_iff.mp h with ⟨bytes, _, h⟩
  injection h with h
  rw [← h]

theorem receiveVarInt_addParameter {parameterType i : Nat} {p : TransportParameter}
    (h : addParameter parameterType i = some p) (set : Nat → QuicTransportParameters)
    : receiveVarInt set p.value = (set i, true) := by
  rcases Option.bind_eq_some_iff.mp h with ⟨bytes, hbytes, h⟩
  injection h with h
  rw [← h]
  have hread := readVarIntValue_append hbytes []
  rw [List.append_nil] at hread
  simp [receiveVarInt, hread]

/-- The parameters of a client that its peer gets to know. -/
def announced (q : QuicTransportParameters) : QuicTransportParameters where
  maxStreamDataBidiLocal := q.maxStreamDataBidiLocal
  maxData := q.maxData
  maxBidiStreams := q.maxBidiStreams
  maxUniStreams := q.maxUniStreams
  idleTimeout := q.idleTimeout
  additionalParameters := q.additionalParameters

theorem receiveParameters_extensionParameters {h : TLSTransportParameterHandler}
    {parameters : TransportParameterList} (hannounced : h.extensionParameters = some parameters)
    (hadditional : ∀ p ∈ h.quicTransportParameters.additionalParameters, ¬ Known p)
    : receiveParameters {} parameters = some (announced h.quicTransportParameters) := by
  rcases Option.bind_eq_some_iff.mp hannounced with ⟨bidiLocal, hbidiLocal, hannounced⟩
  rcases Option.bind_eq_some_iff.mp hannounced with ⟨maxData, hmaxData, hannounced⟩
  rcases Option.bind_eq_some_iff.mp hannounced with ⟨bidi, hbidi, hannounced⟩
  rcases Option.bind_eq_some_iff.mp hannounced with ⟨uni, huni, hannounced⟩
  rcases Option.bind_eq_some_iff.mp hannounced with ⟨idle, hidle, hannounced⟩
  injection hannounced with hannounced
  rw [← hannounced]
  simp [receiveParameters, receiveParameter, parameterType_addParameter hbidiLocal,
    parameterType_addParameter hmaxData, parameterType_addParameter hbidi, parameterType_addParameter huni,
    parameterType_addParameter hidle, receiveVarInt_addParameter hbidiLocal,
    receiveVarInt_addParameter hmaxData, receiveVarInt_addParameter hbidi, receiveVarInt_addParameter huni,
    receiveVarInt_addParameter hidle, originalConnectionId, idleTimeout, statelessResetToken, maxPacketSize,
    initialMaxData, initialMaxStreamDataBidiLocal, initialMaxStreamsBidi, initialMaxStreamsUni,
    initialMaxStreamDataBidiRemote, initialMaxStreamDataUni, receiveParameters_unknown _ hadditional,
    announced]

theorem exists_addParameter (parametersType : Nat) {value : Nat} (h : value < 2 ^ 62)
    : ∃ p, addParameter parametersType value = some p := by
  unfold addParameter
  rw [encodeVarInt_of_lt h]
  exact ⟨_, rfl⟩

def Encodable (q : QuicTransportParameters) : Prop :=
  q.maxStreamDataBidiLocal < 2 ^ 62 ∧ q.maxData < 2 ^ 62 ∧ q.maxBidiStreams < 2 ^ 62 ∧
    q.maxUniStreams < 2 ^ 62 ∧ q.idleTimeout < 2 ^ 62

instance (q : QuicTransportParameters) : Decidable (Encodable q) := inferInstanceAs (Decidable (_ ∧ _))

theorem exists_extensionParameters {h : TLSTransportParameterHandler}
    (hencodable : Encodable h.quicTransportParameters)
    : ∃ parameters, h.extensionParameters = some parameters := by
  rcases hencodable with ⟨hbidiLocal, hmaxData, hbidi, huni, hidle⟩
  rcases exists_addParameter initialMaxStreamDataBidiLocal hbidiLocal with ⟨_, hbidiLocal⟩
  rcases exists_addParameter initialMaxData hmaxData with ⟨_, hmaxData⟩
  rcases exists_addParameter initialMaxStreamsBidi hbidi with ⟨_, hbidi⟩
  rcases exists_addParameter initialMaxStreamsUni huni with ⟨_, huni⟩
  rcases exists_addParameter idleTimeout hidle with ⟨_, hidle⟩
  simp [extensionParameters, hbidiLocal, hmaxData, hbidi, huni, hidle]

/--
The list that `GetExtensionData` hands to `Marshal` is read back, when it is the list that `Unmarshal` finds in
what a peer sends.
-/
theorem announced_parameters_read_back (h : TLSTransportParameterHandler)
    (hencodable : Encodable h.quicTransportParameters)
    (hadditional : ∀ p ∈ h.quicTransportParameters.additionalParameters, ¬ Known p)
    : ∃ parameters,
        (∀ marshal, getExtensionData marshal h = some (marshal ⟨h.initialVersion, parameters⟩)) ∧
        ∀ unmarshal h' data extensions,
          unmarshal data (h'.encryptedExtensionsTransportParameters.getD {}) = (none, extensions) →
          extensions.parameters = parameters →
          (receiveExtensionData unmarshal h' data).1 = none ∧
            (receiveExtensionData unmarshal h' data).2.receivedParameters =
              some (announced h.quicTransportParameters) := by
  rcases exists_extensionParameters hencodable with ⟨parameters, hparameters⟩
  have hreceive := receiveParameters_extensionParameters hparameters hadditional
  refine ⟨parameters, ?_, ?_⟩
  . intro marshal
    simp [getExtensionData, hparameters]
  . intro unmarshal h' data extensions hunmarshal hsame
    rw [← hsame] at hreceive
    simp [receiveExtensionData, hunmarshal, hreceive]

/-- The default parameters of a client, in the extension of a server. -/
def sampleEcho : List UInt8 :=
  [0xff, 0, 0, 0x11, 0, 0, 31, 0, 5, 0, 4, 0x80, 0, 0x40, 0, 0, 4, 0, 4, 0x80, 0, 0x80, 0, 0, 8, 0, 1, 1,
    0, 9, 0, 1, 1, 0, 1, 0, 1, 10]

theorem announced_parameters_read_back_default
    : (receiveExtensionData sampleUnmarshal (newTLSTransportParameterHandler 0 0) sampleEcho).1 = none ∧
      (receiveExtensionData sampleUnmarshal
        (newTLSTransportParameterHandler 0 0) sampleEcho).2.receivedParameters =
          some (announced (newTLSTransportParameterHandler 0 0).quicTransportParameters) := by
  rcases announced_parameters_read_back (newTLSTransportParameterHandler 0 0) (by decide) (by decide) with
    ⟨parameters, hmarshal, hread⟩
  have hunmarshal : sampleUnmarshal sampleEcho {} = (none, ⟨0xff000011, [], [⟨5, [0x80, 0, 0x40, 0]⟩,
      ⟨4, [0x80, 0, 0x80, 0]⟩, ⟨8, [1]⟩, ⟨9, [1]⟩, ⟨1, [10]⟩]⟩) := by
    decide
  refine hread sampleUnmarshal _ _ _ hunmarshal ?_
  -- A `marshal` that accepts this list only.
  have hlist := hmarshal fun extensions => if extensions.parameters = [⟨5, [0x80, 0, 0x40, 0]⟩,
    ⟨4, [0x80, 0, 0x80, 0]⟩, ⟨8, [1]⟩, ⟨9, [1]⟩, ⟨1, [10]⟩] then some [] else none
  by_contra hne
  rw [if_neg (Ne.symm hne)] at hlist
  exact absurd hlist (by decide)

end TLSTransportParameterHandler

end QuicTracker
