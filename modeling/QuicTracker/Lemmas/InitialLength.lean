import QuicTracker.Lemmas.Client
import QuicTracker.Lemmas.Frames.Length
import QuicTracker.Lemmas.Protection

/-!
This module contains the length of the first datagram. The padding is computed with a byte for the
length of the packet that the header already counts.
-/

namespace QuicTracker

open ByteReader

structure LongHeader.IsInitial (h : LongHeader) : Prop where
  packetType : h.packetType = PacketType.initial
  tokenLength : newVarInt h.token.length = some h.tokenLength
  length : h.length.value < 2 ^ 62
  truncatedPN : 1 ≤ h.truncatedPN.length ∧ h.truncatedPN.length ≤ 4

theorem LongHeader.IsInitial.length_encode {h : LongHeader} (hh : h.IsInitial) {bytes : List UInt8}
    (hbytes : h.encode = some bytes)
    : bytes.length = 6 + h.destinationCID.length + h.sourceCID.length +
        (varIntBytes h.token.length).length + h.token.length + (varIntBytes h.length.value).length +
        h.truncatedPN.length := by
  have hinitial : ¬ PacketType.initial = PacketType.retry := by decide
  have hpn := TruncatedPN.length_encode_of_le hh.truncatedPN.1 hh.truncatedPN.2
  unfold encode VarInt.encode at hbytes
  rw [hh.packetType, eq_of_newVarInt hh.tokenLength] at hbytes
  rw [encodeVarInt_of_lt (lt_of_newVarInt hh.tokenLength), encodeVarInt_of_lt hh.length] at hbytes
  injection hbytes with hbytes
  rw [← hbytes]
  simp only [uint32ToBEBytes, List.length_append, List.length_cons, length_beBytes, hpn]
  omega

theorem foldlM_padding (n : Nat) (buffer : List UInt8)
    : (List.replicate n Frame.padding).foldlM (fun buffer frame => frame.writeTo buffer) buffer
        = some (buffer ++ List.replicate n 0) := by
  induction n generalizing buffer with
  | zero => simp
  | succ n ih =>
    have hpadding : Frame.padding.writeTo buffer = some (buffer ++ [0]) := rfl
    rw [List.replicate_succ, List.foldlM_cons, hpadding]
    rw [Option.bind_eq_bind, Option.bind_some]
    rw [ih]
    simp [List.replicate_succ]

theorem encodePayload_append_padding {frames : List Frame} {payload : List UInt8}
    (h : encodePayload frames = some payload) (n : Nat)
    : encodePayload (frames ++ List.replicate n .padding) = some (payload ++ List.replicate n 0) := by
  unfold encodePayload at h ⊢
  rw [List.foldlM_append, h]
  exact foldlM_padding n payload

theorem length_writeVarInt {buffer buffer' : List UInt8} {i : Nat}
    (h : writeVarInt buffer i = some buffer')
    : buffer'.length = buffer.length + (varIntBytes i).length := by
  rcases Option.bind_eq_some_iff.mp h with ⟨bytes, hbytes, h⟩
  injection h with h
  unfold varIntBytes
  rw [← h, hbytes, List.length_append]
  rfl

def cryptoFrameLength (offset length : Nat) : Nat :=
  1 + (varIntBytes offset).length + (varIntBytes length).length + length

theorem length_encodePayload_crypto {offset : Nat} {data payload : List UInt8}
    (h : encodePayload [.crypto ⟨offset, data.length, data⟩] = some payload)
    : payload.length = cryptoFrameLength offset data.length := by
  have hwrite : CryptoFrame.writeTo ⟨offset, data.length, data⟩ [] = some payload := by
    unfold encodePayload at h
    rw [List.foldlM_cons] at h
    rcases Option.bind_eq_some_iff.mp h with ⟨buffer, hwrite, h⟩
    injection h with h
    rw [← h]
    exact hwrite
  unfold CryptoFrame.writeTo at hwrite
  rw [writeVarInt_frameType (by exact (by decide : FrameType.crypto < 64))] at hwrite
  rw [Option.bind_eq_bind, Option.bind_some] at hwrite
  rcases Option.bind_eq_some_iff.mp hwrite with ⟨_, hoffset, h₁⟩
  rcases Option.bind_eq_some_iff.mp h₁ with ⟨_, hlength, h₂⟩
  injection h₂ with h₂
  rw [← h₂, List.length_append]
  rw [length_writeVarInt hlength, length_writeVarInt hoffset]
  unfold cryptoFrameLength
  rw [List.nil_append, List.length_singleton]

/-- The header with a length of one byte, without the packet number. -/
def Client.initialHeaderLength {τ : Type} (c : Client τ) : Nat :=
  7 + c.destinationCID.length + c.sourceCID.length + (varIntBytes c.token.length).length +
    c.token.length

def Client.initialLength {τ : Type} (c : Client τ) : Nat :=
  if c.useIPv6 then minimumInitialLengthv6 else minimumInitialLength

namespace Client

variable {τ : Type} {lib : Libraries τ}

theorem newInitialPacket_header {c c' : Client τ} {p : FramePacket}
    (hnew : newInitialPacket lib c = some (p, c'))
    : ∃ h t, p = ⟨.long h, .initial, .initial, []⟩ ∧ h.IsInitial ∧
        PacketNumber.truncate lib.log2 (c.packetNumber .initial) (c.largestPNsAcknowledged .initial)
          = some t ∧
        h.destinationCID = c.destinationCID ∧ h.sourceCID = c.sourceCID ∧ h.token = c.token ∧
        h.length = ⟨0, 0⟩ ∧ h.truncatedPN = t := by
  unfold newInitialPacket newLongHeader at hnew
  rcases Option.bind_eq_some_iff.mp hnew with ⟨⟨h, c₁⟩, hheader, hnew⟩
  rcases Option.bind_eq_some_iff.mp hheader with ⟨zero, hzero, hheader⟩
  rcases Option.bind_eq_some_iff.mp hheader with ⟨t, ht, hheader⟩
  injection hheader with hheader
  injection hheader with hh hc
  have ht4 := PacketNumber.truncate_length ht
  have htoken : c₁.token = c.token := by
    rw [← hc]
  dsimp only at hnew
  rw [htoken] at hnew
  split at hnew
  . rcases Option.bind_eq_some_iff.mp hnew with ⟨tokenLength, htokenLength, hnew⟩
    injection hnew with hnew
    injection hnew with hp _
    subst hh
    exact ⟨_, t, hp.symm, ⟨rfl, htokenLength, (by decide : 0 < 2 ^ 62), ht4⟩, ht, rfl, rfl, rfl, rfl, rfl⟩
  . next hempty =>
    have hnil : c.token = [] := List.length_eq_zero_iff.mp (by omega)
    injection hnew with hnew
    injection hnew with hp _
    subst hh
    exact ⟨_, t, hp.symm, ⟨rfl, hzero, (by decide : 0 < 2 ^ 62), ht4⟩, ht, rfl, rfl, hnil.symm, rfl, rfl⟩

theorem padInitialPacket_eq_some {c : Client τ} {frame : CryptoFrame} {p₀ p : FramePacket}
    (h : c.padInitialPacket frame p₀ = some p)
    : ∃ payload header write, encodePayload (p₀.frames ++ [.crypto frame]) = some payload ∧
        p₀.header.encode = some header ∧ payload.length < 2 ^ 62 ∧
        (c.cryptoStates .initial).bind CryptoState.write = some write ∧
        p = { p₀ with frames := p₀.frames ++ [.crypto frame] ++
          List.replicate (c.initialLength - (header.length + (varIntBytes payload.length).length +
            payload.length + write.overhead)) Frame.padding } := by
  unfold padInitialPacket at h
  rcases Option.bind_eq_some_iff.mp h with ⟨payload, hpayload, h⟩
  rcases Option.bind_eq_some_iff.mp h with ⟨header, hheader, h⟩
  rcases Option.bind_eq_some_iff.mp h with ⟨lengthLen, hlengthLen, h⟩
  rcases Option.bind_eq_some_iff.mp h with ⟨state, hstate, h⟩
  rcases Option.bind_eq_some_iff.mp h with ⟨write, hwrite, h⟩
  injection h with h
  have hlt := lt_of_varIntLen hlengthLen
  rw [varIntLen_of_lt hlt] at hlengthLen
  injection hlengthLen with hlengthLen
  rw [← hlengthLen] at h
  refine ⟨payload, header, write, hpayload, hheader, hlt, ?_, h.symm⟩
  rw [hstate]
  exact hwrite

variable (lib) in
theorem withHello_initial (c : Client τ) (tls : τ) (stream : Stream)
    : (withHello lib c tls stream).cryptoStates .initial = c.cryptoStates .initial ∧
      (withHello lib c tls stream).useIPv6 = c.useIPv6 ∧
      (withHello lib c tls stream).destinationCID = c.destinationCID ∧
      (withHello lib c tls stream).sourceCID = c.sourceCID ∧
      (withHello lib c tls stream).token = c.token ∧
      (withHello lib c tls stream).packetNumber = c.packetNumber ∧
      (withHello lib c tls stream).largestPNsAcknowledged = c.largestPNsAcknowledged ∧
      (withHello lib c tls stream).udpConnection = c.udpConnection := by
  unfold withHello installZeroRTT
  dsimp only
  split
  . refine ⟨?_, rfl, rfl, rfl, rfl, rfl, rfl, rfl⟩
    dsimp only
    apply Function.update_of_ne
    decide
  . exact ⟨rfl, rfl, rfl, rfl, rfl, rfl, rfl, rfl⟩

end Client

theorem length_sendPacket {cryptoStates : EncryptionLevel → Option CryptoState} {packet : FramePacket}
    {level : EncryptionLevel} {write : AEAD} {bytes : List UInt8}
    (h : sendPacket cryptoStates packet level = some bytes)
    (hwrite : (cryptoStates level).bind CryptoState.write = some write)
    (hencrypt : ∀ cleartext pn aad,
      (write.encrypt cleartext pn aad).length = cleartext.length + write.overhead)
    : ∃ payload header headerBytes, encodePayload packet.frames = some payload ∧
        packet.header.withLength payload.length write.overhead = some header ∧
        header.encode = some headerBytes ∧
        bytes.length = headerBytes.length + payload.length + write.overhead := by
  rcases Option.bind_eq_some_iff.mp h with ⟨state, hstate, h₁⟩
  rcases Option.bind_eq_some_iff.mp h₁ with ⟨payload, hpayload, h₂⟩
  rcases Option.bind_eq_some_iff.mp h₂ with ⟨write', hwrite', h₃⟩
  rcases Option.bind_eq_some_iff.mp h₃ with ⟨header, hheader, h₄⟩
  rcases Option.bind_eq_some_iff.mp h₄ with ⟨headerBytes, hbytes, h₅⟩
  rcases Option.bind_eq_some_iff.mp h₅ with ⟨_, _, h₆⟩
  rw [hstate, Option.bind_some, hwrite'] at hwrite
  injection hwrite with hwrite
  subst hwrite
  refine ⟨payload, header, headerBytes, hpayload, hheader, hbytes, ?_⟩
  rw [length_protectHeader h₆]
  rw [List.length_append, hencrypt]
  omega

/--
The minimum is `i`, `h` is the header without the packet number, `p` the payload before it is padded and `o`
what encryption adds. The placeholder for the length is counted in `h`, and once more in front of the
payload. Only a length that takes more bytes than that of the payload makes up for it.
-/
theorem padded_length_iff {i h pn p o : Nat} (hi : i < 2 ^ 14) (hh : 1 ≤ h) (hp : p < 2 ^ 62)
    {padded : Nat} (hpadded : padded = p + (i - (h + pn + (varIntBytes p).length + p + o)))
    (hsum : pn + padded + o < 2 ^ 62)
    : i ≤ h + pn - 1 + (varIntBytes (pn + padded + o)).length + padded + o ↔
        i < h + pn + (varIntBytes p).length + p + o ∨ (p < 2 ^ 6 ∧ h + 65 ≤ i) := by
  rw [length_varIntBytes hsum]
  rw [length_varIntBytes hp] at hpadded ⊢
  split_ifs at hpadded ⊢
  all_goals omega

namespace Client

variable {τ : Type} (lib : Libraries τ)

/--
Either no padding is needed, or the payload with the client hello is below 64 bytes and the padding takes
its length over them.
-/
def ReachesMinimum (c : Client τ) (hello : List UInt8) (pnLength overhead : Nat) : Prop :=
  let payload := cryptoFrameLength (c.cryptoStreams.get .initial).writeOffset hello.length
  c.initialLength < c.initialHeaderLength + pnLength + (varIntBytes payload).length + payload + overhead ∨
    (payload < 2 ^ 6 ∧ c.initialHeaderLength + 65 ≤ c.initialLength)

theorem withLength_eq_some {h : LongHeader} (hh : h.IsInitial) {n overhead : Nat} {header : Header}
    (hheader : (Header.long h).withLength n overhead = some header)
    : ∃ length : VarInt, header = .long { h with length := length } ∧
        length.value = h.truncatedPN.length + n + overhead ∧
        LongHeader.IsInitial { h with length := length } := by
  rcases Option.bind_eq_some_iff.mp hheader with ⟨length, hlength, hheader⟩
  injection hheader with hheader
  have hlt := lt_of_newVarInt hlength
  have hvalue := congrArg VarInt.value (eq_of_newVarInt hlength)
  dsimp only at hvalue
  rw [← hvalue] at hlt
  exact ⟨length, hheader.symm, hvalue, ⟨hh.packetType, hh.tokenLength, hlt, hh.truncatedPN⟩⟩

theorem length_padded {c : Client τ} {h : LongHeader} (hh : h.IsInitial) (hzero : h.length = ⟨0, 0⟩)
    {offset : Nat} {hello : List UInt8} {p : FramePacket}
    (hpad : c.padInitialPacket ⟨offset, hello.length, hello⟩ ⟨.long h, .initial, .initial, []⟩ = some p)
    {write : AEAD} (hwrite : (c.cryptoStates .initial).bind CryptoState.write = some write)
    (hencrypt : ∀ cleartext pn aad,
      (write.encrypt cleartext pn aad).length = cleartext.length + write.overhead)
    {bytes : List UInt8} (hsend : QuicTracker.sendPacket c.cryptoStates p .initial = some bytes)
    : let payload := cryptoFrameLength offset hello.length
      let header := 7 + h.destinationCID.length + h.sourceCID.length +
        (varIntBytes h.token.length).length + h.token.length
      c.initialLength ≤ bytes.length ↔
        c.initialLength < header + h.truncatedPN.length + (varIntBytes payload).length + payload +
          write.overhead ∨ (payload < 2 ^ 6 ∧ header + 65 ≤ c.initialLength) := by
  intro size front
  rcases padInitialPacket_eq_some hpad with
    ⟨payload, headerBytes, write', hpayload, hencode, hlt, hwrite', rfl⟩
  rw [hwrite] at hwrite'
  injection hwrite' with hwrite'
  subst hwrite'
  have hsize : payload.length = size := length_encodePayload_crypto hpayload
  have hfront : headerBytes.length = front + h.truncatedPN.length := by
    have hzero : (varIntBytes h.length.value).length = 1 := by
      rw [hzero]
      rfl
    rw [hh.length_encode hencode, hzero]
    omega
  rcases length_sendPacket hsend hwrite hencrypt with
    ⟨payload', header', headerBytes', hpayload', hheader', hencode', hlength⟩
  rw [encodePayload_append_padding hpayload] at hpayload'
  injection hpayload' with hpayload'
  have hsize' := congrArg List.length hpayload'
  rw [List.length_append, List.length_replicate, hfront, hsize] at hsize'
  rcases withLength_eq_some hh hheader' with ⟨length, rfl, hvalue, hh'⟩
  have hfront' := hh'.length_encode hencode'
  dsimp only at hfront'
  have hminimum : c.initialLength < 2 ^ 14 := by
    unfold initialLength minimumInitialLengthv6 minimumInitialLength
    split
    . omega
    . omega
  have hsum : h.truncatedPN.length + payload'.length + write.overhead < 2 ^ 62 := by
    rw [← hvalue]
    exact hh'.length
  rw [← padded_length_iff hminimum (by omega) (hsize ▸ hlt) hsize'.symm hsum]
  rw [hvalue] at hfront'
  rw [hlength, hfront']
  have heq : 6 + h.destinationCID.length + h.sourceCID.length + (varIntBytes h.token.length).length +
      h.token.length = front - 1 := by
    omega
  rw [heq]
  have : 1 ≤ front := by omega
  constructor
  . omega
  . omega

theorem sendInitialPacket_reaches_iff {c c' : Client τ} (h : sendInitialPacket lib c = some c')
    {hello : List UInt8} (hhello : clientHello lib c = some hello) {t : TruncatedPN}
    (ht : PacketNumber.truncate lib.log2 (c.packetNumber .initial) (c.largestPNsAcknowledged .initial)
      = some t)
    {write : AEAD} (hwrite : (c.cryptoStates .initial).bind CryptoState.write = some write)
    (hencrypt : ∀ cleartext pn aad,
      (write.encrypt cleartext pn aad).length = cleartext.length + write.overhead)
    : ∃ bytes, c'.udpConnection = c.udpConnection ++ [bytes] ∧
        (c.initialLength ≤ bytes.length ↔ c.ReachesMinimum hello t.length write.overhead) := by
  rcases Option.bind_eq_some_iff.mp h with ⟨⟨p, c₁⟩, hget, h⟩
  rcases Option.bind_eq_some_iff.mp h with ⟨p, hp, hsend⟩
  rw [hp] at hget
  rcases getInitialPacket_eq_some lib hget with ⟨hello', tls, stream, p₀, hhello', hpacket, hpad⟩
  rw [hhello] at hhello'
  injection hhello' with hhello'
  subst hhello'
  rcases withHello_initial lib c tls stream with ⟨hstates, hip, hdcid, hscid, htoken, hpn, hla, hudp⟩
  rcases newInitialPacket_header hpacket with
    ⟨header, t', rfl, hinitial, ht', hdcid', hscid', htoken', hzero, hpn'⟩
  rw [hpn, hla, ht] at ht'
  injection ht' with ht'
  have hc₁ := newInitialPacket_cases lib hpacket
  have hwrite₁ : (c₁.cryptoStates .initial).bind CryptoState.write = some write := by
    rw [hc₁, ← hwrite, ← hstates]
    rfl
  have hlength₁ : c₁.initialLength = c.initialLength := by
    unfold initialLength
    rw [hc₁, ← hip]
    rfl
  have hudp₁ : c₁.udpConnection = c.udpConnection := by
    rw [hc₁, ← hudp]
    rfl
  rcases sendPacket_sent hsend with ⟨hnone, _⟩ | ⟨bytes, _, hbytes, rfl⟩
  . rcases padInitialPacket_eq_some hpad with ⟨_, _, _, _, _, _, _, rfl⟩
    contradiction
  . refine ⟨bytes, ?_, ?_⟩
    . dsimp only
      rw [hudp₁]
    . have hiff := length_padded hinitial hzero hpad hwrite₁ hencrypt hbytes
      rw [hlength₁, hdcid', hdcid, hscid', hscid, htoken', htoken, hpn', ← ht'] at hiff
      exact hiff

end Client

def sampleTokenClient : Client Bool := { sampleClient with token := List.replicate 30 7 }

theorem sendInitialPacket_reaches_iff_token
    : ∃ c' bytes, Client.sendInitialPacket sampleLibraries sampleTokenClient = some c' ∧
        c'.udpConnection = [bytes] ∧ minimumInitialLength ≤ bytes.length := by
  have hsome : (Client.sendInitialPacket sampleLibraries sampleTokenClient).isSome := by
    decide +kernel
  have hencrypt (cleartext : List UInt8) (_ : Nat) (_ : List UInt8)
      : (cleartext ++ List.replicate 16 0).length = cleartext.length + 16 := by
    rw [List.length_append, List.length_replicate]
  rcases Option.isSome_iff_exists.mp hsome with ⟨c', hc'⟩
  rcases Client.sendInitialPacket_reaches_iff sampleLibraries hc' rfl
    (rfl : PacketNumber.truncate Nat.log2 0 0 = some ⟨0, 1⟩) rfl hencrypt with ⟨bytes, hudp, hiff⟩
  exact ⟨c', bytes, hc', hudp, hiff.mpr (Or.inl (by decide +kernel))⟩

/-- Without the token it is one byte short. -/
theorem sendInitialPacket_short
    : ∃ c', Client.sendInitialPacket sampleLibraries sampleClient = some c' ∧
        c'.udpConnection.map List.length = [minimumInitialLength - 1] := by
  have hrun : (Client.sendInitialPacket sampleLibraries sampleClient).map
      (fun c => c.udpConnection.map List.length) = some [minimumInitialLength - 1] := by
    decide +kernel
  exact Option.map_eq_some_iff.mp hrun

end QuicTracker
