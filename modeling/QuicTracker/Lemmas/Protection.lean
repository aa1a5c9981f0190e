import QuicTracker.Impl.SendPacket
import QuicTracker.Lemmas.Agents.Parse
import QuicTracker.Lemmas.HeaderCodec

/-!
This module contains that a pass of the parsing agent over a packet that `SendPacket` has protected
takes off the header mask again, and then decrypts exactly the payload that was encrypted. What follows
the packet in the datagram does not matter.
-/

namespace QuicTracker

open ByteReader ParsingAgent

theorem xorByte_append (front : List UInt8) (b : UInt8) (rest : List UInt8) (mask : UInt8)
    : xorByte (front ++ b :: rest) front.length mask = some (front ++ (b ^^^ mask) :: rest) := by
  simp [xorByte]

theorem length_xorByte {bytes bytes' : List UInt8} {index : Nat} {mask : UInt8}
    (h : xorByte bytes index mask = some bytes')
    : bytes'.length = bytes.length := by
  rcases Option.bind_eq_some_iff.mp h with ⟨b, _, hset⟩
  injection hset with hset
  rw [← hset]
  apply List.length_set

theorem length_foldlM_xorByte {index : Fin 4 → Nat} {mask : Fin 4 → UInt8} (l : List (Fin 4))
    {bytes bytes' : List UInt8}
    (h : l.foldlM (fun bytes i => xorByte bytes (index i) (mask i)) bytes = some bytes')
    : bytes'.length = bytes.length := by
  induction l generalizing bytes with
  | nil =>
    injection h with h
    rw [h]
  | cons i l ih =>
    rw [List.foldlM_cons] at h
    rcases Option.bind_eq_some_iff.mp h with ⟨bytes1, hxor, hfold⟩
    rw [ih hfold]
    exact length_xorByte hxor

theorem length_protectHeader {encrypt : List UInt8 → Fin 5 → UInt8} {header : Header}
    {packetBytes bytes : List UInt8} (h : protectHeader encrypt header packetBytes = some bytes)
    : bytes.length = packetBytes.length := by
  rcases Option.bind_eq_some_iff.mp h with ⟨⟨sample, pnOffset⟩, _, h⟩
  rcases Option.bind_eq_some_iff.mp h with ⟨bytes1, hfirst, h⟩
  dsimp only at h
  split at h
  . contradiction
  . rw [length_foldlM_xorByte _ h]
    exact length_xorByte hfirst

def maskPN (mask : Fin 5 → UInt8) (pn : List UInt8) : List UInt8 :=
  List.zipWith (· ^^^ ·) pn ((List.finRange 4).map fun i => mask i.succ)

theorem length_maskPN (mask : Fin 5 → UInt8) {pn : List UInt8} (h : pn.length ≤ 4)
    : (maskPN mask pn).length = pn.length := by
  unfold maskPN
  rw [List.length_zipWith]
  apply Nat.min_eq_left
  exact h

theorem zipWith_xor_cancel (pn masks : List UInt8) (h : pn.length ≤ masks.length)
    : List.zipWith (· ^^^ ·) (List.zipWith (· ^^^ ·) pn masks) masks = pn := by
  induction pn generalizing masks with
  | nil => simp
  | cons b pn ih =>
    cases masks with
    | nil => simp at h
    | cons m masks =>
      simp only [List.zipWith_cons_cons, UInt8.xor_assoc, UInt8.xor_self, UInt8.xor_zero]
      rw [ih masks (by simpa using h)]

theorem zipWith_take_length (f : α → β → γ) (l : List α) (l' : List β)
    : List.zipWith f l (l'.take l.length) = List.zipWith f l l' := by
  induction l generalizing l' with
  | nil => simp
  | cons a l ih =>
    cases l' with
    | nil => simp
    | cons b l' => simp [ih]

theorem maskPN_maskPN (mask : Fin 5 → UInt8) {pn : List UInt8} (h : pn.length ≤ 4)
    : maskPN mask (maskPN mask pn) = pn := by
  apply zipWith_xor_cancel
  exact h

-- The induction is on the bytes that are left, `done` are those before them.
theorem foldlM_xorByte_zip (mask : Fin 5 → UInt8) (front rest : List UInt8) (l : List (Fin 4))
    (done pn : List UInt8) (hlen : l.length = pn.length)
    (hindex : ∀ k (hk : k < l.length), (l[k] : Nat) = done.length + k)
    : l.foldlM (fun bytes (i : Fin 4) => xorByte bytes (front.length + i) (mask i.succ))
        (front ++ (done ++ (pn ++ rest)))
      = some (front ++ (done ++
          (List.zipWith (· ^^^ ·) pn (l.map fun i => mask i.succ) ++ rest))) := by
  induction l generalizing done pn with
  | nil =>
    rw [List.length_nil] at hlen
    rw [List.eq_nil_of_length_eq_zero hlen.symm]
    rfl
  | cons i l ih =>
    cases pn with
    | nil => simp at hlen
    | cons b pn =>
      have hi : (i : Nat) = done.length := hindex 0 (by simp)
      have hxor := xorByte_append (front ++ done) b (pn ++ rest) (mask i.succ)
      rw [List.length_append] at hxor
      rw [← hi] at hxor
      have hrest := ih (done ++ [b ^^^ mask i.succ]) pn (by simpa using hlen) (by
        intro k hk
        have := hindex (k + 1) (by simpa using hk)
        simp only [List.getElem_cons_succ] at this
        rw [this]
        simp only [List.length_append, List.length_singleton]
        omega)
      simp only [List.append_assoc] at hxor hrest
      rw [List.foldlM_cons]
      rw [List.cons_append]
      rw [hxor]
      simpa using hrest

theorem foldlM_xorByte_eq (mask : Fin 5 → UInt8) (front rest : List UInt8) {pn : List UInt8}
    (h : pn.length ≤ 4)
    : ((List.finRange 4).take pn.length).foldlM
        (fun bytes (i : Fin 4) => xorByte bytes (front.length + i) (mask i.succ))
        (front ++ (pn ++ rest))
      = some (front ++ (maskPN mask pn ++ rest)) := by
  have hfold := foldlM_xorByte_zip mask front rest ((List.finRange 4).take pn.length) [] pn
    (by simpa using h) (by simp)
  have hzip : List.zipWith (· ^^^ ·) pn
      (((List.finRange 4).take pn.length).map fun i => mask i.succ) = maskPN mask pn := by
    rw [List.map_take]
    apply zipWith_take_length
  rw [hzip] at hfold
  simpa using hfold

/-- The sample starts four bytes after the packet number does, whatever the length of the packet number. -/
def sampleAfter (pnLength : Nat) (encrypted : List UInt8) : List UInt8 :=
  (encrypted.drop (4 - pnLength)).take 16

theorem getPacketSample_append {header : Header} {front : List UInt8}
    (hoff : header.pnOffset = front.length) {pn : List UInt8} (hpn : pn.length ≤ 4)
    {encrypted : List UInt8} (hlen : 20 ≤ pn.length + encrypted.length) (later : List UInt8)
    : getPacketSample header (front ++ (pn ++ (encrypted ++ later)))
        = some (sampleAfter pn.length encrypted, front.length) := by
  have hdrop : (front ++ (pn ++ (encrypted ++ later))).drop (front.length + 4)
      = encrypted.drop (4 - pn.length) ++ later := by
    rw [List.drop_length_add_append]
    rw [List.drop_append]
    rw [List.drop_eq_nil_of_le hpn]
    rw [List.nil_append]
    apply List.drop_append_of_le_length
    omega
  have htake : (encrypted.drop (4 - pn.length) ++ later).take 16 = sampleAfter pn.length encrypted := by
    apply List.take_append_of_le_length
    rw [List.length_drop]
    omega
  have hle : front.length + 4 + 16 ≤ (front ++ (pn ++ (encrypted ++ later))).length := by
    simp only [List.length_append]
    omega
  unfold getPacketSample
  dsimp only
  rw [hoff]
  rw [if_neg (Nat.not_lt.mpr hle)]
  rw [if_pos hle]
  rw [hdrop]
  rw [htake]

namespace Header

structure Written (header : Header) (first : UInt8) (fields pn : List UInt8) : Prop where
  encode : header.encode = some (first :: (fields ++ pn))
  pnOffset : header.pnOffset = 1 + fields.length
  length_pn : header.truncatedPN.length = pn.length
  pn_le : pn.length ≤ 4
  pnBits : (first &&& 0x3).toNat + 1 = pn.length
  mask : (if header.packetType ≠ PacketType.shortHeaderPacket then (0x0F : UInt8) else 0x1F)
    = firstByteMask first

end Header

def maskFirst (mask : Fin 5 → UInt8) (first : UInt8) : UInt8 :=
  first ^^^ (ParsingAgent.firstMask mask &&& firstByteMask first)

theorem firstByteMask_maskFirst (mask : Fin 5 → UInt8) (first : UInt8)
    : firstByteMask (maskFirst mask first) = firstByteMask first := by
  have hsmall : (firstByteMask first).toNat / 2 ^ 5 = 0 := by
    unfold firstByteMask
    split
    . decide
    . decide
  have hiff := isLong_xor_mask hsmall first (ParsingAgent.firstMask mask)
  unfold maskFirst
  unfold firstByteMask at hiff ⊢
  simp only [hiff]

theorem maskFirst_maskFirst (mask : Fin 5 → UInt8) (first : UInt8)
    : maskFirst mask (maskFirst mask first) = first := by
  have h := firstByteMask_maskFirst mask first
  unfold maskFirst at h ⊢
  rw [h]
  rw [UInt8.xor_assoc]
  simp

def maskBytes (mask : Fin 5 → UInt8) (first : UInt8) (fields pn rest : List UInt8) : List UInt8 :=
  maskFirst mask first :: (fields ++ (maskPN mask pn ++ rest))

theorem maskBytes_append (mask : Fin 5 → UInt8) (first : UInt8) (fields pn rest later : List UInt8)
    : maskBytes mask first fields pn rest ++ later = maskBytes mask first fields pn (rest ++ later) := by
  simp [maskBytes]

theorem length_maskBytes (mask : Fin 5 → UInt8) (first : UInt8) (fields rest : List UInt8)
    {pn : List UInt8} (h : pn.length ≤ 4)
    : (maskBytes mask first fields pn rest).length = (first :: (fields ++ pn) ++ rest).length := by
  simp [maskBytes, length_maskPN mask h]

theorem xorByte_zero (first : UInt8) (rest : List UInt8) (mask : UInt8)
    : xorByte (first :: rest) 0 mask = some ((first ^^^ mask) :: rest) := by
  apply xorByte_append []

namespace Header.Written

variable {header : Header} {first : UInt8} {fields pn : List UInt8}

theorem protectHeader (h : header.Written first fields pn)
    (encrypt : List UInt8 → Fin 5 → UInt8) {encrypted : List UInt8}
    (hlen : 20 ≤ pn.length + encrypted.length)
    : QuicTracker.protectHeader encrypt header (first :: (fields ++ pn) ++ encrypted)
        = some (maskBytes (encrypt (sampleAfter pn.length encrypted)) first fields pn encrypted) := by
  have hoff : header.pnOffset = (first :: fields).length := by
    rw [h.pnOffset]
    simp [Nat.add_comm]
  have hsample := getPacketSample_append hoff h.pn_le hlen []
  have hbytes : first :: (fields ++ pn) ++ encrypted = (first :: fields) ++ (pn ++ (encrypted ++ [])) := by
    simp
  rw [hbytes]
  generalize hmask : encrypt (sampleAfter pn.length encrypted) = mask
  have hfold := foldlM_xorByte_eq mask (maskFirst mask first :: fields) encrypted h.pn_le
  unfold QuicTracker.protectHeader
  simp only [hsample, h.mask, h.length_pn, Option.bind_eq_bind, Option.bind_some, hmask]
  rw [List.cons_append]
  rw [xorByte_zero]
  simp only [Option.bind_some, if_neg (Nat.not_lt.mpr h.pn_le), List.append_nil]
  exact hfold

theorem decryptPN (h : header.Written first fields pn)
    (encrypt : List UInt8 → Fin 5 → UInt8) {encrypted : List UInt8}
    (hlen : 20 ≤ pn.length + encrypted.length) {masked : Header}
    (hoff : masked.pnOffset = 1 + fields.length) (later : List UInt8)
    : ParsingAgent.decryptPN encrypt masked
        (maskBytes (encrypt (sampleAfter pn.length encrypted)) first fields pn (encrypted ++ later))
      = some (first :: (fields ++ pn) ++ encrypted ++ later) := by
  generalize hmask : encrypt (sampleAfter pn.length encrypted) = mask
  have hpn := length_maskPN mask h.pn_le
  have hoff : masked.pnOffset = (maskFirst mask first :: fields).length := by
    rw [hoff]
    simp [Nat.add_comm]
  have hle : (maskPN mask pn).length ≤ 4 := by
    rw [hpn]
    exact h.pn_le
  have hlen' : 20 ≤ (maskPN mask pn).length + encrypted.length := by
    rw [hpn]
    exact hlen
  have hsample := getPacketSample_append hoff hle hlen' later
  have hfold := foldlM_xorByte_eq mask (first :: fields) (encrypted ++ later) hle
  rw [hpn] at hsample hfold
  rw [maskPN_maskPN mask h.pn_le] at hfold
  unfold ParsingAgent.decryptPN maskBytes
  simp only [List.getElem?_cons_zero, Option.bind_eq_bind, Option.bind_some]
  rw [← List.cons_append]
  rw [hsample]
  simp only [Option.bind_some, hmask, List.cons_append, xorByte_zero]
  have hfirst := maskFirst_maskFirst mask first
  unfold maskFirst firstByteMask ParsingAgent.firstMask at hfirst ⊢
  simp only [hfirst, List.getElem?_cons_zero, Option.bind_some, h.pnBits]
  simpa using hfold

theorem unmasked (h : header.Written first fields pn) (encrypt : List UInt8 → Fin 5 → UInt8)
    {encrypted : List UInt8} (hlen : 20 ≤ pn.length + encrypted.length)
    : ∃ mask, QuicTracker.protectHeader encrypt header (first :: (fields ++ pn) ++ encrypted)
          = some (maskBytes mask first fields pn encrypted) ∧
        (maskBytes mask first fields pn encrypted).length
          = (first :: (fields ++ pn) ++ encrypted).length ∧
        ∀ masked : Header, masked.pnOffset = 1 + fields.length → ∀ later,
          ParsingAgent.decryptPN encrypt masked (maskBytes mask first fields pn (encrypted ++ later))
            = some (first :: (fields ++ pn) ++ encrypted ++ later) := by
  refine ⟨_, h.protectHeader encrypt hlen, ?_, ?_⟩
  . apply length_maskBytes
    exact h.pn_le
  . intro masked hoff later
    exact h.decryptPN encrypt hlen hoff later

end Header.Written

theorem TruncatedPN.length_encode {t : TruncatedPN} (h : t.WellFormed) : t.encode.length = t.length :=
  length_encode_of_le h.1 h.2.1

namespace LongHeader

def fields (h : LongHeader) : List UInt8 :=
  beBytes 4 h.version ++ (h.cidlByte :: (h.destinationCID ++
    (h.sourceCID ++ (h.tokenBytes ++ varIntBytes h.length.value))))

theorem bytes_eq (h : LongHeader) : h.bytes = h.typeByte :: (h.fields ++ h.truncatedPN.encode) := by
  simp [bytes, fields]

theorem headerLength_eq {h : LongHeader} (hh : h.Encodable)
    : h.headerLength = 1 + h.fields.length + h.truncatedPN.length := by
  have htoken := eq_of_newVarInt hh.tokenLength
  simp only [headerLength, fields, tokenBytes, List.length_append, List.length_cons, length_beBytes,
    hh.length_eq.2, htoken]
  split
  . rw [List.length_append]
    omega
  . rw [List.length_nil]
    omega

theorem packetType_ne_short {h : LongHeader} (hh : h.Encodable)
    : h.packetType ≠ PacketType.shortHeaderPacket := by
  rcases hh.packetType with h | h | h
  all_goals
    rw [h]
    decide

theorem written {h : LongHeader} (hh : h.Encodable)
    : (Header.long h).Written h.typeByte h.fields h.truncatedPN.encode := by
  have hlen := TruncatedPN.length_encode hh.truncatedPN
  refine ⟨?_, ?_, ?_, ?_, ?_, ?_⟩
  . rw [← bytes_eq]
    exact encode_eq hh
  . unfold Header.pnOffset
    dsimp only
    rw [headerLength_eq hh]
    omega
  . exact hlen.symm
  . rw [hlen]
    exact hh.truncatedPN.2.1
  . rw [hlen]
    exact (typeByte_eq hh).2.2
  . have hmask : firstByteMask h.typeByte = 0x0F := if_pos (typeByte_eq hh).1
    rw [hmask]
    exact if_pos (packetType_ne_short hh)

end LongHeader

namespace ShortHeader

theorem written {h : ShortHeader} (hh : h.truncatedPN.WellFormed)
    : (Header.short h).Written h.typeByte h.destinationCID h.truncatedPN.encode := by
  have hlen := TruncatedPN.length_encode hh
  refine ⟨?_, rfl, hlen.symm, ?_, ?_, ?_⟩
  . exact congrArg some (encode_eq h)
  . rw [hlen]
    exact hh.2.1
  . rw [hlen]
    exact (typeByte_eq hh).2.2
  . exact (if_neg (typeByte_eq hh).1).symm

end ShortHeader

/-- The fields that are not masked, read by the parts of the masked header. -/
def LongHeader.maskedParts (h : LongHeader) (first : UInt8) (rest : List UInt8) : LongParts where
  typeByte := first
  version := beBytes 4 h.version
  cidl := h.cidlByte
  destinationCID := h.destinationCID
  sourceCID := h.sourceCID
  tokenLength := if h.packetType = PacketType.initial then varIntBytes h.token.length else []
  token := if h.packetType = PacketType.initial then h.token else []
  length := varIntBytes h.length.value
  lengthValue := h.length.value
  rest := rest

theorem LongHeader.fields_maskedParts (h : LongHeader) (first : UInt8) (rest : List UInt8)
    : (h.maskedParts first rest).fields = h.fields := by
  unfold LongParts.fields maskedParts fields tokenBytes
  dsimp only
  split
  . simp
  . simp

theorem LongHeader.complete_maskedParts {h : LongHeader} (hh : h.Encodable) (hr : h.Readable)
    {first : UInt8} (hfirst : (first - 0xC0) >>> 4 = h.packetType) {rest : List UInt8}
    (hrest : 4 ≤ rest.length)
    : (h.maskedParts first rest).Complete := by
  have htype : (h.maskedParts first rest).packetType = h.packetType := hfirst
  refine ⟨⟨length_beBytes 4 _, ?_, ?_, ?_, ?_, fun _ => isVarInt_varIntBytes hh.length_eq.1, ?_⟩, fun _ => hrest⟩
  . unfold maskedParts cidlByte
    dsimp only
    rw [ConnectionID.dcil_cidl hh.destinationCID hh.sourceCID]
    rw [if_neg hr.destinationCID]
  . unfold maskedParts cidlByte
    dsimp only
    rw [ConnectionID.scil_cidl hh.destinationCID hh.sourceCID]
    rw [if_neg hr.sourceCID]
  . intro heq
    rw [htype] at heq
    simp only [maskedParts, if_pos heq]
    apply isVarInt_varIntBytes
    exact lt_of_newVarInt hh.tokenLength
  . intro hne
    rw [htype] at hne
    simp only [maskedParts, if_neg hne, and_self]
  . intro heq
    exact absurd (htype.symm.trans heq) hh.not_retry

namespace ParsingAgent

theorem pass_of_decryptPN {conn : Connection} {ciphertext cleartext : List UInt8} {header : Header}
    (hread : (readHeader ciphertext conn).header = header) (hversion : versionIsZero header = false)
    (htype : protectedType header.packetType) {encrypt : List UInt8 → Fin 5 → UInt8}
    (hcipher : headerCipher (conn.cryptoStates header.encryptionLevel) = some encrypt)
    (hdecrypt : decryptPN encrypt header ciphertext = some cleartext)
    : (pass conn ciphertext).outcome
        = decryptPayload (conn.cryptoStates header.encryptionLevel)
            (readHeader cleartext conn).header cleartext := by
  unfold pass
  simp [hread, hversion, htype, hcipher, hdecrypt]

theorem slice_append (front bytes later : List UInt8)
    : slice (front ++ bytes ++ later) front.length (front.length + bytes.length) = some bytes := by
  have hhigh : ((front.length : Int) + bytes.length).toNat = (front ++ bytes).length := by
    rw [List.length_append]
    omega
  rw [slice_eq (by omega) (by omega) (by simp only [List.length_append]; push_cast; omega)]
  rw [hhigh]
  rw [List.take_left]
  rw [Int.toNat_natCast]
  rw [List.drop_left]

theorem slice_front (front rest : List UInt8) : slice (front ++ rest) 0 front.length = some front := by
  have h := slice_append [] front rest
  simpa using h

theorem decryptLong_append {decrypt : Decrypt} {header : LongHeader} {front encrypted : List UInt8}
    (hlen : header.headerLength = front.length)
    (hlength : header.length.value = header.truncatedPN.length + encrypted.length)
    {payload : List UInt8} (hdecrypt : decrypt encrypted header.packetNumber front = some payload)
    (later : List UInt8)
    : decryptLong decrypt header (front ++ encrypted ++ later)
        = some (.decrypted (.long header) (front ++ payload) (front ++ encrypted).length) := by
  have hpLen : (header.length.value : Int) - header.truncatedPN.length = encrypted.length := by
    rw [hlength]
    push_cast
    omega
  have hnot : ¬ (front.length : Int) + encrypted.length > (front ++ encrypted ++ later).length := by
    simp only [List.length_append]
    push_cast
    omega
  have hconsumed : ((front.length : Int) + encrypted.length).toNat = (front ++ encrypted).length := by
    rw [List.length_append]
    omega
  have hfront := slice_front front (encrypted ++ later)
  rw [← List.append_assoc] at hfront
  unfold decryptLong
  dsimp only
  rw [hlen]
  rw [hpLen]
  rw [if_neg hnot]
  rw [slice_append]
  rw [hfront]
  rw [hconsumed]
  simp [hdecrypt]

theorem decryptShort_append {decrypt : Decrypt} {header : ShortHeader} {front encrypted : List UInt8}
    (hlen : header.headerLength = front.length) {payload : List UInt8}
    (hdecrypt : decrypt encrypted header.packetNumber front = some payload)
    : decryptShort decrypt header (front ++ encrypted)
        = some (.decrypted (.short header) (front ++ payload) (front ++ encrypted).length) := by
  have hslice := slice_append front encrypted []
  have hhigh : ((front ++ encrypted).length : Int) = front.length + encrypted.length := by
    rw [List.length_append]
    push_cast
    rfl
  rw [List.append_nil] at hslice
  unfold decryptShort
  dsimp only
  rw [hlen]
  rw [hhigh]
  rw [hslice]
  rw [slice_front]
  simp [hdecrypt]

theorem headerCipher_eq {cryptoState : CryptoState} {encrypt : List UInt8 → Fin 5 → UInt8}
    (hheader : cryptoState.headerRead = some encrypt) {decrypt : Decrypt}
    (hread : cryptoState.read = some decrypt)
    : headerCipher (some cryptoState) = some encrypt := by
  simp [headerCipher, hheader, hread]

end ParsingAgent

theorem LongHeader.ReadBack.headerLength {h header : LongHeader} {conn : Connection}
    (hb : h.ReadBack conn header) (hh : h.Encodable)
    : header.headerLength = h.bytes.length := by
  have hsame : header.headerLength = h.headerLength := by
    unfold LongHeader.headerLength
    rw [hb.packetType]
    rw [hb.destinationCID]
    rw [hb.sourceCID]
    rw [hb.length]
    rw [hb.truncatedPN]
    rw [hb.token]
    split
    . next htype => rw [hb.tokenLength htype]
    . rfl
  rw [hsame]
  rw [headerLength_eq hh]
  rw [bytes_eq]
  simp only [List.length_cons, List.length_append, TruncatedPN.length_encode hh.truncatedPN]
  omega

theorem readHeader_masked_long {h : LongHeader} (hh : h.Encodable) (hr : h.Readable)
    (mask : Fin 5 → UInt8) {rest : List UInt8}
    (hrest : 4 ≤ h.truncatedPN.encode.length + rest.length) (conn : Connection)
    : ∃ header,
        (readHeader (maskBytes mask h.typeByte h.fields h.truncatedPN.encode rest) conn).header
          = .long header ∧
        header.packetType = h.packetType ∧ header.version = h.version ∧
        (Header.long header).pnOffset = 1 + h.fields.length := by
  have htypeByte := LongHeader.typeByte_eq hh
  have hmask : firstByteMask h.typeByte = 0x0F := if_pos htypeByte.1
  have hlong : maskFirst mask h.typeByte &&& 0x80 = 0x80 := by
    unfold maskFirst
    rw [hmask]
    exact (isLong_xor_mask (by decide) _ _).mpr htypeByte.1
  have htype : (maskFirst mask h.typeByte - 0xC0) >>> 4 = h.packetType := by
    unfold maskFirst
    rw [hmask]
    rw [packetType_xor_mask]
    exact htypeByte.2.1
  have hrest' : 4 ≤ (maskPN mask h.truncatedPN.encode ++ rest).length := by
    rw [List.length_append]
    rw [length_maskPN mask (LongHeader.written hh).pn_le]
    exact hrest
  have hcomplete := LongHeader.complete_maskedParts hh hr htype hrest'
  have hfields := h.fields_maskedParts (maskFirst mask h.typeByte)
    (maskPN mask h.truncatedPN.encode ++ rest)
  rcases LongParts.readLongHeader_bytes _ hcomplete conn with ⟨hread, _⟩
  have hbytes : (h.maskedParts (maskFirst mask h.typeByte)
      (maskPN mask h.truncatedPN.encode ++ rest)).bytes
        = maskBytes mask h.typeByte h.fields h.truncatedPN.encode rest := by
    unfold LongParts.bytes
    rw [hfields]
    rfl
  rw [← hbytes]
  refine ⟨_, ?_, hread.packetType.trans htype, ?_, ?_⟩
  . rw [readHeader_bytes hlong]
  . rw [hread.version]
    exact beNat_beBytes_of_lt hh.version
  . unfold Header.pnOffset
    dsimp only
    rw [hread.headerLength]
    unfold LongParts.pnOffset
    rw [hfields]
    omega

theorem decryptPayload_long {h header : LongHeader} (hh : h.Encodable) {conn : Connection}
    (hback : h.ReadBack conn header)
    (htype : h.packetType = PacketType.handshake ∨ h.packetType = PacketType.initial)
    (hpn : h.truncatedPN.join (conn.largestPNsReceived (PacketType.pnSpace h.packetType))
      = h.packetNumber)
    {cryptoState : Option CryptoState} {decrypt : Decrypt}
    (hread : cryptoState.bind CryptoState.read = some decrypt) {encrypted payload : List UInt8}
    (hlength : h.length.value = h.truncatedPN.length + encrypted.length)
    (hdecrypt : decrypt encrypted h.packetNumber h.bytes = some payload) (later : List UInt8)
    : decryptPayload cryptoState (.long header) (h.bytes ++ encrypted ++ later)
        = some (.decrypted (.long header) (h.bytes ++ payload) (h.bytes ++ encrypted).length) := by
  unfold decryptPayload
  dsimp only
  rw [hback.packetType]
  rw [if_pos htype]
  rw [hread]
  apply decryptLong_append
  . exact hback.headerLength hh
  . rw [hback.length]
    rw [hback.truncatedPN]
    exact hlength
  . rw [hback.packetNumber]
    rw [hpn]
    exact hdecrypt

theorem pass_long_protected {h : LongHeader} (hh : h.Encodable) (hr : h.Readable)
    (hversion : h.version ≠ 0)
    (htype : h.packetType = PacketType.handshake ∨ h.packetType = PacketType.initial)
    {conn : Connection} {encrypt : List UInt8 → Fin 5 → UInt8} {decrypt : Decrypt}
    (hcipher : headerCipher (conn.cryptoStates (PacketType.encryptionLevel h.packetType)) = some encrypt)
    (hread : (conn.cryptoStates (PacketType.encryptionLevel h.packetType)).bind CryptoState.read
      = some decrypt)
    (hpn : h.truncatedPN.join (conn.largestPNsReceived (PacketType.pnSpace h.packetType))
      = h.packetNumber)
    {encrypted payload : List UInt8}
    (hlength : h.length.value = h.truncatedPN.length + encrypted.length)
    (hsample : 20 ≤ h.truncatedPN.length + encrypted.length)
    (hdecrypt : decrypt encrypted h.packetNumber h.bytes = some payload)
    : ∃ bytes, protectHeader encrypt (.long h) (h.bytes ++ encrypted) = some bytes ∧
        bytes.length = (h.bytes ++ encrypted).length ∧
        ∀ later, ∃ header, h.ReadBack conn header ∧
          (pass conn (bytes ++ later)).outcome
            = some (.decrypted (.long header) (h.bytes ++ payload) bytes.length) := by
  have hw := LongHeader.written hh
  have hpnLength := TruncatedPN.length_encode hh.truncatedPN
  have hsample' : 20 ≤ h.truncatedPN.encode.length + encrypted.length := by
    rw [hpnLength]
    exact hsample
  rcases hw.unmasked encrypt hsample' with ⟨mask, hprotect, hlen, hunmask⟩
  rw [← LongHeader.bytes_eq] at hprotect hlen hunmask
  refine ⟨_, hprotect, hlen, ?_⟩
  intro later
  have hrest : 4 ≤ h.truncatedPN.encode.length + (encrypted ++ later).length := by
    rw [List.length_append]
    omega
  rcases readHeader_masked_long hh hr mask hrest conn with
    ⟨masked, hmasked, hmaskedType, hmaskedVersion, hoff⟩
  rcases LongHeader.readLongHeader_bytes hh hr (encrypted ++ later) conn with ⟨hback, _⟩
  rw [← List.append_assoc] at hback
  refine ⟨_, hback, ?_⟩
  have hlevel : (Header.long masked).encryptionLevel = PacketType.encryptionLevel h.packetType := by
    exact congrArg PacketType.encryptionLevel hmaskedType
  rw [hlen]
  rw [maskBytes_append]
  rw [pass_of_decryptPN hmasked ?_ ?_ ?_ (hunmask _ hoff later)]
  . rw [hlevel]
    rw [← decryptPayload_long hh hback htype hpn hread hlength hdecrypt later]
    rw [List.append_assoc]
    rw [readHeader_long_bytes hh]
  . simpa [versionIsZero, hmaskedVersion] using hversion
  . simp only [Header.packetType, hmaskedType, protectedType]
    rcases htype with htype | htype
    . simp [htype]
    . simp [htype]
  . rw [hlevel]
    exact hcipher

theorem readHeader_masked_short {h : ShortHeader} (hh : h.truncatedPN.WellFormed)
    {conn : Connection} (hcid : h.destinationCID.length = conn.sourceCID.length)
    (mask : Fin 5 → UInt8) (rest : List UInt8)
    : ∃ header,
        (readHeader (maskBytes mask h.typeByte h.destinationCID h.truncatedPN.encode rest) conn).header
          = .short header ∧
        (Header.short header).pnOffset = 1 + h.destinationCID.length := by
  have hshort := (ShortHeader.typeByte_eq hh).1
  have hmask : firstByteMask h.typeByte = 0x1F := if_neg hshort
  have hmasked : ¬ maskFirst mask h.typeByte &&& 0x80 = 0x80 := by
    unfold maskFirst
    rw [hmask]
    intro hlong
    exact hshort ((isLong_xor_mask (by decide) _ _).mp hlong)
  refine ⟨_, congrArg HeaderRead.header (readHeader_short hmasked conn), ?_⟩
  unfold Header.pnOffset
  dsimp only
  rw [length_destinationCID_readShortHeader]
  rw [hcid]

theorem pass_short_protected {h : ShortHeader} (hh : h.truncatedPN.WellFormed) {conn : Connection}
    (hcid : h.destinationCID.length = conn.sourceCID.length)
    {encrypt : List UInt8 → Fin 5 → UInt8} {decrypt : Decrypt}
    (hcipher : headerCipher (conn.cryptoStates .oneRTT) = some encrypt)
    (hread : (conn.cryptoStates .oneRTT).bind CryptoState.read = some decrypt)
    (hpn : h.truncatedPN.join (conn.largestPNsReceived .appData) = h.packetNumber)
    {encrypted payload : List UInt8} (hsample : 20 ≤ h.truncatedPN.length + encrypted.length)
    (hdecrypt : decrypt encrypted h.packetNumber h.encode = some payload)
    : ∃ bytes, protectHeader encrypt (.short h) (h.encode ++ encrypted) = some bytes ∧
        bytes.length = (h.encode ++ encrypted).length ∧
        (pass conn bytes).outcome
          = some (.decrypted (.short h) (h.encode ++ payload) bytes.length) := by
  have hw := ShortHeader.written hh
  have hpnLength := TruncatedPN.length_encode hh
  have hsample' : 20 ≤ h.truncatedPN.encode.length + encrypted.length := by
    rw [hpnLength]
    exact hsample
  rcases hw.unmasked encrypt hsample' with ⟨mask, hprotect, hlen, hunmask⟩
  rw [← ShortHeader.encode_eq] at hprotect hlen hunmask
  refine ⟨_, hprotect, hlen, ?_⟩
  rcases readHeader_masked_short hh hcid mask encrypted with ⟨masked, hmasked, hoff⟩
  have hplain := hunmask _ hoff []
  rw [List.append_nil] at hplain
  rw [List.append_nil] at hplain
  have hheader := (ShortHeader.readShortHeader_encode hh hcid encrypted).1
  rw [hpn] at hheader
  rw [hlen]
  rw [pass_of_decryptPN hmasked rfl rfl hcipher hplain]
  rw [readHeader_short_encode hh]
  dsimp only
  rw [hheader]
  unfold decryptPayload
  dsimp only
  have hlevel : (Header.short masked).encryptionLevel = .oneRTT := rfl
  rw [hlevel]
  rw [hread]
  apply decryptShort_append _ hdecrypt
  rw [ShortHeader.encode_eq]
  simp only [ShortHeader.headerLength, List.length_cons, List.length_append, hpnLength]
  omega

end QuicTracker
