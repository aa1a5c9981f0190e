import QuicTracker.Impl.Agents.Parse
import QuicTracker.Lemmas.Headers

/-!
This module contains the datagrams that the parsing agent handles without leaving the bounds of the
bytes it received.
-/

namespace QuicTracker

open ByteReader

namespace ParsingAgent

theorem xor_mask_div {mask : UInt8} {k : Nat} (h : mask.toNat / 2 ^ k = 0) (t m : UInt8)
    : (t ^^^ (m &&& mask)).toNat / 2 ^ k = t.toNat / 2 ^ k := by
  rw [UInt8.toNat_xor]
  rw [UInt8.toNat_and]
  rw [Nat.xor_div_two_pow]
  rw [Nat.and_div_two_pow]
  rw [h]
  simp

theorem isLong_iff (t : UInt8) : t &&& 0x80 = 0x80 ↔ 128 ≤ t.toNat := by
  revert t
  apply forall_byte
  decide +kernel

theorem packetType_eq (t : UInt8) : (t - 0xC0) >>> 4 = UInt8.ofNat ((t.toNat / 16 + 4) % 16) := by
  revert t
  apply forall_byte
  decide +kernel

theorem isLong_xor_mask {mask : UInt8} (h : mask.toNat / 2 ^ 5 = 0) (t m : UInt8)
    : (t ^^^ (m &&& mask)) &&& 0x80 = 0x80 ↔ t &&& 0x80 = 0x80 := by
  have hdiv := xor_mask_div h t m
  rw [isLong_iff]
  rw [isLong_iff]
  omega

theorem packetType_xor_mask (t m : UInt8)
    : ((t ^^^ (m &&& 0x0F)) - 0xC0) >>> 4 = (t - 0xC0) >>> 4 := by
  have hdiv : (t ^^^ (m &&& 0x0F)).toNat / 16 = t.toNat / 16 := by
    apply xor_mask_div (k := 4)
    decide
  rw [packetType_eq]
  rw [packetType_eq]
  rw [hdiv]

theorem xorByte_rest (first : UInt8) (fields rest : List UInt8) {i : Nat} (h : i < rest.length)
    (mask : UInt8)
    : ∃ rest', rest'.length = rest.length ∧
        xorByte (first :: (fields ++ rest)) (1 + fields.length + i) mask
          = some (first :: (fields ++ rest')) := by
  refine ⟨rest.set i (rest[i] ^^^ mask), by simp, ?_⟩
  have hindex : 1 + fields.length + i = (fields.length + i) + 1 := by omega
  unfold xorByte
  rw [hindex]
  rw [List.getElem?_cons_succ]
  rw [List.getElem?_append_right (by omega)]
  rw [Nat.add_sub_cancel_left]
  rw [List.getElem?_eq_getElem h]
  simp

theorem foldlM_xorByte_rest (mask : Fin 5 → UInt8) (first : UInt8) (fields rest : List UInt8)
    (h : 4 ≤ rest.length) (l : List (Fin 4))
    : ∃ rest', rest'.length = rest.length ∧
        l.foldlM (fun ciphertext (i : Fin 4) =>
            xorByte ciphertext (1 + fields.length + i) (mask i.succ)) (first :: (fields ++ rest))
          = some (first :: (fields ++ rest')) := by
  induction l generalizing rest with
  | nil => exact ⟨rest, rfl, rfl⟩
  | cons i l ih =>
    rcases xorByte_rest first fields rest (i := i) (by omega) (mask i.succ) with ⟨rest1, hlen1, h1⟩
    rcases ih rest1 (by omega) with ⟨rest2, hlen2, h2⟩
    refine ⟨rest2, by omega, ?_⟩
    rw [List.foldlM_cons]
    rw [h1]
    exact h2

end ParsingAgent

theorem getPacketSample_eq (header : Header) (bytes : List UInt8)
    : ∃ sample, getPacketSample header bytes = some (sample, header.pnOffset) := by
  unfold getPacketSample
  dsimp only
  rw [if_pos]
  . exact ⟨_, rfl⟩
  . split
    . simp only [List.length_append, List.length_replicate]
      omega
    . omega

namespace ParsingAgent

def firstByteMask (first : UInt8) : UInt8 := if first &&& 0x80 = 0x80 then 0x0F else 0x1F

theorem decryptPN_eq (encrypt : List UInt8 → Fin 5 → UInt8) (header : Header) (first : UInt8)
    (fields rest : List UInt8) (hoff : header.pnOffset = 1 + fields.length) (h : 4 ≤ rest.length)
    : ∃ sample rest', rest'.length = rest.length ∧
        decryptPN encrypt header (first :: (fields ++ rest))
          = some ((first ^^^ (encrypt sample 0 &&& firstByteMask first)) :: (fields ++ rest')) := by
  rcases getPacketSample_eq header (first :: (fields ++ rest)) with ⟨sample, hsample⟩
  rcases foldlM_xorByte_rest (encrypt sample)
    (first ^^^ (encrypt sample 0 &&& firstByteMask first)) fields rest h
    ((List.finRange 4).take
      (((first ^^^ (encrypt sample 0 &&& firstByteMask first)) &&& 0x3).toNat + 1))
    with ⟨rest', hlen, hfold⟩
  refine ⟨sample, rest', hlen, ?_⟩
  rw [← hfold]
  unfold decryptPN
  rw [hsample]
  rw [hoff]
  rfl

def Pass.Safe (p : Pass) : Prop := p.outcome.isSome ∧ Fits p.makes

instance (p : Pass) : Decidable p.Safe := inferInstanceAs (Decidable (_ ∧ _))

theorem slice_eq {bytes : List UInt8} {low high : Int} (h : 0 ≤ low) (hle : low ≤ high)
    (hhigh : high ≤ bytes.length)
    : slice bytes low high = some ((bytes.take high.toNat).drop low.toNat) := by
  apply if_pos
  exact ⟨h, hle, hhigh⟩

/-- The payload ends before it starts when the packet number is longer than the declared length. -/
theorem decryptLong_isSome_iff (decrypt : Decrypt) (header : LongHeader) (ciphertext : List UInt8)
    {pnOffset : Nat} (hlen : header.headerLength = pnOffset + header.truncatedPN.length)
    : (decryptLong decrypt header ciphertext).isSome ↔
        ciphertext.length < pnOffset + header.length.value ∨
        header.truncatedPN.length ≤ header.length.value := by
  unfold decryptLong
  dsimp only
  rw [hlen]
  split
  . next hpast =>
    simp only [Option.isSome_some, true_iff]
    omega
  . next hin =>
    cases Nat.lt_or_ge header.length.value header.truncatedPN.length with
    | inl hlt =>
      have hslice : slice ciphertext (pnOffset + header.truncatedPN.length : Nat)
          ((pnOffset + header.truncatedPN.length : Nat) +
            (header.length.value - header.truncatedPN.length)) = none := by
        apply if_neg
        omega
      rw [hslice]
      simp
      omega
    | inr hge =>
      rw [slice_eq (by omega) (by omega) (by omega)]
      rw [slice_eq (by omega) (by omega) (by omega)]
      simp only [Option.bind_eq_bind, Option.bind_some]
      split
      . simp [hge]
      . simp [hge]

theorem decryptShort_isSome (decrypt : Decrypt) (header : ShortHeader) (ciphertext : List UInt8)
    (h : header.headerLength ≤ ciphertext.length)
    : (decryptShort decrypt header ciphertext).isSome := by
  unfold decryptShort
  dsimp only
  rw [slice_eq (by omega) (by omega) (by omega)]
  rw [slice_eq (by omega) (by omega) (by omega)]
  simp only [Option.bind_eq_bind, Option.bind_some]
  split
  . rfl
  . rfl

theorem exists_read_of_headerCipher {cryptoState : Option CryptoState}
    {encrypt : List UInt8 → Fin 5 → UInt8} (h : headerCipher cryptoState = some encrypt)
    : ∃ decrypt, cryptoState.bind CryptoState.read = some decrypt := by
  unfold headerCipher at h
  cases cryptoState with
  | none => simp at h
  | some cryptoState =>
    cases hread : cryptoState.read with
    | none => simp [hread] at h
    | some decrypt => exact ⟨decrypt, hread⟩

theorem fits_readVersionNegotationPacket (p : LongParts) (h : p.Complete)
    : ∃ packet makes, readVersionNegotationPacket p.bytes = some (packet, makes) ∧ Fits makes := by
  have hbytes : p.bytes = p.typeByte :: (p.version ++ (p.cidl :: (p.destinationCID ++ (p.sourceCID ++
      (p.tokenLength ++ (p.token ++ (p.length ++ p.rest))))))) := by
    simp [LongParts.bytes, LongParts.fields]
  rw [hbytes]
  simp only [readVersionNegotationPacket, readUint32_append h.version, readByte_cons,
    Option.getD_some, readConnectionID_append h.destinationCID,
    readConnectionID_append h.sourceCID]
  refine ⟨_, _, rfl, ?_⟩
  simp [fits_cons, h.destinationCID, h.sourceCID]

section Long

variable {p : LongParts} {conn : Connection}

theorem readHeader_bytes (hlong : p.typeByte &&& 0x80 = 0x80)
    : readHeader p.bytes conn
        = ⟨.long (readLongHeader p.bytes conn).header, (readLongHeader p.bytes conn).buffer,
            (readLongHeader p.bytes conn).makes⟩ :=
  readHeader_long hlong conn

/-- The header whose packet number is decrypted has the same fields in the same places. -/
structure Unmasked (encrypt : List UInt8 → Fin 5 → UInt8) (p q : LongParts) : Prop where
  complete : q.Complete
  isLong : q.typeByte &&& 0x80 = 0x80
  packetType : q.packetType = p.packetType
  pnOffset : q.pnOffset = p.pnOffset
  lengthValue : q.lengthValue = p.lengthValue
  length_bytes : q.bytes.length = p.bytes.length
  typeByte : ∃ sample, q.typeByte = p.typeByte ^^^ (encrypt sample 0 &&& 0x0F)

theorem exists_unmasked (conn : Connection) (hc : p.Complete)
    (hlong : p.typeByte &&& 0x80 = 0x80) (htype : p.packetType ≠ PacketType.retry)
    (encrypt : List UInt8 → Fin 5 → UInt8)
    : ∃ q, Unmasked encrypt p q ∧
        decryptPN encrypt (.long (readLongHeader p.bytes conn).header) p.bytes = some q.bytes := by
  rcases p.readLongHeader_bytes hc conn with ⟨hread, _⟩
  have hoff : (Header.long (readLongHeader p.bytes conn).header).pnOffset = 1 + p.fields.length := by
    unfold Header.pnOffset
    dsimp
    rw [hread.headerLength]
    rw [Nat.add_sub_cancel]
    rfl
  rcases decryptPN_eq encrypt _ p.typeByte p.fields p.rest hoff (hc.rest htype) with
    ⟨sample, rest, hrest, hdecrypt⟩
  have hmask : firstByteMask p.typeByte = 0x0F := if_pos hlong
  rw [hmask] at hdecrypt
  have hkeep := packetType_xor_mask p.typeByte (encrypt sample 0)
  refine ⟨{ p with typeByte := p.typeByte ^^^ (encrypt sample 0 &&& 0x0F), rest := rest }, ?_,
    hdecrypt⟩
  refine ⟨?_, ?_, hkeep, rfl, rfl, ?_, sample, rfl⟩
  . refine ⟨⟨hc.version, hc.destinationCID, hc.sourceCID, ?_, ?_, ?_, ?_⟩, ?_⟩
    . intro heq
      exact hc.token (hkeep.symm.trans heq)
    . intro hne
      exact hc.no_token (fun heq => hne (hkeep.trans heq))
    . intro hne
      exact hc.length (fun heq => hne (hkeep.trans heq))
    . intro heq
      exact hc.no_length (hkeep.symm.trans heq)
    . intro _
      dsimp only
      rw [hrest]
      exact hc.rest htype
  . rw [isLong_xor_mask (by decide)]
    exact hlong
  . simp [LongParts.bytes, LongParts.fields, hrest]

theorem ne_retry_of_protectedType {t : UInt8} (h : protectedType t) : t ≠ PacketType.retry := by
  intro heq
  rw [heq] at h
  exact absurd h (by decide)

theorem pass_long_of_cipher (hc : p.Complete) (hlong : p.typeByte &&& 0x80 = 0x80)
    (hversion : beNat p.version ≠ 0) (htype : protectedType p.packetType)
    {encrypt : List UInt8 → Fin 5 → UInt8}
    (hcipher : headerCipher (conn.cryptoStates (PacketType.encryptionLevel p.packetType))
      = some encrypt)
    : ∃ q header makes, Unmasked encrypt p q ∧ q.ReadAs header ∧ Fits makes ∧
        pass conn p.bytes
          = ⟨decryptPayload (conn.cryptoStates (PacketType.encryptionLevel p.packetType))
              (.long header) q.bytes, makes⟩ := by
  rcases p.readLongHeader_bytes hc conn with ⟨hread, hfits⟩
  rcases exists_unmasked conn hc hlong (ne_retry_of_protectedType htype) encrypt with
    ⟨q, hq, hdecrypt⟩
  rcases q.readLongHeader_bytes hq.complete conn with ⟨hread', hfits'⟩
  refine ⟨q, _, _, hq, hread', (fits_append _ _).mpr ⟨hfits, hfits'⟩, ?_⟩
  unfold pass
  rw [readHeader_bytes hlong]
  simp only [Header.encryptionLevel, Header.packetType, hread.packetType, versionIsZero,
    hread.version, decide_eq_true_eq, if_neg hversion, if_pos htype, hcipher, hdecrypt,
    readHeader_bytes hq.isLong]

theorem decryptPayload_isSome_of_other (cryptoState : Option CryptoState) {header : LongHeader}
    (hhandshake : header.packetType ≠ PacketType.handshake)
    (hinitial : header.packetType ≠ PacketType.initial) (first : UInt8) (bytes : List UInt8)
    : (decryptPayload cryptoState (.long header) (first :: bytes)).isSome := by
  unfold decryptPayload
  dsimp
  rw [if_neg (by simp [hhandshake, hinitial])]
  split
  . rfl
  . rfl

theorem decryptPayload_isSome_iff {cryptoState : Option CryptoState} {decrypt : Decrypt}
    (hread : cryptoState.bind CryptoState.read = some decrypt) {header : LongHeader}
    (h : p.ReadAs header)
    (htype : p.packetType = PacketType.handshake ∨ p.packetType = PacketType.initial)
    : (decryptPayload cryptoState (.long header) p.bytes).isSome ↔
        p.bytes.length < p.pnOffset + p.lengthValue ∨
        (p.typeByte &&& 0x3).toNat + 1 ≤ p.lengthValue := by
  have hretry : p.packetType ≠ PacketType.retry := by
    cases htype with
    | inl htype => rw [htype]; decide
    | inr htype => rw [htype]; decide
  rcases h.length hretry with ⟨hlength, hpn⟩
  unfold decryptPayload
  dsimp
  rw [h.packetType]
  rw [if_pos htype]
  rw [hread]
  dsimp
  rw [decryptLong_isSome_iff _ _ _ h.headerLength]
  rw [hlength]
  rw [hpn]

theorem pass_long_safe_of_no_cipher (hc : p.Complete) (hlong : p.typeByte &&& 0x80 = 0x80)
    (h : beNat p.version = 0 ∨ ¬ protectedType p.packetType ∨
      headerCipher (conn.cryptoStates (PacketType.encryptionLevel p.packetType)) = none)
    : (pass conn p.bytes).Safe := by
  rcases p.readLongHeader_bytes hc conn with ⟨hread, hfits⟩
  unfold pass
  rw [readHeader_bytes hlong]
  simp only [Header.encryptionLevel, Header.packetType, hread.packetType, versionIsZero,
    hread.version, decide_eq_true_eq]
  split
  . rcases fits_readVersionNegotationPacket p hc with ⟨packet, makes, hvn, hfits'⟩
    rw [hvn]
    exact ⟨rfl, (fits_append _ _).mpr ⟨hfits, hfits'⟩⟩
  . next hversion =>
    split
    . next htype =>
      have hnone : headerCipher (conn.cryptoStates (PacketType.encryptionLevel p.packetType))
          = none := by
        simpa [hversion, htype] using h
      rw [hnone]
      exact ⟨rfl, hfits⟩
    . next htype =>
      refine ⟨?_, hfits⟩
      apply decryptPayload_isSome_of_other
      . intro heq
        rw [← hread.packetType] at htype
        rw [heq] at htype
        exact htype (by decide)
      . intro heq
        rw [← hread.packetType] at htype
        rw [heq] at htype
        exact htype (by decide)

theorem pass_long_safe_iff (hc : p.Complete) (hlong : p.typeByte &&& 0x80 = 0x80)
    (hversion : beNat p.version ≠ 0)
    (htype : p.packetType = PacketType.handshake ∨ p.packetType = PacketType.initial)
    {encrypt : List UInt8 → Fin 5 → UInt8}
    (hcipher : headerCipher (conn.cryptoStates (PacketType.encryptionLevel p.packetType))
      = some encrypt)
    : ∃ sample, (pass conn p.bytes).Safe ↔
        p.bytes.length < p.pnOffset + p.lengthValue ∨
        ((p.typeByte ^^^ (encrypt sample 0 &&& 0x0F)) &&& 0x3).toNat + 1 ≤ p.lengthValue := by
  have hprotected : protectedType p.packetType := by
    cases htype with
    | inl htype => rw [htype]; decide
    | inr htype => rw [htype]; decide
  rcases pass_long_of_cipher hc hlong hversion hprotected hcipher with
    ⟨q, header, makes, hq, hread, hfits, hpass⟩
  rcases exists_read_of_headerCipher hcipher with ⟨decrypt, hdecrypt⟩
  rcases hq.typeByte with ⟨sample, hsample⟩
  refine ⟨sample, ?_⟩
  rw [← hsample]
  rw [← hq.length_bytes]
  rw [← hq.pnOffset]
  rw [← hq.lengthValue]
  rw [← hq.packetType] at htype
  rw [← decryptPayload_isSome_iff hdecrypt hread htype]
  rw [hpass]
  simp [Pass.Safe, hfits]

theorem pass_long_safe_of_other (hc : p.Complete) (hlong : p.typeByte &&& 0x80 = 0x80)
    (htype : ¬ (p.packetType = PacketType.handshake ∨ p.packetType = PacketType.initial))
    : (pass conn p.bytes).Safe := by
  by_cases hno : beNat p.version = 0 ∨ ¬ protectedType p.packetType ∨
      headerCipher (conn.cryptoStates (PacketType.encryptionLevel p.packetType)) = none
  . apply pass_long_safe_of_no_cipher hc hlong hno
  . simp only [not_or, not_not] at hno
    rcases Option.ne_none_iff_exists'.mp hno.2.2 with ⟨encrypt, hcipher⟩
    rcases pass_long_of_cipher hc hlong hno.1 hno.2.1 hcipher with
      ⟨q, header, makes, hq, hread, hfits, hpass⟩
    rw [not_or] at htype
    rw [← hq.packetType] at htype
    rw [← hread.packetType] at htype
    rw [hpass]
    refine ⟨?_, hfits⟩
    apply decryptPayload_isSome_of_other _ htype.1 htype.2 _ _

end Long

theorem length_destinationCID_readShortHeader (bytes : List UInt8) (conn : Connection)
    : (readShortHeader bytes conn).header.destinationCID.length = conn.sourceCID.length := by
  simp [readShortHeader]

theorem pnLength_le (b : UInt8) : (b &&& 0x3).toNat + 1 ≤ 4 := by
  rw [UInt8.toNat_and]
  apply Nat.and_lt_two_pow _ (n := 2) (by decide)

theorem headerLength_readShortHeader_le (bytes : List UInt8) (conn : Connection)
    : (readShortHeader bytes conn).header.headerLength ≤ 1 + conn.sourceCID.length + 4 := by
  have := pnLength_le ((readByte bytes).1.getD 0)
  unfold ShortHeader.headerLength
  rw [length_destinationCID_readShortHeader]
  simp only [readShortHeader, readTruncatedPN]
  omega

theorem pass_short_safe {typeByte : UInt8} (hshort : ¬ typeByte &&& 0x80 = 0x80)
    {b : List UInt8} {conn : Connection} (h : conn.sourceCID.length + 4 ≤ b.length)
    : (pass conn (typeByte :: b)).Safe := by
  have hfits := (fits_readShortHeader_iff typeByte b conn).mpr h
  have hprotected : protectedType PacketType.shortHeaderPacket := by decide
  unfold pass
  rw [readHeader_short hshort]
  simp only [Header.encryptionLevel, Header.packetType, versionIsZero, Bool.false_eq_true,
    hprotected, reduceIte]
  split
  . exact ⟨rfl, hfits⟩
  . next encrypt hcipher =>
    rcases exists_read_of_headerCipher hcipher with ⟨decrypt, hdecrypt⟩
    rcases exists_append_of_le (by omega : conn.sourceCID.length ≤ b.length) with
      ⟨fields, rest, hb, hfields⟩
    have hlen : b.length = fields.length + rest.length := by
      rw [hb]
      rw [List.length_append]
    have hoff : (Header.short (readShortHeader (typeByte :: b) conn).header).pnOffset
        = 1 + fields.length := by
      unfold Header.pnOffset
      dsimp
      rw [length_destinationCID_readShortHeader]
      rw [hfields]
    rw [hb] at hoff ⊢
    rcases decryptPN_eq encrypt _ typeByte fields rest hoff (by omega) with
      ⟨sample, rest', hrest, hpn⟩
    rw [hpn]
    have hmask : firstByteMask typeByte = 0x1F := if_neg hshort
    have hshort' : ¬ (typeByte ^^^ (encrypt sample 0 &&& firstByteMask typeByte)) &&& 0x80 = 0x80 := by
      rw [hmask]
      rw [isLong_xor_mask (by decide)]
      exact hshort
    have hlen' : (fields ++ rest').length = b.length := by
      rw [List.length_append]
      omega
    dsimp only
    rw [readHeader_short hshort']
    apply And.intro
    . unfold decryptPayload
      dsimp
      rw [hdecrypt]
      apply decryptShort_isSome
      have := headerLength_readShortHeader_le
        ((typeByte ^^^ (encrypt sample 0 &&& firstByteMask typeByte)) :: (fields ++ rest')) conn
      rw [List.length_cons]
      omega
    . rw [fits_append]
      rw [← hb]
      refine ⟨hfits, ?_⟩
      rw [fits_readShortHeader_iff]
      omega

theorem fits_readHeader_of_safe {conn : Connection} {bytes : List UInt8}
    (h : (pass conn bytes).Safe)
    : Fits (readHeader bytes conn).makes := by
  rcases h with ⟨_, hfits⟩
  unfold pass at hfits
  dsimp only at hfits
  split at hfits
  . split at hfits
    . exact hfits
    . exact ((fits_append _ _).mp hfits).1
  . split at hfits
    . split at hfits
      . exact hfits
      . split at hfits
        . exact hfits
        . exact ((fits_append _ _).mp hfits).1
    . exact hfits

def canRead (conn : Connection) (level : EncryptionLevel) : Bool :=
  (headerCipher (conn.cryptoStates level)).isSome

/--
The packet at the front of a datagram is complete up to four bytes of packet number. When it is going to be
decrypted as an Initial or a Handshake packet, its length covers these four bytes or points past the end of
the datagram.
-/
def WithinBounds (cidLength : Nat) (keys : EncryptionLevel → Bool) (bytes : List UInt8) : Prop :=
  (∃ typeByte rest, bytes = typeByte :: rest ∧ ¬ typeByte &&& 0x80 = 0x80 ∧
    cidLength + 4 ≤ rest.length) ∨
  (∃ p : LongParts, bytes = p.bytes ∧ p.typeByte &&& 0x80 = 0x80 ∧ p.Complete ∧
    (beNat p.version ≠ 0 →
      p.packetType = PacketType.handshake ∨ p.packetType = PacketType.initial →
      keys (PacketType.encryptionLevel p.packetType) →
      p.bytes.length < p.pnOffset + p.lengthValue ∨ 4 ≤ p.lengthValue))

def probe (cidLength : Nat) (keys : EncryptionLevel → Bool) (mask : UInt8) : Connection where
  sourceCID := List.replicate cidLength 0
  cryptoStates := fun level =>
    if keys level then some { read := some (fun _ _ _ => none), headerRead := some (fun _ _ => mask) } else none

theorem headerCipher_probe (cidLength : Nat) (keys : EncryptionLevel → Bool) (mask : UInt8)
    (level : EncryptionLevel)
    : headerCipher ((probe cidLength keys mask).cryptoStates level)
        = if keys level then some (fun _ _ => mask) else none := by
  unfold probe
  dsimp
  split
  . rfl
  . rfl

theorem canRead_probe (cidLength : Nat) (keys : EncryptionLevel → Bool) (mask : UInt8)
    (level : EncryptionLevel)
    : canRead (probe cidLength keys mask) level = keys level := by
  unfold canRead
  rw [headerCipher_probe]
  cases keys level <;> rfl

theorem pnLength_flipped (t : UInt8)
    : ((t ^^^ ((t ^^^ 0xFF) &&& 0x0F)) &&& 0x3).toNat + 1 = 4 := by
  revert t
  apply forall_byte
  decide +kernel

theorem withinBounds_of_safe {cidLength : Nat} {keys : EncryptionLevel → Bool} {typeByte : UInt8}
    {rest : List UInt8}
    (h : (pass (probe cidLength keys (typeByte ^^^ 0xFF)) (typeByte :: rest)).Safe)
    : WithinBounds cidLength keys (typeByte :: rest) := by
  have hfits := fits_readHeader_of_safe h
  by_cases hlong : typeByte &&& 0x80 = 0x80
  . unfold readHeader at hfits
    simp only [readByte_cons, Option.getD_some, if_pos hlong] at hfits
    rcases parts_of_fits_readLongHeader hfits with ⟨p, hbytes, htype, hc⟩
    rw [← hbytes] at h ⊢
    rw [← htype] at h hlong
    refine Or.inr ⟨p, rfl, hlong, hc, ?_⟩
    intro hversion hhandshake hkeys
    have hcipher := headerCipher_probe cidLength keys (p.typeByte ^^^ 0xFF)
      (PacketType.encryptionLevel p.packetType)
    rw [if_pos hkeys] at hcipher
    rcases pass_long_safe_iff hc hlong hversion hhandshake hcipher with ⟨sample, hiff⟩
    rw [pnLength_flipped] at hiff
    exact hiff.mp h
  . rw [readHeader_short hlong] at hfits
    have hle := (fits_readShortHeader_iff typeByte rest _).mp hfits
    refine Or.inl ⟨typeByte, rest, rfl, hlong, ?_⟩
    simpa [probe] using hle

theorem safe_of_withinBounds {cidLength : Nat} {keys : EncryptionLevel → Bool} {bytes : List UInt8}
    (h : WithinBounds cidLength keys bytes) {conn : Connection}
    (hcid : conn.sourceCID.length = cidLength) (hkeys : ∀ level, canRead conn level = keys level)
    : (pass conn bytes).Safe := by
  cases h with
  | inl h =>
    rcases h with ⟨typeByte, rest, hbytes, hshort, hle⟩
    rw [hbytes]
    apply pass_short_safe hshort
    omega
  | inr h =>
    rcases h with ⟨p, hbytes, hlong, hc, hlen⟩
    rw [hbytes]
    by_cases htype : p.packetType = PacketType.handshake ∨ p.packetType = PacketType.initial
    . by_cases hversion : beNat p.version = 0
      . apply pass_long_safe_of_no_cipher hc hlong (Or.inl hversion)
      . cases hcipher : headerCipher (conn.cryptoStates (PacketType.encryptionLevel p.packetType)) with
        | none => exact pass_long_safe_of_no_cipher hc hlong (Or.inr (Or.inr hcipher))
        | some encrypt =>
          have hkey : keys (PacketType.encryptionLevel p.packetType) = true := by
            rw [← hkeys]
            unfold canRead
            rw [hcipher]
            rfl
          rcases pass_long_safe_iff hc hlong hversion htype hcipher with ⟨sample, hiff⟩
          have hpn := pnLength_le (p.typeByte ^^^ (encrypt sample 0 &&& 0x0F))
          rw [hiff]
          have := hlen hversion htype hkey
          omega
    . apply pass_long_safe_of_other hc hlong htype

theorem pass_safe_iff_withinBounds (payload : List UInt8) (off : Nat) (hoff : off < payload.length)
    (cidLength : Nat) (keys : EncryptionLevel → Bool)
    : (∀ conn : Connection, conn.sourceCID.length = cidLength →
          (∀ level, canRead conn level = keys level) →
          (pass conn (payload.drop off)).Safe) ↔
        WithinBounds cidLength keys (payload.drop off) := by
  apply Iff.intro
  . intro h
    rw [List.drop_eq_getElem_cons hoff] at h ⊢
    apply withinBounds_of_safe
    apply h
    . simp [probe]
    . intro level
      apply canRead_probe
  . intro h conn hcid hkeys
    apply safe_of_withinBounds h hcid hkeys

theorem pass_safe_iff_withinBounds_short
    : WithinBounds 1 (fun _ => true) ([0, 0x40, 7, 1, 2, 3, 4].drop 1) ∧
      (pass (probe 1 (fun _ => true) 0x1F) ([0, 0x40, 7, 1, 2, 3, 4].drop 1)).Safe := by
  have hbounds : WithinBounds 1 (fun _ => true) ([0, 0x40, 7, 1, 2, 3, 4].drop 1) :=
    Or.inl ⟨0x40, [7, 1, 2, 3, 4], rfl, by decide, by decide⟩
  have hiff := pass_safe_iff_withinBounds [0, 0x40, 7, 1, 2, 3, 4] 1 (by decide) 1 (fun _ => true)
  refine ⟨hbounds, hiff.mpr hbounds _ rfl ?_⟩
  intro level
  apply canRead_probe

/--
A datagram of one byte has no packet number to unmask. The payload of the second one is declared with three
bytes, of which four belong to the packet number.
-/
theorem pass_out_of_range
    : (pass (probe 0 (fun _ => true) 0) [0x40]).outcome = none ∧
      (pass (probe 0 (fun _ => true) 0)
        [0xE3, 0, 0, 0, 1, 0, 1, 1, 1, 2, 2, 2, 3, 9, 10, 11, 12, 13]).outcome = none := by
  decide

end ParsingAgent

end QuicTracker
