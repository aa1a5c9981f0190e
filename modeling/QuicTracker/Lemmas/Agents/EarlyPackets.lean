import QuicTracker.Lemmas.Agents.Receive

/-!
This module contains what the parsing agent does with a datagram when it does not have all the keys: the
packets in front are taken apart, the rest is handed over with the level of the first packet in it.
-/

namespace QuicTracker

open ByteReader ParsingAgent

theorem ParsingAgent.pass_of_no_cipher {conn : Connection} {ciphertext : List UInt8} {header : Header}
    (hread : (readHeader ciphertext conn).header = header) (hversion : versionIsZero header = false)
    (htype : protectedType header.packetType) {level : EncryptionLevel}
    (hlevel : header.encryptionLevel = level) (hnone : headerCipher (conn.cryptoStates level) = none)
    : (pass conn ciphertext).outcome = some (.unprocessed level ciphertext) := by
  rw [← hlevel] at hnone ⊢
  unfold pass
  simp [hread, hversion, htype, hnone]

namespace FramePacket

variable {p : FramePacket} {conn : Connection} {keys : EncryptionLevel → Keys} {bytes : List UInt8}

theorem unprocessed_long {h : LongHeader} (hp : p.IsLong h) (hsent : p.Sent keys bytes)
    (hpn : p.header.truncatedPN.WellFormed)
    (hnone : headerCipher (conn.cryptoStates p.encryptionLevel) = none) (later : List UInt8)
    : (pass conn (bytes ++ later)).outcome = some (.unprocessed p.encryptionLevel (bytes ++ later)) := by
  rcases hsent.unprotected with ⟨header, headerBytes, payload, hu, hprotect⟩
  have hwith := hu.withLength
  have hsample := hsent.sample header headerBytes payload hu
  have hencode := hu.encode
  rw [hp.header] at hwith hpn
  change h.truncatedPN.WellFormed at hpn
  rcases Option.bind_eq_some_iff.mp hwith with ⟨length, hlength, hheader⟩
  injection hheader with hheader
  rcases hp.encodable hpn hlength with ⟨hh, hr⟩
  rw [← hheader] at hencode hprotect hsample
  have hbytes : LongHeader.bytes { h with length := length } = headerBytes := by
    have henc : some (LongHeader.bytes { h with length := length }) = some headerBytes := by
      rw [← hencode]
      exact (LongHeader.encode_eq hh).symm
    injection henc
  have hinside := sample_inside (LongHeader.written hh) hencode hprotect hsample
  rw [← hbytes] at hprotect hinside
  have hinside' : 20 ≤ h.truncatedPN.encode.length +
      ((keys p.encryptionLevel).aead.encrypt payload h.packetNumber
        (LongHeader.bytes { h with length := length })).length := by
    rw [TruncatedPN.length_encode hpn]
    exact hinside
  rcases (LongHeader.written hh).unmasked (keys p.encryptionLevel).mask hinside' with ⟨mask, hmasked, _, _⟩
  rw [← LongHeader.bytes_eq] at hmasked
  have heq := hmasked.symm.trans hprotect
  injection heq with heq
  rw [← heq, maskBytes_append]
  have hrest : 4 ≤ h.truncatedPN.encode.length +
      ((keys p.encryptionLevel).aead.encrypt payload h.packetNumber
        (LongHeader.bytes { h with length := length }) ++ later).length := by
    rw [List.length_append]
    omega
  rcases readHeader_masked_long hh hr mask hrest conn with ⟨header', hread, htype, hversion, _⟩
  have hlevel : (Header.long header').encryptionLevel = p.encryptionLevel := by
    exact (congrArg PacketType.encryptionLevel htype).trans hp.level.1
  apply pass_of_no_cipher hread _ _ hlevel hnone
  . simpa [versionIsZero, hversion] using hp.version.1
  . simp only [Header.packetType, htype, protectedType]
    rcases hp.kind with hkind | hkind
    . simp [hkind.1]
    . simp [hkind.1]

theorem unprocessed_short {h : ShortHeader} (hp : p.IsShort conn.sourceCID h) (hsent : p.Sent keys bytes)
    (hpn : p.header.truncatedPN.WellFormed)
    (hnone : headerCipher (conn.cryptoStates p.encryptionLevel) = none)
    : (pass conn bytes).outcome = some (.unprocessed p.encryptionLevel bytes) := by
  rcases hsent.unprotected with ⟨header, headerBytes, payload, hu, hprotect⟩
  have hwith := hu.withLength
  have hsample := hsent.sample header headerBytes payload hu
  have hencode := hu.encode
  rw [hp.header] at hwith hpn
  change h.truncatedPN.WellFormed at hpn
  injection hwith with hheader
  rw [← hheader] at hencode hprotect hsample
  have hbytes : h.encode = headerBytes := by
    injection hencode
  have hinside := sample_inside (ShortHeader.written hpn) hencode hprotect hsample
  rw [← hbytes] at hprotect hinside
  have hinside' : 20 ≤ h.truncatedPN.encode.length +
      ((keys p.encryptionLevel).aead.encrypt payload h.packetNumber h.encode).length := by
    rw [TruncatedPN.length_encode hpn]
    exact hinside
  rcases (ShortHeader.written hpn).unmasked (keys p.encryptionLevel).mask hinside' with ⟨mask, hmasked, _, _⟩
  rw [← ShortHeader.encode_eq] at hmasked
  have heq := hmasked.symm.trans hprotect
  injection heq with heq
  rw [← heq]
  rcases readHeader_masked_short hpn hp.destinationCID mask
    ((keys p.encryptionLevel).aead.encrypt payload h.packetNumber h.encode) with ⟨header', hread, _⟩
  exact pass_of_no_cipher hread rfl rfl hp.kind.2.symm hnone

end FramePacket

/-- The packets of one datagram. One with a short header is the last. -/
inductive Packed (cid : ConnectionID) : List FramePacket → Prop where
  | nil : Packed cid []
  | long {p : FramePacket} {packets : List FramePacket} {h : LongHeader} (hp : p.IsLong h)
      (hrest : Packed cid packets)
      : Packed cid (p :: packets)
  | short {p : FramePacket} {h : ShortHeader} (hp : p.IsShort cid h) : Packed cid [p]

theorem Packed.tail {cid : ConnectionID} {p : FramePacket} {packets : List FramePacket}
    (h : Packed cid (p :: packets))
    : Packed cid packets := by
  cases h with
  | long _ hrest => exact hrest
  | short _ => exact Packed.nil

theorem Packed.drop {cid : ConnectionID} {packets : List FramePacket} (h : Packed cid packets) (k : Nat)
    : Packed cid (packets.drop k) := by
  induction k generalizing packets with
  | zero => exact h
  | succ k ih =>
    cases packets with
    | nil => exact Packed.nil
    | cons p packets => exact ih h.tail

/-- The numbers of a space have the same high bytes, whichever of them is the largest so far. -/
def Interchangeable (all : List FramePacket) : Prop :=
  ∀ p ∈ all, ∀ q ∈ all, q.pnSpace = p.pnSpace → p.Numbered q.header.packetNumber

/-- The connection can read each of the packets next. -/
structure Connection.Reads (all : List FramePacket) (cid : ConnectionID) (conn : Connection) : Prop where
  readable : conn.Readable
  sourceCID : conn.sourceCID = cid
  largest_lt : ∀ space, conn.largestPNsReceived space < 2 ^ 64
  numbered : ∀ p ∈ all, p.Numbered (conn.largestPNsReceived p.pnSpace)

def headerRead (cryptoState : Option CryptoState) : Option (List UInt8 → Fin 5 → UInt8) :=
  cryptoState.bind CryptoState.headerRead

theorem headerCipher_of_no_headerRead {cryptoState : Option CryptoState} (h : headerRead cryptoState = none)
    : headerCipher cryptoState = none := by
  unfold headerRead at h
  unfold headerCipher
  cases cryptoState with
  | none => rfl
  | some state =>
    rw [Option.bind_some] at h
    rw [Option.bind_eq_bind, Option.bind_some, h]
    rfl

/-- The keys are the ones of the peer, or there are none. -/
def Connection.HasKeys (keys : EncryptionLevel → Keys) (conn : Connection) : Prop :=
  ∀ level, (keys level).MirroredBy (conn.cryptoStates level) ∨ headerRead (conn.cryptoStates level) = none

namespace ParsingAgent

section Early

variable {keys : EncryptionLevel → Keys} {cid : ConnectionID} {all : List FramePacket}
variable {p : FramePacket} {packets : List FramePacket}

theorem numbered_raise (hall : Interchangeable all) {largest : PNSpace → Nat}
    (h : ∀ p ∈ all, p.Numbered (largest p.pnSpace)) {q : FramePacket} (hq : q ∈ all)
    : ∀ p ∈ all, p.Numbered (raise largest q p.pnSpace) := by
  intro p hp
  unfold raise
  split
  . by_cases hspace : p.pnSpace = q.pnSpace
    . rw [hspace, Function.update_self]
      exact hall p hp q hq hspace.symm
    . rw [Function.update_of_ne hspace]
      exact h p hp
  . exact h p hp

theorem front_opened {conn : Connection} (hconn : conn.Reads all cid) (hmem : p ∈ all)
    (hp : Packed cid (p :: packets))
    (hkeys : (keys p.encryptionLevel).MirroredBy (conn.cryptoStates p.encryptionLevel))
    {bytes : List UInt8} (hsent : p.Sent keys bytes) {later : List UInt8} (hlater : packets = [] → later = [])
    : ∃ header headerBytes payload,
        p.Unprotected (keys p.encryptionLevel).aead.overhead header headerBytes payload ∧
        payload.length ≤ bytes.length ∧
        p.Opened conn bytes later (headerBytes ++ payload) headerBytes.length := by
  have hnumber := hconn.numbered p hmem
  have hjoin := hnumber.join (hconn.largest_lt p.pnSpace)
  rcases hsent.unprotected with ⟨header, headerBytes, payload, hu, hprotect⟩
  have hlen : payload.length ≤ bytes.length := by
    rw [length_protectHeader hprotect]
    rw [List.length_append]
    rw [(keys p.encryptionLevel).length_encrypt]
    omega
  refine ⟨header, headerBytes, payload, hu, hlen, ?_⟩
  cases hp with
  | long hp _ => exact FramePacket.opened_long hp hsent hkeys hjoin hnumber.truncated hu hprotect later
  | short hp =>
    rw [← hconn.sourceCID] at hp
    rw [hlater rfl]
    exact FramePacket.opened_short hp hsent hkeys hjoin hnumber.truncated hu hprotect

theorem front_unprocessed {conn : Connection} (hconn : conn.Reads all cid) (hmem : p ∈ all)
    (hp : Packed cid (p :: packets))
    (hnone : headerCipher (conn.cryptoStates p.encryptionLevel) = none)
    {bytes : List UInt8} (hsent : p.Sent keys bytes) {later : List UInt8} (hlater : packets = [] → later = [])
    : (pass conn (bytes ++ later)).outcome = some (.unprocessed p.encryptionLevel (bytes ++ later)) := by
  have hpn := (hconn.numbered p hmem).truncated
  cases hp with
  | long hp _ => exact FramePacket.unprocessed_long hp hsent hpn hnone later
  | short hp =>
    rw [← hconn.sourceCID] at hp
    rw [hlater rfl, List.append_nil]
    exact FramePacket.unprocessed_short hp hsent hpn hnone

/--
The packets in front are recovered, up to the first one without a key. From there on the datagram is handed
over for the level of this packet.
-/
structure TakenApart (keys : EncryptionLevel → Keys) (all : List FramePacket) (cid : ConnectionID)
    (packets : List FramePacket) (sent : List (List UInt8)) (s s' : Progress) (k : Nat) : Prop where
  incoming : ∃ received, s'.incoming = s.incoming ++ received ∧
    List.Forall₂ (FramePacket.RecoveredAs keys) (packets.take k) received
  conn : s'.conn.Reads all cid
  cryptoStates : s'.conn.cryptoStates = s.conn.cryptoStates
  unprocessed : packets.drop k = [] ∧ s'.unprocessed = s.unprocessed ∨
    ∃ p rest, packets.drop k = p :: rest ∧
      headerCipher (s.conn.cryptoStates p.encryptionLevel) = none ∧
      s'.unprocessed = s.unprocessed ++ [(p.encryptionLevel, (sent.drop k).flatten)]

theorem TakenApart.cons {sent : List (List UInt8)} {bytes : List UInt8} {s s1 s' : Progress} {k : Nat}
    (h : TakenApart keys all cid packets sent s1 s' k) {received : Packet × List UInt8}
    (hreceived : p.RecoveredAs keys received) (hincoming : s1.incoming = s.incoming ++ [received])
    (hstates : s1.conn.cryptoStates = s.conn.cryptoStates) (hunprocessed : s1.unprocessed = s.unprocessed)
    : TakenApart keys all cid (p :: packets) (bytes :: sent) s s' (k + 1) := by
  rcases h.incoming with ⟨rest, hrest, hforall⟩
  refine ⟨⟨received :: rest, ?_, ?_⟩, h.conn, h.cryptoStates.trans hstates, ?_⟩
  . rw [hrest, hincoming, List.append_assoc]
    rfl
  . rw [List.take_succ_cons]
    exact List.Forall₂.cons hreceived hforall
  . rw [← hunprocessed, ← hstates, List.drop_succ_cons, List.drop_succ_cons]
    exact h.unprocessed

theorem reads_of_opened {conn conn' : Connection} (h : conn.Reads all cid)
    (hall : Interchangeable all) (hp : p ∈ all) (hreadable : conn'.Readable)
    (hcid : conn'.sourceCID = conn.sourceCID)
    (hlargest : conn'.largestPNsReceived = raise conn.largestPNsReceived p)
    : conn'.Reads all cid := by
  refine ⟨hreadable, hcid.trans h.sourceCID, ?_, ?_⟩
  . rw [hlargest]
    exact raise_lt h.largest_lt ((h.numbered p hp).lt (h.largest_lt p.pnSpace))
  . rw [hlargest]
    exact numbered_raise hall h.numbered hp

theorem round_unprocessed {udpPayload : List UInt8} {s : Progress} {level : EncryptionLevel}
    {payload : List UInt8}
    (h : (pass s.conn (udpPayload.drop s.off)).outcome = some (.unprocessed level payload))
    : round udpPayload s = some ({ s with unprocessed := s.unprocessed ++ [(level, payload)] }, false) := by
  unfold round
  dsimp only
  rw [h]
  rfl

theorem rounds_early {sent : List (List UInt8)} (hall : Interchangeable all)
    (hsent : List.Forall₂ (fun p bytes => p.Sent keys bytes) packets sent) (hp : Packed cid packets)
    (hknown : ∀ p ∈ packets, p.FramesKnown) (hmem : packets ⊆ all) {s : Progress}
    (hconn : s.conn.Reads all cid) (hkeys : s.conn.HasKeys keys) {udpPayload : List UInt8}
    (hudp : udpPayload.drop s.off = sent.flatten) (hoff : s.off ≤ udpPayload.length)
    (hlen : udpPayload.length < 2 ^ 62) {n : Nat} (hn : sent.flatten.length ≤ n)
    : ∃ k s', rounds n udpPayload s = some s' ∧ TakenApart keys all cid packets sent s s' k := by
  induction hsent generalizing s n with
  | nil =>
    have hle := List.drop_eq_nil_iff.mp hudp
    refine ⟨0, s, ?_, ⟨[], by simp, List.Forall₂.nil⟩, hconn, rfl, Or.inl ⟨rfl, rfl⟩⟩
    unfold rounds
    rw [if_neg (by omega)]
  | @cons p bytes packets sent hsent hrest ih =>
    have hlater : packets = [] → sent.flatten = [] := by
      intro hnil
      rw [hnil] at hrest
      cases hrest
      rfl
    rcases hsent.unprotected with ⟨header, headerBytes, payload, hu, _⟩
    have hpos : 20 ≤ bytes.length := by
      have := hsent.sample _ _ _ hu
      omega
    rw [List.flatten_cons] at hudp hn
    rw [List.length_append] at hn
    have hsize : bytes.length + sent.flatten.length = udpPayload.length - s.off := by
      rw [← List.length_append, ← hudp, List.length_drop]
    have hpmem : p ∈ all := hmem List.mem_cons_self
    cases n with
    | zero => omega
    | succ n =>
      unfold rounds
      rw [if_pos (by omega)]
      rcases hkeys p.encryptionLevel with hmirrored | hnone
      . -- The packet is opened, the rounds go on behind it.
        rcases front_opened hconn hpmem hp hmirrored hsent hlater
          with ⟨header, headerBytes, payload, hu, hle, hopen⟩
        rcases round_opened hopen List.drop_left (by omega) rfl hconn.readable hudp with hpanic | hround
        . exact absurd (hu.framesKnown_iff.mp (hknown p List.mem_cons_self)) hpanic.1
        . rcases hround with ⟨_, packet, conn', hspace, hnumber, hheader, hreadable, hcid, hstates,
            hlargest, hround⟩
          have hrecovered : p.RecoveredAs keys (.frames packet, headerBytes ++ payload) :=
            ⟨header, headerBytes, payload, packet, hu, rfl, hspace, hnumber, hheader⟩
          have hconn' := reads_of_opened hconn hall hpmem hreadable hcid hlargest
          have hkeys' : conn'.HasKeys keys := by
            unfold Connection.HasKeys
            rw [hstates]
            exact hkeys
          rw [hround]
          dsimp only [Option.bind_eq_bind, Option.bind_some]
          rw [if_pos rfl]
          have hnext := @ih hp.tail (fun q hq => hknown q (List.mem_cons_of_mem p hq))
            (fun q hq => hmem (List.mem_cons_of_mem p hq))
            { s with
              conn := conn'
              off := s.off + bytes.length
              incoming := s.incoming ++ [(.frames packet, headerBytes ++ payload)] } hconn' hkeys'
            (by rw [← List.drop_drop, hudp]; exact List.drop_left) (by dsimp only; omega) n (by omega)
          rcases hnext with ⟨k, s', hrounds, htaken⟩
          exact ⟨k + 1, s', hrounds, htaken.cons hrecovered rfl hstates rfl⟩
      . -- The rest of the datagram is handed over.
        have hnone := headerCipher_of_no_headerRead hnone
        have houtcome := front_unprocessed hconn hpmem hp hnone hsent hlater
        rw [← hudp] at houtcome
        rw [round_unprocessed houtcome]
        refine ⟨0, _, rfl, ⟨[], ?_, List.Forall₂.nil⟩, hconn, rfl, ?_⟩
        . exact (List.append_nil _).symm
        . refine Or.inr ⟨p, packets, rfl, hnone, ?_⟩
          rw [hudp]
          rfl

end Early

end ParsingAgent

end QuicTracker
