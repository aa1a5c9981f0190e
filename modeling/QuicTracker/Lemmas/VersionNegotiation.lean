import QuicTracker.Lemmas.HeaderCodec
import QuicTracker.Lemmas.HeaderLength

/-!
This module contains what the parsing agent does with a Version Negotiation packet. It is first read as
a long header, whose fields it does not have.
-/

namespace QuicTracker

open ByteReader

theorem readSupportedVersions_flatMap {versions : List Nat} (h : ∀ v ∈ versions, v < 2 ^ 32)
    : readSupportedVersions (versions.flatMap (beBytes 4)) = versions := by
  induction versions with
  | nil => rfl
  | cons v versions ih =>
    have hv : beNat (beBytes 4 v) = v := by
      apply beNat_beBytes_of_lt
      exact h v List.mem_cons_self
    have hrest := ih (fun v' hv' => h v' (List.mem_cons_of_mem v hv'))
    rcases length_eq_four (length_beBytes 4 v) with ⟨a, b, c, d, hbytes⟩
    rw [hbytes] at hv
    rw [List.flatMap_cons]
    rw [hbytes]
    simp only [List.cons_append, List.nil_append, readSupportedVersions]
    rw [hv, hrest]

theorem ParsingAgent.receive_of_round {conn : Connection} {bytes : List UInt8} {s : Progress}
    (hbytes : bytes ≠ []) (h : round bytes { conn := conn } = some (s, false))
    : receive conn bytes = some s := by
  cases bytes with
  | nil => contradiction
  | cons b bytes =>
    unfold receive rounds
    rw [List.length_cons]
    dsimp only
    rw [if_pos (Nat.succ_pos bytes.length)]
    rw [h]
    rfl

def MakesAtMost (n : Nat) (makes : List Make) : Prop := ∀ m ∈ makes, m.size ≤ n

instance (n : Nat) (makes : List Make) : Decidable (MakesAtMost n makes) :=
  inferInstanceAs (Decidable (∀ m ∈ makes, _))

theorem makesAtMost_cons (n : Nat) (m : Make) (makes : List Make)
    : MakesAtMost n (m :: makes) ↔ m.size ≤ n ∧ MakesAtMost n makes :=
  List.forall_mem_cons

theorem makesAtMost_append (n : Nat) (makes makes' : List Make)
    : MakesAtMost n (makes ++ makes') ↔ MakesAtMost n makes ∧ MakesAtMost n makes' :=
  List.forall_mem_append

theorem readToken_makesAtMost (n : Nat) (packetType : UInt8) (b : List UInt8)
    : MakesAtMost n (readToken packetType b).makes ↔
        (packetType = PacketType.initial → ((readVarInt b).1.getD ⟨0, 0⟩).value ≤ n) := by
  unfold readToken
  split
  . next htype => simp [MakesAtMost, htype]
  . next htype => simp [MakesAtMost, htype]

theorem readLengthAndPN_makesAtMost {n : Nat} (hn : 4 ≤ n) (packetType typeByte : UInt8) (b : List UInt8)
    (conn : Connection)
    : MakesAtMost n (readLengthAndPN packetType typeByte b conn).makes := by
  unfold readLengthAndPN
  split
  . simp [MakesAtMost, readTruncatedPN.make, hn]
  . simp [MakesAtMost]

namespace VersionNegotiation

def datagram (unused : UInt8) (destinationCID sourceCID : ConnectionID) (versions : List Nat) :
    List UInt8 :=
  ((0x80 : UInt8) ||| unused) :: (beBytes 4 0 ++
    (((destinationCID.cidl <<< 4) ||| sourceCID.cidl) ::
      (destinationCID ++ (sourceCID ++ versions.flatMap (beBytes 4)))))

theorem typeByte_eq {unused : UInt8} (h : unused.toNat < 128)
    : ((0x80 : UInt8) ||| unused) &&& 0x80 = 0x80 ∧ ((0x80 : UInt8) ||| unused) &&& 0x7f = unused ∧
      ((((0x80 : UInt8) ||| unused) - 0xC0) >>> 4 = PacketType.initial ↔ unused &&& 0x70 = 0x40) := by
  revert h
  revert unused
  apply forall_byte
  decide +kernel

section

variable (unused : UInt8) (destinationCID sourceCID : ConnectionID) (versions : List Nat)

/-- The packet is submitted, and nothing larger than the datagram is allocated on the way. -/
def Recognised (conn : Connection) : Prop :=
  let bytes := datagram unused destinationCID sourceCID versions
  (∃ s, ParsingAgent.receive conn bytes = some s ∧
    s.incoming = [(.versionNegotiation ⟨unused, 0, destinationCID, sourceCID, versions⟩, bytes)]) ∧
  MakesAtMost bytes.length (ParsingAgent.pass conn bytes).makes

theorem readVersionNegotationPacket_lengths
    : ∃ packet makes, readVersionNegotationPacket (datagram unused destinationCID sourceCID versions)
          = some (packet, makes) ∧
        packet.destinationCID.length = dcil ((destinationCID.cidl <<< 4) ||| sourceCID.cidl) ∧
        packet.sourceCID.length = scil ((destinationCID.cidl <<< 4) ||| sourceCID.cidl) := by
  unfold readVersionNegotationPacket datagram
  dsimp only
  rw [readUint32_append (length_beBytes 4 0)]
  refine ⟨_, _, rfl, ?_, ?_⟩
  . apply length_readConnectionID
  . apply length_readConnectionID

theorem versionIsZero_datagram (h : unused.toNat < 128) (conn : Connection)
    : ParsingAgent.versionIsZero
        (readHeader (datagram unused destinationCID sourceCID versions) conn).header = true := by
  unfold datagram
  rw [readHeader_long (typeByte_eq h).1]
  unfold readLongHeader ParsingAgent.versionIsZero
  simp only [readByte_cons]
  rw [readUint32_append (length_beBytes 4 0)]
  exact decide_eq_true (by decide : beNat (beBytes 4 0) = 0)

theorem receive_datagram (h : unused.toNat < 128) (conn : Connection) {packet : VersionNegotiationPacket}
    {makes : List Make}
    (hread : readVersionNegotationPacket (datagram unused destinationCID sourceCID versions)
      = some (packet, makes))
    : let bytes := datagram unused destinationCID sourceCID versions
      ParsingAgent.pass conn bytes
        = ⟨some (.versionNegotiation packet), (readHeader bytes conn).makes ++ makes⟩ ∧
      ∃ s, ParsingAgent.receive conn bytes = some s ∧
        s.incoming = [(.versionNegotiation packet, bytes)] := by
  intro bytes
  have hpass : ParsingAgent.pass conn bytes
      = ⟨some (.versionNegotiation packet), (readHeader bytes conn).makes ++ makes⟩ := by
    unfold ParsingAgent.pass
    rw [if_pos (versionIsZero_datagram unused destinationCID sourceCID versions h conn)]
    rw [hread]
  refine ⟨hpass, ?_⟩
  have hround : ParsingAgent.round bytes { conn := conn }
      = some ({ conn := conn, incoming := [(.versionNegotiation packet, bytes)] }, false) := by
    unfold ParsingAgent.round
    dsimp only
    rw [List.drop_zero]
    rw [hpass]
    rfl
  refine ⟨{ conn := conn, incoming := [(.versionNegotiation packet, bytes)] }, ?_, rfl⟩
  apply ParsingAgent.receive_of_round (List.cons_ne_nil _ _) hround

/-- What a long header would take for the length of its token. -/
def tokenLength (versions : List Nat) : Nat :=
  ((readVarInt (versions.flatMap (beBytes 4))).1.getD ⟨0, 0⟩).value

variable {destinationCID sourceCID versions} in
theorem readVersionNegotationPacket_datagram (h : unused.toNat < 128)
    (hversions : ∀ v ∈ versions, v < 2 ^ 32)
    (hd : destinationCID.length = dcil ((destinationCID.cidl <<< 4) ||| sourceCID.cidl))
    (hs : sourceCID.length = scil ((destinationCID.cidl <<< 4) ||| sourceCID.cidl))
    : ∃ makes, readVersionNegotationPacket (datagram unused destinationCID sourceCID versions)
          = some (⟨unused, 0, destinationCID, sourceCID, versions⟩, makes) ∧
        makes.map Make.size = [destinationCID.length, sourceCID.length] := by
  unfold readVersionNegotationPacket datagram
  simp only [readUint32_append (length_beBytes 4 0), readByte_cons, Option.getD_some,
    readConnectionID_append hd, readConnectionID_append hs, (typeByte_eq h).2.1,
    readSupportedVersions_flatMap hversions]
  refine ⟨_, rfl, ?_⟩
  rw [← hd, ← hs]
  rfl

variable {destinationCID sourceCID} in
theorem readHeader_datagram_makesAtMost (h : unused.toNat < 128) (conn : Connection)
    (hd : destinationCID.length = dcil ((destinationCID.cidl <<< 4) ||| sourceCID.cidl))
    (hs : sourceCID.length = scil ((destinationCID.cidl <<< 4) ||| sourceCID.cidl))
    {n : Nat} (hn : 4 ≤ n)
    : MakesAtMost n (readHeader (datagram unused destinationCID sourceCID versions) conn).makes ↔
        destinationCID.length ≤ n ∧ sourceCID.length ≤ n ∧
        (unused &&& 0x70 = 0x40 → tokenLength versions ≤ n) := by
  unfold datagram
  rw [readHeader_long (typeByte_eq h).1]
  simp only [readLongHeader, readByte_cons, Option.getD_some, readUint32_append (length_beBytes 4 0),
    readConnectionID_append hd, readConnectionID_append hs]
  rw [makesAtMost_cons, makesAtMost_cons, makesAtMost_append]
  rw [readToken_makesAtMost, (typeByte_eq h).2.2]
  rw [← hd, ← hs]
  simp only [readLengthAndPN_makesAtMost hn, and_true]
  rfl

theorem length_datagram
    : (datagram unused destinationCID sourceCID versions).length
        = 6 + destinationCID.length + sourceCID.length + (versions.flatMap (beBytes 4)).length := by
  unfold datagram
  simp only [List.length_cons, List.length_append, length_beBytes]
  omega

-- An empty connection ID is read with three bytes.
variable {unused destinationCID sourceCID versions} in
theorem ne_nil_of_recognised (h : unused.toNat < 128) (hd : destinationCID.Allowed)
    (hs : sourceCID.Allowed) {conn : Connection}
    (hrec : Recognised unused destinationCID sourceCID versions conn)
    : destinationCID ≠ [] ∧ sourceCID ≠ [] := by
  rcases hrec.1 with ⟨s, hs', hincoming⟩
  rcases readVersionNegotationPacket_lengths unused destinationCID sourceCID versions with
    ⟨packet, makes, hread, hdcid, hscid⟩
  rcases (receive_datagram unused destinationCID sourceCID versions h conn hread).2 with
    ⟨s', hs'', hincoming'⟩
  rw [hs'] at hs''
  injection hs'' with hs''
  rw [← hs'', hincoming] at hincoming'
  have hpacket : packet = ⟨unused, 0, destinationCID, sourceCID, versions⟩ := by
    simpa using hincoming'.symm
  rw [hpacket] at hdcid hscid
  rw [ConnectionID.dcil_cidl hd hs] at hdcid
  rw [ConnectionID.scil_cidl hd hs] at hscid
  constructor
  . rintro rfl
    simp at hdcid
  . rintro rfl
    simp at hscid

end

theorem recognised_iff (conn : Connection) (unused : UInt8) (h : unused.toNat < 128)
    (destinationCID sourceCID : ConnectionID) (hd : destinationCID.Allowed) (hs : sourceCID.Allowed)
    (versions : List Nat) (hversions : ∀ v ∈ versions, v < 2 ^ 32)
    : Recognised unused destinationCID sourceCID versions conn ↔
        destinationCID ≠ [] ∧ sourceCID ≠ [] ∧ (unused &&& 0x70 = 0x40 →
          tokenLength versions ≤ (datagram unused destinationCID sourceCID versions).length) := by
  have hlength := length_datagram unused destinationCID sourceCID versions
  by_cases hne : destinationCID ≠ [] ∧ sourceCID ≠ []
  . have hdcid : destinationCID.length = dcil ((destinationCID.cidl <<< 4) ||| sourceCID.cidl) := by
      rw [ConnectionID.dcil_cidl hd hs, if_neg hne.1]
    have hscid : sourceCID.length = scil ((destinationCID.cidl <<< 4) ||| sourceCID.cidl) := by
      rw [ConnectionID.scil_cidl hd hs, if_neg hne.2]
    rcases readVersionNegotationPacket_datagram unused h hversions hdcid hscid with
      ⟨makes, hread, hsizes⟩
    rcases receive_datagram unused destinationCID sourceCID versions h conn hread with
      ⟨hpass, hreceive⟩
    have hwithin := readHeader_datagram_makesAtMost unused versions h conn hdcid hscid
      (by omega : 4 ≤ (datagram unused destinationCID sourceCID versions).length)
    have hmakes : MakesAtMost (datagram unused destinationCID sourceCID versions).length makes := by
      intro m hm
      have hsize : m.size ∈ makes.map Make.size := List.mem_map_of_mem hm
      rw [hsizes] at hsize
      simp at hsize
      omega
    unfold Recognised
    dsimp only
    rw [hpass]
    dsimp only
    rw [makesAtMost_append, hwithin]
    constructor
    . rintro ⟨_, ⟨_, _, htoken⟩, _⟩
      exact ⟨hne.1, hne.2, htoken⟩
    . rintro ⟨_, _, htoken⟩
      exact ⟨hreceive, ⟨by omega, by omega, htoken⟩, hmakes⟩
  . constructor
    . intro hrec
      exact absurd (ne_nil_of_recognised h hd hs hrec) hne
    . rintro ⟨hd', hs', _⟩
      exact absurd ⟨hd', hs'⟩ hne

theorem recognised_iff_draft
    : Recognised 0x2a [1, 2, 3, 4] [5, 6, 7, 8] [0xff00000f, 0x0a1a2a3a]
        (ParsingAgent.probe 4 (fun _ => false) 0) := by
  apply (recognised_iff _ 0x2a (by decide) [1, 2, 3, 4] [5, 6, 7, 8] (Or.inr ⟨by decide, by decide⟩)
    (Or.inr ⟨by decide, by decide⟩) [0xff00000f, 0x0a1a2a3a] (by decide)).mpr
  exact ⟨by decide, by decide, fun h => absurd h (by decide)⟩

/--
The client of the first packet has an empty connection ID. The second one has the bits of an Initial packet,
and its first version stands where the length of the token would be.
-/
theorem not_recognised
    : ¬ Recognised 0 [] [5, 6, 7, 8] [0xff00000f] (ParsingAgent.probe 0 (fun _ => false) 0) ∧
      ¬ Recognised 0x40 [1, 2, 3, 4] [5, 6, 7, 8] [0x4a1a2a3a]
        (ParsingAgent.probe 4 (fun _ => false) 0) := by
  constructor
  . intro hrec
    have hne := ne_nil_of_recognised (by decide) (Or.inl rfl) (Or.inr ⟨by decide, by decide⟩) hrec
    exact hne.1 rfl
  . intro hrec
    exact absurd hrec.2 (by decide +kernel)

end VersionNegotiation

end QuicTracker
