import QuicTracker.Lemmas.Frames.Payload

/-!
This module contains the layout of the frames on the wire: the fields of a frame with their values, the
parts that a type byte calls for, and how the ones are cut out of the others.
-/

namespace QuicTracker

open ByteReader

namespace Wire

inductive Field where
  | varInt (i : Nat)
  | uint16 (i : Nat)
  | bytes (data : List UInt8)

def Field.Encoding (field : Field) (w : List UInt8) : Prop :=
  match field with
  | .varInt i => VarIntForm w i
  | .uint16 i => w.length = 2 ∧ beNat w = i
  | .bytes data => w = data

inductive Encoding : List Field → List UInt8 → Prop where
  | nil : Encoding [] []
  | cons {field : Field} {fields : List Field} {w ws : List UInt8} (head : field.Encoding w)
      (tail : Encoding fields ws) : Encoding (field :: fields) (w ++ ws)

theorem Encoding.append {fields fields' : List Field} {w w' : List UInt8} (h : Encoding fields w)
    (h' : Encoding fields' w')
    : Encoding (fields ++ fields') (w ++ w') := by
  induction h with
  | nil => exact h'
  | cons head _ ih =>
    rw [List.append_assoc]
    exact .cons head ih

theorem Encoding.single {field : Field} {w : List UInt8} (h : field.Encoding w)
    : Encoding [field] w := by
  rw [← List.append_nil w]
  exact .cons h .nil

theorem encoding_nil {w : List UInt8} : Encoding [] w ↔ w = [] := by
  apply Iff.intro
  . intro h
    cases h
    rfl
  . intro h
    rw [h]
    exact .nil

theorem encoding_cons {field : Field} {fields : List Field} {w : List UInt8}
    : Encoding (field :: fields) w ↔
        ∃ w₁ w₂, w = w₁ ++ w₂ ∧ field.Encoding w₁ ∧ Encoding fields w₂ := by
  apply Iff.intro
  . intro h
    cases h with
    | cons head tail => exact ⟨_, _, rfl, head, tail⟩
  . intro h
    rcases h with ⟨w₁, w₂, heq, head, tail⟩
    rw [heq]
    exact .cons head tail

theorem encoding_append {fields fields' : List Field} {w : List UInt8}
    : Encoding (fields ++ fields') w ↔
        ∃ w₁ w₂, w = w₁ ++ w₂ ∧ Encoding fields w₁ ∧ Encoding fields' w₂ := by
  apply Iff.intro
  . intro h
    induction fields generalizing w with
    | nil => exact ⟨[], w, rfl, .nil, h⟩
    | cons field fields ih =>
      rcases encoding_cons.mp h with ⟨w₁, w₂, heq, head, tail⟩
      rcases ih tail with ⟨w₃, w₄, heq', htail, hfields'⟩
      refine ⟨w₁ ++ w₃, w₄, ?_, .cons head htail, hfields'⟩
      rw [heq]
      rw [heq']
      rw [List.append_assoc]
  . intro h
    rcases h with ⟨w₁, w₂, heq, hfields, hfields'⟩
    rw [heq]
    exact hfields.append hfields'

def skipVarInt (b : List UInt8) : Option (Nat × List UInt8) :=
  match readVarIntValue b with
  | (some i, b) => some (i, b)
  | (none, _) => none

def skipBytes (n : Nat) (b : List UInt8) : Option (List UInt8) :=
  if n ≤ b.length then some (b.drop n) else none

def skipPairs (n : Nat) (b : List UInt8) : Option (List UInt8) :=
  match n with
  | 0 => some b
  | n + 1 => do
    let (_, b) ← skipVarInt b
    let (_, b) ← skipVarInt b
    skipPairs n b

/-- A part of a frame whose extent is known from its own bytes. -/
inductive Item where
  | varInt
  | uint16
  | fixed (n : Nat)
  | counted
  | byteCounted
  | ackRanges
  deriving DecidableEq

def Item.skip (item : Item) (b : List UInt8) : Option (List UInt8) :=
  match item with
  | .varInt => do
    let (_, b) ← skipVarInt b
    return b
  | .uint16 => skipBytes 2 b
  | .fixed n => skipBytes n b
  | .counted => do
    let (n, b) ← skipVarInt b
    skipBytes n b
  | .byteCounted =>
    match b with
    | [] => none
    | n :: b => skipBytes n.toNat b
  | .ackRanges => do
    let (count, b) ← skipVarInt b
    let (_, b) ← skipVarInt b
    skipPairs count b

def skipAll (items : List Item) (b : List UInt8) : Option (List UInt8) :=
  match items with
  | [] => some b
  | item :: items => do
    let b ← item.skip b
    skipAll items b

def streamLayout (offBit lenBit : Bool) : List Item :=
  .varInt :: ((if offBit then [.varInt] else []) ++ (if lenBit then [.counted] else []))

/-- What follows the type byte, apart from the data of a stream frame without a length. -/
def layout (typeByte : UInt8) : List Item :=
  match typeByte.toNat with
  | 0x02 => [.varInt, .varInt, .ackRanges]
  | 0x03 => [.varInt, .varInt, .ackRanges, .varInt, .varInt, .varInt]
  | 0x04 => [.varInt, .uint16, .varInt]
  | 0x05 => [.varInt, .uint16]
  | 0x06 => [.varInt, .counted]
  | 0x07 => [.counted]
  | 0x08 => streamLayout false false
  | 0x09 => streamLayout false false
  | 0x0a => streamLayout false true
  | 0x0b => streamLayout false true
  | 0x0c => streamLayout true false
  | 0x0d => streamLayout true false
  | 0x0e => streamLayout true true
  | 0x0f => streamLayout true true
  | 0x10 => [.varInt]
  | 0x11 => [.varInt, .varInt]
  | 0x12 => [.varInt]
  | 0x13 => [.varInt]
  | 0x14 => [.varInt]
  | 0x15 => [.varInt, .varInt]
  | 0x16 => [.varInt]
  | 0x17 => [.varInt]
  | 0x18 => [.varInt, .byteCounted, .fixed 16]
  | 0x19 => [.varInt]
  | 0x1a => [.fixed 8]
  | 0x1b => [.fixed 8]
  | 0x1c => [.uint16, .varInt, .counted]
  | 0x1d => [.uint16, .counted]
  | _ => []

def Untruncated (b : List UInt8) : Prop :=
  match b with
  | [] => False
  | typeByte :: b => (skipAll (layout typeByte) b).isSome

instance (b : List UInt8) : Decidable (Untruncated b) :=
  match b with
  | [] => inferInstanceAs (Decidable False)
  | typeByte :: b => inferInstanceAs (Decidable ((skipAll (layout typeByte) b).isSome = true))

theorem skipVarInt_append {w : List UInt8} {i : Nat} (h : VarIntForm w i) (rest : List UInt8)
    : skipVarInt (w ++ rest) = some (i, rest) := by
  unfold skipVarInt
  rw [h.isVarInt rest]

theorem skipVarInt_eq_some {b rest : List UInt8} {i : Nat} (h : skipVarInt b = some (i, rest))
    : ∃ w, b = w ++ rest ∧ VarIntForm w i := by
  unfold skipVarInt at h
  apply exists_varIntForm
  split at h
  . next heq =>
    injection h with h
    rw [heq]
    injection h with hi hrest
    rw [hi, hrest]
  . contradiction

theorem skipBytes_append {n : Nat} {data : List UInt8} (h : data.length = n) (rest : List UInt8)
    : skipBytes n (data ++ rest) = some rest := by
  unfold skipBytes
  subst h
  simp

theorem skipBytes_eq_some {n : Nat} {b rest : List UInt8} (h : skipBytes n b = some rest)
    : ∃ data, b = data ++ rest ∧ data.length = n := by
  unfold skipBytes at h
  split at h
  . next hle =>
    injection h with h
    refine ⟨b.take n, ?_, by simp [hle]⟩
    rw [← h]
    rw [List.take_append_drop]
  . contradiction

def pairFields (blocks : List AckBlock) : List Field :=
  blocks.flatMap (fun ack => [.varInt ack.gap, .varInt ack.block])

theorem skipPairs_append {blocks : List AckBlock} {w : List UInt8}
    (h : Encoding (pairFields blocks) w) (rest : List UInt8)
    : skipPairs blocks.length (w ++ rest) = some rest := by
  induction blocks generalizing w with
  | nil =>
    rw [encoding_nil.mp h]
    rfl
  | cons ack blocks ih =>
    rcases encoding_cons.mp h with ⟨w₁, _, rfl, hgap, h⟩
    rcases encoding_cons.mp h with ⟨w₂, w₃, rfl, hblock, h⟩
    simp only [List.length_cons, skipPairs, List.append_assoc]
    rw [skipVarInt_append hgap]
    dsimp
    rw [skipVarInt_append hblock]
    exact ih h

theorem skipPairs_eq_some {n : Nat} {b rest : List UInt8} (h : skipPairs n b = some rest)
    : ∃ blocks w, b = w ++ rest ∧ Encoding (pairFields blocks) w ∧ blocks.length = n := by
  induction n generalizing b with
  | zero =>
    injection h with h
    exact ⟨[], [], h, .nil, rfl⟩
  | succ n ih =>
    rcases Option.bind_eq_some_iff.mp h with ⟨⟨gap, b₁⟩, hgap, h₁⟩
    rcases Option.bind_eq_some_iff.mp h₁ with ⟨⟨block, b₂⟩, hblock, h₂⟩
    rcases skipVarInt_eq_some hgap with ⟨w₁, hb, hgap'⟩
    rcases skipVarInt_eq_some hblock with ⟨w₂, hb₁, hblock'⟩
    rcases ih h₂ with ⟨blocks, w, hb₂, hw, hn⟩
    refine ⟨⟨gap, block⟩ :: blocks, w₁ ++ (w₂ ++ w), ?_, .cons hgap' (.cons hblock' hw), ?_⟩
    . rw [hb, hb₁, hb₂]
      simp
    . simp [hn]

inductive Shape : List Item → List Field → Prop where
  | nil : Shape [] []
  | varInt (i : Nat) {items fields} (tail : Shape items fields) :
      Shape (.varInt :: items) (.varInt i :: fields)
  | uint16 (i : Nat) {items fields} (tail : Shape items fields) :
      Shape (.uint16 :: items) (.uint16 i :: fields)
  | fixed {n : Nat} (data : List UInt8) (len : data.length = n) {items fields}
      (tail : Shape items fields) : Shape (.fixed n :: items) (.bytes data :: fields)
  | counted {n : Nat} (data : List UInt8) (len : data.length = n) {items fields}
      (tail : Shape items fields) :
      Shape (.counted :: items) (.varInt n :: .bytes data :: fields)
  | byteCounted (n : UInt8) (data : List UInt8) (len : data.length = n.toNat) {items fields}
      (tail : Shape items fields) :
      Shape (.byteCounted :: items) (.bytes [n] :: .bytes data :: fields)
  | ackRanges {count : Nat} (first : Nat) (blocks : List AckBlock) (len : blocks.length = count)
      {items fields} (tail : Shape items fields) :
      Shape (.ackRanges :: items)
        (.varInt count :: .varInt first :: (pairFields blocks ++ fields))

theorem skipAll_append {items : List Item} {fields : List Field} (h : Shape items fields)
    {w : List UInt8} (hw : Encoding fields w) (rest : List UInt8)
    : skipAll items (w ++ rest) = some rest := by
  induction h generalizing w with
  | nil =>
    rw [encoding_nil.mp hw]
    rfl
  | varInt i _ ih =>
    rcases encoding_cons.mp hw with ⟨w₁, w₂, heq, hi, htail⟩
    simp [heq, skipAll, Item.skip, skipVarInt_append hi, ih htail]
  | uint16 i _ ih =>
    rcases encoding_cons.mp hw with ⟨w₁, w₂, heq, hi, htail⟩
    simp [heq, skipAll, Item.skip, skipBytes_append hi.1, ih htail]
  | fixed data len _ ih =>
    rcases encoding_cons.mp hw with ⟨w₁, w₂, heq, hdata, htail⟩
    rw [heq, hdata]
    simp [skipAll, Item.skip, skipBytes_append len, ih htail]
  | counted data len _ ih =>
    rcases encoding_cons.mp hw with ⟨w₁, w', heq, hn, hw'⟩
    rcases encoding_cons.mp hw' with ⟨w₂, w₃, heq', hdata, htail⟩
    rw [heq, heq', hdata]
    simp [skipAll, Item.skip, skipVarInt_append hn, skipBytes_append len, ih htail]
  | byteCounted n data len _ ih =>
    rcases encoding_cons.mp hw with ⟨w₁, w', heq, hn, hw'⟩
    rcases encoding_cons.mp hw' with ⟨w₂, w₃, heq', hdata, htail⟩
    rw [heq, heq', hn, hdata]
    simp [skipAll, Item.skip, skipBytes_append len, ih htail]
  | ackRanges first blocks len _ ih =>
    subst len
    rcases encoding_cons.mp hw with ⟨w₁, w', heq, hn, hw'⟩
    rcases encoding_cons.mp hw' with ⟨w₂, w'', heq', hfirst, hw''⟩
    rcases encoding_append.mp hw'' with ⟨w₃, w₄, heq'', hblocks, htail⟩
    simp [heq, heq', heq'', skipAll, Item.skip, skipVarInt_append hn, skipVarInt_append hfirst,
      skipPairs_append hblocks, ih htail]

theorem skip_eq_some {item : Item} {b rest : List UInt8} (h : item.skip b = some rest)
    : ∃ fields w, b = w ++ rest ∧ Encoding fields w ∧
        ∀ items tail, Shape items tail → Shape (item :: items) (fields ++ tail) := by
  cases item with
  | varInt =>
    rcases Option.bind_eq_some_iff.mp h with ⟨⟨i, b₁⟩, hi, h₁⟩
    injection h₁ with h₁
    rcases skipVarInt_eq_some hi with ⟨w, hb, hw⟩
    refine ⟨[.varInt i], w, by rw [hb, h₁], .single hw, ?_⟩
    intro items tail
    apply Shape.varInt
  | uint16 =>
    rcases skipBytes_eq_some h with ⟨w, hb, hw⟩
    refine ⟨[.uint16 (beNat w)], w, hb, .single ⟨hw, rfl⟩, ?_⟩
    intro items tail
    apply Shape.uint16
  | fixed n =>
    rcases skipBytes_eq_some h with ⟨w, hb, hw⟩
    refine ⟨[.bytes w], w, hb, .single rfl, ?_⟩
    intro items tail
    apply Shape.fixed w hw
  | counted =>
    rcases Option.bind_eq_some_iff.mp h with ⟨⟨n, b₁⟩, hn, h₁⟩
    rcases skipVarInt_eq_some hn with ⟨w, hb, hw⟩
    rcases skipBytes_eq_some h₁ with ⟨data, hb₁, hdata⟩
    refine ⟨[.varInt n, .bytes data], w ++ data, ?_, .cons hw (.single rfl), ?_⟩
    . rw [hb, hb₁, List.append_assoc]
    . intro items tail
      apply Shape.counted data hdata
  | byteCounted =>
    cases b with
    | nil => contradiction
    | cons n b =>
      rcases skipBytes_eq_some h with ⟨data, hb, hdata⟩
      rw [hb]
      refine ⟨[.bytes [n], .bytes data], [n] ++ data, rfl, .cons rfl (.single rfl), ?_⟩
      intro items tail
      apply Shape.byteCounted n data hdata
  | ackRanges =>
    rcases Option.bind_eq_some_iff.mp h with ⟨⟨count, b₁⟩, hcount, h₁⟩
    rcases Option.bind_eq_some_iff.mp h₁ with ⟨⟨first, b₂⟩, hfirst, h₂⟩
    rcases skipVarInt_eq_some hcount with ⟨w₁, hb, hw₁⟩
    rcases skipVarInt_eq_some hfirst with ⟨w₂, hb₁, hw₂⟩
    rcases skipPairs_eq_some h₂ with ⟨blocks, w₃, hb₂, hw₃, hlen⟩
    refine ⟨.varInt count :: .varInt first :: pairFields blocks, w₁ ++ (w₂ ++ w₃), ?_,
      .cons hw₁ (.cons hw₂ hw₃), ?_⟩
    . rw [hb, hb₁, hb₂]
      simp
    . intro items tail
      apply Shape.ackRanges first blocks hlen

theorem skipAll_eq_some {items : List Item} {b rest : List UInt8}
    (h : skipAll items b = some rest)
    : ∃ fields w, Shape items fields ∧ b = w ++ rest ∧ Encoding fields w := by
  induction items generalizing b with
  | nil =>
    injection h with h
    exact ⟨[], [], .nil, h, .nil⟩
  | cons item items ih =>
    rcases Option.bind_eq_some_iff.mp h with ⟨b₁, hitem, h₁⟩
    rcases skip_eq_some hitem with ⟨fields, w, hb, hw, hshape⟩
    rcases ih h₁ with ⟨fields', w', hshape', hb₁, hw'⟩
    refine ⟨fields ++ fields', w ++ w', hshape _ _ hshape', ?_, hw.append hw'⟩
    rw [hb, hb₁, List.append_assoc]

theorem Shape.inv_nil {fields : List Field} (h : Shape [] fields) {w : List UInt8}
    (hw : Encoding fields w)
    : fields = [] ∧ w = [] := by
  cases h
  exact ⟨rfl, encoding_nil.mp hw⟩

theorem Shape.inv_varInt {items : List Item} {fields : List Field}
    (h : Shape (.varInt :: items) fields) {w : List UInt8} (hw : Encoding fields w)
    : ∃ i fields' w₁ w₂, fields = .varInt i :: fields' ∧ w = w₁ ++ w₂ ∧ VarIntForm w₁ i ∧
        Shape items fields' ∧ Encoding fields' w₂ := by
  cases h with
  | varInt i tail =>
    rcases encoding_cons.mp hw with ⟨w₁, w₂, heq, hi, hw₂⟩
    exact ⟨i, _, w₁, w₂, rfl, heq, hi, tail, hw₂⟩

theorem Shape.inv_uint16 {items : List Item} {fields : List Field}
    (h : Shape (.uint16 :: items) fields) {w : List UInt8} (hw : Encoding fields w)
    : ∃ i fields' w₁ w₂, fields = .uint16 i :: fields' ∧ w = w₁ ++ w₂ ∧
        (w₁.length = 2 ∧ beNat w₁ = i) ∧ Shape items fields' ∧ Encoding fields' w₂ := by
  cases h with
  | uint16 i tail =>
    rcases encoding_cons.mp hw with ⟨w₁, w₂, heq, hi, hw₂⟩
    exact ⟨i, _, w₁, w₂, rfl, heq, hi, tail, hw₂⟩

theorem Shape.inv_fixed {n : Nat} {items : List Item} {fields : List Field}
    (h : Shape (.fixed n :: items) fields) {w : List UInt8} (hw : Encoding fields w)
    : ∃ data fields' w', fields = .bytes data :: fields' ∧ w = data ++ w' ∧ data.length = n ∧
        Shape items fields' ∧ Encoding fields' w' := by
  cases h with
  | fixed data len tail =>
    rcases encoding_cons.mp hw with ⟨w₁, w₂, heq, hdata, hw₂⟩
    exact ⟨data, _, w₂, rfl, by rw [heq, hdata], len, tail, hw₂⟩

theorem Shape.inv_counted {items : List Item} {fields : List Field}
    (h : Shape (.counted :: items) fields) {w : List UInt8} (hw : Encoding fields w)
    : ∃ n data fields' w₁ w₂, fields = .varInt n :: .bytes data :: fields' ∧
        w = w₁ ++ (data ++ w₂) ∧ VarIntForm w₁ n ∧ data.length = n ∧
        Shape items fields' ∧ Encoding fields' w₂ := by
  cases h with
  | counted data len tail =>
    rcases encoding_cons.mp hw with ⟨w₁, w', heq, hn, hw'⟩
    rcases encoding_cons.mp hw' with ⟨w₂, w₃, heq', hdata, hw₃⟩
    exact ⟨_, data, _, w₁, w₃, rfl, by rw [heq, heq', hdata], hn, len, tail, hw₃⟩

theorem Shape.inv_byteCounted {items : List Item} {fields : List Field}
    (h : Shape (.byteCounted :: items) fields) {w : List UInt8} (hw : Encoding fields w)
    : ∃ n data fields' w', fields = .bytes [n] :: .bytes data :: fields' ∧
        w = n :: (data ++ w') ∧ data.length = n.toNat ∧
        Shape items fields' ∧ Encoding fields' w' := by
  cases h with
  | byteCounted n data len tail =>
    rcases encoding_cons.mp hw with ⟨w₁, w', heq, hn, hw'⟩
    rcases encoding_cons.mp hw' with ⟨w₂, w₃, heq', hdata, hw₃⟩
    refine ⟨n, data, _, w₃, rfl, ?_, len, tail, hw₃⟩
    rw [heq, heq', hn, hdata]
    rfl

theorem Shape.inv_ackRanges {items : List Item} {fields : List Field}
    (h : Shape (.ackRanges :: items) fields) {w : List UInt8} (hw : Encoding fields w)
    : ∃ count first blocks fields' w₁ w₂ w₃ w₄,
        fields = .varInt count :: .varInt first :: (pairFields blocks ++ fields') ∧
        w = w₁ ++ (w₂ ++ (w₃ ++ w₄)) ∧ VarIntForm w₁ count ∧ VarIntForm w₂ first ∧
        Encoding (pairFields blocks) w₃ ∧ blocks.length = count ∧
        Shape items fields' ∧ Encoding fields' w₄ := by
  cases h with
  | ackRanges first blocks len tail =>
    rcases encoding_cons.mp hw with ⟨w₁, w', heq, hn, hw'⟩
    rcases encoding_cons.mp hw' with ⟨w₂, w'', heq', hfirst, hw''⟩
    rcases encoding_append.mp hw'' with ⟨w₃, w₄, heq'', hblocks, hw₄⟩
    exact ⟨_, first, blocks, _, w₁, w₂, w₃, w₄, rfl, by rw [heq, heq', heq''], hn, hfirst, hblocks,
      len, tail, hw₄⟩

end Wire

end QuicTracker
