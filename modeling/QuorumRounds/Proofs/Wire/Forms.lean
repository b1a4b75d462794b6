import Mathlib.Algebra.Group.Nat.Defs
import QuorumRounds.Proofs.Wire.Readers

/-! # The forms of the wire format

What each reader of the format reads. A number is read from its bytes alone, so a word is spelled in
one way. A text or a list is spelled by its count and its contents, if the count is a 64-bit number,
as it is of everything that is held in memory. -/

namespace QuorumRounds
set_option autoImplicit false

variable {α β : Type}

/-! ## Numbers -/

@[simp] theorem length_littleEndian (width n : Nat) : (littleEndian width n).length = width := by
  induction width generalizing n with
  | zero => rfl
  | succ width ih => rw [littleEndian, List.length_cons, ih]

theorem ofLittleEndian_littleEndian {width n : Nat} (h : n < 256 ^ width) :
    ofLittleEndian (littleEndian width n) = n := by
  induction width generalizing n with
  | zero =>
    have hzero : n = 0 := by simpa using h
    rw [hzero]
    rfl
  | succ width ih =>
    have hrest : n / 256 < 256 ^ width := by
      rw [Nat.pow_succ] at h
      exact Nat.div_lt_of_lt_mul (by omega)
    have hbyte : (UInt8.ofNat n).toNat = n % 256 := UInt8.toNat_ofNat'
    rw [littleEndian, ofLittleEndian, ih hrest, hbyte]
    omega

theorem ofLittleEndian_lt (bytes : List UInt8) : ofLittleEndian bytes < 256 ^ bytes.length := by
  induction bytes with
  | nil => exact Nat.one_pos
  | cons b rest ih =>
    have hb := b.toNat_lt
    rw [ofLittleEndian, List.length_cons, Nat.pow_succ]
    omega

theorem littleEndian_ofLittleEndian (bytes : List UInt8) :
    littleEndian bytes.length (ofLittleEndian bytes) = bytes := by
  induction bytes with
  | nil => rfl
  | cons b rest ih =>
    have hb := b.toNat_lt
    have hbyte : UInt8.ofNat (b.toNat + 256 * ofLittleEndian rest) = b := by
      apply UInt8.toNat_inj.1
      rw [UInt8.toNat_ofNat']
      omega
    have hrest : (b.toNat + 256 * ofLittleEndian rest) / 256 = ofLittleEndian rest := by omega
    rw [ofLittleEndian, List.length_cons, littleEndian, hbyte, hrest, ih]

theorem reads_takeBytes (n : Nat) :
    Reads (takeBytes n) fun part bytes => part = bytes ∧ bytes.length = n where
  spells := by
    rintro part bytes ⟨rfl, rfl⟩
    constructor
    · intro rest
      have hlength : part.length ≤ (part ++ rest).length := by simp
      show (if _ then _ else _) = _
      rw [if_pos hlength, List.take_left, List.drop_left]
    · intro short hstart hne
      have hlength : ¬ part.length ≤ short.length := by
        intro hle
        exact hne (hstart.eq_of_length_le hle)
      show (if _ then _ else _) = _
      rw [if_neg hlength]
  exists_part {input rest bytes} h := by
    change (if _ then _ else _) = _ at h
    split at h
    case isTrue hle =>
      cases h
      exact ⟨_, ⟨rfl, List.length_take_of_le hle⟩, (List.take_append_drop n input).symm⟩
    case isFalse => cases h

theorem reads_readWord (width : Nat) :
    Reads (readWord width) fun part n => n < 256 ^ width ∧ part = littleEndian width n := by
  refine ((reads_takeBytes width).map ofLittleEndian).of_iff fun part n => ?_
  constructor
  · rintro ⟨bytes, ⟨rfl, rfl⟩, rfl⟩
    exact ⟨ofLittleEndian_lt part, (littleEndian_ofLittleEndian part).symm⟩
  · rintro ⟨hn, rfl⟩
    exact ⟨_, ⟨rfl, length_littleEndian width n⟩, ofLittleEndian_littleEndian hn⟩

theorem reads_readCount :
    Reads readCount fun part n => n < UInt64.size ∧ part = writeCount n :=
  reads_readWord 8

/-- A word of a type is a number of its width. -/
theorem Reads.word {width : Nat} {ofNat : Nat → α} {toNat : α → Nat}
    (hlt : ∀ a, toNat a < 256 ^ width) (hofNat : ∀ a, ofNat (toNat a) = a)
    (htoNat : ∀ n, n < 256 ^ width → toNat (ofNat n) = n) :
    Reads (ofNat <$> readWord width) fun part a => part = littleEndian width (toNat a) := by
  refine ((reads_readWord width).map ofNat).of_iff fun part a => ?_
  constructor
  · rintro ⟨n, ⟨hn, rfl⟩, rfl⟩
    rw [htoNat n hn]
  · rintro rfl
    exact ⟨toNat a, ⟨hlt a, rfl⟩, hofNat a⟩

theorem reads_uint8 : Reads Wire.read fun part (b : UInt8) => part = Wire.write b := by
  have h : Reads (UInt8.ofNat <$> readWord 1) fun part b => part = littleEndian 1 b.toNat :=
    Reads.word (fun b => b.toNat_lt) (fun _ => UInt8.ofNat_toNat) (fun _ => UInt8.toNat_ofNat_of_lt')
  refine h.of_iff fun part b => ?_
  have hwrite : littleEndian 1 b.toNat = Wire.write b := congrArg (fun b => [b]) UInt8.ofNat_toNat
  rw [hwrite]

theorem reads_uint32 : Reads Wire.read fun part (n : UInt32) => part = Wire.write n :=
  Reads.word (fun n => n.toNat_lt) (fun _ => UInt32.ofNat_toNat) (fun _ => UInt32.toNat_ofNat_of_lt')

theorem reads_uint64 : Reads Wire.read fun part (n : UInt64) => part = Wire.write n :=
  Reads.word (fun n => n.toNat_lt) (fun _ => UInt64.ofNat_toNat) (fun _ => UInt64.toNat_ofNat_of_lt')

/-- Every bit of a floating-point number is kept. -/
theorem reads_binary64 : Reads Wire.read fun part (x : Binary64) => part = Wire.write x := by
  refine (reads_uint64.map Binary64.mk).of_iff fun part x => ?_
  constructor
  · rintro ⟨bits, rfl, rfl⟩
    rfl
  · rintro rfl
    exact ⟨x.bits, rfl, rfl⟩

/-! ## Texts -/

theorem fromUTF8?_eq_some_iff {bytes : ByteArray} {s : String} :
    String.fromUTF8? bytes = some s ↔ s.toByteArray = bytes := by
  unfold String.fromUTF8?
  constructor
  · intro h
    split at h
    · cases h
      rfl
    · cases h
  · rintro rfl
    rw [dif_pos s.isValidUTF8]
    rfl

/-- Bytes in memory are a text or not. -/
theorem reads_decoded (bytes : List UInt8) :
    Reads (match String.fromUTF8? ⟨bytes.toArray⟩ with
      | some s => pure s
      | none => throw .invalidText) fun part s => part = [] ∧ s.toByteArray = ⟨bytes.toArray⟩ := by
  cases h : String.fromUTF8? ⟨bytes.toArray⟩ with
  | some s =>
    have hs := fromUTF8?_eq_some_iff.1 h
    refine (Reads.pure s).of_iff fun part t => and_congr_right fun _ => ?_
    rw [← hs, String.toByteArray_inj]
  | none =>
    refine (Reads.throw _).of_iff fun part s => ?_
    rw [← fromUTF8?_eq_some_iff, h]
    simp

theorem reads_text :
    Reads Wire.read fun part (s : String) =>
      s.toByteArray.size < UInt64.size ∧ part = Wire.write s := by
  refine (reads_readCount.bind fun n => (reads_takeBytes n).bind reads_decoded).of_iff fun part s => ?_
  constructor
  · rintro ⟨n, first, second, ⟨hn, rfl⟩, ⟨bytes, _, _, ⟨rfl, rfl⟩, ⟨rfl, hs⟩, rfl⟩, rfl⟩
    show _ ∧ _ = writeCount s.toByteArray.data.size ++ s.toByteArray.data.toList
    rw [hs, List.append_nil]
    exact ⟨hn, rfl⟩
  · rintro ⟨hs, rfl⟩
    exact ⟨s.toByteArray.size, _, _, ⟨hs, rfl⟩,
      ⟨s.toByteArray.data.toList, _, _, ⟨rfl, rfl⟩, ⟨rfl, rfl⟩, (List.append_nil _).symm⟩, rfl⟩

/-! ## Lists -/

/-- Stretches that spell the items one after the other. -/
inductive Row (W : List UInt8 → α → Prop) : List UInt8 → List α → Prop where
  | nil : Row W [] []
  | cons {first second : List UInt8} {item : α} {rest : List α} (hitem : W first item)
    (hrest : Row W second rest) : Row W (first ++ second) (item :: rest)

theorem reads_readTimes {r : Reader α} {W : List UInt8 → α → Prop} (h : Reads r W) (n : Nat) :
    Reads (readTimes r n) fun part items => items.length = n ∧ Row W part items := by
  induction n with
  | zero =>
    refine (Reads.pure []).of_iff fun part items => ?_
    constructor
    · rintro ⟨rfl, rfl⟩
      exact ⟨rfl, .nil⟩
    · rintro ⟨hlength, hrow⟩
      cases hrow with
      | nil => exact ⟨rfl, rfl⟩
      | cons => cases hlength
  | succ n ih =>
    refine (h.record ih List.cons).of_iff fun part items => ?_
    constructor
    · rintro ⟨item, rest, first, second, hitem, ⟨rfl, hrest⟩, rfl, rfl⟩
      exact ⟨rfl, .cons hitem hrest⟩
    · rintro ⟨hlength, hrow⟩
      cases hrow with
      | nil => cases hlength
      | cons hitem hrest =>
        exact ⟨_, _, _, _, hitem, ⟨Nat.succ.inj hlength, hrest⟩, rfl, rfl⟩

theorem reads_readList {r : Reader α} {W : List UInt8 → α → Prop} (h : Reads r W) :
    Reads (readList r) fun part items =>
      items.length < UInt64.size ∧
        ∃ row, Row W row items ∧ part = writeCount items.length ++ row := by
  refine (reads_readCount.bind (reads_readTimes h)).of_iff fun part items => ?_
  constructor
  · rintro ⟨n, first, row, ⟨hn, rfl⟩, ⟨rfl, hrow⟩, rfl⟩
    exact ⟨hn, row, hrow, rfl⟩
  · rintro ⟨hn, row, hrow, rfl⟩
    exact ⟨items.length, _, row, ⟨hn, rfl⟩, ⟨rfl, hrow⟩, rfl⟩

/-- Items that are spelled in one way each make one row. -/
theorem row_iff {W : List UInt8 → α → Prop} {write : α → List UInt8} {fits : α → Prop}
    (h : ∀ part a, W part a ↔ fits a ∧ part = write a) {part : List UInt8} {items : List α} :
    Row W part items ↔ (∀ item ∈ items, fits item) ∧ part = items.flatMap write := by
  constructor
  · intro hrow
    induction hrow with
    | nil => exact ⟨fun item hitem => absurd hitem List.not_mem_nil, rfl⟩
    | cons hitem _ ih =>
      obtain ⟨hfits, rfl⟩ := (h _ _).1 hitem
      obtain ⟨hrest, rfl⟩ := ih
      exact ⟨List.forall_mem_cons.2 ⟨hfits, hrest⟩, rfl⟩
  · rintro ⟨hfits, rfl⟩
    induction items with
    | nil => exact .nil
    | cons item rest ih =>
      obtain ⟨hitem, hrest⟩ := List.forall_mem_cons.1 hfits
      exact .cons ((h _ _).2 ⟨hitem, rfl⟩) (ih hrest)

theorem Reads.list {r : Reader α} {W : List UInt8 → α → Prop} {write : α → List UInt8}
    {fits : α → Prop} (h : Reads r W) (hW : ∀ part a, W part a ↔ fits a ∧ part = write a) :
    Reads (readList r) fun part items =>
      (items.length < UInt64.size ∧ ∀ item ∈ items, fits item) ∧ part = writeList write items := by
  refine (reads_readList h).of_iff fun part items => ?_
  constructor
  · rintro ⟨hn, row, hrow, rfl⟩
    obtain ⟨hfits, rfl⟩ := (row_iff hW).1 hrow
    exact ⟨⟨hn, hfits⟩, rfl⟩
  · rintro ⟨⟨hn, hfits⟩, rfl⟩
    exact ⟨hn, _, (row_iff hW).2 ⟨hfits, rfl⟩, rfl⟩

theorem reads_list [Wire α] {W : List UInt8 → α → Prop} {fits : α → Prop} (h : Reads Wire.read W)
    (hW : ∀ part a, W part a ↔ fits a ∧ part = Wire.write a) :
    Reads Wire.read fun part (items : List α) =>
      (items.length < UInt64.size ∧ ∀ item ∈ items, fits item) ∧ part = Wire.write items :=
  h.list hW

theorem reads_bytes :
    Reads Wire.read fun part (bytes : List UInt8) =>
      bytes.length < UInt64.size ∧ part = Wire.write bytes := by
  have hbyte : ∀ part (b : UInt8), part = Wire.write b ↔ True ∧ part = Wire.write b := by simp
  refine (reads_list reads_uint8 hbyte).of_iff fun part bytes => ?_
  simp

/-! ## Choices -/

theorem reads_readVariant {variants : Nat} (hvariants : variants ≤ UInt32.size) :
    Reads (readVariant variants) fun part i => part = writeVariant i := by
  have hindex : ∀ index : UInt32,
      Reads (if h : index.toNat < variants then pure (⟨index.toNat, h⟩ : Fin variants)
        else throw (.unknownVariant index variants))
        fun part i => part = [] ∧ index.toNat = i.val := by
    intro index
    by_cases h : index.toNat < variants
    · rw [dif_pos h]
      refine (Reads.pure _).of_iff fun part i => and_congr_right fun _ => ?_
      rw [Fin.ext_iff, eq_comm]
    · rw [dif_neg h]
      refine (Reads.throw _).of_iff fun part i => ?_
      have hne : index.toNat ≠ i.val := by
        have := i.isLt
        omega
      simp [hne]
  refine (reads_uint32.bind hindex).of_iff fun part i => ?_
  constructor
  · rintro ⟨index, _, _, rfl, ⟨rfl, hi⟩, rfl⟩
    rw [List.append_nil, ← hi]
    rfl
  · rintro rfl
    have hi : (UInt32.ofNat i.val).toNat = i.val :=
      UInt32.toNat_ofNat_of_lt' (Nat.lt_of_lt_of_le i.isLt hvariants)
    refine ⟨UInt32.ofNat i.val, _, [], rfl, ⟨rfl, hi⟩, ?_⟩
    show littleEndian 4 i.val = littleEndian 4 (UInt32.ofNat i.val).toNat ++ []
    rw [hi, List.append_nil]

end QuorumRounds
