import QuorumRounds.Proofs.Value.Arranged
import QuorumRounds.Proofs.Wire.Forms
import QuorumRounds.Value.Wire

/-! # What is written of nested values is read again

`Value.readListed` reads a value with its maps as they are listed; a value is read by putting what
is listed in order (`Value.readNested_eq`). What is listed is spelled in one way
(`Value.reads_listed`), so it is determined by the bytes, and the bytes are those that are written of
the value exactly when everything in them is in order.

The depth to which values are read does not show: on an input that is shorter than the depth, every
greater depth reads the same (`Value.agreeBelow_readListed`). -/

namespace QuorumRounds
set_option autoImplicit false

variable {α β : Type}

/-! ## Scalars -/

/-- Two bytes stand for a truth value. -/
theorem reads_truth (n : Nat) :
    Reads (match n with
      | 0 => pure false
      | 1 => pure true
      | _ => throw .invalidBool : Reader Bool) fun part b => part = [] ∧ n = if b then 1 else 0 := by
  split
  case h_1 => exact (Reads.pure false).of_iff fun part b => by cases b <;> simp
  case h_2 => exact (Reads.pure true).of_iff fun part b => by cases b <;> simp
  case h_3 hzero hone =>
    refine (Reads.throw _).of_iff fun part b => ?_
    cases b with
    | false => exact ⟨fun h => h.elim, fun h => hzero h.2⟩
    | true => exact ⟨fun h => h.elim, fun h => hone h.2⟩

theorem reads_bool : Reads Wire.read fun part (b : Bool) => part = Wire.write b := by
  refine ((reads_readWord 1).bind reads_truth).of_iff fun part b => ?_
  constructor
  · rintro ⟨n, _, _, ⟨_, rfl⟩, ⟨rfl, rfl⟩, rfl⟩
    cases b <;> rfl
  · rintro rfl
    refine ⟨if b then 1 else 0, _, [], ⟨by cases b <;> decide, rfl⟩, ⟨rfl, rfl⟩, ?_⟩
    cases b <;> rfl

theorem reads_int64 : Reads Wire.read fun part (i : Int64) => part = Wire.write i := by
  refine (reads_uint64.map UInt64.toInt64).of_iff fun part i => ?_
  constructor
  · rintro ⟨u, rfl, rfl⟩
    rfl
  · rintro rfl
    exact ⟨i.toUInt64, rfl, rfl⟩

/-! ## Readers that agree on short inputs -/

def AgreeBelow (n : Nat) (r s : Reader α) : Prop :=
  ∀ input : List UInt8, input.length < n → r.run input = s.run input

namespace AgreeBelow
variable {n k : Nat} {r s : Reader α} {W : List UInt8 → α → Prop}

theorem refl (n : Nat) (r : Reader α) : AgreeBelow n r r := fun _ _ => rfl

/-- What follows on at least `k` bytes has that much less to read. -/
theorem bind {f g : α → Reader β} (h : AgreeBelow (n + k) r s) (hreads : Reads r W)
    (hlength : ∀ part a, W part a → k ≤ part.length) (hf : ∀ a, AgreeBelow n (f a) (g a)) :
    AgreeBelow (n + k) (r >>= f) (s >>= g) := by
  intro input hinput
  rw [StateT.run_bind, StateT.run_bind, ← h input hinput]
  cases hread : r.run input with
  | error e => rfl
  | ok out =>
    obtain ⟨part, hpart, hsplit⟩ := hreads.exists_part hread
    apply hf
    have hk := hlength part out.1 hpart
    rw [hsplit, List.length_append] at hinput
    omega

theorem map (f : α → β) (h : AgreeBelow n r s) : AgreeBelow n (f <$> r) (f <$> s) := by
  intro input hinput
  rw [StateT.run_map, StateT.run_map, h input hinput]

theorem readTimes (h : AgreeBelow n r s) (hreads : Reads r W) (count : Nat) :
    AgreeBelow n (readTimes r count) (readTimes s count) := by
  induction count with
  | zero => exact .refl n _
  | succ count ih =>
    refine bind (k := 0) h hreads (fun _ _ _ => Nat.zero_le _) fun item => ?_
    exact bind (k := 0) ih (reads_readTimes hreads count) (fun _ _ _ => Nat.zero_le _)
      fun rest => .refl n _

theorem readList (h : AgreeBelow n r s) (hreads : Reads r W) :
    AgreeBelow n (readList r) (readList s) :=
  bind (k := 0) (.refl n _) reads_readCount (fun _ _ _ => Nat.zero_le _) fun count =>
    h.readTimes hreads count

theorem readPair {t : Reader β} {V : List UInt8 → β → Prop} (h : AgreeBelow n r s)
    (ht : Reads t V) : AgreeBelow n (readPair t r) (readPair t s) :=
  bind (k := 0) (.refl n _) ht (fun _ _ _ => Nat.zero_le _) fun _ =>
    h.map _

end AgreeBelow

/-! ## Maps as they are listed -/

namespace Value

theorem write_list (items : List Value) :
    write (.list items) = writeVariant 7 ++ writeList write items := by
  have hitems : writeItems items = items.flatMap write := by
    induction items with
    | nil => rfl
    | cons item rest ih => rw [writeItems, ih, List.flatMap_cons]
  rw [write, hitems, writeList]

theorem write_map (entries : List (String × Value)) :
    write (.map entries) =
      writeVariant 8 ++ writeList (fun e => Wire.write e.1 ++ write e.2) entries := by
  have hentries : writeEntries entries = entries.flatMap fun e => Wire.write e.1 ++ write e.2 := by
    induction entries with
    | nil => rfl
    | cons e rest ih => rw [writeEntries, ih, List.flatMap_cons, List.append_assoc]
  rw [write, hentries, writeList]

def readListed : Nat → Reader Value
  | 0 => throw .endOfInput
  | depth + 1 => do
    match ← readVariant 9 with
    | 0 => pure .null
    | 1 => .bool <$> Wire.read
    | 2 => .int <$> Wire.read
    | 3 => .uint <$> Wire.read
    | 4 => .float <$> Wire.read
    | 5 => .text <$> Wire.read
    | 6 => .bytes <$> Wire.read
    | 7 => .list <$> readList (readListed depth)
    | 8 => .map <$> readList (readPair Wire.read (readListed depth))

/-! ## Reading is putting in order -/

theorem readTimes_map (f : α → β) (r : Reader α) (n : Nat) :
    readTimes (f <$> r) n = List.map f <$> readTimes r n := by
  induction n with
  | zero => simp [readTimes]
  | succ n ih => simp [readTimes, ih]

theorem readList_map (f : α → β) (r : Reader α) : readList (f <$> r) = List.map f <$> readList r := by
  simp [readList, readTimes_map]

theorem readPair_map {γ : Type} (f : α → β) (key : Reader γ) (r : Reader α) :
    readPair key (f <$> r) = Prod.map id f <$> readPair key r := by
  simp [readPair]

/-- A value is read by putting in order what is listed. -/
theorem readNested_eq (depth : Nat) : readNested depth = arranged <$> readListed depth := by
  have hscalar : ∀ {γ : Type} (f : γ → Value) (r : Reader γ), (∀ a, (f a).arranged = f a) →
      f <$> r = arranged <$> f <$> r := by
    intro γ f r h
    rw [Functor.map_map]
    exact congrArg (· <$> r) (funext fun a => (h a).symm)
  induction depth with
  | zero => rfl
  | succ depth ih =>
    rw [readNested, readListed, map_bind]
    congr 1
    funext i
    match i with
    | 0 => rfl
    | 1 => exact hscalar .bool _ fun _ => rfl
    | 2 => exact hscalar .int _ fun _ => rfl
    | 3 => exact hscalar .uint _ fun _ => rfl
    | 4 => exact hscalar .float _ fun _ => rfl
    | 5 => exact hscalar .text _ fun _ => rfl
    | 6 => exact hscalar .bytes _ fun _ => rfl
    | 7 =>
      show list <$> readList (readNested depth) = arranged <$> list <$> readList (readListed depth)
      rw [ih, readList_map, Functor.map_map, Functor.map_map]
      exact congrArg (· <$> _) (funext fun items => (arranged_list items).symm)
    | 8 =>
      show (ofMap ∘ SortedMap.ofList) <$> readList (readPair Wire.read (readNested depth)) =
        arranged <$> map <$> readList (readPair Wire.read (readListed depth))
      rw [ih, readPair_map, readList_map, Functor.map_map, Functor.map_map]
      exact congrArg (· <$> _) (funext fun entries => (arranged_map entries).symm)

/-! ## The form of a listed value -/

/-- What follows the index of a variant. -/
def Fields (depth : Nat) : Fin 9 → List UInt8 → Value → Prop
  | 0, part, v => part = [] ∧ v = .null
  | 1, part, v => ∃ b, part = Wire.write b ∧ .bool b = v
  | 2, part, v => ∃ i, part = Wire.write i ∧ .int i = v
  | 3, part, v => ∃ u, part = Wire.write u ∧ .uint u = v
  | 4, part, v => ∃ x, part = Wire.write x ∧ .float x = v
  | 5, part, v =>
    ∃ s : String, (s.toByteArray.size < UInt64.size ∧ part = Wire.write s) ∧ .text s = v
  | 6, part, v =>
    ∃ data : List UInt8, (data.length < UInt64.size ∧ part = Wire.write data) ∧ .bytes data = v
  | 7, part, v =>
    ∃ items : List Value, ((items.length < UInt64.size ∧ ∀ item ∈ items, item.Fits depth) ∧
      part = writeList write items) ∧ .list items = v
  | 8, part, v =>
    ∃ entries : List (String × Value), ((entries.length < UInt64.size ∧
      ∀ e ∈ entries, e.1.toByteArray.size < UInt64.size ∧ e.2.Fits depth) ∧
      part = writeList (fun e => Wire.write e.1 ++ write e.2) entries) ∧ .map entries = v

theorem fields_iff {depth : Nat} {part : List UInt8} {v : Value} :
    (∃ (i : Fin 9) (first second : List UInt8),
      first = writeVariant i ∧ Fields depth i second v ∧ part = first ++ second) ↔
      v.Fits (depth + 1) ∧ part = write v := by
  constructor
  · rintro ⟨i, _, second, rfl, hfields, rfl⟩
    match i, hfields with
    | 0, h =>
      obtain ⟨rfl, rfl⟩ := h
      exact ⟨trivial, List.append_nil _⟩
    | 1, h | 2, h | 3, h | 4, h =>
      obtain ⟨field, rfl, rfl⟩ := h
      exact ⟨trivial, rfl⟩
    | 5, h | 6, h =>
      obtain ⟨field, ⟨hlength, rfl⟩, rfl⟩ := h
      exact ⟨hlength, rfl⟩
    | 7, h =>
      obtain ⟨items, ⟨hfits, rfl⟩, rfl⟩ := h
      exact ⟨hfits, (write_list items).symm⟩
    | 8, h =>
      obtain ⟨entries, ⟨hfits, rfl⟩, rfl⟩ := h
      exact ⟨hfits, (write_map entries).symm⟩
  · rintro ⟨hfits, rfl⟩
    cases v with
    | null => exact ⟨0, _, [], rfl, ⟨rfl, rfl⟩, (List.append_nil _).symm⟩
    | bool b => exact ⟨1, _, _, rfl, ⟨b, rfl, rfl⟩, rfl⟩
    | int i => exact ⟨2, _, _, rfl, ⟨i, rfl, rfl⟩, rfl⟩
    | uint u => exact ⟨3, _, _, rfl, ⟨u, rfl, rfl⟩, rfl⟩
    | float x => exact ⟨4, _, _, rfl, ⟨x, rfl, rfl⟩, rfl⟩
    | text s => exact ⟨5, _, _, rfl, ⟨s, ⟨hfits, rfl⟩, rfl⟩, rfl⟩
    | bytes data => exact ⟨6, _, _, rfl, ⟨data, ⟨hfits, rfl⟩, rfl⟩, rfl⟩
    | list items => exact ⟨7, _, _, rfl, ⟨items, ⟨hfits, rfl⟩, rfl⟩, write_list items⟩
    | map entries => exact ⟨8, _, _, rfl, ⟨entries, ⟨hfits, rfl⟩, rfl⟩, write_map entries⟩

theorem reads_entry {depth : Nat}
    (h : Reads (readListed depth) fun part v => v.Fits depth ∧ part = write v) :
    Reads (readPair Wire.read (readListed depth)) fun part (e : String × Value) =>
      (e.1.toByteArray.size < UInt64.size ∧ e.2.Fits depth) ∧
        part = Wire.write e.1 ++ write e.2 := by
  refine (reads_text.record h Prod.mk).of_iff fun part e => ?_
  constructor
  · rintro ⟨key, value, _, _, ⟨hkey, rfl⟩, ⟨hvalue, rfl⟩, rfl, rfl⟩
    exact ⟨⟨hkey, hvalue⟩, rfl⟩
  · rintro ⟨⟨hkey, hvalue⟩, rfl⟩
    exact ⟨e.1, e.2, _, _, ⟨hkey, rfl⟩, ⟨hvalue, rfl⟩, rfl, rfl⟩

theorem reads_fields {depth : Nat}
    (h : Reads (readListed depth) fun part v => v.Fits depth ∧ part = write v) (i : Fin 9) :
    Reads (match i with
      | 0 => pure .null
      | 1 => .bool <$> Wire.read
      | 2 => .int <$> Wire.read
      | 3 => .uint <$> Wire.read
      | 4 => .float <$> Wire.read
      | 5 => .text <$> Wire.read
      | 6 => .bytes <$> Wire.read
      | 7 => .list <$> readList (readListed depth)
      | 8 => .map <$> readList (readPair Wire.read (readListed depth))) (Fields depth i) := by
  split
  case h_1 => exact Reads.pure _
  case h_2 => exact reads_bool.map _
  case h_3 => exact reads_int64.map _
  case h_4 => exact reads_uint64.map _
  case h_5 => exact reads_binary64.map _
  case h_6 => exact reads_text.map _
  case h_7 => exact reads_bytes.map _
  case h_8 => exact (h.list fun _ _ => Iff.rfl).map _
  case h_9 => exact ((reads_entry h).list fun _ _ => Iff.rfl).map _

theorem reads_listed (depth : Nat) :
    Reads (readListed depth) fun part v => v.Fits depth ∧ part = write v := by
  induction depth with
  | zero =>
    refine (Reads.throw _).of_iff fun part v => ?_
    simp [Fits]
  | succ depth ih =>
    have hindex := reads_readVariant (show 9 ≤ UInt32.size by decide)
    exact (hindex.bind (reads_fields ih)).of_iff fun part v => fields_iff

/-! ## The depth does not show -/

theorem length_writeVariant {variants : Nat} (i : Fin variants) : (writeVariant i).length = 4 :=
  length_littleEndian 4 _

/-- Every level of nesting takes a byte at least. -/
theorem agreeBelow_readListed {n depth depth' : Nat} (h : n ≤ depth) (h' : n ≤ depth') :
    AgreeBelow n (readListed depth) (readListed depth') := by
  induction n generalizing depth depth' with
  | zero => exact fun input hinput => absurd hinput (Nat.not_lt_zero _)
  | succ n ih =>
    obtain ⟨depth, rfl⟩ := Nat.exists_eq_add_of_le' (Nat.le_of_add_left_le h)
    obtain ⟨depth', rfl⟩ := Nat.exists_eq_add_of_le' (Nat.le_of_add_left_le h')
    have hitem := ih (Nat.le_of_succ_le_succ h) (Nat.le_of_succ_le_succ h')
    have hindex : Reads (readVariant 9) fun part i => part = writeVariant i :=
      reads_readVariant (by decide)
    rw [readListed, readListed]
    refine AgreeBelow.bind (.refl _ _) hindex ?_ fun i => ?_
    · rintro _ i rfl
      rw [length_writeVariant]
      decide
    · match i with
      | 0 | 1 | 2 | 3 | 4 | 5 | 6 => exact .refl n _
      | 7 => exact (hitem.readList (reads_listed depth)).map _
      | 8 =>
        have hentry := reads_text.record (reads_listed depth) Prod.mk
        exact ((hitem.readPair reads_text).readList hentry).map _

theorem read_eq {input : List UInt8} {depth : Nat} (h : input.length < depth) :
    Value.read.run input = (arranged <$> readListed depth).run input := by
  show (readNested (input.length + 1)).run input = _
  rw [readNested_eq]
  exact (agreeBelow_readListed (Nat.le_refl _) h).map arranged input (Nat.lt_succ_self _)

theorem reads_value :
    Reads Wire.read fun part (v : Value) =>
      ∃ listed : Value, listed.Countable ∧ part = write listed ∧ listed.arranged = v where
  spells := by
    rintro _ _ ⟨listed, ⟨depth, hfits⟩, rfl, rfl⟩
    have hspells (more : Nat) :
        Spells (write listed) (arranged <$> readListed (depth + more)) listed.arranged :=
      ((reads_listed _).spells ⟨hfits.mono (Nat.le_add_right _ _), rfl⟩).map arranged
    constructor
    · intro rest
      have hdeep := (hspells ((write listed ++ rest).length + 1)).whole rest
      exact (read_eq (by omega)).trans hdeep
    · intro short hstart hne
      have hdeep := (hspells (short.length + 1)).cut hstart hne
      exact (read_eq (by omega)).trans hdeep
  exists_part {input rest v} h := by
    rw [show (Wire.read : Reader Value).run input = _ from read_eq (Nat.lt_succ_self _)] at h
    obtain ⟨listed, hlisted, rfl⟩ := Reader.map_eq_ok_iff.1 h
    obtain ⟨part, ⟨hfits, rfl⟩, hinput⟩ := (reads_listed _).exists_part hlisted
    exact ⟨_, ⟨listed, ⟨_, hfits⟩, rfl, rfl⟩, hinput⟩

/-- What is listed is determined by the bytes. -/
theorem write_inj {listed other : Value} (h : listed.Countable) (h' : other.Countable) :
    write listed = write other ↔ listed = other := by
  refine ⟨fun hwrite => ?_, fun heq => by rw [heq]⟩
  obtain ⟨depth, hfits⟩ := h
  obtain ⟨depth', hfits'⟩ := h'
  have hspells := (reads_listed (depth + depth')).spells
    ⟨hfits.mono (Nat.le_add_right _ _), rfl⟩
  have hspells' := (reads_listed (depth + depth')).spells
    ⟨hfits'.mono (Nat.le_add_left _ _), hwrite⟩
  exact hspells.value_unique hspells'

theorem spells_write {v : Value} (hordered : v.Ordered) (hcount : v.Countable) :
    Spells (write v) Wire.read v :=
  reads_value.spells ⟨v, hcount, rfl, arranged_of_ordered hordered⟩

/-- What is written of one value does not start with what is written of another. -/
theorem not_write_prefix {v other : Value} (hordered : v.Ordered) (hcount : v.Countable)
    (hordered' : other.Ordered) (hcount' : other.Countable) (hne : other ≠ v) :
    ¬ write other <+: write v := by
  rintro ⟨rest, hrest⟩
  have hother := (spells_write hordered' hcount').whole rest
  rw [hrest] at hother
  have hv := (spells_write hordered hcount).whole []
  rw [List.append_nil] at hv
  cases hother.symm.trans hv
  exact hne rfl

/-- A value whose maps are in order is read from what is written of it, whatever follows, and no part
of that is enough. Whatever a value is read from, it is written and read again; the bytes it was read
from are those that are written if and only if every map in them is listed in order. -/
theorem written_values_are_read :
    (∀ v : Value, v.Ordered → v.Countable →
      (∀ rest, Wire.read.run (write v ++ rest) = .ok (v, rest)) ∧
      (∀ short, short <+: write v → short ≠ write v →
        Wire.decode Value short = .error (.encoding .endOfInput)) ∧
      ∀ other : Value, other.Ordered → other.Countable → other ≠ v → ¬ write other <+: write v) ∧
    ∀ (bytes : List UInt8) (v : Value), Wire.decode Value bytes = .ok v →
      v.Ordered ∧ v.Countable ∧
      (∀ more, Wire.read.run (write v ++ more) = .ok (v, more)) ∧
      ∃ (listed : Value) (rest : List UInt8), listed.Countable ∧ bytes = write listed ++ rest ∧
        (Wire.read : Reader Value).run bytes = .ok (v, rest) ∧
        (∀ other : Value, other.Countable → write other = write listed → other = listed) ∧
        listed.arranged = v ∧
        (write listed = write v ↔ listed.Ordered) := by
  constructor
  · intro v hordered hcount
    have hspells := spells_write hordered hcount
    exact ⟨hspells.whole, fun short hstart hne => Wire.decode_cut hspells hstart hne,
      fun other hordered' hcount' hne => not_write_prefix hordered hcount hordered' hcount' hne⟩
  · intro bytes v hdecode
    obtain ⟨_, rest, ⟨listed, hlisted, rfl, rfl⟩, hbytes, hread⟩ :=
      Wire.exists_part_of_decode reads_value hdecode
    have hordered := ordered_arranged listed
    refine ⟨hordered, hlisted.arranged, (spells_write hordered hlisted.arranged).whole, listed, rest,
      hlisted, hbytes, hread, fun other hother heq => (write_inj hother hlisted).1 heq, rfl, ?_⟩
    rw [write_inj hlisted hlisted.arranged, eq_comm, arranged_eq_iff]

/-- A map with a list that holds no number. -/
def inOrder : Value := .map [("a", .list [.float ⟨0x7ff8000000000001⟩]), ("b", .null)]

def outOfOrder : Value := .map [("b", .null), ("a", .list [.float ⟨0x7ff8000000000001⟩])]

theorem written_values_are_read_out_of_order :
    Wire.read.run (write inOrder ++ [7]) = .ok (inOrder, [7]) ∧
    Wire.decode Value ((write inOrder).take 30) = .error (.encoding .endOfInput) ∧
    Wire.read.run (write outOfOrder ++ [7]) = .ok (inOrder, [7]) ∧
    write outOfOrder ≠ write inOrder := by
  have hkeys : compare "a" "b" = .lt ∧ compare "b" "a" ≠ .lt := by decide
  have hordered : inOrder.Ordered := by
    simp [inOrder, Ordered, ItemsOrdered, EntriesOrdered, KeysIncrease, hkeys.1]
  have hsizes : "a".utf8ByteSize < UInt64.size ∧ "b".utf8ByteSize < UInt64.size ∧
    1 < UInt64.size := by decide
  have hcount : inOrder.Countable := ⟨3, by decide, by simp [Fits, hsizes]⟩
  have hcount' : outOfOrder.Countable := ⟨3, by decide, by simp [Fits, hsizes]⟩
  have hread : Wire.read.run (write outOfOrder ++ [7]) = .ok (inOrder, [7]) :=
    (reads_value.spells ⟨outOfOrder, hcount', rfl, rfl⟩).whole [7]
  obtain ⟨hwhole, hcut, -⟩ := written_values_are_read.1 inOrder hordered hcount
  obtain ⟨-, -, -, listed, rest, -, hbytes, hrun, hunique, -, hwritten⟩ :=
    written_values_are_read.2 _ inOrder (Wire.decode_eq_ok_iff.2 ⟨[7], hread⟩)
  cases hrun.symm.trans hread
  have hlisted := hunique outOfOrder hcount' (List.append_cancel_right hbytes)
  subst hlisted
  refine ⟨hwhole [7], hcut _ (List.take_prefix _ _) ?_, hread, fun heq => ?_⟩
  · decide +kernel
  · have hincrease := (hwritten.1 heq).1
    exact hkeys.2 (by simpa [KeysIncrease] using hincrease)

end Value

end QuorumRounds
