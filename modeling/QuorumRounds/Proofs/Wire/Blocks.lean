import QuorumRounds.Block
import QuorumRounds.Proofs.Wire.Forms

/-! # The forms of durations and blocks

A duration is spelled by any two numbers of seconds and nanoseconds that make it up, so a block can
be read from stretches of bytes that are not what is written of it. Such a stretch differs from what
is written in the bytes of the timestamp only (`Block.Spelling`). -/

namespace QuorumRounds
set_option autoImplicit false

theorem reads_ofParts (seconds : UInt64) (nanos : UInt32) :
    Reads (match Duration.ofParts? seconds nanos with
      | some d => pure d
      | none => throw .durationOverflow)
      fun part d => part = [] ∧ Duration.ofParts? seconds nanos = some d := by
  cases Duration.ofParts? seconds nanos with
  | some d =>
    refine (Reads.pure d).of_iff fun part d' => and_congr_right fun _ => ?_
    rw [Option.some.injEq, eq_comm]
  | none =>
    refine (Reads.throw _).of_iff fun part d => ?_
    simp

theorem reads_duration :
    Reads Wire.read fun part (d : Duration) =>
      ∃ seconds nanos, Duration.ofParts? seconds nanos = some d ∧
        part = Wire.write seconds ++ Wire.write nanos := by
  refine (reads_uint64.bind fun seconds => reads_uint32.bind (reads_ofParts seconds)).of_iff
    fun part d => ?_
  constructor
  · rintro ⟨seconds, _, _, rfl, ⟨nanos, _, _, rfl, ⟨rfl, hd⟩, rfl⟩, rfl⟩
    exact ⟨seconds, nanos, hd, by rw [List.append_nil]⟩
  · rintro ⟨seconds, nanos, hd, rfl⟩
    exact ⟨seconds, _, _, rfl, ⟨nanos, _, [], rfl, ⟨rfl, hd⟩, (List.append_nil _).symm⟩, rfl⟩

namespace Block

/-- The lengths of the block are 64-bit numbers. -/
def Countable (block : Block) : Prop :=
  block.transactions.length < UInt64.size ∧ ∀ tx ∈ block.transactions, tx.length < UInt64.size

instance (block : Block) : Decidable block.Countable := inferInstanceAs (Decidable (_ ∧ _))

/-- Stretches of bytes that hold the block with its timestamp in the given seconds and
nanoseconds. -/
structure Spelling (part : List UInt8) (block : Block) (seconds : UInt64) (nanos : UInt32) :
    Prop where
  countable : block.Countable
  timestamp : Duration.ofParts? seconds nanos = some block.header.timestamp
  part_eq : part = Wire.write block.header.height ++
    (Wire.write seconds ++ (Wire.write nanos ++ Wire.write block.transactions))

theorem reads_block :
    Reads Wire.read fun part (block : Block) =>
      ∃ seconds nanos, Spelling part block seconds nanos := by
  have hheader := reads_uint64.record reads_duration BlockHeader.mk
  have htransactions := reads_list reads_bytes fun _ _ => Iff.rfl
  refine (hheader.record htransactions Block.mk).of_iff fun part block => ?_
  constructor
  · rintro ⟨_, transactions, _, _,
      ⟨height, timestamp, _, _, rfl, ⟨seconds, nanos, htimestamp, rfl⟩, rfl, rfl⟩,
      ⟨hcount, rfl⟩, rfl, rfl⟩
    exact ⟨seconds, nanos, hcount, htimestamp, by simp only [List.append_assoc]⟩
  · rintro ⟨seconds, nanos, hcount, htimestamp, rfl⟩
    exact ⟨block.header, block.transactions, _, _,
      ⟨_, _, _, _, rfl, ⟨seconds, nanos, htimestamp, rfl⟩, rfl, rfl⟩, ⟨hcount, rfl⟩,
      by simp only [List.append_assoc], rfl⟩

theorem spelling_write {block : Block} (h : block.Countable) :
    Spelling (Wire.write block) block block.header.timestamp.seconds
      block.header.timestamp.subsecond where
  countable := h
  timestamp := Duration.ofParts?_parts _
  part_eq := by
    show (_ ++ (_ ++ _)) ++ _ = _
    simp only [List.append_assoc]

namespace Spelling
variable {part : List UInt8} {block : Block} {seconds : UInt64} {nanos : UInt32}

theorem take_height (h : Spelling part block seconds nanos) :
    part.take 8 = Wire.write block.header.height := by
  have hheight : (Wire.write block.header.height).length = 8 := length_littleEndian 8 _
  rw [h.part_eq, ← hheight, List.take_left]

theorem drop_height (h : Spelling part block seconds nanos) :
    part.drop 8 = Wire.write seconds ++ (Wire.write nanos ++ Wire.write block.transactions) := by
  have hheight : (Wire.write block.header.height).length = 8 := length_littleEndian 8 _
  rw [h.part_eq, ← hheight, List.drop_left]

theorem drop_seconds (h : Spelling part block seconds nanos) :
    part.drop 16 = Wire.write nanos ++ Wire.write block.transactions := by
  have hseconds : (Wire.write seconds).length = 8 := length_littleEndian 8 _
  have hdrop : part.drop 16 = (part.drop 8).drop (Wire.write seconds).length := by
    rw [hseconds, List.drop_drop]
  rw [hdrop, h.drop_height, List.drop_left]

theorem drop_timestamp (h : Spelling part block seconds nanos) :
    part.drop 20 = Wire.write block.transactions := by
  have hnanos : (Wire.write nanos).length = 4 := length_littleEndian 4 _
  have hdrop : part.drop 20 = (part.drop 16).drop (Wire.write nanos).length := by
    rw [hnanos, List.drop_drop]
  rw [hdrop, h.drop_seconds, List.drop_left]

theorem length_eq (h : Spelling part block seconds nanos) :
    part.length = 20 + (Wire.write block.transactions).length := by
  have hheight : (Wire.write block.header.height).length = 8 := length_littleEndian 8 _
  have hseconds : (Wire.write seconds).length = 8 := length_littleEndian 8 _
  have hnanos : (Wire.write nanos).length = 4 := length_littleEndian 4 _
  rw [h.part_eq]
  simp only [List.length_append, hheight, hseconds, hnanos]
  omega

/-- The nanoseconds stand behind the height and the seconds. -/
theorem ofLittleEndian_nanos (h : Spelling part block seconds nanos) (rest : List UInt8) :
    ofLittleEndian (((part ++ rest).drop 16).take 4) = nanos.toNat := by
  have hnanos : (Wire.write nanos).length = 4 := length_littleEndian 4 _
  have hlength : 16 ≤ part.length := by
    have := h.length_eq
    omega
  rw [List.drop_append_of_le_length hlength, h.drop_seconds, List.append_assoc, ← hnanos,
    List.take_left]
  exact ofLittleEndian_littleEndian nanos.toNat_lt

/-- Numbers are told apart by how they are written. -/
theorem part_inj {part' : List UInt8} {seconds' : UInt64} {nanos' : UInt32}
    (h : Spelling part block seconds nanos) (h' : Spelling part' block seconds' nanos') :
    part = part' ↔ seconds = seconds' ∧ nanos = nanos' := by
  constructor
  · intro heq
    have hdrop : Wire.write seconds ++ (Wire.write nanos ++ Wire.write block.transactions) =
        Wire.write seconds' ++ (Wire.write nanos' ++ Wire.write block.transactions) := by
      rw [← h.drop_height, ← h'.drop_height, heq]
    have hlength : (Wire.write seconds).length = (Wire.write seconds').length :=
      (length_littleEndian 8 _).trans (length_littleEndian 8 _).symm
    obtain ⟨hseconds, hrest⟩ := List.append_inj hdrop hlength
    have hnanos := List.append_cancel_right hrest
    exact ⟨(reads_uint64.spells rfl).value_unique (reads_uint64.spells hseconds),
      (reads_uint32.spells rfl).value_unique (reads_uint32.spells hnanos)⟩
  · rintro ⟨rfl, rfl⟩
    rw [h.part_eq, h'.part_eq]

/-- The stretch is what is written unless its nanoseconds make up a second. -/
theorem ne_write_iff (h : Spelling part block seconds nanos) :
    part ≠ Wire.write block ↔ 1000000000 ≤ nanos.toNat := by
  rw [Ne, h.part_inj (spelling_write h.countable), Duration.parts_eq_iff h.timestamp]
  omega

end Spelling

end Block

end QuorumRounds
