import QuorumRounds.PriceOracle.Payload
import QuorumRounds.Proofs.Wire.Blocks

/-! # What is written of transactions and blocks is read again

A transaction is written in one way. A block is too, but a block is also read from bytes whose
timestamp has a second or more of nanoseconds, which is nobody's way of writing it. -/

namespace QuorumRounds
set_option autoImplicit false

theorem reads_transaction {P : Type} [Wire P]
    (h : Reads Wire.read fun part (payload : P) => part = Wire.write payload) :
    Reads Wire.read fun part (tx : Transaction P) =>
      tx.sender.toByteArray.size < UInt64.size ∧ part = Wire.write tx := by
  refine (reads_text.record h Transaction.mk).of_iff fun part tx => ?_
  constructor
  · rintro ⟨sender, payload, _, _, ⟨hsender, rfl⟩, rfl, rfl, rfl⟩
    exact ⟨hsender, rfl⟩
  · rintro ⟨hsender, rfl⟩
    exact ⟨tx.sender, tx.payload, _, _, ⟨hsender, rfl⟩, rfl, rfl, rfl⟩

namespace PriceOracle

/-- What follows the index of a variant. -/
def Payload.Fields : Fin 4 → List UInt8 → Payload → Prop
  | 0, part, payload => part = [] ∧ payload = .registration
  | 1, part, payload => ∃ price, part = Wire.write price ∧ .observation price = payload
  | 2, part, payload => ∃ price, part = Wire.write price ∧ .estimate price = payload
  | 3, part, payload => ∃ period, part = Wire.write period ∧ .reset period = payload

theorem Payload.reads_fields (i : Fin 4) :
    Reads (match i with
      | 0 => pure .registration
      | 1 => .observation <$> Wire.read
      | 2 => .estimate <$> Wire.read
      | 3 => .reset <$> Wire.read) (Payload.Fields i) := by
  split
  case h_1 => exact Reads.pure _
  case h_2 => exact reads_binary64.map _
  case h_3 => exact reads_binary64.map _
  case h_4 => exact reads_uint64.map _

theorem reads_payload :
    Reads Wire.read fun part (payload : Payload) => part = Wire.write payload := by
  have hindex := reads_readVariant (show 4 ≤ UInt32.size by decide)
  refine (hindex.bind Payload.reads_fields).of_iff fun part payload => ?_
  constructor
  · rintro ⟨i, _, second, rfl, hsecond, rfl⟩
    unfold Payload.Fields at hsecond
    split at hsecond
    case h_1 =>
      obtain ⟨rfl, rfl⟩ := hsecond
      exact List.append_nil _
    case h_2 | h_3 | h_4 =>
      obtain ⟨field, rfl, rfl⟩ := hsecond
      rfl
  · rintro rfl
    cases payload with
    | registration => exact ⟨0, _, [], rfl, ⟨rfl, rfl⟩, (List.append_nil _).symm⟩
    | observation price => exact ⟨1, _, _, rfl, ⟨price, rfl, rfl⟩, rfl⟩
    | estimate price => exact ⟨2, _, _, rfl, ⟨price, rfl, rfl⟩, rfl⟩
    | reset period => exact ⟨3, _, _, rfl, ⟨period, rfl, rfl⟩, rfl⟩

/-! ## Round trips -/

/-- A text or a list in memory has a length below `UInt64.size`. The written form of a value decodes
to the value whatever follows it, and to nothing when it is cut short. Bytes that decode to a
transaction begin with what is written of it. Of bytes that decode to a block, the part that is read
is what is written of the block but for its timestamp, which holds a second or more of nanoseconds
if it differs. -/
theorem transactions_and_blocks_round_trip :
    (∀ tx : Transaction Payload, tx.sender.toByteArray.size < UInt64.size →
      (∀ rest, Wire.decode (Transaction Payload) (Wire.write tx ++ rest) = .ok tx) ∧
      (∀ short, short <+: Wire.write tx → short ≠ Wire.write tx →
        Wire.decode (Transaction Payload) short = .error (.encoding .endOfInput)) ∧
      ∀ other : Transaction Payload, other.sender.toByteArray.size < UInt64.size →
        other ≠ tx → Wire.write other ≠ Wire.write tx) ∧
    (∀ (bytes : List UInt8) (tx : Transaction Payload),
      Wire.decode (Transaction Payload) bytes = .ok tx → Wire.write tx <+: bytes) ∧
    (∀ block : Block, block.Countable →
      (∀ rest, Wire.decode Block (Wire.write block ++ rest) = .ok block) ∧
      ∀ short, short <+: Wire.write block → short ≠ Wire.write block →
        Wire.decode Block short = .error (.encoding .endOfInput)) ∧
    ∀ (bytes : List UInt8) (block : Block), Wire.decode Block bytes = .ok block →
      ∃ part rest, bytes = part ++ rest ∧ Wire.read.run bytes = .ok (block, rest) ∧
        part.length = (Wire.write block).length ∧
        part.take 8 = (Wire.write block).take 8 ∧ part.drop 20 = (Wire.write block).drop 20 ∧
        (part ≠ Wire.write block ↔ 1000000000 ≤ ofLittleEndian ((bytes.drop 16).take 4)) := by
  have htransaction := reads_transaction reads_payload
  refine ⟨?_, ?_, ?_, ?_⟩
  · intro tx htx
    have hspells := htransaction.spells ⟨htx, rfl⟩
    refine ⟨Wire.decode_append hspells, fun short => Wire.decode_cut hspells, ?_⟩
    intro other hother hne heq
    exact hne ((htransaction.spells ⟨hother, rfl⟩).value_unique (heq ▸ hspells))
  · intro bytes tx hdecode
    obtain ⟨part, rest, ⟨_, rfl⟩, hbytes, _⟩ := Wire.exists_part_of_decode htransaction hdecode
    exact ⟨rest, hbytes.symm⟩
  · intro block hblock
    have hspells := Block.reads_block.spells ⟨_, _, Block.spelling_write hblock⟩
    exact ⟨Wire.decode_append hspells, fun short => Wire.decode_cut hspells⟩
  · intro bytes block hdecode
    obtain ⟨part, rest, ⟨seconds, nanos, hpart⟩, rfl, hread⟩ :=
      Wire.exists_part_of_decode Block.reads_block hdecode
    have hwrite := Block.spelling_write hpart.countable
    refine ⟨part, rest, rfl, hread, ?_, ?_, ?_, ?_⟩
    · rw [hpart.length_eq, hwrite.length_eq]
    · rw [hpart.take_height, hwrite.take_height]
    · rw [hpart.drop_timestamp, hwrite.drop_timestamp]
    · rw [hpart.ofLittleEndian_nanos, hpart.ne_write_iff]

def agentEstimate : Transaction Payload := ⟨"agent_0", .estimate ⟨0x4004000000000000⟩⟩

/-- A block at three and a half seconds. -/
def estimateBlock : Block := ⟨⟨1, ⟨3500000000, by decide⟩⟩, [Wire.write agentEstimate]⟩

/-- The same block, at two seconds and one and a half more in nanoseconds. -/
def carryingBytes : List UInt8 :=
  Wire.write estimateBlock.header.height ++ (Wire.write (2 : UInt64) ++
    (Wire.write (1500000000 : UInt32) ++ Wire.write estimateBlock.transactions))

theorem transactions_and_blocks_round_trip_for_an_agent :
    (agentEstimate.sender.toByteArray.size < UInt64.size ∧
      Wire.decode (Transaction Payload) (Wire.write agentEstimate ++ [7]) = .ok agentEstimate ∧
      Wire.decode (Transaction Payload) ((Wire.write agentEstimate).take 3) =
        .error (.encoding .endOfInput) ∧
      Wire.write agentEstimate <+: Wire.write agentEstimate ++ [7]) ∧
    estimateBlock.Countable ∧
      Wire.decode Block (Wire.write estimateBlock ++ [7]) = .ok estimateBlock ∧
      Wire.decode Block carryingBytes = .ok estimateBlock ∧
      ∃ part rest, carryingBytes = part ++ rest ∧
        part.length = (Wire.write estimateBlock).length ∧ part ≠ Wire.write estimateBlock := by
  obtain ⟨htransaction, hdecoded, hblock, hspelled⟩ := transactions_and_blocks_round_trip
  have hsender : agentEstimate.sender.toByteArray.size < UInt64.size := by decide +kernel
  obtain ⟨hwhole, hcut, -⟩ := htransaction agentEstimate hsender
  have hshort : (Wire.write agentEstimate).take 3 ≠ Wire.write agentEstimate := by decide +kernel
  have hcountable : estimateBlock.Countable := by decide +kernel
  have hspelling : Block.Spelling carryingBytes estimateBlock 2 1500000000 :=
    ⟨hcountable, by decide, rfl⟩
  have hcarrying := Wire.decode_append (Block.reads_block.spells ⟨_, _, hspelling⟩) []
  rw [List.append_nil] at hcarrying
  obtain ⟨part, rest, hbytes, _, hlength, _, _, hne⟩ := hspelled _ _ hcarrying
  exact ⟨⟨hsender, hwhole [7], hcut _ (List.take_prefix _ _) hshort, hdecoded _ _ (hwhole [7])⟩,
    hcountable, (hblock estimateBlock hcountable).1 [7], hcarrying, part, rest, hbytes, hlength,
    hne.2 (by decide +kernel)⟩

end PriceOracle

end QuorumRounds
