import QuorumRounds.PriceOracle.Payload
import QuorumRounds.Proofs.Thresholds

/-! # Configurations that are read are configurations that can be built

A configuration for the kinds of transactions has at most one entry for each kind, so it is written
and read again whatever its settings are. Bytes that are read as a configuration list settings, from
which the same configuration is built. -/

namespace QuorumRounds.PriceOracle
set_option autoImplicit false

namespace Kind

def ofIndex : Fin 4 → Kind
  | 0 => .registration
  | 1 => .observation
  | 2 => .estimate
  | 3 => .reset

theorem write_ofIndex (i : Fin 4) : Wire.write (ofIndex i) = writeVariant i := by
  match i with
  | 0 | 1 | 2 | 3 => rfl

theorem exists_ofIndex (kind : Kind) : ∃ i, ofIndex i = kind := by
  cases kind with
  | registration => exact ⟨0, rfl⟩
  | observation => exact ⟨1, rfl⟩
  | estimate => exact ⟨2, rfl⟩
  | reset => exact ⟨3, rfl⟩

theorem reads_indexed (i : Fin 4) :
    Reads (match i with
      | 0 => pure .registration
      | 1 => pure .observation
      | 2 => pure .estimate
      | 3 => pure .reset) fun part kind => part = [] ∧ kind = ofIndex i := by
  split <;> exact Reads.pure _

theorem reads_kind : Reads Wire.read fun part (kind : Kind) => part = Wire.write kind := by
  have hindex := reads_readVariant (show 4 ≤ UInt32.size by decide)
  refine (hindex.bind reads_indexed).of_iff fun part kind => ?_
  constructor
  · rintro ⟨i, _, _, rfl, ⟨rfl, rfl⟩, rfl⟩
    rw [List.append_nil, write_ofIndex]
  · rintro rfl
    obtain ⟨i, rfl⟩ := exists_ofIndex kind
    exact ⟨i, _, [], rfl, ⟨rfl, rfl⟩, by rw [List.append_nil, write_ofIndex]⟩

/-- There is no key but the four kinds. -/
theorem size_le {α : Type} (m : SortedMap Kind α) : m.size ≤ 4 := by
  have hsubset : m.domain ⊆ all.toFinset := fun kind _ => by cases kind <;> decide
  have hle := Finset.card_le_card hsubset
  rw [SortedMap.card_domain] at hle
  exact hle.trans (List.toFinset_card_le all)

theorem spells_config (config : Config Kind) : Spells (Wire.write config) Wire.read config :=
  Config.spells_write reads_kind ((size_le config.confirmations).trans_lt (by decide))

end Kind

/-! ## Round trips -/

/-- The bytes that are read as a configuration list the settings, in their order. -/
theorem configs_that_are_read_can_be_built :
    (∀ (params : ConsensusParams) (settings : List (Kind × UInt64)),
      (∀ rest, Wire.decode (Config Kind)
          (Wire.write (Config.ofSettings params settings) ++ rest) =
        .ok (Config.ofSettings params settings)) ∧
      ∀ kind, (Config.ofSettings params settings).requiredConfirmations kind =
        (SortedMap.lastListed kind settings).getD 0) ∧
    (∀ (bytes : List UInt8) (config : Config Kind), Wire.decode (Config Kind) bytes = .ok config →
      1 ≤ config.params.maxParticipants ∧ (∃ faulty, config.params.maxFaultyWord? = some faulty) ∧
      (∃ settings rest, bytes = Config.writeSettings config.params settings ++ rest ∧
        (Wire.read : Reader (Config Kind)).run bytes = .ok (config, rest) ∧
        config = Config.ofSettings config.params settings ∧
        ∀ kind, config.requiredConfirmations kind =
          (SortedMap.lastListed kind settings).getD 0) ∧
      ∀ more, Wire.decode (Config Kind) (Wire.write config ++ more) = .ok config) ∧
    ∀ rest : List UInt8, Wire.decode (Config Kind) (Wire.write (0 : UInt64) ++ rest) =
        .error (.encoding (.invalidConfig (.maxParticipantsTooLow 0))) ∧
      (ReadError.invalidConfig (.maxParticipantsTooLow 0)).detail? =
        some "max_participants must be at least 1, got 0" := by
  refine ⟨fun params settings => ⟨?_, ?_⟩, ?_, fun rest => ⟨?_, rfl⟩⟩
  · exact Wire.decode_append (Kind.spells_config _)
  · exact Config.requiredConfirmations_ofSettings params settings
  · intro bytes config hdecode
    obtain ⟨part, rest, ⟨settings, hlength, rfl, hconfig⟩, hbytes, hread⟩ :=
      Wire.exists_part_of_decode (Config.reads_config Kind.reads_kind) hdecode
    obtain ⟨faulty, hfaulty, -⟩ := config.params.exists_maxFaultyWord
    have hcounts := Config.requiredConfirmations_ofSettings config.params settings
    rw [hconfig] at hcounts
    exact ⟨UInt64.le_iff_toNat_le.2 config.params.positive, ⟨faulty, hfaulty⟩,
      ⟨settings, rest, hbytes, hread, hconfig.symm, hcounts⟩,
      Wire.decode_append (Kind.spells_config config)⟩
  · rw [Wire.decode, Config.read_of_zero]

def threeAgents : ConsensusParams := ⟨3, by decide⟩

/-- A kind that is listed twice, out of order. -/
def repeatedSettings : List (Kind × UInt64) := [(.reset, 1), (.registration, 2), (.reset, 5)]

theorem configs_that_are_read_can_be_built_with_a_repeated_kind :
    ∃ config : Config Kind,
      Wire.decode (Config Kind) (Config.writeSettings threeAgents repeatedSettings ++ [7]) =
        .ok config ∧
      config = Config.ofSettings threeAgents repeatedSettings ∧
      config.requiredConfirmations .reset = 5 ∧ config.requiredConfirmations .estimate = 0 ∧
      Wire.decode (Config Kind) (Wire.write config ++ [7]) = .ok config ∧
      Wire.write config ≠ Config.writeSettings threeAgents repeatedSettings := by
  obtain ⟨hbuilt, hread, -⟩ := configs_that_are_read_can_be_built
  have hspells : Spells (Config.writeSettings threeAgents repeatedSettings) Wire.read
      (Config.ofSettings threeAgents repeatedSettings) :=
    (Config.reads_config Kind.reads_kind).spells ⟨repeatedSettings, by decide, rfl, rfl⟩
  have hdecode := Wire.decode_append hspells [7]
  obtain ⟨-, -, -, hagain⟩ := hread _ _ hdecode
  exact ⟨_, hdecode, rfl, (hbuilt threeAgents repeatedSettings).2 .reset,
    (hbuilt threeAgents repeatedSettings).2 .estimate, hagain [7], by decide +kernel⟩

end QuorumRounds.PriceOracle
