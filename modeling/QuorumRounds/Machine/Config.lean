import QuorumRounds.Params
import QuorumRounds.Wire.Basic

/-! # Settings of a machine

The quorum parameters, and for each round the number of blocks for which it holds its decision back.
A round that is not listed waits for none. -/

namespace QuorumRounds
set_option autoImplicit false

/-- The one field is checked as soon as it has been read. -/
instance : Wire ConsensusParams where
  write params := Wire.write params.maxParticipants
  read := do
    match ConsensusParams.ofMaxParticipants (← Wire.read) with
    | .ok params => pure params
    | .error reason => throw (.invalidConfig reason)

/-- The settings that all replicas share. -/
structure Config (ρ : Type) [Ord ρ] where
  params : ConsensusParams
  confirmations : SortedMap ρ UInt64
deriving DecidableEq

namespace Config
variable {ρ : Type} [Ord ρ]

/-- No round waits. -/
def ofParams (params : ConsensusParams) : Config ρ := ⟨params, ∅⟩

/-- A round waits for so many blocks. -/
def withConfirmations [Std.TransOrd ρ] (config : Config ρ) (round : ρ) (blocks : UInt64) :
    Config ρ :=
  { config with confirmations := config.confirmations.insert round blocks }

/-- The number of blocks for which a round waits. -/
def requiredConfirmations (config : Config ρ) (round : ρ) : UInt64 :=
  (config.confirmations.get? round).getD 0

instance [Std.TransOrd ρ] [Wire ρ] : Wire (Config ρ) where
  write config := Wire.write config.params ++ Wire.write config.confirmations
  read := do
    let params ← Wire.read
    let confirmations ← Wire.read
    pure ⟨params, confirmations⟩

end Config

end QuorumRounds
