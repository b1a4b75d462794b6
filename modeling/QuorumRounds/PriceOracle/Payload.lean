import QuorumRounds.Payload.Registry

/-! # Payloads of the price oracle

Participants register, send an observation of the price, vote on an estimate, and vote on the number
of the period to open next. -/

namespace QuorumRounds.PriceOracle
set_option autoImplicit false

/-- What a participant may send. -/
inductive Kind where
  | registration
  | observation
  | estimate
  | reset
deriving DecidableEq, Ord, Repr

namespace Kind

instance : Std.TransOrd Kind where
  eq_swap := by rintro (_ | _ | _ | _) (_ | _ | _ | _) <;> rfl
  isLE_trans := by rintro (_ | _ | _ | _) (_ | _ | _ | _) (_ | _ | _ | _) <;> decide

instance : Std.LawfulEqOrd Kind where
  compare_self := by rintro (_ | _ | _ | _) <;> rfl
  eq_of_compare := by rintro (_ | _ | _ | _) (_ | _ | _ | _) <;> decide

instance : Named Kind where
  name
    | .registration => "registration"
    | .observation => "observation"
    | .estimate => "estimate"
    | .reset => "reset"

/-- The kinds, in their order. -/
def all : List Kind := [.registration, .observation, .estimate, .reset]

instance : Wire Kind where
  write
    | .registration => writeVariant 0
    | .observation => writeVariant 1
    | .estimate => writeVariant 2
    | .reset => writeVariant 3
  read := do
    match ← readVariant 4 with
    | 0 => pure .registration
    | 1 => pure .observation
    | 2 => pure .estimate
    | 3 => pure .reset

end Kind

/-- A payload with its content. A vote for a reset names the period to open. -/
inductive Payload where
  | registration
  | observation (price : Binary64)
  | estimate (price : Binary64)
  | reset (period : UInt64)
deriving DecidableEq, Repr

namespace Payload

/-- The kind of a payload. -/
def kind : Payload → Kind
  | .registration => .registration
  | .observation _ => .observation
  | .estimate _ => .estimate
  | .reset _ => .reset

/-- The attributes of a payload, at most one. -/
def data : Payload → SortedMap String Value
  | .registration => ∅
  | .observation price => SortedMap.insert ∅ "observation" (.float price)
  | .estimate price => SortedMap.insert ∅ "estimate" (.float price)
  | .reset period => SortedMap.insert ∅ "period_count" (.uint period)

/-- Prices are compared as numbers. -/
def same : Payload → Payload → Bool
  | .registration, .registration => true
  | .observation a, .observation b => a.equals b
  | .estimate a, .estimate b => a.equals b
  | .reset a, .reset b => a == b
  | _, _ => false

instance : QuorumRounds.Payload Payload Kind := ⟨kind, data, same⟩

instance : Wire Payload where
  write
    | .registration => writeVariant 0
    | .observation price => writeVariant 1 ++ Wire.write price
    | .estimate price => writeVariant 2 ++ Wire.write price
    | .reset period => writeVariant 3 ++ Wire.write period
  read := do
    match ← readVariant 4 with
    | 0 => pure .registration
    | 1 => .observation <$> Wire.read
    | 2 => .estimate <$> Wire.read
    | 3 => .reset <$> Wire.read

/-- The layout of each kind. -/
def shapes : List (Kind × Shape) :=
  [(.registration, ⟨"RegistrationPayload", []⟩),
    (.observation, ⟨"ObservationPayload", ["observation"]⟩),
    (.estimate, ⟨"EstimatePayload", ["estimate"]⟩),
    (.reset, ⟨"ResetPayload", ["period_count"]⟩)]

end Payload

end QuorumRounds.PriceOracle
