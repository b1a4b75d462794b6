import QuorumRounds.Value.Wire

/-! # Payloads and transactions

A payload is one of a closed set of forms; its kind says which, and its attributes are read by name,
so that rounds validate payloads without knowing the form.

* `Payload`: a type of payloads with kinds `κ`. `Payload.same` decides whether two payloads are one
  vote; it need not hold of a payload and itself, since an attribute may be a NaN.
* `Transaction`: a payload and its sender.
* `Attributed`: the payloads that are nothing but a kind and attributes.
* `mostVotedUpdates`: the store entries that a decided payload leaves behind.
-/

namespace QuorumRounds
set_option autoImplicit false

/-- The types that can be payloads. -/
class Payload (P : Type) (κ : outParam Type) where
  kind : P → κ
  data : P → SortedMap String Value
  same : P → P → Bool

/-- A payload and its sender. -/
structure Transaction (P : Type) where
  sender : String
  payload : P
deriving DecidableEq, Repr

instance {P : Type} [Wire P] : Wire (Transaction P) where
  write tx := Wire.write tx.sender ++ Wire.write tx.payload
  read := do
    let sender ← Wire.read
    let payload ← Wire.read
    pure ⟨sender, payload⟩

/-- Each attribute of the payload becomes an entry, under a name of its own. -/
def mostVotedUpdates {P κ : Type} [Payload P κ] (payload : P) : List (String × Value) :=
  (Payload.data payload).entries.map fun e => ("most_voted_" ++ e.1, e.2)

/-- A payload of any kind, with any attributes. -/
structure Attributed (κ : Type) where
  kind : κ
  attributes : SortedMap String Value

namespace Attributed
variable {κ : Type}

/-- Of the same kind, with the same attributes. -/
def same [DecidableEq κ] (a b : Attributed κ) : Bool :=
  decide (a.kind = b.kind) && Value.sameEntries a.attributes.entries b.attributes.entries

instance [DecidableEq κ] : Payload (Attributed κ) κ where
  kind := Attributed.kind
  data := Attributed.attributes
  same := Attributed.same

instance [Wire κ] : Wire (Attributed κ) where
  write p := Wire.write p.kind ++ Wire.write p.attributes
  read := do
    let kind ← Wire.read
    let attributes ← Wire.read
    pure ⟨kind, attributes⟩

end Attributed

end QuorumRounds
