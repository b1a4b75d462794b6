import QuorumRounds.Named
import QuorumRounds.Payload.Basic

/-! # The registry of payload layouts

A registry binds a transaction kind to the layout of its payloads, once: binding a kind again to the
same layout changes nothing, and to another layout fails.

* `Shape.check`: the data of a payload has exactly the attributes of the layout. A layout that lists
  an attribute twice fits no data.
* `Registry.ofShapes`: binds a list in order, up to the first conflict.
* `Registry.call`: what is done with a registry; a call that fails leaves it as it was.
-/

namespace QuorumRounds
set_option autoImplicit false

/-- The layout of payloads: a name for messages, and the attributes in any order. -/
structure Shape where
  name : String
  attributes : List String
deriving DecidableEq, Repr

/-- Compares the sorted attributes with the keys of the data. -/
def Shape.check (shape : Shape) (data : SortedMap String Value) : Except Rejection Unit :=
  let expected := shape.attributes.mergeSort
  if expected = data.keys then .ok ()
  else .error (.malformedAttributes shape.name expected data.keys)

/-- The layouts, by the kind of transaction that they are bound to. -/
structure Registry (κ : Type) [Ord κ] where
  shapes : SortedMap κ Shape
deriving DecidableEq

namespace Registry
variable {κ : Type} [Ord κ]

/-- No kind is bound. -/
def empty : Registry κ := ⟨∅⟩

instance : EmptyCollection (Registry κ) := ⟨empty⟩

/-- The number of kinds that are bound. -/
def size (registry : Registry κ) : Nat := registry.shapes.size

/-- Whether no kind is bound. -/
def isEmpty (registry : Registry κ) : Bool := registry.shapes.isEmpty

/-- Another registry, of whatever time, takes the place of this one. -/
def restore (_ snapshot : Registry κ) : Registry κ := snapshot

/-- Forgets every layout. -/
def clear (_ : Registry κ) : Registry κ := ∅

variable [Named κ]

/-- The layout of a kind. -/
def resolve (registry : Registry κ) (kind : κ) : Except Error Shape :=
  match registry.shapes.get? kind with
  | some shape => .ok shape
  | none => .error (.unknownTransactionType (name kind))

/-- Binds a kind. The first layout of a kind stays. -/
def register [Std.TransOrd κ] (registry : Registry κ) (kind : κ) (shape : Shape) :
    Except Error (Registry κ) :=
  match registry.shapes.get? kind with
  | some existing =>
    if existing = shape then .ok registry
    else .error (.duplicateRegistration (name kind) existing.name shape.name)
  | none => .ok ⟨registry.shapes.insert kind shape⟩

/-- A new registry, with the layouts of a list. -/
def ofShapes [Std.TransOrd κ] (shapes : List (κ × Shape)) : Except Error (Registry κ) :=
  shapes.foldlM (fun registry entry => registry.register entry.1 entry.2) empty

/-! ## Calls -/

/-- What is done with a registry. A bootstrap makes a new one. -/
inductive Call (κ : Type) [Ord κ] where
  | register (kind : κ) (shape : Shape)
  | bootstrap (entries : List (κ × Shape))
  | restore (snapshot : Registry κ)
  | clear

/-- Makes a call. -/
def call [Std.TransOrd κ] (registry : Registry κ) : Call κ → Except Error Unit × Registry κ
  | .register kind shape => answered registry (registry.register kind shape)
  | .bootstrap entries => answered registry (ofShapes entries)
  | .restore snapshot => (.ok (), registry.restore snapshot)
  | .clear => (.ok (), registry.clear)

end Registry

end QuorumRounds
