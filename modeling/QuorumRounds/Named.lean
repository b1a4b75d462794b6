/-! # Things that messages name

Transaction kinds, rounds and events appear in messages under a name. -/

namespace QuorumRounds
set_option autoImplicit false

/-- What messages name. -/
class Named (α : Type) where
  name : α → String

export Named (name)

instance : Named String := ⟨id⟩

end QuorumRounds
