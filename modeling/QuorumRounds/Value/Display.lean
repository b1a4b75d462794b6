import QuorumRounds.Binary64.Decimal
import QuorumRounds.Text.Hex
import QuorumRounds.Value.Basic

/-! # The text of a value

Scalars are written plainly, texts without quotes, bytes in hexadecimal; lists and maps hold their
items between brackets and braces, parted by a comma and a space. -/

namespace QuorumRounds
set_option autoImplicit false

namespace Value

mutual

/-- The text of the value. -/
def display : Value → String
  | .null => "None"
  | .bool true => "true"
  | .bool false => "false"
  | .int i => toString i.toInt
  | .uint u => toString u.toNat
  | .float x => x.display
  | .text s => s
  | .bytes data => hexOfBytes data
  | .list items => "[" ++ String.intercalate ", " (displayItems items) ++ "]"
  | .map entries => "\x7b" ++ String.intercalate ", " (displayEntries entries) ++ "\x7d"

/-- The texts of the items. -/
def displayItems : List Value → List String
  | [] => []
  | item :: rest => display item :: displayItems rest

/-- Each key, a colon and the text of its value. -/
def displayEntries : List (String × Value) → List String
  | [] => []
  | (key, value) :: rest => (key ++ ": " ++ display value) :: displayEntries rest

end

end Value

end QuorumRounds
