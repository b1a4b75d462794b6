/-! # The index of a period

The keys of a period stand on pages, in key order. A snapshot of the store writes new pages and
leaves the old ones to the snapshots before it, so that two snapshots share every page that neither
of them had to write again. `Index.agree` compares two periods along their indexes and passes over
the pages that they share: such a page agrees with itself, even where it leads to a value that
differs from itself, as a not-a-number does.

The pages are those of the tree that the entries of a period are kept in, and this is the only place
where they can be told apart. Stores are read and written as maps (`Store`), and no property of a store
depends on the index.

* `Index.insert` writes a key, and with it every page on the way from the root to the key.
* `Index.agree` compares page by page, and key by key where the pages are not shared.
-/

namespace QuorumRounds
set_option autoImplicit false

/-- One key, or a page with the number of the snapshot that wrote it. The parts of a page are keys
alone, or pages with one key between each two. -/
inductive Index where
  | key (key : String)
  | page (snapshot : Nat) (parts : List Index)

namespace Index

/-- A page holds at most so many keys of its own. -/
def pageKeys : Nat := 64

/-- The key, if it is no page. -/
def key? : Index → Option String
  | .key k => some k
  | .page _ _ => none

/-- The first key that stands on a page itself, and not on a page below it. -/
def firstKey? (parts : List Index) : Option String := parts.findSome? key?

/-! ## Writes -/

/-- One page of these parts or, where their keys are too many, two pages with the middle part
between them. One key is too many then, so the number of parts is odd and the middle one a key. -/
def paginate (snapshot : Nat) (parts : List Index) : List Index :=
  if parts.countP (·.key?.isSome) ≤ pageKeys then [.page snapshot parts]
  else
    let half := parts.length / 2
    .page snapshot (parts.take half) :: (parts.drop half).take 1 ++
      [.page snapshot (parts.drop (half + 1))]

/-- Where `key` belongs, seen from a part and the parts after it: before it or inside it, at it, or
after it. A page ends before the key that follows it. -/
def side (key : String) : Index → List Index → Ordering
  | .key k, _ => compare key k
  | .page _ _, .key k :: _ => if compare key k = .lt then .lt else .gt
  | .page _ _, _ => .lt

mutual

/-- What stands in the place of a part once the key has been written before it or inside it. -/
def write (snapshot : Nat) (key : String) : Index → List Index
  | .key k => [.key key, .key k]
  | .page _ parts => paginate snapshot (writeParts snapshot key parts)

/-- Goes to the part that the key belongs to. -/
def writeParts (snapshot : Nat) (key : String) : List Index → List Index
  | [] => [.key key]
  | part :: rest =>
    match side key part rest with
    | .lt => write snapshot key part ++ rest
    | .eq => part :: rest
    | .gt => part :: writeParts snapshot key rest

end

/-- A root that no longer fits on one page gets a page above its halves. -/
def insert (snapshot : Nat) (root : Index) (key : String) : Index :=
  match write snapshot key root with
  | [part] => part
  | parts => .page snapshot parts

/-- A new index, with the keys written one after the other. -/
def ofKeys (snapshot : Nat) (keys : List String) : Index :=
  keys.foldl (insert snapshot) (.page snapshot [])

/-! ## Comparison -/

mutual

/-- The number of keys and pages. -/
def weight : Index → Nat
  | .key _ => 1
  | .page _ parts => weightParts parts + 1

/-- The number of keys and pages in the parts. -/
def weightParts : List Index → Nat
  | [] => 0
  | part :: rest => weight part + weightParts rest

end

theorem weightParts_append (parts rest : List Index) :
    weightParts (parts ++ rest) = weightParts parts + weightParts rest := by
  induction parts with
  | nil => simp [weightParts]
  | cons part parts ih => simp only [List.cons_append, weightParts, ih, Nat.add_assoc]

/-- Both sides have the same keys, and `equal` holds of each key that is not on a shared page. In
one period a snapshot writes no key on two pages, so that the snapshot and the first key tell a page
from every other. Of two pages that are not shared the one with the smaller first key is opened, or
both if the first keys are equal; a page that meets a key is opened. -/
def agree (equal : String → Bool) : List Index → List Index → Bool
  | [], [] => true
  | [], _ :: _ => false
  | _ :: _, [] => false
  | .key j :: rest, .key k :: others => j == k && equal j && agree equal rest others
  | .page _ parts :: rest, .key k :: others => agree equal (parts ++ rest) (.key k :: others)
  | .key j :: rest, .page _ parts :: others => agree equal (.key j :: rest) (parts ++ others)
  | .page m parts :: rest, .page n opposite :: others =>
    match compare (firstKey? parts) (firstKey? opposite) with
    | .lt => agree equal (parts ++ rest) (.page n opposite :: others)
    | .eq =>
      if m = n then agree equal rest others
      else agree equal (parts ++ rest) (opposite ++ others)
    | .gt => agree equal (.page m parts :: rest) (opposite ++ others)
termination_by left right => weightParts left + weightParts right
decreasing_by all_goals simp only [weightParts, weight, weightParts_append]; omega

end Index

end QuorumRounds
