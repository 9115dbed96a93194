/-
# The nodes of a document

A document is a tree of scalars, lists and mappings, each with the kind of its value.  An
alias stands for the node with its anchor, which is put in its place.  An alias inside of the
very node it names would go on for ever; such a node is unfolded a few times, further than
anything looks, and ends in rings.
-/
import ImageTrust.Yaml.Tag

namespace ImageTrust

namespace Yaml

/-- A node. -/
inductive Node where
  | scalar (kind : Tag) (text : Text)
  | list (kind : Tag) (items : List Node)
  | mapping (kind : Tag) (entries : List (Node × Node))
  /-- The place of a node that contains it. -/
  | ring (anchor : Text)

namespace Node

instance : Inhabited Node := ⟨.scalar .null []⟩

/-- The kind of a node's value. -/
def kind : Node → Tag
  | .scalar kind _ | .list kind _ | .mapping kind _ => kind
  | .ring _ => .null

mutual

/-- Whether the node has a ring of this anchor. -/
def hasRing (anchor : Text) : Node → Bool
  | .scalar .. => false
  | .ring name => name = anchor
  | .list _ items => hasRingIn anchor items
  | .mapping _ entries => hasRingAmong anchor entries

/-- The same for the items of a list. -/
def hasRingIn (anchor : Text) : List Node → Bool
  | [] => false
  | n :: rest => hasRing anchor n || hasRingIn anchor rest

/-- The same for the entries of a mapping. -/
def hasRingAmong (anchor : Text) : List (Node × Node) → Bool
  | [] => false
  | (k, v) :: rest => hasRing anchor k || hasRing anchor v || hasRingAmong anchor rest

end

mutual

/-- The node with `n` in place of the rings of an anchor. -/
def fill (anchor : Text) (n : Node) : Node → Node
  | .scalar kind text => .scalar kind text
  | .ring name => if name = anchor then n else .ring name
  | .list kind items => .list kind (fillIn anchor n items)
  | .mapping kind entries => .mapping kind (fillAmong anchor n entries)

/-- The same for the items of a list. -/
def fillIn (anchor : Text) (n : Node) : List Node → List Node
  | [] => []
  | m :: rest => fill anchor n m :: fillIn anchor n rest

/-- The same for the entries of a mapping. -/
def fillAmong (anchor : Text) (n : Node) : List (Node × Node) → List (Node × Node)
  | [] => []
  | (k, v) :: rest => (fill anchor n k, fill anchor n v) :: fillAmong anchor n rest

end

/-- How often a node that contains itself is unfolded: more often than the parts of a policy
lie inside one another. -/
def maxUnfolding : Nat := 8

/-- The node with this anchor unfolded `n` times. -/
def unfold (anchor : Text) (node : Node) : Nat → Node
  | 0 => node
  | n + 1 => fill anchor (unfold anchor node n) node

/-- What an alias of the anchor stands for, from behind the node. -/
def closed (anchor : Text) (node : Node) : Node :=
  if node.hasRing anchor then node.unfold anchor maxUnfolding else node

end Node

end Yaml

end ImageTrust
