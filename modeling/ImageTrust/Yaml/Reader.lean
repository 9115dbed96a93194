/-
# The data that a document writes

Scalars are converted, lists and mappings are filled with what their nodes stand for.  A key
has to be a scalar.  A mapping keeps its keys in the order of their first appearance, each
with the value that was given last; what it merges from other mappings counts as given before.

Lists and mappings are filled generation by generation: the parts of one come after those of
all that surround it or lie beside its surroundings.  So of several scalars that cannot be
converted the one that lies the least deep is reported, and of these the first.
-/
import ImageTrust.Yaml.Document

namespace ImageTrust

namespace Yaml

/-- A value, or a defect and how many generations further in it was met. -/
abbrev Filled (α : Type) := Except (Nat × Defect) α

namespace Filled

/-- A defect that is met at once. -/
def fail {α : Type} (why : Defect) : Filled α := .error (0, why)

/-- What comes with the next generation. -/
def later {α : Type} (a : Filled α) : Filled α := a.mapError fun (n, why) => (n + 1, why)

/-- Two parts. Of two defects the one that is met earlier counts. -/
def both {α β : Type} : Filled α → Filled β → Filled (α × β)
  | .ok a, .ok b => .ok (a, b)
  | .error e, .ok _ => .error e
  | .ok _, .error e => .error e
  | .error (m, d), .error (n, e) => if n < m then .error (n, e) else .error (m, d)

/-- The parts of a row. -/
def all {α : Type} : List (Filled α) → Filled (List α)
  | [] => .ok []
  | a :: rest => (both a (all rest)).map fun (x, xs) => x :: xs

end Filled

/-- A key and its value. -/
abbrev Entry := Filled Datum × Filled Datum

namespace Entry

/-- A key has to be a scalar, whatever the parts of another node are. -/
def key : Filled Datum → Filled Datum
  | .ok (.list _) | .ok (.set _) | .ok (.mapping _) => .fail .malformed
  | .error (_ + 1, _) => .fail .malformed
  | d => d

/-- The entries of a mapping, each key with its last value. -/
def collect (entries : List Entry) : Filled (List (Datum × Datum)) :=
  (Filled.all (entries.map fun (k, v) => Filled.both (key k) v)).map fun pairs =>
    pairs.foldl (fun done (k, v) => Datum.put k v done) []

end Entry

namespace Node

/-- The entries of a mapping with those that it merges, which come first, or why these are
none. -/
abbrev Merged := Except Defect (List Entry × List Entry)

/-- All entries, the merged ones first. -/
def Merged.entries (m : Merged) : Except Defect (List Entry) :=
  m.map fun (merged, own) => merged ++ own

/-- The entries with one of its own more in front. -/
def Merged.withOwn (entry : Entry) (m : Merged) : Merged :=
  m.map fun (merged, own) => (merged, entry :: own)

/-- The entries with those of another mapping merged into it. -/
def Merged.merging (other : Except Defect (List Entry)) (m : Merged) : Merged := do
  let others ← other
  let (merged, own) ← m
  return (others ++ merged, own)

/-- The text of a scalar, or of the value that stands for a mapping. -/
def text? : Node → Option Text
  | .scalar _ t => some t
  | .mapping _ entries => among entries
  | _ => none
where
  /-- The text of the value that stands for a mapping with these entries. -/
  among : List (Node × Node) → Option Text
    | [] => none
    | (k, v) :: rest => if k.kind = .value then text? v else among rest

/-- The value of a node whose kind is that of a scalar and whose text is this. -/
def converted (kind : Tag) (t : Text) : Filled Datum :=
  (Literal.convert kind t).mapError fun why => (0, why)

/-- Whether lists or mappings have values of this kind. -/
def isCollection (kind : Tag) : Bool :=
  kind = .list || kind = .mapping || kind = .set || kind = .pairs || kind = .orderedPairs

mutual

/-- The datum that a node writes. -/
def toDatum : Node → Filled Datum
  | .ring _ => .ok .null
  | .scalar kind t =>
    if isCollection kind then .later (.fail .malformed) else converted kind t
  | .list kind items =>
    if kind = .list then (Filled.all (parts items)).later.map Datum.list
    else if kind = .pairs ∨ kind = .orderedPairs then
      (Filled.all (pairs items)).later.map Datum.list
    else if isCollection kind then .later (.fail .malformed)
    else .fail .malformed
  | .mapping kind entries =>
    if kind = .mapping ∨ kind = .set then
      let filled : Filled (List (Datum × Datum)) :=
        match (merged entries).entries with
        | .error why => .fail why
        | .ok all => Entry.collect all
      filled.later.map fun pairs => if kind = .set then .set (pairs.map Prod.fst) else .mapping pairs
    else if isCollection kind then .later (.fail .malformed)
    else
      match text?.among entries with
      | none => .fail .malformed
      | some t =>
        if kind = .moment then .fail .mappingForMoment else converted kind t

/-- The data of the items of a list. -/
def parts : List Node → List (Filled Datum)
  | [] => []
  | n :: rest => toDatum n :: parts rest

/-- The data of the items of a list of mappings with one entry each. -/
def pairs : List Node → List (Filled Datum)
  | [] => []
  | .mapping _ [(k, v)] :: rest =>
    ((Filled.both (toDatum k) (toDatum v)).map fun (a, b) => .pair a b) :: pairs rest
  | _ :: _ => [.fail .malformed]

/-- The entries of a mapping. -/
def merged : List (Node × Node) → Merged
  | [] => .ok ([], [])
  | (k, v) :: rest =>
    if k.kind = .merge then
      match v with
      | .mapping _ others => (merged rest).merging (merged others).entries
      | .list _ items => (merged rest).merging (mergedIn items)
      | .ring _ => merged rest
      | .scalar .. => .error .malformed
    else if k.kind = .value then
      match k with
      | .scalar _ t => (merged rest).withOwn (.ok (.text t), toDatum v)
      | _ => (merged rest).withOwn (.fail .malformed, toDatum v)
    else (merged rest).withOwn (toDatum k, toDatum v)

/-- The entries of a row of mappings, those of the last one first. -/
def mergedIn : List Node → Except Defect (List Entry)
  | [] => .ok []
  | .mapping _ others :: rest => do
    let all ← (merged others).entries
    return (← mergedIn rest) ++ all
  | .ring _ :: rest => mergedIn rest
  | _ :: _ => .error .malformed

end

end Node

/-- The datum that a text of YAML writes; an empty one writes none. -/
def read (room : Room) (t : Text) : Except Defect Datum := do
  match ← Node.ofText? room t with
  | none => return .null
  | some root => (root.toDatum).mapError Prod.snd

end Yaml

end ImageTrust
