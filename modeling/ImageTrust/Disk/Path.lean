/-
# Paths

A path is read once: empty components and single dots drop out, a slash at the end does
too, and two dots stay where they are.  Messages show what is left.
-/
import ImageTrust.Text.Quoted

namespace ImageTrust

/-- A path to a file: where it starts and the names on the way. -/
structure Path where
  /-- Nothing for a path from the working directory, or the slashes of a rooted one. -/
  anchor : Text
  names : List Text
deriving DecidableEq

namespace Path

/-- The slashes that root a path: one, or exactly two. -/
def anchorOf (t : Text) : Text :=
  match (t.takeWhile fun c : CodePoint => c = '/').length with
  | 0 => ""
  | 2 => "//"
  | _ => "/"

/-- The path that a text writes. -/
def ofText (t : Text) : Path :=
  ⟨anchorOf t, (t.pieces '/').filter fun name => name ≠ [] && name ≠ "."⟩

/-- The path as a text. -/
def shown (p : Path) : Text :=
  if p.anchor = [] ∧ p.names = [] then "."
  else p.anchor ++ Text.joined "/" p.names

/-- The path to an entry of the directory that this path leads to. -/
def child (p : Path) (name : Text) : Path := { p with names := p.names ++ [name] }

/-- The end of the last name from its last dot on, unless that dot is its first or last
code point. -/
def suffix (p : Path) : Text :=
  match p.names.getLast? with
  | none => []
  | some name =>
    match name.cutLast? '.' with
    | some (stem, ending) =>
      if stem = [] ∨ ending = [] then [] else CodePoint.ofChar '.' :: ending
    | none => []

end Path

end ImageTrust
