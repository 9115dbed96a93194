/-
# Plain scalars

A scalar without quotes is a row of words.  A word ends before white space, and before a
colon that ends a word; inside brackets or braces it also ends before the signs that have a
meaning there.  The row ends at a comment, at a document marker, and, outside of brackets and
braces, at a line that is not indented enough.
-/
import ImageTrust.Yaml.Cursor

namespace ImageTrust

namespace Yaml

namespace Plain

/-- The signs that start something other than a plain scalar. -/
def indicators : String := "-?:,[]\x7b\x7d#&*!|>'\"%@\x60"

/-- Whether a plain scalar can start here, inside brackets or braces (`flow`) or outside. -/
def startsAt (flow : Bool) : Text → Bool
  | [] => false
  | c :: t =>
    !(c.isWhite || c.isOneOf indicators) ||
      (!Text.startsWhite t && (c = '-' || (!flow && c.isOneOf "?:")))

/-- Whether a colon ends a word, from what follows the colon. -/
def colonEnds (flow : Bool) : Text → Bool
  | [] => true
  | c :: _ => c.isWhite || (flow && c.isOneOf ",[]\x7b\x7d")

/-- The word that the text starts with; it may be empty. -/
def word (flow : Bool) : Text → Text
  | [] => []
  | c :: t =>
    if c.isWhite || (c = ':' && colonEnds flow t) || (flow && c.isOneOf ",?[]\x7b\x7d") then []
    else c :: word flow t

/-- A plain scalar: its value, the place behind it, and whether the white space after it ends a
line. -/
structure Found where
  value : Text
  cursor : Cursor
  endsLine : Bool

/-- The rest of a row of words. -/
def rowFrom (flow : Bool) (indent : Nat) : Nat → Cursor → Found
  | 0, c => { value := [], cursor := c, endsLine := false }
  | fuel + 1, c =>
    let w := word flow c.rest
    let behind := c.skip w.length
    let run : Text := behind.rest.takeWhile CodePoint.isSpaceOrBreak
    let place := behind.skip run.length
    let here : Found := { value := w, cursor := place, endsLine := run.breaks ≠ [] }
    let stops := w = [] ∨ run = [] ∨ place.rest.startsWith '#' ∨
      (place.column = 0 ∧ place.rest.startsMarker) ∨ (!flow ∧ place.column < indent)
    if stops then here
    else
      let more := rowFrom flow indent fuel place
      if more.value = [] then here else { more with value := w ++ run.folded ++ more.value }

/-- The plain scalar that starts here, where lines after the first have to be indented by at
least `indent`. -/
def row (flow : Bool) (indent : Nat) (c : Cursor) : Found :=
  rowFrom flow indent (c.rest.length + 1) c

end Plain

end Yaml

end ImageTrust
