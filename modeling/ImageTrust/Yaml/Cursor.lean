/-
# Places in a YAML text

YAML gives meaning to columns, so a reader carries the line and the column of what it
looks at.  Line feeds and the two Unicode separators end a line; the other ways to end one
are made line feeds before the reading starts.
-/
import ImageTrust.Text.Utf8

namespace ImageTrust

namespace CodePoint

/-- Whether the code point ends a line. -/
def isLineBreak (c : CodePoint) : Bool := c = '\n' || c.within 0x2028 0x2029

/-- A space. -/
def isSpace (c : CodePoint) : Bool := c = ' '

/-- A space or a tab. -/
def isGap (c : CodePoint) : Bool := c = ' ' || c = '\t'

/-- A space, or the end of a line. -/
def isSpaceOrBreak (c : CodePoint) : Bool := c = ' ' || c.isLineBreak

/-- A space, a tab, or the end of a line. -/
def isWhite (c : CodePoint) : Bool := c.isGap || c.isLineBreak

/-- Whether the code point is one of the characters of a string. -/
def isOneOf (s : String) (c : CodePoint) : Bool := (Text.ofString s).contains c

/-- The code points that a YAML text may hold. -/
def isYaml (c : CodePoint) : Bool :=
  c = '\t' || c = '\n' || c = '\r' || c.within 0x20 0x7E || c.val == 0x85 || c.within 0xA0 0xD7FF ||
    c.within 0xE000 0xFFFD || c.within 0x10000 0x10FFFF

/-- The mark that may stand first in a text, and takes no column anywhere. -/
def isByteOrderMark (c : CodePoint) : Bool := c.val == 0xFEFF

end CodePoint

namespace Text

/-- Whether the text is at its end or goes on with white space. -/
def startsWhite : Text → Bool
  | [] => true
  | c :: _ => c.isWhite

/-- Whether the text is at its end or goes on with a space or the end of a line. -/
def startsSpaceOrBreak : Text → Bool
  | [] => true
  | c :: _ => c.isSpaceOrBreak

/-- Whether the text is at its end or at the end of a line. -/
def startsBreak : Text → Bool
  | [] => true
  | c :: _ => c.isLineBreak

/-- Whether the text goes on with this character. -/
def startsWith (c : CodePoint) (t : Text) : Bool := t.head? = some c

/-- Whether the text goes on with three dashes or three points that stand alone. -/
def startsMarker (t : Text) : Bool :=
  (t.take 3 == ("---" : Text) || t.take 3 == ("..." : Text)) && startsWhite (t.drop 3)

/-- What follows the end of the line that the text starts with. -/
def afterBreak : Text → Text
  | [] => []
  | c :: t => if c.isLineBreak then t else c :: t

/-- The line ends in a run of white space. -/
def breaks (run : Text) : Text := run.filter CodePoint.isLineBreak

/-- What a run of white space between two words stands for. Within a line it stays; the end
of a line makes it one space, or as many line ends as there are empty lines. -/
def folded (run : Text) : Text :=
  match run.breaks with
  | [] => run
  | b :: more =>
    if b ≠ '\n' then b :: more
    else if more = [] then [' ']
    else more

/-- What follows the rest of a line, if that is blank or a comment. -/
def afterComment? (t : Text) : Option Text :=
  let t : Text := t.dropWhile CodePoint.isSpace
  let t : Text := if t.startsWith '#' then t.dropWhile fun c => !c.isLineBreak else t
  if t.startsBreak then some t.afterBreak else none

/-- The text with line feeds for all other pairs and characters that end a line, save the
Unicode separators, and without a byte order mark in front; none if a code point may not
stand in YAML. -/
def toYaml? (t : Text) : Option Text :=
  if !t.all CodePoint.isYaml then none
  else
    let lines : Text :=
      t.withPlainLines.map fun c => if c.val = 0x85 then CodePoint.ofChar '\n' else c
    match lines with
    | [] => some []
    | c :: rest => some (if c.isByteOrderMark then rest else c :: rest)

end Text

namespace Yaml

/-- A place in a text: what follows, and how much came before. -/
structure Cursor where
  rest : Text
  index : Nat
  line : Nat
  column : Nat

namespace Cursor

/-- The place before the first code point of a text. -/
def start (t : Text) : Cursor := { rest := t, index := 0, line := 0, column := 0 }

/-- The place one code point further on. -/
def next (c : Cursor) : Cursor :=
  match c.rest with
  | [] => c
  | x :: rest =>
    if x.isLineBreak then { rest, index := c.index + 1, line := c.line + 1, column := 0 }
    else if x.isByteOrderMark then { c with rest, index := c.index + 1 }
    else { rest, index := c.index + 1, line := c.line, column := c.column + 1 }

/-- The place this many code points further on. -/
def skip : Nat → Cursor → Cursor
  | 0, c => c
  | n + 1, c => skip n c.next

/-- The place from which `rest` remains. -/
def skipTo (c : Cursor) (rest : Text) : Cursor := c.skip (c.rest.length - rest.length)

end Cursor

end Yaml

end ImageTrust
