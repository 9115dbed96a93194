/-
# Layout — where keys and columns are

A key in front of a colon is only known as a key when the colon comes, so the place of what
may turn out to be one is kept.  Outside of brackets and braces columns open and close
lists and mappings, and there a key is looked for only at the start of a line or behind a sign.
-/
import ImageTrust.Yaml.Token

namespace ImageTrust

namespace Yaml

/-- A place before which a key may have to be put. -/
structure KeyPlace where
  /-- The number of tokens before it. -/
  place : Nat
  /-- Whether the document makes no sense unless a key stands here. -/
  required : Bool
  index : Nat
  line : Nat
  column : Nat

/-- The state of the cut of a text into tokens. -/
structure Lexer where
  cursor : Cursor
  /-- The tokens so far, the last first, and their number. -/
  tokens : List Token
  count : Nat
  /-- The columns of the open lists and mappings, the innermost first. -/
  indents : List Nat
  /-- Whether a key may start here. -/
  keyAllowed : Bool
  /-- Where a key may have started, inside the innermost brackets or braces. -/
  keyPlace : Option KeyPlace
  /-- The same for all that is around the innermost brackets or braces, the inner ones first. -/
  around : List (Option KeyPlace)

namespace Lexer

/-- The state before a text. -/
def start (t : Text) : Lexer :=
  { cursor := .start t, tokens := [], count := 0, indents := [], keyAllowed := true,
    keyPlace := none, around := [] }

/-- Whether the place is inside brackets or braces. -/
def inFlow (s : Lexer) : Bool := !s.around.isEmpty

/-- The state with one more token. -/
def push (t : Token) (s : Lexer) : Lexer := { s with tokens := t :: s.tokens, count := s.count + 1 }

/-- The state with a token put in behind the first `place` ones. -/
def insert (place : Nat) (t : Token) (s : Lexer) : Lexer :=
  { s with tokens := s.tokens.insertIdx (s.count - place) t, count := s.count + 1 }

/-- The state this many code points further on. -/
def skip (n : Nat) (s : Lexer) : Lexer := { s with cursor := s.cursor.skip n }

/-! ## Keys -/

/-- The most code points from the start of a key to its colon. -/
def maxKey : Nat := 1024

/-- Whether the colon of a key that started there could still come. -/
def isOpen (c : Cursor) (k : KeyPlace) : Bool := k.line = c.line && c.index - k.index ≤ maxKey

/-- A place for a key where it is still open; it must not be left if it is required. -/
def refresh (c : Cursor) : Option KeyPlace → Except Defect (Option KeyPlace)
  | none => .ok none
  | some k =>
    if isOpen c k then .ok (some k) else if k.required then .error .malformed else .ok none

/-- The state without the places where no key can have started. -/
def refreshed (s : Lexer) : Except Defect Lexer := do
  let keyPlace ← refresh s.cursor s.keyPlace
  let around ← s.around.mapM (refresh s.cursor)
  return { s with keyPlace, around }

/-- The state when no key can have started at the place kept; that fails if one is required. -/
def withoutKey (s : Lexer) : Except Defect Lexer :=
  match s.keyPlace with
  | none => .ok s
  | some k => if k.required then .error .malformed else .ok { s with keyPlace := none }

/-- The state when a key may start here, if one may. -/
def withKey (s : Lexer) : Except Defect Lexer :=
  if s.keyAllowed then do
    let s ← s.withoutKey
    let here : KeyPlace :=
      { place := s.count, required := !s.inFlow && s.indents.head? == some s.cursor.column,
        index := s.cursor.index, line := s.cursor.line, column := s.cursor.column }
    return { s with keyPlace := some here }
  else .ok s

/-! ## Columns -/

/-- The open columns that are not right of `column`, and the number of the others. -/
def keepColumns (column : Nat) : List Nat → Nat × List Nat
  | [] => (0, [])
  | i :: rest =>
    if column < i then
      let (n, kept) := keepColumns column rest
      (n + 1, kept)
    else (0, i :: rest)

/-- The state with this many ends of lists and mappings. -/
def closeBlocks : Nat → Lexer → Lexer
  | 0, s => s
  | n + 1, s => closeBlocks n (s.push .blockEnd)

/-- The state when all columns right of `column` are closed. -/
def unwind (column : Nat) (s : Lexer) : Lexer :=
  if s.inFlow then s
  else
    let (n, indents) := keepColumns column s.indents
    closeBlocks n { s with indents }

/-- The state when all columns are closed. -/
def unwindAll (s : Lexer) : Lexer :=
  if s.inFlow then s else closeBlocks s.indents.length { s with indents := [] }

/-- Whether something at this column opens a list or a mapping. -/
def opens (column : Nat) (s : Lexer) : Bool :=
  match s.indents with
  | [] => true
  | i :: _ => i < column

/-- The state with a list or mapping opened at the present column, if that opens one. -/
def openBlock (t : Token) (s : Lexer) : Lexer :=
  if s.opens s.cursor.column then { s with indents := s.cursor.column :: s.indents }.push t else s

/-- The column that the lines of a scalar have to reach. -/
def leastColumn (s : Lexer) : Nat := match s.indents with
  | [] => 0
  | i :: _ => i + 1

/-! ## White space -/

/-- How many code points of spaces, comments and line ends the text starts with, in a comment
or outside. -/
def blankLength (comment : Bool) : Text → Nat
  | [] => 0
  | c :: t =>
    if c.isLineBreak then blankLength false t + 1
    else if comment || c = '#' then blankLength true t + 1
    else if c = ' ' then blankLength false t + 1
    else 0

/-- The state before the next token. Behind the end of a line a key may start, outside of
brackets and braces. -/
def skipBlank (s : Lexer) : Lexer :=
  let place := s.cursor.skip (blankLength false s.cursor.rest)
  { s with
    cursor := place
    keyAllowed := s.keyAllowed || (!s.inFlow && s.cursor.line < place.line) }

end Lexer

end Yaml

end ImageTrust
