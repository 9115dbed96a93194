/-
# Tags, handles and anchors

A tag says what kind of value a node holds.  It is spelled in full between `!<` and `>`, or
as a handle, which a directive declares, with the rest of the tag behind it.
-/
import ImageTrust.Yaml.Cursor
import ImageTrust.Yaml.Defect

namespace ImageTrust

namespace Yaml

/-- The kinds of values that tags name; the kinds that a document may not name are one. -/
inductive Tag where
  | null
  | bool
  | int
  | float
  | binary
  | moment
  | text
  | list
  | mapping
  | set
  | pairs
  | orderedPairs
  /-- The key whose mappings are merged into the one it stands in. -/
  | merge
  /-- The key whose value stands for its mapping. -/
  | value
  | unknown
deriving DecidableEq, Repr

namespace Tag

/-- What the tags of the kinds below have in front of their names. -/
def standardStem : Text := "tag:yaml.org,2002:"

/-- The handles that need no directive. -/
def handles : List (Text × Text) :=
  [("!", "!"), ("!!", standardStem)]

/-- The kind of value that a short name stands for. -/
def ofName (name : Text) : Tag :=
  if name = "null" then .null
  else if name = "bool" then .bool
  else if name = "int" then .int
  else if name = "float" then .float
  else if name = "binary" then .binary
  else if name = "timestamp" then .moment
  else if name = "str" then .text
  else if name = "seq" then .list
  else if name = "map" then .mapping
  else if name = "set" then .set
  else if name = "pairs" then .pairs
  else if name = "omap" then .orderedPairs
  else if name = "merge" then .merge
  else if name = "value" then .value
  else .unknown

/-- The kind of value that a whole tag names. -/
def ofUri (uri : Text) : Tag :=
  match standardStem.isPrefixOf? uri with
  | some name => ofName name
  | none => .unknown

end Tag

/-- How a node spells its tag. -/
inductive TagSpelling where
  /-- The tag in full; a lone `!` leaves the kind of value to the text. -/
  | whole (uri : Text)
  | behind (handle uri : Text)
deriving DecidableEq, Repr

namespace TagSpelling

/-- The tag without handles, where the handle is declared. -/
def uri? (handles : List (Text × Text)) : TagSpelling → Option Text
  | .whole uri => some uri
  | .behind handle uri => (handles.lookup handle).map (· ++ uri)

/-! ## Reading -/

/-- The code points of names: of anchors, of handles and of directives. -/
def isNamePart (c : CodePoint) : Bool := c.isWord || c = '-'

/-- The code points that a tag holds unescaped. -/
def isUriPart (c : CodePoint) : Bool := c.isAlphanumeric || c.isOneOf "-;/?:@&=+$,_.!~*'()[]"

/-- The text that escaped bytes write. -/
def unescaped (bytes : Bytes) : Except Defect Text :=
  match Text.ofUtf8? false bytes with
  | some t => .ok t
  | none => .error .malformed

/-- The part of a tag that the text starts with, and what follows. Bytes may be escaped by a
percent sign and two hexadecimal digits; `bytes` are the ones right before. -/
def uriFrom (bytes : Bytes) : Text → Except Defect (Text × Text)
  | [] => do return (← unescaped bytes, [])
  | c :: t =>
    if c = '%' then
      match t with
      | a :: b :: rest =>
        match a.hexValue?, b.hexValue? with
        | some high, some low => uriFrom (bytes ++ [UInt8.ofNat (high * 16 + low)]) rest
        | _, _ => .error .malformed
      | _ => .error .malformed
    else if isUriPart c then do
      let shown ← unescaped bytes
      let (more, rest) ← uriFrom [] t
      return (shown ++ c :: more, rest)
    else do return (← unescaped bytes, c :: t)

/-- The part of a tag that the text starts with, which may not be empty, and what follows. -/
def takeUri (t : Text) : Except Defect (Text × Text) :=
  match t with
  | c :: _ => if isUriPart c ∨ c = '%' then uriFrom [] t else .error .malformed
  | [] => .error .malformed

/-- The handle that the text starts with, and what follows: an exclamation mark, or a name
between two. -/
def takeHandle (t : Text) : Except Defect (Text × Text) :=
  match t with
  | [] => .error .malformed
  | c :: t =>
    if c ≠ '!' then .error .malformed
    else if Text.startsWith ' ' t then .ok ([c], t)
    else
      let name := t.takeWhile isNamePart
      match t.dropWhile isNamePart with
      | [] => .error .malformed
      | d :: rest => if d = '!' then .ok (c :: name ++ [d], rest) else .error .malformed

/-- The spelling of a tag and what follows it, from behind the exclamation mark. -/
def body (t : Text) : Except Defect (TagSpelling × Text) := do
  let bang : Text := "!"
  let (spelling, rest) ←
    if Text.startsWith '<' t then do
      let (uri, rest) ← takeUri t.tail
      if Text.startsWith '>' rest then pure (TagSpelling.whole uri, rest.tail)
      else .error .malformed
    else if Text.startsWhite t then pure (TagSpelling.whole bang, t)
    else if (t.takeWhile fun c => !c.isSpaceOrBreak).contains (CodePoint.ofChar '!') then do
      let (handle, rest) ← takeHandle (bang ++ t)
      let (uri, rest) ← takeUri rest
      pure (TagSpelling.behind handle uri, rest)
    else do
      let (uri, rest) ← takeUri t
      pure (TagSpelling.behind bang uri, rest)
  if Text.startsSpaceOrBreak rest then return (spelling, rest) else .error .malformed

end TagSpelling

end Yaml

end ImageTrust
