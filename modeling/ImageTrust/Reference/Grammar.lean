/-
# The grammar of references

The classes of texts that the parts of a reference belong to.  All of them are classes
of ASCII texts.  Each part is read as a line: one line feed at its end does not count
against it, so a tag may end with one although no tag of the grammar does.
-/
import ImageTrust.Text.Basic

namespace ImageTrust

namespace Text

/-- Whether the text belongs to the class, or would without one line feed at its end. -/
def isLineOf (p : Text → Bool) (t : Text) : Bool :=
  p t || (t.getLast? == some (CodePoint.ofChar '\n') && p t.dropLast)

/-- The pieces between the members of a class; one more than there are of these. -/
def piecesBy (p : CodePoint → Bool) : Text → List Text
  | [] => [[]]
  | x :: t =>
    if p x then [] :: piecesBy p t
    else
      match piecesBy p t with
      | [] => [[x]]
      | piece :: rest => (x :: piece) :: rest

/-- Not empty, and all of one class. -/
def isRunOf (p : CodePoint → Bool) (t : Text) : Bool := !t.isEmpty && t.all p

end Text

namespace Reference

/-- A letter or digit of a path. -/
def isPathWord (c : CodePoint) : Bool := c.isLower || c.isDigit

/-- What was last read of a path component: a word, or a separator between two words,
which is a dot, one or two underscores, or any number of hyphens. -/
inductive PathState where
  | start
  | word
  | dot
  | underscore
  | underscores
  | hyphens
deriving DecidableEq

/-- One more code point of a path component. -/
def PathState.step (s : PathState) (c : CodePoint) : Option PathState :=
  if isPathWord c then some .word
  else
    match s with
    | .word =>
      if c = '.' then some .dot
      else if c = '_' then some .underscore
      else if c = '-' then some .hyphens
      else none
    | .underscore => if c = '_' then some .underscores else none
    | .hyphens => if c = '-' then some .hyphens else none
    | _ => none

/-- Whether the rest completes a path component: it has to end with a word. -/
def PathState.accepts : PathState → Text → Bool
  | s, [] => s = .word
  | s, c :: t =>
    match s.step c with
    | none => false
    | some s => s.accepts t

/-- A component of a path. -/
def isPathComponent (t : Text) : Bool := PathState.start.accepts t

/-- A letter, a digit or a hyphen. -/
def isHostWord (c : CodePoint) : Bool := c.isAlphanumeric || c = '-'

/-- A component of a host name: it starts and ends with a letter or digit. -/
def isHostComponent (t : Text) : Bool :=
  t.isRunOf isHostWord && t.head?.any CodePoint.isAlphanumeric &&
    t.getLast?.any CodePoint.isAlphanumeric

/-- A host name: components between dots. -/
def isHostName (t : Text) : Bool := (t.pieces '.').all isHostComponent

/-- A host: a name, after which a colon and a port may stand. -/
def isHost (t : Text) : Bool :=
  match t.cutFirst? ':' with
  | none => isHostName t
  | some (name, port) => isHostName name && port.isRunOf CodePoint.isDigit

/-- A letter, a digit, an underscore, a dot or a hyphen. -/
def isTagWord (c : CodePoint) : Bool := c.isWord || c = '.' || c = '-'

/-- A tag: at most 128 code points, the first a letter, a digit or an underscore. -/
def isTag (t : Text) : Bool :=
  t.all isTagWord && t.head?.any CodePoint.isWord && decide (t.length ≤ 128)

/-- The signs between the components of an algorithm's name. -/
def isAlgorithmSeparator (c : CodePoint) : Bool := c = '-' || c = '_' || c = '+' || c = '.'

/-- A component of an algorithm's name: letters and digits, a letter first. -/
def isAlgorithmComponent (t : Text) : Bool :=
  t.all CodePoint.isAlphanumeric && t.head?.any CodePoint.isLetter

/-- The name of a digest algorithm. -/
def isAlgorithm (t : Text) : Bool := (t.piecesBy isAlgorithmSeparator).all isAlgorithmComponent

/-- A digest: an algorithm, a colon, and at least 32 hexadecimal digits. -/
def isDigest (t : Text) : Bool :=
  match t.cutFirst? ':' with
  | none => false
  | some (algorithm, hex) => isAlgorithm algorithm && hex.all CodePoint.isHex && decide (32 ≤ hex.length)

/-- A bare digest: 64 small hexadecimal digits. -/
def isBareDigest (t : Text) : Bool := t.all CodePoint.isLowerHex && t.length == 64

end Reference

end ImageTrust
