/-
# YAML tokens

The signs of a document, with the start and the end of what indentation opens and closes.
A row of tokens ends with the end of the text or with what is wrong in it.
-/
import ImageTrust.Yaml.Tag

namespace ImageTrust

namespace Yaml

/-- A token. -/
inductive Token where
  /-- The directive that gives the version. -/
  | version (major : Nat)
  /-- The directive that declares a handle for the tags that start with `stem`. -/
  | handle (name stem : Text)
  | otherDirective
  | documentStart
  | documentEnd
  | listStart
  | mappingStart
  | blockEnd
  | flowListStart
  | flowListEnd
  | flowMappingStart
  | flowMappingEnd
  | item
  | comma
  | key
  | value
  | alias (name : Text)
  | anchor (name : Text)
  | tag (spelling : TagSpelling)
  | scalar (text : Text) (plain : Bool)
  | textEnd
  | fault (why : Defect)
deriving DecidableEq

namespace Token

/-- The name of an anchor and what follows it, from behind its sign. -/
def takeAnchor (t : Text) : Except Defect (Text × Text) :=
  let name := t.takeWhile TagSpelling.isNamePart
  let rest : Text := t.dropWhile TagSpelling.isNamePart
  let closed : Bool := match rest with
    | [] => true
    | c :: _ => c.isWhite || c.isOneOf "?:,]\x7d%@\x60"
  if name ≠ [] ∧ closed then .ok (name, rest) else .error .malformed

/-! ## Directives -/

/-- The number that the text starts with, and what follows. -/
def takeNumber (t : Text) : Except Defect (Nat × Text) :=
  let digits := t.takeWhile CodePoint.isDigit
  if digits = [] then .error .malformed
  else if Number.maxDigits < digits.length then .error (.longInteger digits.length)
  else .ok (Text.decimalValue digits, t.dropWhile CodePoint.isDigit)

/-- The version in a directive, and what follows. -/
def takeVersion (t : Text) : Except Defect (Token × Text) := do
  let (major, t) ← takeNumber (t.dropWhile CodePoint.isSpace)
  if !Text.startsWith '.' t then .error .malformed
  else
    let (_, t) ← takeNumber t.tail
    if Text.startsSpaceOrBreak t then return (.version major, t) else .error .malformed

/-- The handle in a directive with what it stands for, and what follows. -/
def takeDeclaration (t : Text) : Except Defect (Token × Text) := do
  let (name, t) ← TagSpelling.takeHandle (t.dropWhile CodePoint.isSpace)
  if !Text.startsWith ' ' t then .error .malformed
  else
    let (stem, t) ← TagSpelling.takeUri (t.dropWhile CodePoint.isSpace)
    if Text.startsSpaceOrBreak t then return (.handle name stem, t) else .error .malformed

/-- A directive and the text from the next line on, from behind the percent sign. -/
def takeDirective (t : Text) : Except Defect (Token × Text) := do
  let name := t.takeWhile TagSpelling.isNamePart
  let rest : Text := t.dropWhile TagSpelling.isNamePart
  if name = [] ∨ !Text.startsSpaceOrBreak rest then .error .malformed
  else
    let (token, rest) ←
      if name = "YAML" then takeVersion rest
      else if name = "TAG" then takeDeclaration rest
      else .ok (.otherDirective, rest.dropWhile fun c => !c.isLineBreak)
    match Text.afterComment? rest with
    | some rest => return (token, rest)
    | none => .error .malformed

end Token

end Yaml

end ImageTrust
