/-
# From a text to tokens

Each sign makes a token and moves the layout on.  A token may be used once nothing can be put
in front of it any more.  When a defect is met, the tokens before the first place that is still
open are therefore the ones that count.
-/
import ImageTrust.Yaml.Layout
import ImageTrust.Yaml.Style.Block
import ImageTrust.Yaml.Style.Plain
import ImageTrust.Yaml.Style.Quoted

namespace ImageTrust

namespace Yaml

namespace Lexer

/-- A token that is one sign. -/
def sign (t : Token) (s : Lexer) : Lexer := (s.skip 1).push t

/-- The end of the text. -/
def finish (s : Lexer) : Except Defect Lexer := do return (← s.unwindAll.withoutKey).push .textEnd

/-- The marker of a document. -/
def marker (t : Token) (s : Lexer) : Except Defect Lexer := do
  let s ← s.unwindAll.withoutKey
  return ({ s with keyAllowed := false }.skip 3).push t

/-- A directive. -/
def directive (s : Lexer) : Except Defect Lexer := do
  let s ← s.unwindAll.withoutKey
  let (t, rest) ← Token.takeDirective s.cursor.rest.tail
  return { s with keyAllowed := false, cursor := s.cursor.skipTo rest }.push t

/-- An opening bracket or brace. -/
def openFlow (t : Token) (s : Lexer) : Except Defect Lexer := do
  let s ← s.withKey
  return { s with keyAllowed := true, keyPlace := none, around := s.keyPlace :: s.around }.sign t

/-- A closing bracket or brace; it has to close something. -/
def closeFlow (t : Token) (s : Lexer) : Except Defect Lexer := do
  let s ← s.withoutKey
  match s.around with
  | [] => .error .malformed
  | k :: around => return { s with keyAllowed := false, keyPlace := k, around }.sign t

/-- A comma; it stands inside brackets or braces only. -/
def comma (s : Lexer) : Except Defect Lexer := do
  let s ← s.withoutKey
  if s.inFlow then return { s with keyAllowed := true }.sign .comma else .error .malformed

/-- The dash of an item. -/
def item (s : Lexer) : Except Defect Lexer :=
  if !s.inFlow ∧ !s.keyAllowed then .error .malformed
  else do
    let s ← (if s.inFlow then s else s.openBlock .listStart).withoutKey
    return { s with keyAllowed := true }.sign .item

/-- The question mark of a key. -/
def key (s : Lexer) : Except Defect Lexer :=
  if !s.inFlow ∧ !s.keyAllowed then .error .malformed
  else do
    let s ← (if s.inFlow then s else s.openBlock .mappingStart).withoutKey
    return { s with keyAllowed := !s.inFlow }.sign .key

/-- The colon of a value. The key before it is put in where it started, and there a mapping
too, if the column opens one. -/
def value (s : Lexer) : Except Defect Lexer :=
  match s.keyPlace with
  | some k =>
    let s := { s with keyPlace := none, keyAllowed := false }.insert k.place .key
    let s :=
      if !s.inFlow ∧ s.opens k.column then
        { s with indents := k.column :: s.indents }.insert k.place .mappingStart
      else s
    .ok (s.sign .value)
  | none =>
    if s.inFlow then .ok ({ s with keyAllowed := false }.sign .value)
    else if !s.keyAllowed then .error .malformed
    else .ok ((s.openBlock .mappingStart).sign .value)

/-- A token that may be a key or start one, from its reader, which is given the text behind
the sign. -/
def keyLike (take : Text → Except Defect (Token × Text)) (s : Lexer) : Except Defect Lexer := do
  let s ← s.withKey
  let (t, rest) ← take s.cursor.rest.tail
  return { s with keyAllowed := false, cursor := s.cursor.skipTo rest }.push t

/-- A quoted scalar. -/
def quoted (double : Bool) : Lexer → Except Defect Lexer :=
  keyLike fun t => do
    let (text, rest) ← Quoted.body double t
    return (.scalar text false, rest)

/-- A block scalar. -/
def block (folds : Bool) (s : Lexer) : Except Defect Lexer := do
  let s ← s.withoutKey
  let (text, rest) ← Block.body folds (max s.leastColumn 1) s.cursor.rest.tail
  return { s with keyAllowed := true, cursor := s.cursor.skipTo rest }.push (.scalar text false)

/-- A plain scalar. -/
def plain (s : Lexer) : Except Defect Lexer := do
  let s ← s.withKey
  let found := Plain.row s.inFlow s.leastColumn s.cursor
  let s : Lexer := { s with keyAllowed := found.endsLine, cursor := found.cursor }
  return s.push (.scalar found.value true)

/-- The state behind the next token, from right before it. -/
def token (s : Lexer) : Except Defect Lexer :=
  let t := s.cursor.rest
  let first := s.cursor.column = 0
  match t with
  | [] => s.finish
  | c :: rest =>
    let white := Text.startsWhite rest
    if c = '%' ∧ first then s.directive
    else if c = '-' ∧ first ∧ t.startsMarker then s.marker .documentStart
    else if c = '.' ∧ first ∧ t.startsMarker then s.marker .documentEnd
    else if c = '[' then s.openFlow .flowListStart
    else if c = '{' then s.openFlow .flowMappingStart
    else if c = ']' then s.closeFlow .flowListEnd
    else if c = '}' then s.closeFlow .flowMappingEnd
    else if c = ',' then s.comma
    else if c = '-' ∧ white then s.item
    else if c = '?' ∧ (s.inFlow ∨ white) then s.key
    else if c = ':' ∧ (s.inFlow ∨ white) then s.value
    else if c = '*' then
      s.keyLike fun t => (Token.takeAnchor t).map fun (name, rest) => (.alias name, rest)
    else if c = '&' then
      s.keyLike fun t => (Token.takeAnchor t).map fun (name, rest) => (.anchor name, rest)
    else if c = '!' then
      s.keyLike fun t => (TagSpelling.body t).map fun (spelling, rest) => (.tag spelling, rest)
    else if c = '|' ∧ !s.inFlow then s.block false
    else if c = '>' ∧ !s.inFlow then s.block true
    else if c = '\'' then s.quoted false
    else if c = '"' then s.quoted true
    else if Plain.startsAt s.inFlow t then s.plain
    else .error .malformed

/-- The state behind the next token. -/
def step (s : Lexer) : Except Defect Lexer := do
  let s ← s.skipBlank.refreshed
  (s.unwind s.cursor.column).token

/-- The number of tokens before which no key can be put any more. -/
def settled (s : Lexer) : Nat :=
  (s.keyPlace :: s.around).foldl
    (fun n k => match k with
      | none => n
      | some k => min n k.place) s.count

/-- The tokens that count when a defect is met. -/
def stopped (s : Lexer) (why : Defect) : List Token :=
  (s.tokens.reverse.take s.settled) ++ [.fault why]

/-- The tokens of the rest of a text. -/
def run : Nat → Lexer → List Token
  | 0, s => s.stopped .malformed
  | fuel + 1, s =>
    match s.refreshed with
    | .error why => s.stopped why
    | .ok s =>
      match s.step with
      | .error why => s.stopped why
      | .ok after =>
        if after.tokens.head? = some .textEnd then after.tokens.reverse else run fuel after

end Lexer

/-- The tokens of a text, up to its end or to what is wrong in it. -/
def Token.ofText (t : Text) : List Token := (Lexer.start t).run (t.length + 1)

end Yaml

end ImageTrust
