/-
# JSON tokens

A document is cut into tokens first.  Each token remembers the text from its own start
on, so that a complaint can be placed without counting along the way.  The cut never
fails: it ends with a token that says what is wrong there, and the reader decides which
complaint that deserves.

The grammar is the usual one with three more number words (`NaN`, `Infinity` and
`-Infinity`), and a text may escape a lone surrogate.
-/
import ImageTrust.Json.Basic

namespace ImageTrust

namespace Json

/-- What can be wrong with a document. -/
inductive Complaint where
  | expectingValue
  | expectingName
  | expectingColon
  | expectingComma
  | unterminatedText
  | controlCharacter
  | badEscape
  | badNumberedEscape
  | extraData
  | byteOrderMark
deriving DecidableEq, Repr

/-- The wording of a complaint. -/
def Complaint.message : Complaint → Text
  | .expectingValue => "Expecting value"
  | .expectingName => "Expecting property name enclosed in double quotes"
  | .expectingColon => "Expecting ':' delimiter"
  | .expectingComma => "Expecting ',' delimiter"
  | .unterminatedText => "Unterminated string starting at"
  | .controlCharacter => "Invalid control character at"
  | .badEscape => "Invalid \\escape"
  | .badNumberedEscape => "Invalid \\uXXXX escape"
  | .extraData => "Extra data"
  | .byteOrderMark => "Unexpected UTF-8 BOM (decode using utf-8-sig)"

/-- The smallest pieces of a document. -/
inductive Token where
  | openArray
  | closeArray
  | openObject
  | closeObject
  | comma
  | colon
  | scalar (v : Json)
  | text (t : Text)
  /-- A text that is wrong at the place where `here` starts. -/
  | brokenText (what : Complaint) (here : Text)
  /-- An integer with more digits than are converted. -/
  | longInteger (digits : Nat)
  /-- Nothing that a document can hold. -/
  | junk

/-- A token with the text from its start to the end of the document. -/
structure Lexeme where
  token : Token
  here : Text

/-- The blanks between tokens. -/
def isBlank (c : CodePoint) : Bool :=
  c.val == 0x20 || c.val == 0x09 || c.val == 0x0A || c.val == 0x0D

/-! ## Texts -/

/-- The code point that a one-letter escape stands for. -/
def escape? (c : CodePoint) : Option CodePoint :=
  if c = '"' then some '"'
  else if c = '\\' then some '\\'
  else if c = '/' then some '/'
  else if c = 'b' then some '\x08'
  else if c = 'f' then some '\x0c'
  else if c = 'n' then some '\n'
  else if c = 'r' then some '\r'
  else if c = 't' then some '\t'
  else none

/-- The number that four hexadecimal digits write. -/
def hex4? (a b c d : CodePoint) : Option Nat := do
  return (((← a.hexValue?) * 16 + (← b.hexValue?)) * 16 + (← c.hexValue?)) * 16 + (← d.hexValue?)

/-- The code point of a numbered escape, and the text behind it: the four digits and one
more code point at least have to follow. A high surrogate takes an escaped low surrogate
with it. -/
def takeNumbered? : Text → Option (CodePoint × Text)
  | a :: b :: c :: d :: e :: rest =>
    match hex4? a b c d with
    | none => none
    | some high =>
      let alone := (CodePoint.ofNat? high).map fun c => (c, e :: rest)
      match e :: rest with
      | s :: u :: a :: b :: c :: d :: e :: rest =>
        if s = '\\' ∧ u = 'u' then
          match hex4? a b c d with
          | none => alone
          | some low =>
            match CodePoint.ofPair? high low with
            | some c => some (c, e :: rest)
            | none => alone
        else alone
      | _ => alone
  | _ => none

/-- The text up to the closing quote and what follows the quote, or the complaint with its
place. `start` begins with the opening quote; `fuel` bounds the number of code points. -/
def takeText (start : Text) : Nat → Text → Except (Complaint × Text) (Text × Text)
  | 0, _ => .error (.unterminatedText, start)
  | _, [] => .error (.unterminatedText, start)
  | fuel + 1, c :: rest =>
    if c = '"' then .ok ([], rest)
    else if c = '\\' then
      match rest with
      | [] => .error (.unterminatedText, start)
      | e :: rest' =>
        if e = 'u' then
          match takeNumbered? rest' with
          | none => .error (.badNumberedEscape, rest)
          | some (d, rest'') => (takeText start fuel rest'').map fun (t, r) => (d :: t, r)
        else
          match escape? e with
          | none => .error (.badEscape, c :: rest)
          | some d => (takeText start fuel rest').map fun (t, r) => (d :: t, r)
    else if c.val < 0x20 then .error (.controlCharacter, c :: rest)
    else (takeText start fuel rest).map fun (t, r) => (c :: t, r)

/-! ## Numbers -/

/-- The digits of a number before the point: a zero alone, or digits not starting with
zero. -/
def takeWhole? : Text → Option (Text × Text)
  | [] => none
  | c :: rest =>
    if c = '0' then some ([c], rest)
    else if c.isDigit then some (c :: rest.takeWhile CodePoint.isDigit, rest.dropWhile CodePoint.isDigit)
    else none

/-- The digits after a point, if the text starts with a point and a digit. -/
def takePlaces : Text → Text × Text
  | [] => ([], [])
  | c :: rest =>
    if c = '.' ∧ rest.takeWhile CodePoint.isDigit ≠ [] then
      (rest.takeWhile CodePoint.isDigit, rest.dropWhile CodePoint.isDigit)
    else ([], c :: rest)

/-- The exponent, if the text starts with one. -/
def takeExponent : Text → Option Int × Text
  | [] => (none, [])
  | c :: rest =>
    if c = 'e' ∨ c = 'E' then
      let (negative, digits) := Text.cutSign rest
      let size : Text := digits.takeWhile CodePoint.isDigit
      if size = [] then (none, c :: rest)
      else
        let e := Int.ofNat size.decimalValue
        (some (if negative then -e else e), digits.dropWhile CodePoint.isDigit)
    else (none, c :: rest)

/-- An integer token, unless it has too many digits. -/
def integerToken (negative : Bool) (digits : Text) : Token :=
  if Number.maxDigits < digits.length then .longInteger digits.length
  else
    let n := Int.ofNat digits.decimalValue
    .scalar (.int (if negative then -n else n))

/-- The number that the text starts with, after its sign. -/
def takeNumber? (negative : Bool) (t : Text) : Option (Token × Text) := do
  let (whole, rest) ← takeWhole? t
  let (places, rest) := takePlaces rest
  let (exponent, rest) := takeExponent rest
  if places = [] ∧ exponent = none then
    return (integerToken negative whole, rest)
  else
    let x := Binary64.ofDecimal negative (whole ++ places).decimalValue
      (exponent.getD 0 - places.length)
    return (.scalar (.float x), rest)

/-! ## Words and signs -/

/-- The words that are values. -/
def words : List (Text × Json) :=
  [("null", .null), ("true", .bool true), ("false", .bool false),
   ("NaN", .float .nan), ("Infinity", .float (.infinite false)),
   ("-Infinity", .float (.infinite true))]

/-- The word that the text starts with. -/
def takeWord? (t : Text) : Option (Token × Text) :=
  words.findSome? fun (word, v) =>
    if word.isPrefixOf t then some (.scalar v, t.drop word.length) else none

/-- The sign that a code point is. -/
def sign? (c : CodePoint) : Option Token :=
  if c = '[' then some .openArray
  else if c = ']' then some .closeArray
  else if c = '{' then some .openObject
  else if c = '}' then some .closeObject
  else if c = ',' then some .comma
  else if c = ':' then some .colon
  else none

/-- The first token of a text that starts with `c`, and what follows it. After a token that
is wrong nothing follows. -/
def takeToken (c : CodePoint) (rest : Text) : Token × Text :=
  match sign? c with
  | some token => (token, rest)
  | none =>
    if c = '"' then
      match takeText (c :: rest) rest.length rest with
      | .ok (t, rest) => (.text t, rest)
      | .error (what, here) => (.brokenText what here, [])
    else
      match takeWord? (c :: rest) with
      | some found => found
      | none =>
        let number := if c = '-' then takeNumber? true rest else takeNumber? false (c :: rest)
        number.getD (.junk, [])

/-- The tokens of a text, at most `fuel` many. -/
def lexemes : Nat → Text → List Lexeme
  | 0, _ => []
  | fuel + 1, t =>
    match t.dropWhile isBlank with
    | [] => []
    | c :: rest =>
      let (token, after) := takeToken c rest
      ⟨token, c :: rest⟩ :: lexemes fuel after

/-- The tokens of a text; there are at most as many as code points. -/
def tokens (t : Text) : List Lexeme := lexemes t.length t

end Json

end ImageTrust
