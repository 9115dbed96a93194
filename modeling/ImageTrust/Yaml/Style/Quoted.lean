/-
# Quoted scalars

Between apostrophes everything stands for itself, and two apostrophes for one.  Between
double quotes the backslash starts an escape, by a letter or by a number in two, four or
eight hexadecimal digits; before the end of a line it joins two lines.  Lines are folded in
both, and neither may go over the marker of a document.
-/
import ImageTrust.Yaml.Cursor
import ImageTrust.Yaml.Defect

namespace ImageTrust

namespace Yaml

namespace Quoted

/-- The numbers of the code points that are escaped by a letter or a sign. -/
def named? (c : CodePoint) : Option Nat :=
  if c = '0' then some 0x00
  else if c = 'a' then some 0x07
  else if c = 'b' then some 0x08
  else if c = 't' ∨ c = '\t' then some 0x09
  else if c = 'n' then some 0x0A
  else if c = 'v' then some 0x0B
  else if c = 'f' then some 0x0C
  else if c = 'r' then some 0x0D
  else if c = 'e' then some 0x1B
  else if c = ' ' ∨ c = '"' ∨ c = '/' ∨ c = '\\' then some c.val
  else if c = 'N' then some 0x85
  else if c = '_' then some 0xA0
  else if c = 'L' then some 0x2028
  else if c = 'P' then some 0x2029
  else none

/-- How many hexadecimal digits follow the letter of an escape. -/
def width? (c : CodePoint) : Option Nat :=
  if c = 'x' then some 2 else if c = 'u' then some 4 else if c = 'U' then some 8 else none

/-- The code point with a number that an escape gives. -/
def numbered (n : Nat) : Except Defect CodePoint :=
  match CodePoint.ofNat? n with
  | some c => .ok c
  | none => .error (if n < 2 ^ 31 then .noCodePoint else .noCodePointWord)

/-- The value of a text of hexadecimal digits. -/
def hexValue (t : Text) : Nat := t.foldl (fun n c => n * 16 + c.hexValue?.getD 0) 0

/-- What an escape stands for, and what follows it, from behind the backslash. -/
def escape : Text → Except Defect (CodePoint × Text)
  | [] => .error .malformed
  | c :: t =>
    match named? c, width? c with
    | some n, _ => do return (← numbered n, t)
    | none, some width =>
      let digits := t.take width
      if digits.length = width ∧ digits.all CodePoint.isHex then do
        return (← numbered (hexValue digits), t.drop width)
      else .error .malformed
    | none, none => .error .malformed

/-- A run of white space and what follows it. After the end of a line no marker of a document
may come. -/
def takeRun (t : Text) : Except Defect (Text × Text) :=
  let run : Text := t.takeWhile CodePoint.isWhite
  let rest : Text := t.dropWhile CodePoint.isWhite
  if (run.getLast?.map CodePoint.isLineBreak).getD false && rest.startsMarker then .error .malformed
  else .ok (run, rest)

/-- What stands before the closing quote, and what follows it. -/
def bodyFrom (double : Bool) : Nat → Text → Except Defect (Text × Text)
  | 0, _ | _, [] => .error .malformed
  | fuel + 1, c :: t =>
    let before (shown : Text) (rest : Text) : Except Defect (Text × Text) := do
      let (more, rest) ← bodyFrom double fuel rest
      return (shown ++ more, rest)
    if c.isWhite then do
      let (run, rest) ← takeRun (c :: t)
      before run.folded rest
    else if double then
      if c = '"' then .ok ([], t)
      else if c = '\\' then
        if t ≠ [] ∧ Text.startsBreak t then do
          let (run, rest) ← takeRun t
          before run.breaks.tail rest
        else do
          let (x, rest) ← escape t
          before [x] rest
      else before [c] t
    else if c = '\'' then
      if Text.startsWith '\'' t then before [c] t.tail else .ok ([], t)
    else before [c] t

/-- The value of a quoted scalar and what follows it, from behind the opening quote. -/
def body (double : Bool) (t : Text) : Except Defect (Text × Text) :=
  bodyFrom double (t.length + 1) t

end Quoted

end Yaml

end ImageTrust
