/-
# Number literals — decimal texts read as numbers

The spellings that settings and claims admit for a number: an optional sign, ASCII
digits in groups joined by single underscores, and for a double a point, an exponent,
or one of the words for infinity and no number in any case.
-/
import ImageTrust.Number.Binary64

namespace ImageTrust

namespace Text

/-- Whether the text starts with a minus, and the text without its sign. -/
def cutSign : Text → Bool × Text
  | [] => (false, [])
  | c :: t => if c = '-' then (true, t) else if c = '+' then (false, t) else (false, c :: t)

/-- Digits and the underscores that group them. -/
def isDigitOrJoint (c : CodePoint) : Bool := c.isDigit || c = '_'

/-- The digits of groups joined by single underscores; no groups are no digits. -/
def grouped? (run : Text) : Option Text :=
  if run = [] then some []
  else if (run.pieces '_').all fun group => group ≠ [] then some (run.filter CodePoint.isDigit)
  else none

/-- The grouped digits that the text starts with, and what follows them. -/
def takeDigits? (t : Text) : Option (Text × Text) := do
  return (← grouped? (t.takeWhile isDigitOrJoint), t.dropWhile isDigitOrJoint)

/-- The exponent that the whole text writes; an empty text writes none. -/
def exponent? : Text → Option Int
  | [] => some 0
  | c :: t =>
    if c = 'e' ∨ c = 'E' then do
      let (negative, t) := cutSign t
      let (digits, rest) ← takeDigits? t
      if digits = [] ∨ rest ≠ [] then none
      else some (if negative then -(Int.ofNat digits.decimalValue) else Int.ofNat digits.decimalValue)
    else none

/-- The digits after a point, if there is a point, and what follows. -/
def takeFraction? : Text → Option (Text × Text)
  | [] => some ([], [])
  | c :: t => if c = '.' then takeDigits? t else some ([], c :: t)

end Text

/-- The double that a text writes: a decimal number, or a word for infinity or no number. -/
def Binary64.ofText? (t : Text) : Option Binary64 :=
  let (negative, t) := t.cutSign
  if t.lowered = "inf" ∨ t.lowered = "infinity" then some (.infinite negative)
  else if t.lowered = "nan" then some .nan
  else do
    let (whole, rest) ← t.takeDigits?
    let (places, rest) ← Text.takeFraction? rest
    let exponent ← Text.exponent? rest
    let digits := whole ++ places
    if digits = [] then none
    else some (ofDecimal negative digits.decimalValue (exponent - places.length))

/-- The integer that a text writes: grouped digits, after which a point and at least one zero
may stand. -/
def Text.toInteger? (t : Text) : Option Int := do
  let (negative, t) := t.cutSign
  let (digits, rest) ← t.takeDigits?
  let empty ← match rest with
    | [] => some true
    | c :: zeros => if c = '.' then some (!zeros.isEmpty && zeros.all (· = '0')) else none
  if digits = [] ∨ !empty then none
  else some (if negative then -(Int.ofNat digits.decimalValue) else Int.ofNat digits.decimalValue)

namespace Number

/-- The most digits that an integer of a document may have in decimal. -/
def maxDigits : Nat := 4300

/-- What is said of an integer with more digits. -/
def tooLong (digits : Nat) : Text :=
  Text.sentence ["Exceeds the limit (", Text.decimal maxDigits,
    " digits) for integer string conversion: value has ", Text.decimal digits,
    " digits; use sys.set_int_max_str_digits() to increase the limit"]

end Number

end ImageTrust
