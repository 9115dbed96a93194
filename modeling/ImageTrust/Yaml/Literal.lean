/-
# What plain scalars mean

A scalar without a tag is a text, unless it is spelled like a value of another kind.  The
spellings are those of YAML 1.1: `yes` and `off` are truth values, `010` is eight and
`1:30` is ninety, and underscores may divide digits.

A scalar with a tag is converted whatever its spelling, and the conversion may fail; some
conversions take more than the spellings, so the two are kept apart.
-/
import ImageTrust.Base64
import ImageTrust.Datum.Basic
import ImageTrust.Text.Blank
import ImageTrust.Text.Digit
import ImageTrust.Yaml.Tag

namespace ImageTrust

namespace Yaml

namespace Literal

/-! ## Spellings -/

/-- A digit or an underscore. -/
def isDigitOrMark (c : CodePoint) : Bool := c.isDigit || c = '_'

/-- The truth value that a word in small letters is. -/
def truth? (t : Text) : Option Bool :=
  if t = "yes" ∨ t = "true" ∨ t = "on" then some true
  else if t = "no" ∨ t = "false" ∨ t = "off" then some false
  else none

/-- The text with its first ASCII letter made small, or all of them if all are capital. -/
def uncapitalized : Text → Text
  | [] => []
  | c :: rest =>
    if c.isUpper && rest.all CodePoint.isUpper then Text.lowered (c :: rest) else c.lowered :: rest

/-- Whether the text is a truth value: small, capitalized or in capitals. -/
def isTruth (t : Text) : Bool := (truth? (uncapitalized t)).isSome

/-- Whether the text stands for nothing. -/
def isNull (t : Text) : Bool := t = [] || t = "~" || uncapitalized t = "null"

/-- Whether a text is not empty and consists of code points of a class. -/
def allOf (ok : CodePoint → Bool) (t : Text) : Bool := t ≠ [] && t.all ok

/-- Whether a text is a digit with digits and underscores behind it. -/
def isNumeral (t : Text) : Bool := t.all isDigitOrMark && (t.head?.map CodePoint.isDigit).getD false

/-- Whether a text is a number below sixty in one or two digits. -/
def isSexagesimal : Text → Bool
  | [a] => a.isDigit
  | [a, b] => a.within 0x30 0x35 && b.isDigit
  | _ => false

/-- Whether a text consists of a numeral and one place or more in base sixty. -/
def isSexagesimalRow (t : Text) : Bool :=
  match t.pieces ':' with
  | first :: place :: places => isNumeral first && (place :: places).all isSexagesimal
  | _ => false

/-- Whether the text is an integer: binary, octal, decimal, hexadecimal or in base sixty. -/
def isInt (t : Text) : Bool :=
  let t := t.cutSign.2
  match t with
  | a :: b :: rest =>
    if a = '0' then
      (b = 'b' && allOf (fun c => c.isOneOf "01_") rest) ||
        (b = 'x' && allOf (fun c => c.isHex || c = '_') rest) ||
        (b :: rest).all fun c => c.within 0x30 0x37 || c = '_'
    else isNumeral t || isSexagesimalRow t
  | [a] => a.isDigit
  | [] => false

/-- Whether a text is empty or an exponent, which has to have a sign. -/
def isExponent : Text → Bool
  | [] => true
  | [_] => false
  | e :: sign :: digits => e.isOneOf "eE" && sign.isOneOf "+-" && allOf CodePoint.isDigit digits

/-- Whether the text is a number in floating point; that has a point always. -/
def isFloat (t : Text) : Bool :=
  let (signed, u) : Bool × Text := match t with
    | [] => (false, [])
    | c :: rest => if c.isOneOf "+-" then (true, rest) else (false, t)
  match u.cutFirst? '.' with
  | none => false
  | some (whole, places) =>
    let digits : Text := places.takeWhile isDigitOrMark
    let rest : Text := places.dropWhile isDigitOrMark
    if whole = [] then
      (uncapitalized places = "inf") ||
        (!signed && (places = "nan" || places = "NaN" || places = "NAN")) ||
        (!signed && isNumeral digits && isExponent rest)
    else (isNumeral whole && isExponent rest) || (isSexagesimalRow whole && rest = [])

/-- Whether the text is a moment. A date alone has its parts in full. -/
def isMoment (t : Text) : Bool :=
  match Moment.ofText? t with
  | none => false
  | some m => m.time.isSome || t.length = 10

/-- What a scalar without a tag is, from its spelling. A line end behind it does not count. -/
def kind (t : Text) : Tag :=
  let t : Text := if t.getLast? = some (CodePoint.ofChar '\n') ∧ t ≠ "\n" then t.dropLast else t
  if isTruth t then .bool
  else if isFloat t then .float
  else if isInt t then .int
  else if t = "<<" then .merge
  else if isNull t then .null
  else if isMoment t then .moment
  else if t = "=" then .value
  else if t = "!" ∨ t = "&" ∨ t = "*" then .unknown
  else .text

/-! ## Conversions -/

/-- A text without underscores. -/
def unmarked (t : Text) : Text := t.filter fun c => c ≠ '_'

/-- Whether this is the letter that marks a base behind a zero. -/
def marksBase (base : Nat) (c : CodePoint) : Bool :=
  (base = 2 && c.isOneOf "bB") || (base = 8 && c.isOneOf "oO") || (base = 16 && c.isOneOf "xX")

/-- The text without the mark of a base. -/
def withoutMark (base : Nat) : Text → Text
  | a :: b :: rest => if a = '0' ∧ marksBase base b then rest else a :: b :: rest
  | t => t

/-- The value of a digit in a base. -/
def digitIn? (base : Nat) (c : CodePoint) : Option Nat := c.hexValue?.filter fun n => n < base

/-- The text of a number, whose digits may be of any script, without the white space around it. -/
def numeral (t : Text) : Text := (t.trimmed CodePoint.isBlank).withPlainDigits

/-- The integer that a text writes in a base. -/
def integer (base : Nat) (t : Text) : Except Defect Int :=
  let (negative, digits) := (numeral t).cutSign
  let digits := withoutMark base digits
  let long := (digits.takeWhile CodePoint.isDigit).length
  if base = 10 ∧ Number.maxDigits < long then .error (.longInteger long)
  else
    match digits.mapM (digitIn? base) with
    | some (d :: ds) =>
      let n := Int.ofNat ((d :: ds).foldl (fun n d => n * base + d) 0)
      .ok (if negative then -n else n)
    | _ => .error (.notInteger base t)

/-- Whether the text is below zero, and the text without its sign; it must not be empty. -/
def cutSign (t : Text) : Except Defect (Bool × Text) :=
  if t = [] then .error .emptyNumber else .ok t.cutSign

/-- The integer that a text writes, without its sign. -/
def magnitude (t : Text) : Except Defect Int :=
  match (Text.ofString "0b").isPrefixOf? t, (Text.ofString "0x").isPrefixOf? t with
  | some digits, _ => integer 2 digits
  | none, some digits => integer 16 digits
  | none, none =>
    match t with
    | [] => .error .emptyNumber
    | c :: _ =>
      if c = '0' then integer 8 t
      else if t.contains (CodePoint.ofChar ':') then do
        let places ← (t.pieces ':').mapM (integer 10)
        return places.foldl (fun n place => n * 60 + place) 0
      else integer 10 t

/-- The integer that a text writes. -/
def toInt (t : Text) : Except Defect Int := do
  let (negative, t) ← cutSign (unmarked t)
  let n ← magnitude t
  return if negative then -n else n

/-- The double that a text writes in decimal. -/
def decimal (t : Text) : Except Defect Binary64 :=
  match Binary64.ofText? (numeral t) with
  | some x => .ok x
  | none => .error (.notFloat t)

/-- The sum of places in base sixty, the last place first, where the first of them counts
`base`-fold. -/
def sumPlaces (sum : Binary64) (base : Int) : List Binary64 → Except Defect Binary64
  | [] => .ok sum
  | x :: rest =>
    match (Number.whole base).toBinary64? with
    | none => .error .largePlace
    | some b => sumPlaces (sum.add (x.mul b)) (base * 60) rest

/-- The double that a text writes. -/
def toFloat (t : Text) : Except Defect Binary64 := do
  let (negative, t) ← cutSign (unmarked t).lowered
  if t = ".nan" then return .nan
  else
    let x ←
      if t = ".inf" then pure (.infinite false)
      else if t.contains (CodePoint.ofChar ':') then do
        let places ← (t.pieces ':').mapM decimal
        sumPlaces (.zero false) 1 places.reverse
      else decimal t
    return if negative then x.negate else x

/-- The bytes that a text writes in base64. -/
def toBytes (t : Text) : Except Defect Bytes :=
  if t.all fun c => c.val < 0x80 then
    match Base64.decodeLoosely? t with
    | some bytes => .ok bytes
    | none => .error .malformed
  else .error .malformed

/-- The moment that a text writes. A line end behind it does not count. -/
def toMoment (t : Text) : Except Defect Moment :=
  let t : Text := if t.getLast? = some (CodePoint.ofChar '\n') then t.dropLast else t
  match Moment.ofText? t with
  | none => .error .notMoment
  | some m =>
    match m.flaw? with
    | none => .ok m
    | some why => .error (.noMoment why)

/-- The value of a scalar of this kind; kinds of other nodes, and of keys, have none. -/
def convert (kind : Tag) (t : Text) : Except Defect Datum :=
  match kind with
  | .null => .ok .null
  | .bool =>
    match truth? t.lowered with
    | some b => .ok (.bool b)
    | none => .error (.notTruth t.lowered)
  | .int => (toInt t).map Datum.int
  | .float => (toFloat t).map Datum.float
  | .binary => (toBytes t).map Datum.bytes
  | .moment => (toMoment t).map fun m => .moment m.shown
  | .text => .ok (.text t)
  | _ => .error .malformed

end Literal

end Yaml

end ImageTrust
