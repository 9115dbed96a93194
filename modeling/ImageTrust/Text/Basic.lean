/-
# Text — sequences of code points

A text here is a list of Unicode code points, surrogates included: a policy file
may spell a lone surrogate with an escape, and it has to survive until something
refuses it.  Characters and string literals are coerced, so a rule can be written
`c = '/'` and a message `"Cannot read " ++ path`.

This module holds the character classes of the grammars (all of them ASCII, said
by numeric ranges) and the cuts that the grammars are made of.
-/

namespace ImageTrust

/-- Powers are those of the core library, whatever other powers are in scope. -/
@[default_instance 20000]
instance (priority := 20000) corePow {α : Type _} [NatPow α] : Pow α Nat := instPowNat

/-- A Unicode code point; unlike a character it may be a surrogate. -/
structure CodePoint where
  val : Nat
  lt : val < 0x110000
deriving DecidableEq, Repr

namespace CodePoint

/-- Every character is a code point. -/
theorem val_char_lt (c : Char) : c.val.toNat < 0x110000 := by
  rcases c.valid with h | h
  · exact Nat.lt_trans h (by decide)
  · exact h.2

/-- The code point of a character. -/
def ofChar (c : Char) : CodePoint := ⟨c.val.toNat, val_char_lt c⟩

instance : Coe Char CodePoint := ⟨ofChar⟩

instance : Inhabited CodePoint := ⟨ofChar ' '⟩

/-- The code point with this number, where there is one. -/
def ofNat? (n : Nat) : Option CodePoint :=
  if h : n < 0x110000 then some ⟨n, h⟩ else none

/-- Whether the number lies between two bounds, both included. -/
def within (lo hi : Nat) (c : CodePoint) : Bool := lo ≤ c.val && c.val ≤ hi

/-- The code points that only occur in pairs, to write others in sixteen bits. -/
def isSurrogate (c : CodePoint) : Bool := c.within 0xD800 0xDFFF

/-- `0` to `9`. -/
def isDigit (c : CodePoint) : Bool := c.within 0x30 0x39

/-- `a` to `z`. -/
def isLower (c : CodePoint) : Bool := c.within 0x61 0x7A

/-- `A` to `Z`. -/
def isUpper (c : CodePoint) : Bool := c.within 0x41 0x5A

/-- An ASCII letter. -/
def isLetter (c : CodePoint) : Bool := c.isLower || c.isUpper

/-- An ASCII letter or digit. -/
def isAlphanumeric (c : CodePoint) : Bool := c.isLetter || c.isDigit

/-- An ASCII letter, a digit or an underscore. -/
def isWord (c : CodePoint) : Bool := c.isAlphanumeric || c.val == 0x5F

/-- `0` to `9` and `a` to `f`. -/
def isLowerHex (c : CodePoint) : Bool := c.isDigit || c.within 0x61 0x66

/-- `0` to `9`, `a` to `f` and `A` to `F`. -/
def isHex (c : CodePoint) : Bool := c.isLowerHex || c.within 0x41 0x46

/-- The value of a hexadecimal digit; of anything else, none. -/
def hexValue? (c : CodePoint) : Option Nat :=
  if c.isDigit then some (c.val - 0x30)
  else if c.within 0x61 0x66 then some (c.val - 0x57)
  else if c.within 0x41 0x46 then some (c.val - 0x37)
  else none

/-- The code point a high and a low surrogate write together. -/
def ofPair? (high low : Nat) : Option CodePoint :=
  if 0xD800 ≤ high ∧ high ≤ 0xDBFF ∧ 0xDC00 ≤ low ∧ low ≤ 0xDFFF then
    ofNat? (0x10000 + (high - 0xD800) * 0x400 + (low - 0xDC00))
  else none

/-- A capital ASCII letter made small, anything else as it is. -/
def lowered (c : CodePoint) : CodePoint :=
  if h : 0x41 ≤ c.val ∧ c.val ≤ 0x5A then ⟨c.val + 0x20, by omega⟩ else c

end CodePoint

/-- A sequence of code points. -/
abbrev Text := List CodePoint

/-- A sequence of bytes. -/
abbrev Bytes := List UInt8

namespace Text

/-- The code points of a string. -/
def ofString (s : String) : Text := s.toList.map CodePoint.ofChar

instance : Coe String Text := ⟨ofString⟩

/-- The pieces of a sentence, one after the other. -/
def sentence (parts : List Text) : Text := parts.flatten

/-- The digits of a number in some base of at most sixteen, small letters after nine. -/
def digits (base n : Nat) : Text := (Nat.toDigits base n).map CodePoint.ofChar

/-- A number in decimal. -/
def decimal (n : Nat) : Text := digits 10 n

/-- An integer in decimal, with a minus sign below zero. -/
def integer (i : Int) : Text :=
  if i < 0 then CodePoint.ofChar '-' :: decimal i.natAbs else decimal i.natAbs

/-- A number in hexadecimal, filled with zeros to a width. -/
def hexadecimal (width n : Nat) : Text :=
  let shown := digits 16 n
  List.replicate (width - shown.length) (CodePoint.ofChar '0') ++ shown

/-- Bytes written as pairs of hexadecimal digits. -/
def ofHexBytes (bytes : Bytes) : Text := bytes.flatMap fun b => hexadecimal 2 b.toNat

/-- The value of a text of decimal digits, most significant first. -/
def decimalValue (t : Text) : Nat := t.foldl (fun n c => n * 10 + (c.val - 0x30)) 0

/-- What stands before and after the first occurrence of `c`. -/
def cutFirst? (c : CodePoint) : Text → Option (Text × Text)
  | [] => none
  | x :: t =>
    if x = c then some ([], t)
    else (cutFirst? c t).map fun (before, after) => (x :: before, after)

/-- What stands before and after the last occurrence of `c`. -/
def cutLast? (c : CodePoint) : Text → Option (Text × Text)
  | [] => none
  | x :: t =>
    match cutLast? c t with
    | some (before, after) => some (x :: before, after)
    | none => if x = c then some ([], t) else none

/-- The pieces between the occurrences of `c`; one more than there are of these. -/
def pieces (c : CodePoint) : Text → List Text
  | [] => [[]]
  | x :: t =>
    if x = c then [] :: pieces c t
    else
      match pieces c t with
      | [] => [[x]]
      | p :: ps => (x :: p) :: ps

/-- Texts with a separator between each two. -/
def joined (separator : Text) (ts : List Text) : Text := separator.intercalate ts

/-- The text without the occurrences of `c` at its end. -/
def dropTrailing (c : CodePoint) (t : Text) : Text :=
  (t.reverse.dropWhile (· = c)).reverse

/-- The text without the characters of a class at both ends. -/
def trimmed (blank : CodePoint → Bool) (t : Text) : Text :=
  ((t.dropWhile blank).reverse.dropWhile blank).reverse

/-- The text with capital ASCII letters made small. -/
def lowered (t : Text) : Text := t.map CodePoint.lowered

/-- Whether no code point is a surrogate, so that the text has a UTF-8 form. -/
def isScalar (t : Text) : Bool := t.all fun c => !c.isSurrogate

/-- Order by code points, a beginning before what continues it. -/
def le : Text → Text → Bool
  | [], _ => true
  | _ :: _, [] => false
  | a :: s, b :: t => a.val < b.val || (a.val == b.val && le s t)

end Text

end ImageTrust
