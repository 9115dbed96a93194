/-
# Quoted text — how a message shows a text it was given

A message that names an input shows it in quotes, on one line and without
invisible characters.  The quote is the apostrophe, unless the text holds an
apostrophe and no double quote; the backslash and the quote itself are escaped,
and so is everything that has no glyph, by its number in two, four or eight
hexadecimal digits.
-/
import ImageTrust.Text.Basic

namespace ImageTrust

namespace CodePoint

/-- Ranges of code points without a glyph: controls, format characters, blanks other
than the plain space, surrogates and private use. -/
def unprintableRanges : List (Nat × Nat) :=
  [(0x0, 0x1F), (0x7F, 0xA0), (0xAD, 0xAD), (0x600, 0x605), (0x61C, 0x61C), (0x6DD, 0x6DD),
   (0x70F, 0x70F), (0x890, 0x891), (0x8E2, 0x8E2), (0x1680, 0x1680), (0x180E, 0x180E),
   (0x2000, 0x200F), (0x2028, 0x202F), (0x205F, 0x2064), (0x2066, 0x206F), (0x3000, 0x3000),
   (0xD800, 0xF8FF), (0xFEFF, 0xFEFF), (0xFFF9, 0xFFFB), (0x110BD, 0x110BD),
   (0x110CD, 0x110CD), (0x13430, 0x13438), (0x1BCA0, 0x1BCA3), (0x1D173, 0x1D17A),
   (0xE0001, 0xE0001), (0xE0020, 0xE007F), (0xF0000, 0xFFFFD), (0x100000, 0x10FFFD)]

/-- Whether the code point is shown as it is. -/
def isPrintable (c : CodePoint) : Bool :=
  !unprintableRanges.any fun (lo, hi) => c.within lo hi

end CodePoint

namespace Text

/-- The quote for a text: the apostrophe, unless only the double quote is free. -/
def quoteMark (t : Text) : CodePoint :=
  if CodePoint.ofChar '\'' ∈ t ∧ CodePoint.ofChar '"' ∉ t then '"' else '\''

/-- One code point inside quotes. -/
def escaped (mark c : CodePoint) : Text :=
  if c = mark ∨ c = '\\' then ['\\', c]
  else if c = '\n' then "\\n"
  else if c = '\r' then "\\r"
  else if c = '\t' then "\\t"
  else if c.isPrintable then [c]
  else if c.val < 0x100 then "\\x" ++ hexadecimal 2 c.val
  else if c.val < 0x10000 then "\\u" ++ hexadecimal 4 c.val
  else "\\U" ++ hexadecimal 8 c.val

/-- The text as a message shows it. -/
def quoted (t : Text) : Text :=
  let mark := t.quoteMark
  mark :: t.flatMap (escaped mark) ++ [mark]

/-- One byte inside quotes: ASCII as in a text, everything else by its number. -/
def escapedByte (mark : CodePoint) (b : UInt8) : Text :=
  match CodePoint.ofNat? b.toNat with
  | some c => if b.toNat < 0x7F then escaped mark c else "\\x" ++ hexadecimal 2 b.toNat
  | none => []

/-- Bytes as a message shows them. -/
def quotedBytes (bytes : Bytes) : Text :=
  let mark := quoteMark (bytes.filterMap fun b => CodePoint.ofNat? b.toNat)
  CodePoint.ofChar 'b' :: mark :: bytes.flatMap (escapedByte mark) ++ [mark]

/-- The text with three replacement characters for each surrogate, one for each byte that its
UTF-8 form would take. -/
def withoutSurrogates (t : Text) : Text :=
  let replacement : Text := "\uFFFD\uFFFD\uFFFD"
  t.flatMap fun c => if c.isSurrogate then replacement else [c]

end Text

end ImageTrust
