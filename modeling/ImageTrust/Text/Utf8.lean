/-
# UTF-8 — texts as bytes and back

One code point takes one to four bytes; the shortest form is the only one read.
A surrogate has no UTF-8 form: writing refuses it, and reading refuses its three
bytes too, unless the reader is told to let lone surrogates through.
-/
import ImageTrust.Text.Basic

namespace ImageTrust

namespace CodePoint

/-- The byte of a small number. -/
def byte (n : Nat) : UInt8 := UInt8.ofNat n

/-- The bytes of a code point. -/
def utf8 (c : CodePoint) : Bytes :=
  if c.val < 0x80 then [byte c.val]
  else if c.val < 0x800 then [byte (0xC0 + c.val / 0x40), byte (0x80 + c.val % 0x40)]
  else if c.val < 0x10000 then
    [byte (0xE0 + c.val / 0x1000), byte (0x80 + c.val / 0x40 % 0x40), byte (0x80 + c.val % 0x40)]
  else
    [byte (0xF0 + c.val / 0x40000), byte (0x80 + c.val / 0x1000 % 0x40),
     byte (0x80 + c.val / 0x40 % 0x40), byte (0x80 + c.val % 0x40)]

/-- The code point with this number, if it is at least `least` (no shorter form would
do) and, unless `lone` surrogates pass, no surrogate. -/
def decoded? (lone : Bool) (least n : Nat) : Option CodePoint :=
  (ofNat? n).filter fun c => least ≤ n && (lone || !c.isSurrogate)

end CodePoint

namespace Text

/-- Whether a byte continues a code point. -/
def isContinuation (b : UInt8) : Bool := 0x80 ≤ b.toNat && b.toNat < 0xC0

/-- The six bits that a continuation adds. -/
def tailBits (b : UInt8) : Nat := b.toNat % 0x40

/-- The bytes of a text of any code points. -/
def utf8Bytes (t : Text) : Bytes := t.flatMap CodePoint.utf8

/-- The UTF-8 form of a text; a surrogate has none. -/
def toUtf8? (t : Text) : Option Bytes := if t.isScalar then some t.utf8Bytes else none

/-- The text that the bytes write, if they are UTF-8; `lone` lets surrogates through. -/
def ofUtf8? (lone : Bool) : Bytes → Option Text
  | [] => some []
  | a :: rest =>
    if a.toNat < 0x80 then do
      let c ← CodePoint.decoded? lone 0 a.toNat
      return c :: (← ofUtf8? lone rest)
    else match rest with
    | [] => none
    | b :: rest =>
      if !isContinuation b then none
      else if 0xC0 ≤ a.toNat && a.toNat < 0xE0 then do
        let c ← CodePoint.decoded? lone 0x80 (a.toNat % 0x20 * 0x40 + tailBits b)
        return c :: (← ofUtf8? lone rest)
      else match rest with
      | [] => none
      | c :: rest =>
        if !isContinuation c then none
        else if 0xE0 ≤ a.toNat && a.toNat < 0xF0 then do
          let c ← CodePoint.decoded? lone 0x800
            ((a.toNat % 0x10 * 0x40 + tailBits b) * 0x40 + tailBits c)
          return c :: (← ofUtf8? lone rest)
        else match rest with
        | [] => none
        | d :: rest =>
          if isContinuation d && 0xF0 ≤ a.toNat && a.toNat < 0xF8 then do
            let c ← CodePoint.decoded? lone 0x10000
              (((a.toNat % 8 * 0x40 + tailBits b) * 0x40 + tailBits c) * 0x40 + tailBits d)
            return c :: (← ofUtf8? lone rest)
          else none

/-- Every line ends with a line feed alone: a carriage return, with or without a line
feed after it, counts as one. -/
def withPlainLines : Text → Text
  | [] => []
  | c :: rest =>
    if c = '\r' then
      match rest with
      | [] => ['\n']
      | d :: rest' =>
        if d = '\n' then CodePoint.ofChar '\n' :: withPlainLines rest'
        else CodePoint.ofChar '\n' :: withPlainLines (d :: rest')
    else c :: withPlainLines rest

end Text

end ImageTrust
