/-
# Base64

Three bytes are four digits of six bits.  Writing pads the last digits with `=` to four.
Reading takes nothing but digits and padding, and no digit after padding; it stops at the
sign that completes a padded group, and nothing may follow.  A superfluous `=` that
completes no group is passed over.
-/
import ImageTrust.Text.Basic

namespace ImageTrust

namespace Base64

/-- The digit with this value. -/
def digit (n : Nat) : CodePoint :=
  let start (c : Char) (k : Nat) : CodePoint :=
    (CodePoint.ofNat? ((CodePoint.ofChar c).val + k)).getD (CodePoint.ofChar c)
  if n < 26 then start 'A' n
  else if n < 52 then start 'a' (n - 26)
  else if n < 62 then start '0' (n - 52)
  else if n = 62 then '+'
  else '/'

/-- The value of a digit. -/
def value? (c : CodePoint) : Option Nat :=
  if c.isUpper then some (c.val - 0x41)
  else if c.isLower then some (c.val - 0x61 + 26)
  else if c.isDigit then some (c.val - 0x30 + 52)
  else if c = '+' then some 62
  else if c = '/' then some 63
  else none

/-- The sign that fills a group. -/
def pad : CodePoint := '='

/-- Bytes as digits, padded. -/
def encode : Bytes → Text
  | [] => []
  | [a] => [digit (a.toNat / 4), digit (a.toNat % 4 * 16), pad, pad]
  | [a, b] =>
    [digit (a.toNat / 4), digit (a.toNat % 4 * 16 + b.toNat / 16), digit (b.toNat % 16 * 4), pad]
  | a :: b :: c :: rest =>
    digit (a.toNat / 4) :: digit (a.toNat % 4 * 16 + b.toNat / 16) ::
      digit (b.toNat % 16 * 4 + c.toNat / 64) :: digit (c.toNat % 64) :: encode rest

/-- The whole bytes among the first digits of a group. -/
def partialBytes : List Nat → Bytes
  | [a, b] => [UInt8.ofNat (a * 4 + b / 16)]
  | [a, b, c] => [UInt8.ofNat (a * 4 + b / 16), UInt8.ofNat (b % 16 * 16 + c / 4)]
  | [a, b, c, d] =>
    [UInt8.ofNat (a * 4 + b / 16), UInt8.ofNat (b % 16 * 16 + c / 4), UInt8.ofNat (c % 4 * 64 + d)]
  | _ => []

/-- What has been read of a group: its digits, the padding that counts, and whether any
padding has been seen. -/
structure Progress where
  group : List Nat
  pads : Nat
  padded : Bool

/-- The bytes of the rest of a text. -/
def decodeFrom : Progress → Text → Option Bytes
  | s, [] => if s.group = [] then some [] else none
  | s, c :: rest =>
    if c = pad then
      if 2 ≤ s.group.length then
        if 4 ≤ s.group.length + s.pads + 1 then
          if rest = [] then some (partialBytes s.group) else none
        else decodeFrom { s with pads := s.pads + 1, padded := true } rest
      else decodeFrom { s with padded := true } rest
    else
      match value? c with
      | none => none
      | some n =>
        if s.padded then none
        else if s.group.length = 3 then
          (decodeFrom ⟨[], 0, false⟩ rest).map fun more => partialBytes (s.group ++ [n]) ++ more
        else decodeFrom { s with group := s.group ++ [n], pads := 0 } rest

/-- The bytes that a text writes. Padding cannot come first. -/
def decode? (t : Text) : Option Bytes :=
  if t.head? = some pad then none else decodeFrom ⟨[], 0, false⟩ t

/-- The bytes of which the text is the one padded form. -/
def decodeCanonical? (t : Text) : Option Bytes := (decode? t).filter fun bytes => encode bytes == t

/-! ## Leniently -/

/-- The bytes of the rest of a text in which everything that is neither digit nor padding is
passed over; `group` are the digits of the group so far, `pads` the padding behind them. -/
def decodeLooselyFrom (group : List Nat) (pads : Nat) : Text → Option Bytes
  | [] => if group = [] then some [] else none
  | c :: rest =>
    if c = pad then
      if 2 ≤ group.length ∧ 4 ≤ group.length + pads + 1 then some (partialBytes group)
      else decodeLooselyFrom group (if 2 ≤ group.length then pads + 1 else pads) rest
    else
      match value? c with
      | none => decodeLooselyFrom group pads rest
      | some n =>
        if group.length = 3 then
          (decodeLooselyFrom [] 0 rest).map fun more => partialBytes (group ++ [n]) ++ more
        else decodeLooselyFrom (group ++ [n]) 0 rest

/-- The bytes that a text writes, whatever else it holds; what follows the padding of a group
does not count. -/
def decodeLoosely? (t : Text) : Option Bytes := decodeLooselyFrom [] 0 t

end Base64

end ImageTrust
