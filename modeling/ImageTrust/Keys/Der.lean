/-
# DER elements

A public key is written as nested elements of a tag, a length and a content.  The length
is in the shortest form, and nothing may follow where one element is expected.
-/
import ImageTrust.Crypto.Sha2

namespace ImageTrust

namespace Der

/-- A tag and what it holds. -/
structure Element where
  tag : Nat
  content : Bytes

/-- The length that starts here, and what follows it. -/
def takeLength? : Bytes → Option (Nat × Bytes)
  | [] => none
  | n :: rest =>
    if n.toNat < 0x80 then some (n.toNat, rest)
    else
      let count := n.toNat - 0x80
      let length := Sha2.ofBigEndian (rest.take count)
      let shortest := 0x80 ≤ length && 2 ^ (8 * (count - 1)) ≤ length
      if count = 0 ∨ 4 < count ∨ rest.length < count ∨ !shortest then none
      else some (length, rest.drop count)

/-- The first element, and what follows it. -/
def take? : Bytes → Option (Element × Bytes)
  | [] => none
  | tag :: rest => do
    let (length, rest) ← takeLength? rest
    if rest.length < length ∨ tag.toNat % 0x20 = 0x1F then none
    else some (⟨tag.toNat, rest.take length⟩, rest.drop length)

/-- The elements that the bytes are, one after the other; at most `fuel` of them. -/
def elements? : Nat → Bytes → Option (List Element)
  | _, [] => some []
  | 0, _ => none
  | fuel + 1, bytes => do
    let (e, rest) ← take? bytes
    return e :: (← elements? fuel rest)

/-- The elements that the content of a sequence is. -/
def sequence? (bytes : Bytes) : Option (List Element) := do
  match ← elements? 1 bytes with
  | [e] => if e.tag = 0x30 then elements? e.content.length e.content else none
  | _ => none

/-- The bytes of a bit string that fills them. -/
def wholeBits? (e : Element) : Option Bytes :=
  match e.content with
  | 0 :: bytes => some bytes
  | _ => none

/-- Whether a bit string is well formed: the bits that do not count are zero. -/
def isBitString (e : Element) : Bool :=
  e.tag == 0x03 &&
    match e.content with
    | [] => false
    | unused :: bytes =>
      unused.toNat < 8 &&
        match bytes.getLast? with
        | none => unused == 0
        | some last => last.toNat % 2 ^ unused.toNat == 0

/-- Whether bytes are an object identifier: the last of its numbers is complete and none
starts with an empty digit. -/
def isIdentifier (bytes : Bytes) : Bool :=
  let starts := (0 :: bytes.dropLast).zip bytes
  bytes.getLast?.any (·.toNat < 0x80) && starts.all fun (before, b) => 0x80 ≤ before.toNat || b != 0x80

/-- The value of a positive integer in its shortest form. -/
def positive? (e : Element) : Option Nat :=
  let shortest : Bool := match e.content with
    | [] => false
    | [_] => true
    | a :: b :: _ => !(a == 0 && b.toNat < 0x80)
  let n := Sha2.ofBigEndian e.content
  if e.tag = 0x02 ∧ shortest ∧ e.content.head?.any (·.toNat < 0x80) ∧ n ≠ 0 then some n else none

end Der

end ImageTrust
