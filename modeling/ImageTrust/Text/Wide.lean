/-
# UTF-16 and UTF-32 — texts in wider units

Signature envelopes may arrive in any of the encodings that JSON texts were ever
exchanged in.  Both readers let lone surrogates through; what they refuse is an
incomplete unit and a number past the last code point.
-/
import ImageTrust.Text.Basic

namespace ImageTrust

/-- Which byte of a unit comes first. -/
inductive ByteOrder where
  | big
  | little
deriving DecidableEq, Repr

namespace Text

/-- The value of one unit's bytes. -/
def unitValue (order : ByteOrder) (unit : Bytes) : Nat :=
  let bigFirst := match order with
    | .big => unit
    | .little => unit.reverse
  bigFirst.foldl (fun n b => n * 0x100 + b.toNat) 0

/-- The values of two-byte units; none if a byte is left over. -/
def units16? (order : ByteOrder) : Bytes → Option (List Nat)
  | [] => some []
  | [_] => none
  | a :: b :: rest => (unitValue order [a, b] :: ·) <$> units16? order rest

/-- The values of four-byte units; none if bytes are left over. -/
def units32? (order : ByteOrder) : Bytes → Option (List Nat)
  | [] => some []
  | a :: b :: c :: d :: rest => (unitValue order [a, b, c, d] :: ·) <$> units32? order rest
  | _ => none

/-- The code points of sixteen-bit units: a high and a low surrogate make one. -/
def ofUnits16 : List Nat → Option Text
  | [] => some []
  | [u] => (CodePoint.ofNat? u).map fun c => [c]
  | u :: v :: rest =>
    match CodePoint.ofPair? u v with
    | some c => (c :: ·) <$> ofUnits16 rest
    | none => do
      let c ← CodePoint.ofNat? u
      return c :: (← ofUnits16 (v :: rest))

/-- The text that UTF-16 bytes write. -/
def ofUtf16? (order : ByteOrder) (bytes : Bytes) : Option Text :=
  units16? order bytes >>= ofUnits16

/-- The text that UTF-32 bytes write. -/
def ofUtf32? (order : ByteOrder) (bytes : Bytes) : Option Text := do
  (← units32? order bytes).mapM CodePoint.ofNat?

end Text

end ImageTrust
