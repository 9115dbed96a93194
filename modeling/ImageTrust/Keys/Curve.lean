/-
# Elliptic curves of other keys

Keys of these curves are never trusted, but a key that is well formed is refused for its
kind and one that is not is refused as unreadable.  Telling them apart takes the curves:
a public key has to be a point of the curve that it names.
-/
import ImageTrust.Crypto.Sha2

namespace ImageTrust

/-- A curve `y² = x³ + a x + b` over the field of `p` elements. -/
structure Curve where
  identifier : Bytes
  p : Nat
  a : Nat
  b : Nat

namespace Curve

/-- The curves that keys may name. -/
def known : List Curve :=
  [⟨[0x2A, 0x86, 0x48, 0xCE, 0x3D, 0x03, 0x01, 0x07], 2 ^ 256 - 2 ^ 224 + 2 ^ 192 + 2 ^ 96 - 1,
    2 ^ 256 - 2 ^ 224 + 2 ^ 192 + 2 ^ 96 - 4,
    0x5ac635d8aa3a93e7b3ebbd55769886bc651d06b0cc53b0f63bce3c3e27d2604b⟩,
   ⟨[0x2B, 0x81, 0x04, 0x00, 0x22], 2 ^ 384 - 2 ^ 128 - 2 ^ 96 + 2 ^ 32 - 1,
    2 ^ 384 - 2 ^ 128 - 2 ^ 96 + 2 ^ 32 - 4,
    0xb3312fa7e23ee7e4988e056be3f82d19181d9c6efe8141120314088f5013875ac656398d8a2ed19d2a85c8edd3ec2aef⟩,
   ⟨[0x2B, 0x81, 0x04, 0x00, 0x23], 2 ^ 521 - 1, 2 ^ 521 - 4,
    0x051953eb9618e1c9a1f929a21a0b68540eea2da725b99b315f3b8b489918ef109e156193951ec7e937b1652c0bd3bb1bf073573df883d2c34f1ef451fd46b503f00⟩,
   ⟨[0x2B, 0x81, 0x04, 0x00, 0x21], 2 ^ 224 - 2 ^ 96 + 1, 2 ^ 224 - 2 ^ 96 - 2,
    0xb4050a850c04b3abf54132565044b0b7d7bfd8ba270b39432355ffb4⟩,
   ⟨[0x2A, 0x86, 0x48, 0xCE, 0x3D, 0x03, 0x01, 0x01], 2 ^ 192 - 2 ^ 64 - 1, 2 ^ 192 - 2 ^ 64 - 4,
    0x64210519e59c80e70fa7e9ab72243049feb8deecc146b9b1⟩,
   ⟨[0x2B, 0x81, 0x04, 0x00, 0x0A], 2 ^ 256 - 2 ^ 32 - 977, 0, 7⟩]

/-- The bytes of a coordinate. -/
def coordinateBytes (c : Curve) : Nat := (c.p.log2 + 8) / 8

/-- The square that `y` has to be a root of. -/
def square (c : Curve) (x : Nat) : Nat := (x * x * x + c.a * x + c.b) % c.p

/-- A power in the field. -/
def power (c : Curve) (base exponent : Nat) : Nat :=
  ((List.range (exponent.log2 + 1)).reverse.map exponent.testBit).foldl
    (fun acc bit =>
      let double := acc * acc % c.p
      if bit then double * base % c.p else double)
    1

/-- Whether the number has a root in the field. -/
def hasRoot (c : Curve) (n : Nat) : Bool := n % c.p == 0 || c.power n ((c.p - 1) / 2) == 1

/-- Whether bytes encode a point: both coordinates, or one and which root the other is. -/
def isPoint (c : Curve) (bytes : Bytes) : Bool :=
  match bytes with
  | [] => false
  | form :: rest =>
    let x := Sha2.ofBigEndian (rest.take c.coordinateBytes)
    let y := Sha2.ofBigEndian (rest.drop c.coordinateBytes)
    if form = 0x04 then
      rest.length == 2 * c.coordinateBytes && decide (x < c.p) && decide (y < c.p) &&
        y * y % c.p == c.square x
    else if form = 0x02 ∨ form = 0x03 then
      rest.length == c.coordinateBytes && decide (x < c.p) && c.hasRoot (c.square x)
    else false

end Curve

end ImageTrust
