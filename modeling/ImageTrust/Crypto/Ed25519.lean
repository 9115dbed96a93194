/-
# Ed25519 signatures

Points of the twisted Edwards curve `-x² + y² = 1 + d x² y²` over the field of
`2 ^ 255 - 19` elements, in coordinates `X : Y : Z : T` with `x = X / Z`, `y = Y / Z` and
`x y = T / Z`.  A signature is checked by computing the point that its first half should
encode, and comparing bytes.  That needs no cofactor, takes keys of small order, and
never accepts a second encoding of the same point.
-/
import ImageTrust.Crypto.Sha2

namespace ImageTrust

namespace Ed25519

/-- The size of the field. -/
def fieldSize : Nat := 2 ^ 255 - 19

/-- The order of the base point. -/
def groupOrder : Nat := 2 ^ 252 + 27742317777372353535851937790883648493

/-- The bits of a number, the most significant first. -/
def bits (count n : Nat) : List Bool := (List.range count).reverse.map n.testBit

/-- A power in the field. -/
def power (base exponent : Nat) : Nat :=
  (bits 256 exponent).foldl
    (fun acc bit =>
      let square := acc * acc % fieldSize
      if bit then square * base % fieldSize else square)
    1

/-- The inverse in the field; of zero, zero. -/
def inverse (x : Nat) : Nat := power x (fieldSize - 2)

/-- The difference in the field. -/
def minus (x y : Nat) : Nat := (x + (fieldSize - y % fieldSize)) % fieldSize

/-- The constant `d = -121665 / 121666` of the curve. -/
def curveConstant : Nat := minus 0 (121665 * inverse 121666)

/-- A square root of minus one. -/
def rootOfMinusOne : Nat := power 2 ((fieldSize - 1) / 4)

/-- A point of the curve. -/
structure Point where
  x : Nat
  y : Nat
  z : Nat
  t : Nat

/-- The neutral point. -/
def Point.zero : Point := ⟨0, 1, 1, 0⟩

/-- The sum of two points. -/
def Point.add (p q : Point) : Point :=
  let a := minus p.y p.x * minus q.y q.x % fieldSize
  let b := (p.y + p.x) * (q.y + q.x) % fieldSize
  let c := 2 * p.t * q.t % fieldSize * curveConstant % fieldSize
  let d := 2 * p.z * q.z % fieldSize
  let e := minus b a
  let f := minus d c
  let g := d + c
  let h := b + a
  ⟨e * f % fieldSize, g * h % fieldSize, f * g % fieldSize, e * h % fieldSize⟩

/-- The point on the other side. -/
def Point.negate (p : Point) : Point := ⟨minus 0 p.x, p.y, p.z, minus 0 p.t⟩

/-- A multiple of a point. -/
def Point.times (n : Nat) (p : Point) : Point :=
  (bits 256 n).foldl
    (fun acc bit =>
      let double := acc.add acc
      if bit then double.add p else double)
    .zero

/-- A number as bytes, the least significant first. -/
def littleEndian (count n : Nat) : Bytes := (Sha2.bigEndian count n).reverse

/-- The number that bytes write, the least significant first. -/
def ofLittleEndian (bytes : Bytes) : Nat := Sha2.ofBigEndian bytes.reverse

/-- The bytes of a point: `y`, with the lowest bit of `x` on top. -/
def Point.encode (p : Point) : Bytes :=
  let i := inverse p.z
  let x := p.x * i % fieldSize
  let y := p.y * i % fieldSize
  littleEndian 32 (y + x % 2 * 2 ^ 255)

/-- A square root of `u / v`, where there is one. -/
def rootOfRatio? (u v : Nat) : Option Nat :=
  let v3 := v * v % fieldSize * v % fieldSize
  let v7 := v3 * v3 % fieldSize * v % fieldSize
  let x := u * v3 % fieldSize * power (u * v7 % fieldSize) ((fieldSize - 5) / 8) % fieldSize
  let square := v * (x * x % fieldSize) % fieldSize
  if square = u % fieldSize then some x
  else if square = minus 0 u then some (x * rootOfMinusOne % fieldSize)
  else none

/-- The point with this `y` and this lowest bit of `x`. -/
def Point.ofY? (y : Nat) (odd : Bool) : Option Point := do
  let y := y % fieldSize
  let square := y * y % fieldSize
  let x ← rootOfRatio? (minus square 1) ((curveConstant * square + 1) % fieldSize)
  let x := if decide (x % 2 = 1) == odd then x else minus 0 x
  return ⟨x, y, 1, x * y % fieldSize⟩

/-- The point that thirty-two bytes encode. -/
def Point.decode? (bytes : Bytes) : Option Point :=
  let n := ofLittleEndian bytes
  Point.ofY? (n % 2 ^ 255) (n.testBit 255)

/-- The base point: its `y` is four fifths, its `x` even. -/
def basePoint : Point := (Point.ofY? (4 * inverse 5 % fieldSize) false).getD .zero

/-- The number that a digest stands for, modulo the group order. -/
def scalar (bytes : Bytes) : Nat := ofLittleEndian (Sha2.digest Sha2.sha512 bytes) % groupOrder

/-- Whether `signature` is a signature of `message` by the key. -/
def verify (publicKey signature message : Bytes) : Bool :=
  let r := signature.take 32
  let s := ofLittleEndian (signature.drop 32)
  if signature.length ≠ 64 ∨ groupOrder ≤ s then false
  else
    match Point.decode? publicKey with
    | none => false
    | some a =>
      let h := scalar (r ++ publicKey ++ message)
      decide (((basePoint.times s).add (a.negate.times h)).encode = r)

/-- The secret number and the nonce's seed of a private key. -/
def expand (seed : Bytes) : Nat × Bytes :=
  let digest := Sha2.digest Sha2.sha512 seed
  let n := ofLittleEndian (digest.take 32)
  (n % 2 ^ 254 / 8 * 8 + 2 ^ 254, digest.drop 32)

/-- The public key of a private key. -/
def publicKey (seed : Bytes) : Bytes := (basePoint.times (expand seed).1).encode

/-- The signature of a message by a private key. -/
def sign (seed message : Bytes) : Bytes :=
  let (secret, nonceSeed) := expand seed
  let key := publicKey seed
  let nonce := scalar (nonceSeed ++ message)
  let r := (basePoint.times nonce).encode
  let h := scalar (r ++ key ++ message)
  r ++ littleEndian 32 ((nonce + h * secret) % groupOrder)

end Ed25519

end ImageTrust
