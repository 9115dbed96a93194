/-
# Binary64 — double-precision numbers, exactly

A double is a sign, a significand and a power of two, or an infinity, or no number.
All arithmetic here is exact arithmetic on integers followed by one rounding to the
nearest double, a tie going to the even significand; nothing rests on the machine's
own floating point, so every value can be computed inside a proof.
-/
import ImageTrust.Text.Basic

namespace ImageTrust

/-- The quotient rounded to the nearest integer, a tie to the even one. -/
def roundDiv (num den : Nat) : Nat :=
  let q := num / den
  let r := num % den
  if 2 * r < den then q
  else if 2 * r = den then (if q % 2 = 0 then q else q + 1)
  else q + 1

/-- A double. `finite s m e` is `m * 2 ^ e`, negated if `s`; it is in lowest terms in that
`m < 2 ^ 53` and `e` is the least exponent, `-1074`, unless `2 ^ 52 ≤ m`. -/
inductive Binary64 where
  | nan
  | infinite (negative : Bool)
  | finite (negative : Bool) (significand : Nat) (exponent : Int)
deriving DecidableEq, Repr

namespace Binary64

/-- Zero. -/
def zero (negative : Bool) : Binary64 := .finite negative 0 (-1074)

/-- A significand of at most fifty-three bits with its exponent, an infinity if that is
too large; a significand that was rounded up to `2 ^ 53` is halved. -/
def normal (negative : Bool) (m : Nat) (e : Int) : Binary64 :=
  let (m, e) := if m = 2 ^ 53 then (2 ^ 52, e + 1) else (m, e)
  if 971 < e then .infinite negative else .finite negative m e

/-- The double nearest to `num / den`. -/
def ofRatio (negative : Bool) (num den : Nat) : Binary64 :=
  if num = 0 then zero negative
  else
    let scaled (e : Int) : Nat × Nat :=
      if e < 0 then (num * 2 ^ e.natAbs, den) else (num, den * 2 ^ e.natAbs)
    let guess : Int := Int.ofNat num.log2 - Int.ofNat den.log2 - 52
    let (n, d) := scaled guess
    let e := max (if n / d < 2 ^ 52 then guess - 1 else guess) (-1074)
    let (n, d) := scaled e
    normal negative (roundDiv n d) e

/-- The double nearest to an integer. -/
def ofInt (i : Int) : Binary64 := ofRatio (i < 0) i.natAbs 1

/-- The double nearest to `digits * 10 ^ exponent`. Exponents far outside the range of
doubles are decided by size alone. -/
def ofDecimal (negative : Bool) (digits : Nat) (exponent : Int) : Binary64 :=
  if digits = 0 then zero negative
  else
    let size : Int := Int.ofNat (Nat.toDigits 10 digits).length + exponent
    if 310 < size then .infinite negative
    else if size < -330 then zero negative
    else if exponent < 0 then ofRatio negative digits (10 ^ exponent.natAbs)
    else ofRatio negative (digits * 10 ^ exponent.natAbs) 1

/-- The sixty-four bits of a double. -/
def bits : Binary64 → Nat
  | .nan => 0x7FF8000000000000
  | .infinite s => (if s then 2 ^ 63 else 0) + 0x7FF * 2 ^ 52
  | .finite s m e =>
    (if s then 2 ^ 63 else 0) + (if m < 2 ^ 52 then m else (e + 1075).toNat * 2 ^ 52 + (m - 2 ^ 52))

/-- The absolute value of a finite double as a fraction. -/
def magnitude (m : Nat) (e : Int) : Nat × Nat :=
  if e < 0 then (m, 2 ^ e.natAbs) else (m * 2 ^ e.natAbs, 1)

/-- The number times `2 ^ n`, rounded. -/
def scale (n : Nat) : Binary64 → Binary64
  | .finite s m e =>
    let (num, den) := magnitude m (e + n)
    ofRatio s num den
  | x => x

/-- A finite double as a fraction of integers. -/
def fraction (s : Bool) (m : Nat) (e : Int) : Int × Nat :=
  let (num, den) := magnitude m e
  (if s then -(Int.ofNat num) else Int.ofNat num, den)

/-- The double nearest to a fraction of integers. -/
def ofFraction (num : Int) (den : Nat) : Binary64 := ofRatio (num < 0) num.natAbs den

/-- The sum of two numbers, rounded. -/
def add : Binary64 → Binary64 → Binary64
  | .nan, _ | _, .nan => .nan
  | .infinite s, .infinite t => if s = t then .infinite s else .nan
  | .infinite s, _ => .infinite s
  | _, .infinite t => .infinite t
  | .finite s m e, .finite t n f =>
    let (a, b) := fraction s m e
    let (c, d) := fraction t n f
    let sum := a * d + c * b
    if sum = 0 then zero (s && t) else ofFraction sum (b * d)

/-- The product of two numbers, rounded. -/
def mul : Binary64 → Binary64 → Binary64
  | .nan, _ | _, .nan => .nan
  | .infinite s, .infinite t => .infinite (s != t)
  | .infinite s, .finite t n _ => if n = 0 then .nan else .infinite (s != t)
  | .finite s m _, .infinite t => if m = 0 then .nan else .infinite (s != t)
  | .finite s m e, .finite t n f =>
    let (a, b) := magnitude m e
    let (c, d) := magnitude n f
    ofRatio (s != t) (a * c) (b * d)

/-- Whether the number is whole; its value if so. -/
def whole? : Binary64 → Option Int
  | .finite s m e =>
    let (num, den) := fraction s m e
    if num % den = 0 then some (num / den) else none
  | _ => none

/-- The number with the opposite sign. -/
def negate : Binary64 → Binary64
  | .nan => .nan
  | .infinite s => .infinite !s
  | .finite s m e => .finite (!s) m e

end Binary64

/-- A number as settings and callers give it: whole, or in binary floating point. -/
inductive Number where
  | whole (i : Int)
  | binary (x : Binary64)
deriving DecidableEq, Repr

namespace Number

/-- The exact comparison; with no number on either side it fails. -/
def lt : Number → Number → Bool
  | .whole i, .whole j => i < j
  | .whole i, .binary x => ltBinary i 1 x
  | .binary (.finite s m e), y =>
    let (num, den) := Binary64.fraction s m e
    match y with
    | .whole j => num < j * den
    | .binary x => ltBinary num den x
  | .binary (.infinite s), .whole _ => s
  | .binary (.infinite s), .binary (.infinite t) => s && !t
  | .binary (.infinite s), .binary (.finite ..) => s
  | .binary (.infinite _), .binary .nan => false
  | .binary .nan, _ => false
where
  /-- Whether the fraction is below the double. -/
  ltBinary (num : Int) (den : Nat) : Binary64 → Bool
    | .nan => false
    | .infinite t => !t
    | .finite t n f =>
      let (a, b) := Binary64.fraction t n f
      num * b < a * den

/-- The first of two numbers unless the second is below it. -/
def least (a b : Number) : Number := if b.lt a then b else a

/-- The nearest double; none for an integer past the range of doubles. -/
def toBinary64? : Number → Option Binary64
  | .whole i =>
    match Binary64.ofInt i with
    | .infinite _ => none
    | x => some x
  | .binary x => some x

end Number

end ImageTrust
