/-
# Decimal texts of doubles

Two printers.  `fixed` writes a chosen number of places of the exact value, a tie going
to the even digit.  `shortest` writes the fewest digits that read back as the same
double, and of several such the nearest: it tries one digit, two digits and so on, and
on each grid the two neighbours of the value.
-/
import ImageTrust.Number.Binary64

namespace ImageTrust

namespace Binary64

/-- A minus sign where the number is negative. -/
def signText (negative : Bool) : Text := if negative then "-" else ""

/-- The value with this many places after the point. -/
def fixed (places : Nat) : Binary64 → Text
  | .nan => "nan"
  | .infinite s => signText s ++ "inf"
  | .finite s m e =>
    let (num, den) := magnitude m e
    let shown := Text.decimal (roundDiv (num * 10 ^ places) den)
    let shown := List.replicate (places + 1 - shown.length) (CodePoint.ofChar '0') ++ shown
    let cut := shown.length - places
    signText s ++ shown.take cut ++ (if places = 0 then [] else CodePoint.ofChar '.' :: shown.drop cut)

/-- The fraction times a power of ten. -/
def timesTen (num den : Nat) (k : Int) : Nat × Nat :=
  if k < 0 then (num, den * 10 ^ k.natAbs) else (num * 10 ^ k.natAbs, den)

/-- Whether `digits * 10 ^ exponent` reads back as `m * 2 ^ e`. -/
def readsBack (m : Nat) (e : Int) (digits : Nat) (exponent : Int) : Bool :=
  ofDecimal false digits exponent = .finite false m e

/-- The nearest number with `count` digits that reads back as `m * 2 ^ e`, where `point` is
the place of the decimal point before the first digit. -/
def onGrid? (m : Nat) (e : Int) (point : Int) (count : Nat) : Option (Nat × Int) :=
  let unit : Int := point - count
  let (num, den) := magnitude m e
  let (n, d) := timesTen num den (-unit)
  let below := n / d
  let above := below + 1
  let nearer := if 2 * (n % d) ≤ d then [below, above] else [above, below]
  (nearer.find? fun digits => readsBack m e digits unit).map (·, unit)

/-- The place of the decimal point before the first digit: the least `k` with the value
below `10 ^ k`, searched from a bound that is never too high. -/
def pointPlace (num den : Nat) : Nat → Int → Int
  | 0, k => k
  | fuel + 1, k =>
    let (n, d) := timesTen num den (-k)
    if n < d then k else pointPlace num den fuel (k + 1)

/-- The fewest digits that read back, without zeros at the end, and the place of the point
before the first of them. -/
def shortestDigits (m : Nat) (e : Int) : Text × Int :=
  let (num, den) := magnitude m e
  let start : Int := (Int.ofNat num.log2 - Int.ofNat den.log2) * 3 / 10 - 3
  let point := pointPlace num den 40 start
  match ((List.range 17).map (· + 1)).findSome? (onGrid? m e point) with
  | some (digits, unit) =>
    let shown := Text.decimal digits
    (Text.dropTrailing '0' shown, unit + shown.length)
  | none => ("0", 1)

/-- The shortest decimal text: positional from `10 ^ -4` up to `10 ^ 16`, with a point always,
and otherwise with an exponent of two digits or more. -/
def shortest : Binary64 → Text
  | .nan => "nan"
  | .infinite s => signText s ++ "inf"
  | .finite s m e =>
    if m = 0 then signText s ++ "0.0"
    else
      let (digits, point) := shortestDigits m e
      let zeros (n : Int) : Text := List.replicate n.toNat (CodePoint.ofChar '0')
      let body : Text :=
        if -4 < point ∧ point ≤ 16 then
          if point ≤ 0 then "0." ++ zeros (-point) ++ digits
          else
            let whole := digits.take point.toNat ++ zeros (point - digits.length)
            let rest := digits.drop point.toNat
            whole ++ "." ++ (if rest = [] then ("0" : Text) else rest)
        else
          let exponent := point - 1
          let size := Text.decimal exponent.natAbs
          let mantissa := digits.take 1 ++ (if digits.length ≤ 1 then [] else CodePoint.ofChar '.' :: digits.drop 1)
          mantissa ++ (if exponent < 0 then ("e-" : Text) else "e+") ++
            List.replicate (2 - size.length) (CodePoint.ofChar '0') ++ size
      signText s ++ body

end Binary64

namespace Number

/-- A number as a message shows it. -/
def shown : Number → Text
  | .whole i => Text.integer i
  | .binary x => x.shortest

end Number

end ImageTrust
