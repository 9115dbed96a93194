/-
# SHA-2 — the digests of manifests and signatures

Both members of the family that are needed here, 256 bits on words of 32 and 512 bits
on words of 64, are one algorithm with two sets of numbers.  The round constants are not
listed: they are the first bits of the fractional parts of the cube roots of the first
primes, and the initial state those of the square roots, so they are computed.
-/
import ImageTrust.Text.Basic

namespace ImageTrust

namespace Sha2

/-- The largest `r` with `r ^ k ≤ n` below `2 ^ bits`, found bit by bit from the top. -/
def root (k n : Nat) : Nat → Nat → Nat
  | 0, r => r
  | bits + 1, r =>
    let next := r + 2 ^ bits
    root k n bits (if next ^ k ≤ n then next else r)

/-- The first `width` bits of the fractional part of the `k`-th root of `p`. -/
def rootFraction (k width p : Nat) : Nat := root k (p * 2 ^ (k * width)) (width + 6) 0 % 2 ^ width

/-- The primes below 410, of which there are eighty. -/
def primes : List Nat :=
  (List.range 410).filter fun n => 2 ≤ n && (List.range n).all fun d => d < 2 || n % d != 0

/-- The eight words between two blocks. -/
structure Registers (w : Nat) where
  a : BitVec w
  b : BitVec w
  c : BitVec w
  d : BitVec w
  e : BitVec w
  f : BitVec w
  g : BitVec w
  h : BitVec w

namespace Registers

/-- The words from a list of eight numbers. -/
def ofList (w : Nat) (ns : List Nat) : Registers w :=
  let word (i : Nat) := BitVec.ofNat w (ns.getD i 0)
  ⟨word 0, word 1, word 2, word 3, word 4, word 5, word 6, word 7⟩

/-- The sums of the words. -/
def add {w : Nat} (x y : Registers w) : Registers w :=
  ⟨x.a + y.a, x.b + y.b, x.c + y.c, x.d + y.d, x.e + y.e, x.f + y.f, x.g + y.g, x.h + y.h⟩

/-- The words in order. -/
def toList {w : Nat} (x : Registers w) : List (BitVec w) :=
  [x.a, x.b, x.c, x.d, x.e, x.f, x.g, x.h]

end Registers

/-- The state before the first block. -/
def initial (w : Nat) : Registers w := .ofList w ((primes.take 8).map (rootFraction 2 w))

/-- The constants of the rounds. -/
def constants (w rounds : Nat) : List (BitVec w) :=
  (primes.take rounds).map fun p => BitVec.ofNat w (rootFraction 3 w p)

/-- The numbers that tell one member of the family from another. A triple of rotations
belongs to each mixing function; the last number of a schedule's triple is a shift. There
is a round for each constant. -/
structure Variant (w : Nat) where
  start : Registers w
  constants : List (BitVec w)
  blockBytes : Nat
  lengthBytes : Nat
  chooseMix : Nat × Nat × Nat
  majorityMix : Nat × Nat × Nat
  lowMix : Nat × Nat × Nat
  highMix : Nat × Nat × Nat

/-- 256 bits. -/
def sha256 : Variant 32 :=
  ⟨initial 32, constants 32 64, 64, 8, (6, 11, 25), (2, 13, 22), (7, 18, 3), (17, 19, 10)⟩

/-- 512 bits. -/
def sha512 : Variant 64 :=
  ⟨initial 64, constants 64 80, 128, 16, (14, 18, 41), (28, 34, 39), (1, 8, 7), (19, 61, 6)⟩

/-- Three rotations of a word, mixed. -/
def mix {w : Nat} (r : Nat × Nat × Nat) (x : BitVec w) : BitVec w :=
  x.rotateRight r.1 ^^^ x.rotateRight r.2.1 ^^^ x.rotateRight r.2.2

/-- Two rotations and a shift of a word, mixed. -/
def mixShift {w : Nat} (r : Nat × Nat × Nat) (x : BitVec w) : BitVec w :=
  x.rotateRight r.1 ^^^ x.rotateRight r.2.1 ^^^ (x >>> r.2.2)

/-- One round, with its constant and its word of the schedule. -/
def round {w : Nat} (v : Variant w) (s : Registers w) (k x : BitVec w) : Registers w :=
  let choice := (s.e &&& s.f) ^^^ (~~~s.e &&& s.g)
  let majority := (s.a &&& s.b) ^^^ (s.a &&& s.c) ^^^ (s.b &&& s.c)
  let t := s.h + mix v.chooseMix s.e + choice + k + x
  ⟨t + mix v.majorityMix s.a + majority, s.a, s.b, s.c, s.d + t, s.e, s.f, s.g⟩

/-- The rounds of one block. The window holds the next sixteen words of the schedule. -/
def rounds {w : Nat} (v : Variant w) : List (BitVec w) → Registers w → List (BitVec w) → Registers w
  | [], s, _ => s
  | k :: ks, s, window =>
    let x := window.getD 0 0
    let new := x + mixShift v.lowMix (window.getD 1 0) + window.getD 9 0 +
      mixShift v.highMix (window.getD 14 0)
    rounds v ks (round v s k x) (window.drop 1 ++ [new])

/-- A number as bytes, the most significant first. -/
def bigEndian (count n : Nat) : Bytes :=
  (List.range count).reverse.map fun i => UInt8.ofNat (n / 2 ^ (8 * i))

/-- The number that bytes write, the most significant first. -/
def ofBigEndian (bytes : Bytes) : Nat := bytes.foldl (fun n b => n * 0x100 + b.toNat) 0

/-- The message with a mark at its end, zeros, and its length in bits, in whole blocks. -/
def padded {w : Nat} (v : Variant w) (message : Bytes) : Bytes :=
  let used := (message.length + 1 + v.lengthBytes) % v.blockBytes
  let zeros := (v.blockBytes - used) % v.blockBytes
  message ++ 0x80 :: List.replicate zeros 0 ++ bigEndian v.lengthBytes (message.length * 8)

/-- The pieces of a list, `n` items each; at most `count` of them. -/
def chunks {α : Type} (n : Nat) : Nat → List α → List (List α)
  | 0, _ => []
  | count + 1, xs => xs.take n :: chunks n count (xs.drop n)

/-- The state after a block. -/
def compress {w : Nat} (v : Variant w) (s : Registers w) (block : Bytes) : Registers w :=
  let words := (chunks (w / 8) 16 block).map fun unit => BitVec.ofNat w (ofBigEndian unit)
  s.add (rounds v v.constants s words)

/-- The digest of a message. -/
def digest {w : Nat} (v : Variant w) (message : Bytes) : Bytes :=
  let text := padded v message
  let blocks := chunks v.blockBytes (text.length / v.blockBytes) text
  let final := blocks.foldl (compress v) v.start
  final.toList.flatMap fun word => bigEndian (w / 8) word.toNat

end Sha2

end ImageTrust
