/-
# Key bundles

Trusted key material is any bytes with blocks of keys in them.  Every block has to be an
Ed25519 key, and there has to be one at least: a bundle is taken whole or not at all.
-/
import ImageTrust.Keys.Block

namespace ImageTrust

namespace KeyBundle

/-- What stands before and after the first occurrence of a marker. -/
def cut? (marker : Bytes) : Bytes → Option (Bytes × Bytes)
  | [] => if marker = [] then some ([], []) else none
  | b :: rest =>
    if marker.isPrefixOf (b :: rest) then some ([], (b :: rest).drop marker.length)
    else (cut? marker rest).map fun (before, after) => (b :: before, after)

/-- The text of the first block, at least one byte long, and what follows the block. -/
def takeBody? (bytes : Bytes) : Option (Bytes × Bytes) := do
  let (_, inside) ← cut? KeyBlock.beginMarker bytes
  match inside with
  | [] => none
  | b :: rest =>
    let (body, after) ← cut? KeyBlock.endMarker rest
    return (b :: body, after)

/-- The texts of the blocks, at most `fuel` many. -/
def bodiesWithin : Nat → Bytes → List Bytes
  | 0, _ => []
  | fuel + 1, bytes =>
    match takeBody? bytes with
    | none => []
    | some (body, after) => body :: bodiesWithin fuel after

/-- The texts of the blocks. -/
def bodies (bytes : Bytes) : List Bytes := bodiesWithin bytes.length bytes

/-- Why key material cannot be used. -/
inductive Unusable where
  | noKeys
  | unreadable
  | unknownAlgorithm
  | otherKind (name : Text)
deriving DecidableEq

/-- The wording of what is wrong with one block. -/
def unreadableMessage : Text := "unreadable key"

/-- The wording of what is wrong with key material. -/
def Unusable.message : Unusable → Text
  | .noKeys => "No PEM public keys found in the trusted key material"
  | .unreadable | .unknownAlgorithm =>
    Text.sentence ["Invalid trusted public key: ", unreadableMessage]
  | .otherKind name =>
    Text.sentence ["Unsupported trusted key type ", name, ", expected Ed25519"]

/-- The key of a block. -/
def keyOf (body : Bytes) : Except Unusable PublicKey :=
  match KeyBlock.ofBody body with
  | .ed25519 key => .ok key
  | .otherKind name => .error (.otherKind name)
  | .unreadable => .error .unreadable
  | .unknownAlgorithm => .error .unknownAlgorithm

/-- The keys of a bundle, in order; the first bad block decides. -/
def load (material : Bytes) : Except Unusable (List PublicKey) :=
  match bodies material with
  | [] => .error .noKeys
  | blocks => blocks.mapM keyOf

end KeyBundle

end ImageTrust
