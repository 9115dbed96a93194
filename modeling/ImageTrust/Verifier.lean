/-
# Verifiers

A verifier is given a stored signature and trusted key material and answers with the
claims, or with a fault.  The one that comes with the library reads Ed25519 keys and
keeps them until it is closed; what it has read never changes an answer.
-/
import ImageTrust.Host

namespace ImageTrust

/-- Something that verifies signatures. -/
structure Verifier (σ : Type) where
  verify : Bytes → Bytes → Act σ Signature
  close : Act σ Unit

namespace Verifier

variable {σ : Type}

/-- A verifier that verifies nothing. -/
def abstract : Verifier σ := ⟨fun _ _ => .fail .notImplemented, pure ()⟩

/-- The claims of an envelope: one of the keys has to have signed exactly the payload's
bytes, and the payload has to be claims. -/
def openEnvelope (room : Room) (keys : List PublicKey) (raw : Bytes) : Except Fault Signature := do
  let envelope ← (Envelope.read room raw).mapError Fault.ofEnvelopeFlaw
  if !keys.any fun key => Ed25519.verify key.bytes envelope.signature envelope.payload then
    throw (.untrusted keys.length)
  let claims ← (Claims.read envelope.payload).mapError Fault.invalidPayload
  return claims.toSignature

/-- The keys of this material, from the verifier's cache where it has them. -/
def ring (verifier : Nat) (material : Bytes) : Act σ KeyRing := do
  let (ring, cache) ← Act.lift Fault.unusableKeys (((← Act.host).caches verifier).ring material)
  Act.setCache verifier cache
  return ring

/-- Drop the keys in the verifier's cache. -/
def drop (verifier : Nat) : Act σ Unit := do
  let cache := (← Act.host).caches verifier
  Act.log .debug .signature
    ["Dropping ", Text.decimal cache.rings.length, " cached trusted key sets"]
  Act.setCache verifier cache.close

/-- The verifier of Ed25519 signatures that has this number, called with this room. -/
def ed25519 (room : Room) (verifier : Nat) : Verifier σ where
  verify raw material := do
    let ring ← ring verifier material
    Act.ofExcept (openEnvelope room ring.keys raw)
  close := drop verifier

end Verifier

end ImageTrust
