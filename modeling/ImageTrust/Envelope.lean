/-
# Envelopes — signatures as they are stored

A stored signature is a JSON object with two members, the signed payload and the
signature of exactly these bytes, both in base64.
-/
import ImageTrust.Base64
import ImageTrust.Claims
import ImageTrust.Crypto.Ed25519

namespace ImageTrust

/-- A payload and its signature. -/
structure Envelope where
  payload : Bytes
  signature : Bytes
deriving DecidableEq

namespace Envelope

/-- Why bytes are no envelope. -/
inductive Flaw where
  | undecodable
  | json (why : Json.Defect)
  | notObject
  | missingMember
  | notAscii
  | base64
deriving DecidableEq

/-- The bytes that a member writes. A code point that is not ASCII is no base64 of any kind. -/
def decodeMember (t : Text) : Except Flaw Bytes :=
  if t.any fun c => 0x80 ≤ c.val then .error .notAscii
  else
    match Base64.decode? t with
    | some bytes => .ok bytes
    | none => .error .base64

/-- The envelope that bytes write. -/
def read (room : Room) (raw : Bytes) : Except Flaw Envelope := do
  let t ← match Json.decode? raw with
    | some t => pure t
    | none => throw .undecodable
  let v ← (Json.read room.json t).mapError Flaw.json
  match v with
  | .object _ =>
    match v.member? "payload", v.member? "signature" with
    | some (.text payload), some (.text signature) =>
      let payload ← decodeMember payload
      let signature ← decodeMember signature
      return { payload, signature }
    | _, _ => throw .missingMember
  | _ => throw .notObject

/-- The envelope as a document. -/
def toJson (e : Envelope) : Json :=
  .object [("payload", .text (Base64.encode e.payload)), ("signature", .text (Base64.encode e.signature))]

/-- The envelope as bytes. -/
def toBytes (e : Envelope) : Bytes := (e.toJson.toText Json.Layout.spaced).utf8Bytes

/-- The envelope of claims signed by a private key, where the claims have a written form. -/
def sign? (seed : Bytes) (c : Claims) : Option Envelope := do
  let payload := (← c.toText?).utf8Bytes
  return { payload, signature := Ed25519.sign seed payload }

end Envelope

end ImageTrust
