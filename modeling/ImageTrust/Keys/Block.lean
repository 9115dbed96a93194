/-
# Key blocks

One block of key material is base64 between two marker lines, of one element that names
an algorithm and holds the key.  Ed25519 keys are thirty-two bytes; that they are a point
of the curve is not asked here.
-/
import ImageTrust.Keys.Der
import ImageTrust.Keys.Curve
import ImageTrust.Base64
import ImageTrust.Text.Blank
import ImageTrust.Text.Utf8

namespace ImageTrust

/-- An Ed25519 public key. -/
structure PublicKey where
  bytes : Bytes
deriving DecidableEq

namespace KeyBlock

/-- The line before a key. -/
def beginMarker : Bytes := Text.utf8Bytes "-----BEGIN PUBLIC KEY-----"

/-- The line after a key. -/
def endMarker : Bytes := Text.utf8Bytes "-----END PUBLIC KEY-----"

/-- What a block turns out to be. -/
inductive Reading where
  | ed25519 (key : PublicKey)
  | otherKind (name : Text)
  | unreadable
  | unknownAlgorithm
deriving DecidableEq

/-- A key of a kind that is told by its length alone. -/
def ofLength (length : Nat) (kind : Bytes → Reading) (parameters : List Der.Element)
    (key : Option Bytes) : Reading :=
  match parameters, key with
  | [], some key => if key.length = length then kind key else .unreadable
  | _, _ => .unreadable

/-- An RSA key: a modulus and an exponent. -/
def ofRsa (parameters : List Der.Element) (key : Option Bytes) : Reading :=
  let plain : Bool := match parameters with
    | [] => true
    | [e] => e.tag == 0x05 && e.content.isEmpty
    | _ => false
  match key.bind Der.sequence? with
  | some [n, e] =>
    if plain ∧ (Der.positive? n).isSome ∧ (Der.positive? e).isSome then .otherKind "RSAPublicKey"
    else .unreadable
  | _ => .unreadable

/-- A key on a curve that the parameters name. -/
def ofCurve (parameters : List Der.Element) (key : Option Bytes) : Reading :=
  match parameters, key with
  | [e], some key =>
    if e.tag = 0x06 then
      match Curve.known.find? fun c => c.identifier = e.content with
      | some c => if c.isPoint key then .otherKind "ECPublicKey" else .unreadable
      | none => .unknownAlgorithm
    else .unreadable
  | _, _ => .unreadable

/-- The key of an algorithm. -/
def ofAlgorithm (identifier : Bytes) (parameters : List Der.Element) (key : Option Bytes) : Reading :=
  if identifier = [0x2B, 0x65, 0x70] then
    ofLength 32 (fun bytes => .ed25519 ⟨bytes⟩) parameters key
  else if identifier = [0x2B, 0x65, 0x6E] then
    ofLength 32 (fun _ => .otherKind "X25519PublicKey") parameters key
  else if identifier = [0x2B, 0x65, 0x6F] then
    ofLength 56 (fun _ => .otherKind "X448PublicKey") parameters key
  else if identifier = [0x2B, 0x65, 0x71] then
    ofLength 57 (fun _ => .otherKind "Ed448PublicKey") parameters key
  else if identifier = [0x2A, 0x86, 0x48, 0x86, 0xF7, 0x0D, 0x01, 0x01, 0x01] then
    ofRsa parameters key
  else if identifier = [0x2A, 0x86, 0x48, 0xCE, 0x3D, 0x02, 0x01] then
    ofCurve parameters key
  else .unknownAlgorithm

/-- The key that an element is: an algorithm with its parameters, and a bit string. -/
def ofElement (der : Bytes) : Reading :=
  match Der.sequence? der with
  | some [algorithm, key] =>
    if algorithm.tag = 0x30 ∧ Der.isBitString key then
      match Der.elements? algorithm.content.length algorithm.content with
      | some (identifier :: parameters) =>
        if identifier.tag = 0x06 ∧ Der.isIdentifier identifier.content ∧ parameters.length ≤ 1 then
          ofAlgorithm identifier.content parameters (Der.wholeBits? key)
        else .unreadable
      | _ => .unreadable
    else .unreadable
  | _ => .unreadable

/-- The key in the text between the markers. -/
def ofBody (body : Bytes) : Reading :=
  match Text.ofUtf8? false body with
  | none => .unreadable
  | some t =>
    match Base64.decodeCanonical? (t.filter fun c => !c.isBlank) with
    | none => .unreadable
    | some der => ofElement der

end KeyBlock

end ImageTrust
