/-
# Claims — what a signature says

The signed payload of a signature is a JSON document.  Its critical part names the kind
of document, the digest of a manifest and the reference it is signed for; the optional
part says who made it and when.  The first two of these are what a decision goes by.
-/
import ImageTrust.Datum.Check
import ImageTrust.Json.Reader
import ImageTrust.Json.Writer
import ImageTrust.Text.Quoted

namespace ImageTrust

/-- What a verified signature vouches for. -/
structure Signature where
  manifestDigest : Text
  reference : Text
deriving DecidableEq

/-- The contents of a signed payload. -/
structure Claims where
  manifestDigest : Text
  reference : Text
  creator : Option Text
  timestamp : Option Int
deriving DecidableEq

namespace Claims

/-- The kind of document that claims are. -/
def documentType : Text := "atomic container signature"

/-- The part of the claims that a decision goes by. -/
def toSignature (c : Claims) : Signature := ⟨c.manifestDigest, c.reference⟩

/-! ## Reading -/

/-- A structure of named members. -/
def checkModel {α : Type} (check : List (Datum × Datum) → Checked α) : Datum → Checked α
  | .mapping entries => check entries
  | _ => .fail .modelType

/-- The kind of document, where it is given. -/
def checkType : Datum → Checked Unit
  | .text t => if t = documentType then .ok () else .fail .literal
  | _ => .fail .literal

/-- The digest of the manifest. -/
def checkImage (entries : List (Datum × Datum)) : Checked Text :=
  Datum.checkMember "docker-manifest-digest" "docker_manifest_digest" Datum.checkFullText entries

/-- The reference. -/
def checkIdentity (entries : List (Datum × Datum)) : Checked Text :=
  Datum.checkMember "docker-reference" "docker_reference" Datum.checkFullText entries

/-- The part that has to be understood. -/
def checkCritical (entries : List (Datum × Datum)) : Checked (Text × Text) :=
  (Checked.both (Datum.checkDefaulted "type" "type" () checkType entries)
    (Checked.both (Datum.checkMember "image" "image" (checkModel checkImage) entries)
      (Datum.checkMember "identity" "identity" (checkModel checkIdentity) entries))).map Prod.snd

/-- The part that may be left out. -/
def checkOptional (entries : List (Datum × Datum)) : Checked (Option Text × Option Int) :=
  Checked.both
    (Datum.checkDefaulted "creator" "creator" none (Datum.checkOptional Datum.checkText) entries)
    (Datum.checkDefaulted "timestamp" "timestamp" none (Datum.checkOptional Datum.checkInteger) entries)

/-- The claims that a document makes. -/
def check : Datum → Checked Claims :=
  checkModel fun entries => do
    let ((manifestDigest, reference), creator, timestamp) ←
      Checked.both (Datum.checkMember "critical" "critical" (checkModel checkCritical) entries)
        (Datum.checkDefaulted "optional" "optional" (none, none) (checkModel checkOptional) entries)
    return { manifestDigest, reference, creator, timestamp }

/-- The claims that a payload makes. -/
def read (payload : Bytes) : Checked Claims :=
  match Json.ofStrictBytes? payload with
  | none => .fail .jsonInvalid
  | some v => check (.ofJson v)

/-- Claims from parts of any kind. The digest, the reference and the optional part are
checked one after the other, and the first of these with a problem decides. -/
def make (manifestDigest reference creator timestamp : Datum) : Checked Claims := do
  let manifestDigest ← checkImage [(.text "docker_manifest_digest", manifestDigest)]
  let reference ← checkIdentity [(.text "docker_reference", reference)]
  let (creator, timestamp) ←
    checkOptional [(.text "creator", creator), (.text "timestamp", timestamp)]
  return { manifestDigest, reference, creator, timestamp }

/-! ## Writing -/

/-- The claims as a document. -/
def toJson (c : Claims) : Json :=
  .object
    [("critical", .object
      [("type", .text documentType),
       ("image", .object [("docker-manifest-digest", .text c.manifestDigest)]),
       ("identity", .object [("docker-reference", .text c.reference)])]),
     ("optional", .object
      [("creator", match c.creator with
        | none => .null
        | some t => .text t),
       ("timestamp", match c.timestamp with
        | none => .null
        | some i => .int i)])]

/-- The claims as a text without blanks. A surrogate in it has no written form. -/
def toText? (c : Claims) : Option Text :=
  if c.toJson.isScalar then some (c.toJson.toText Json.Layout.compact) else none

end Claims

namespace Signature

/-- A signature's claims, from a document that holds nothing else. -/
def check : Datum → Checked Signature :=
  Claims.checkModel fun entries => do
    let (manifestDigest, reference) ←
      Checked.both
        (Datum.checkMember "docker_manifest_digest" "docker_manifest_digest" Datum.checkText entries)
        (Datum.checkMember "docker_reference" "docker_reference" Datum.checkText entries)
    return { manifestDigest, reference }

/-- The claims as a document of their own. -/
def toJson (s : Signature) : Json :=
  .object [("docker_manifest_digest", .text s.manifestDigest), ("docker_reference", .text s.reference)]

/-- The claims as a message shows them. -/
def shown (s : Signature) : Text :=
  Text.sentence ["Signature(docker_manifest_digest=", s.manifestDigest.quoted, ", docker_reference=",
    s.reference.quoted, ")"]

end Signature

end ImageTrust
