/-
# Addresses — how an image is asked for

An image is addressed by a reference that picks exactly one version, or by none at all
if it comes from no registry.  Only the first kind has an identity.
-/
import ImageTrust.Reference.Parser

namespace ImageTrust

/-- The address of an image. -/
structure Address where
  reference : Option Reference
deriving DecidableEq

namespace Address

/-- The tag of an image that is asked for by its name alone. -/
def defaultTag : Text := "latest"

/-- Why a text or a reference is no address. -/
inductive Invalid where
  | malformed (why : Reference.Malformed)
  | tagAndDigest (r : Reference)
  | nameOnly (r : Reference)
deriving DecidableEq

/-- The wording of an invalid address. -/
def Invalid.message : Invalid → Text
  | .malformed why => why.message
  | .tagAndDigest r =>
    Text.sentence ["Docker references with both a tag and digest are not supported: ", r.shown]
  | .nameOnly r =>
    Text.sentence ["Docker reference ", r.shown, " needs a tag or digest; use parse() to default to :",
      defaultTag]

/-- The address by this reference: it has to have a tag or a digest, and not both. -/
def ofReference (r : Option Reference) : Except Invalid Address :=
  match r with
  | none => .ok ⟨none⟩
  | some r =>
    if r.tag.isSome && r.digest.isSome then .error (.tagAndDigest r)
    else if r.isNameOnly then .error (.nameOnly r)
    else .ok ⟨some r⟩

/-- The address that a text writes; a name alone asks for the default tag. -/
def parse (t : Text) : Except Invalid Address :=
  match Reference.parse t with
  | .error why => .error (.malformed why)
  | .ok r => ofReference (some (if r.isNameOnly then { r with tag := some defaultTag } else r))

/-- The identity for the policy; empty for an image from no registry. -/
def identity (a : Address) : Except Reference.Ambiguity Text :=
  match a.reference with
  | none => .ok []
  | some r => r.identity

/-- The scopes around the image. -/
def namespaces (a : Address) : List Text :=
  match a.reference with
  | none => []
  | some r => r.namespaces

/-- The address as a message shows it. -/
def shown (a : Address) : Text :=
  match a.reference with
  | none => "docker:<no reference>"
  | some r => Text.sentence ["docker://", r.shown]

/-- The address as a value among others, for a reader of diagnostics. -/
def described (a : Address) : Text :=
  let inner : Text := match a.reference with
    | none => "None"
    | some r => r.shown.quoted
  Text.sentence ["DockerImageReference(", inner, ")"]

end Address

end ImageTrust
