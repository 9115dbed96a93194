/-
# Requirements — what a policy asks of an image

There are four kinds of requirements.  Two need no evidence: one refuses every image and
one lets every image run.  The other two are about signatures of the image and of its
base layer.  A document names the kind as the `type` of the requirement.
-/
import ImageTrust.MatchRule

namespace ImageTrust

/-- The kinds of trusted keys. -/
inductive KeyType where
  | ed25519
deriving DecidableEq, Repr

/-- The name of a kind of keys in documents. -/
def KeyType.name : KeyType → Text
  | .ed25519 => "Ed25519Keys"

/-- Where the trusted keys are: in a file, or in the policy itself. -/
inductive KeySource where
  | path (p : Text)
  | data (t : Text)
deriving DecidableEq

/-- A demand for a signature by one of the trusted keys, for an acceptable name. -/
structure SignedBy where
  keyType : KeyType
  keys : KeySource
  identity : MatchRule
deriving DecidableEq

/-- One requirement of a policy. -/
inductive Requirement where
  | reject
  | insecureAcceptAnything
  | signedBy (s : SignedBy)
  | signedBaseLayer (identity : MatchRule)
deriving DecidableEq

/-- The name of a requirement's kind in documents. -/
def Requirement.typeName : Requirement → Text
  | .reject => "reject"
  | .insecureAcceptAnything => "insecureAcceptAnything"
  | .signedBy _ => "signedBy"
  | .signedBaseLayer _ => "signedBaseLayer"

/-! ## Reading -/

/-- The kind of keys that a document names. -/
def KeyType.check (d : Datum) : Checked KeyType :=
  match d.checkText with
  | .ok t => if t = KeyType.ed25519.name then .ok .ed25519 else .fail .enumeration
  | .error _ => .fail .enumeration

/-- The rule that a requirement with a key source has to keep. -/
def KeySource.rule : Text := "exactly one of keyPath and keyData must be specified"

/-- The key source that exactly one of path and data gives. -/
def KeySource.check (path data : Option Text) : Checked KeySource :=
  match path, data with
  | some p, none => .ok (.path p)
  | none, some t => .ok (.data t)
  | _, _ => .fail (.rule (Text.sentence ["Value error, ", KeySource.rule]))

/-- A demand for signatures, from the members of its document. The key source is looked at
when all members are right. -/
def SignedBy.check (entries : List (Datum × Datum)) : Checked SignedBy := do
  let (keyType, path, data, identity) ←
    Checked.both (Datum.checkMember "keyType" "key_type" KeyType.check entries)
      (Checked.both
        (Datum.checkDefaulted "keyPath" "key_path" none (Datum.checkOptional Datum.checkText) entries)
        (Checked.both
          (Datum.checkDefaulted "keyData" "key_data" none (Datum.checkOptional Datum.checkText) entries)
          (Datum.checkDefaulted "signedIdentity" "signed_identity" .repoDigestOrExact MatchRule.check
            entries)))
  let keys ← KeySource.check path data
  return { keyType, keys, identity }

/-- The requirement of the named kind; problems with it lie under that name. -/
def Requirement.checkAs (kind : Text) (entries : List (Datum × Datum)) : Checked Requirement :=
  if kind = "reject" then .ok .reject
  else if kind = "insecureAcceptAnything" then .ok .insecureAcceptAnything
  else if kind = "signedBy" then
    Checked.within (.name kind) ((SignedBy.check entries).map Requirement.signedBy)
  else if kind = "signedBaseLayer" then
    Checked.within (.name kind)
      ((Datum.checkMember "baseLayerIdentity" "base_layer_identity" MatchRule.check entries).map
        Requirement.signedBaseLayer)
  else .fail .tagInvalid

/-- The requirement that a document describes. -/
def Requirement.check : Datum → Checked Requirement
  | .mapping entries =>
    match Datum.find? "type" entries with
    | none => .fail .tagNotFound
    | some (.text kind) => checkAs kind entries
    | some _ => .fail .tagInvalid
  | _ => .fail .modelAttributesType

/-! ## Writing -/

/-- A text that may be absent. -/
def Json.ofOption : Option Text → Json
  | none => .null
  | some t => .text t

/-- The path of a key source, if it is one. -/
def KeySource.path? : KeySource → Option Text
  | .path p => some p
  | .data _ => none

/-- The keys that stand in the policy itself, if they do. -/
def KeySource.data? : KeySource → Option Text
  | .path _ => none
  | .data t => some t

/-- The members of a requirement behind its kind. -/
def Requirement.members : Requirement → List (Text × Json)
  | .reject | .insecureAcceptAnything => []
  | .signedBy s =>
    [("keyType", .text s.keyType.name), ("keyPath", Json.ofOption s.keys.path?),
     ("keyData", Json.ofOption s.keys.data?), ("signedIdentity", s.identity.toJson)]
  | .signedBaseLayer identity => [("baseLayerIdentity", identity.toJson)]

/-- The requirement as a document. -/
def Requirement.toJson (r : Requirement) : Json :=
  .object (("type", .text r.typeName) :: r.members)

end ImageTrust
