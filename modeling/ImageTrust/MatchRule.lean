/-
# Match rules — which signed names an image may carry

A signature claims to be for some reference; a match rule says how that has to relate
to the reference the image was asked for by.  Default tags are never added here, so an
image without tag and digest matches nothing but a whole repository.
-/
import ImageTrust.Reference.Parser
import ImageTrust.Datum.Check

namespace ImageTrust

/-- The ways to compare the signed reference with the image's. -/
inductive MatchRule where
  /-- The same reference, tag or digest included. -/
  | exact
  /-- The same reference for a tag; for a digest the same repository. -/
  | repoDigestOrExact
  /-- The same repository. -/
  | repository
deriving DecidableEq, Repr

namespace MatchRule

/-- The name of a rule in documents. -/
def name : MatchRule → Text
  | .exact => "matchExact"
  | .repoDigestOrExact => "matchRepoDigestOrExact"
  | .repository => "matchRepository"

/-- Whether the rule takes the signed reference for an image's. -/
def holds (rule : MatchRule) (image signed : Reference) : Bool :=
  match rule with
  | .exact => !image.isNameOnly && !signed.isNameOnly && signed.shown == image.shown
  | .repoDigestOrExact =>
    if image.tag.isSome then signed.shown == image.shown
    else if image.digest.isSome then signed.name == image.name
    else false
  | .repository => signed.name == image.name

/-- Whether the rule takes the signed text for an image. An image without reference and a
text that is no reference match nothing. -/
def accepts (rule : MatchRule) (image : Option Reference) (signed : Text) : Bool :=
  match image, Reference.parse signed with
  | some image, .ok signed => rule.holds image signed
  | _, _ => false

/-- The rule with this name. -/
def ofName? (t : Text) : Option MatchRule :=
  if t = name .exact then some .exact
  else if t = name .repoDigestOrExact then some .repoDigestOrExact
  else if t = name .repository then some .repository
  else none

/-- The rule that a document names as its `type`. -/
def check : Datum → Checked MatchRule
  | .mapping entries =>
    match Datum.find? "type" entries with
    | none => .fail .tagNotFound
    | some (.text t) =>
      match ofName? t with
      | some rule => .ok rule
      | none => .fail .tagInvalid
    | some _ => .fail .tagInvalid
  | _ => .fail .modelAttributesType

/-- The rule as a document. -/
def toJson (rule : MatchRule) : Json := .object [("type", .text rule.name)]

end MatchRule

end ImageTrust
