/-
# References — the names of images

An image is named by the host of its registry, its path there, and a tag or a digest
that picks one version.  The identity of a reference is that whole name; its namespaces
are the repository and everything that encloses it, up to the host.  Both are what a
policy writes in its scopes.
-/
import ImageTrust.Text.Quoted

namespace ImageTrust

/-- The name of an image, or of a repository if there is neither tag nor digest. -/
structure Reference where
  host : Text
  path : Text
  tag : Option Text
  digest : Option Text
deriving DecidableEq

namespace Reference

/-- The repository: host and path. -/
def name (r : Reference) : Text := r.host ++ CodePoint.ofChar '/' :: r.path

/-- Whether the reference picks no version. -/
def isNameOnly (r : Reference) : Bool := r.tag.isNone && r.digest.isNone

/-- A part with the sign that introduces it; nothing where the part is absent. -/
def suffix (mark : CodePoint) : Option Text → Text
  | none => []
  | some t => mark :: t

/-- The reference in full. -/
def shown (r : Reference) : Text := r.name ++ suffix ':' r.tag ++ suffix '@' r.digest

/-- Why a reference has no identity. -/
inductive Ambiguity where
  | tagAndDigest (r : Reference)
  | neither (r : Reference)
deriving DecidableEq

/-- The wording of an ambiguity. -/
def Ambiguity.message : Ambiguity → Text
  | .tagAndDigest r =>
    Text.sentence ["Unexpected Docker reference ", r.shown, " with both a tag and a digest"]
  | .neither r => Text.sentence ["Docker reference ", r.shown, " has neither a tag nor a digest"]

/-- The scope that holds this image alone: its repository with its tag or its digest. -/
def identity (r : Reference) : Except Ambiguity Text :=
  match r.tag, r.digest with
  | some _, some _ => .error (.tagAndDigest r)
  | some tag, none => .ok (r.name ++ suffix ':' (some tag))
  | none, some digest => .ok (r.name ++ suffix '@' (some digest))
  | none, none => .error (.neither r)

/-- What stands before each slash of a text, the shortest first. -/
def enclosing : Text → List Text
  | [] => []
  | c :: t =>
    let longer := (enclosing t).map (c :: ·)
    if c = '/' then [] :: longer else longer

/-- The scopes around an image: its repository, then every parent, ending with the host. -/
def namespaces (r : Reference) : List Text := r.name :: (enclosing r.name).reverse

end Reference

end ImageTrust
