/-
# Reading references

A reference is cut from its end: first the digest behind the first `@`, then the tag
behind a colon that no slash follows.  What is left names the repository.  Its first
component is a host if it looks like one; otherwise the repository is on the default
registry, where a name of one component belongs to the `library`.
-/
import ImageTrust.Reference.Basic
import ImageTrust.Reference.Grammar

namespace ImageTrust

namespace Reference

/-- Why a text is no reference. -/
inductive Malformed where
  | empty
  | bareDigest (whole : Text)
  | digest (whole : Text)
  | tag (whole : Text)
  | noName (whole : Text)
  | host (host whole : Text)
  | path (whole : Text)
  | tooLong
deriving DecidableEq

/-- The most code points of a repository's name. -/
def maxNameLength : Nat := 255

/-- The wording of a malformation. -/
def Malformed.message : Malformed → Text
  | .empty => "repository name must have at least one component"
  | .bareDigest t =>
    Text.sentence ["invalid repository name (", t, "), cannot specify 64-byte hexadecimal strings"]
  | .digest t => Text.sentence ["invalid digest format in ", t.quoted]
  | .tag t => Text.sentence ["invalid tag format in ", t.quoted]
  | .noName t => Text.sentence ["invalid reference format: ", t.quoted]
  | .host h t => Text.sentence ["invalid registry host ", h.quoted, " in ", t.quoted]
  | .path t =>
    Text.sentence ["invalid reference format: repository name must be lowercase (", t.quoted, ")"]
  | .tooLong =>
    Text.sentence ["repository name must not be more than ", Text.decimal maxNameLength, " characters"]

/-- The registry of names without a host. -/
def defaultHost : Text := "docker.io"

/-- Another name of the default registry. -/
def formerDefaultHost : Text := "index.docker.io"

/-- The path of the default registry's names of one component. -/
def officialPath : Text := "library"

/-- The part behind the first `@`. -/
def cutDigest (t : Text) : Text × Option Text :=
  match t.cutFirst? '@' with
  | none => (t, none)
  | some (rest, digest) => (rest, some digest)

/-- The part behind the last colon, if no slash stands in it. -/
def cutTag (t : Text) : Text × Option Text :=
  match t.cutLast? ':' with
  | none => (t, none)
  | some (rest, tag) => if CodePoint.ofChar '/' ∈ tag then (t, none) else (rest, some tag)

/-- Whether the first component of a name is a host and not a part of the path. -/
def looksLikeHost (t : Text) : Bool :=
  CodePoint.ofChar '.' ∈ t || CodePoint.ofChar ':' ∈ t || t == "localhost"

/-- Host and path of a name. -/
def cutHost (name : Text) : Text × Text :=
  match name.cutFirst? '/' with
  | some (first, rest) => if looksLikeHost first then (first, rest) else (defaultHost, name)
  | none => (defaultHost, name)

/-- Host and path in the one spelling of each repository. -/
def normalized (host path : Text) : Text × Text :=
  let host := if host = formerDefaultHost then defaultHost else host
  if host = defaultHost ∧ CodePoint.ofChar '/' ∉ path then
    (host, officialPath ++ CodePoint.ofChar '/' :: path)
  else (host, path)

/-- The reference that a text writes. -/
def parse (whole : Text) : Except Malformed Reference := do
  if whole = [] then throw .empty
  if whole.isLineOf isBareDigest then throw (.bareDigest whole)
  let (rest, digest) := cutDigest whole
  if !digest.all (Text.isLineOf isDigest) then throw (.digest whole)
  let (rest, tag) := cutTag rest
  if !tag.all (Text.isLineOf isTag) then throw (.tag whole)
  if rest = [] then throw (.noName whole)
  let (host, path) := cutHost rest
  let (host, path) := normalized host path
  if !host.isLineOf isHost then throw (.host host whole)
  if !(path.pieces '/').all (Text.isLineOf isPathComponent) then throw (.path whole)
  if maxNameLength < host.length + 1 + path.length then throw .tooLong
  return { host, path, tag, digest }

end Reference

end ImageTrust
