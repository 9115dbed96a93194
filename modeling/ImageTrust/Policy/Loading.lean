/-
# Loading a policy

A policy file is UTF-8.  Its name tells the format: YAML behind two suffixes, JSON behind
everything else.  A file that cannot be read and a document that is none, or no policy,
is told as one kind of fault; what only the conversion of a value can fail with is passed
on as it is.
-/
import ImageTrust.Host
import ImageTrust.Json.Reader
import ImageTrust.Policy.Basic
import ImageTrust.Yaml.Reader

namespace ImageTrust

namespace Policy

variable {σ : Type}

/-- Whether a file of this name is YAML. -/
def isYamlPath (path : Path) : Bool := path.suffix == ".yaml" || path.suffix == ".yml"

/-- The document in a file of this name. -/
def document (room : Room) (path : Path) (t : Text) : Except Fault Datum :=
  if isYamlPath path then (Yaml.read room t).mapError .yaml
  else ((Json.ofText room t).map Datum.ofJson).mapError .json

/-- The policy in a file of this name. -/
def ofDocument (room : Room) (path : Path) (t : Text) : Except Fault Policy := do
  (check (← document room path t)).mapError .invalid

/-- Whether a fault is about the document, and so about the policy file. -/
def isAboutDocument (f : Fault) : Bool :=
  f.kind = .jsonDecode || f.kind = .yaml || f.kind = .validation

/-- The policy in a file. -/
def load (room : Room) (path : Path) : Act σ Policy := do
  let bytes ← match (← Act.host).disk.read path with
    | .ok bytes => pure bytes
    | .error (.system reason p) => Act.fail (.policyUnreadable path (.system reason p))
    | .error why => Act.fail (.disk why)
  let t ← match Text.ofUtf8? false bytes with
    | some t => pure t.withPlainLines
    | none => Act.fail .undecodable
  match ofDocument room path t with
  | .error f => Act.fail (if isAboutDocument f then .policyInvalid path f else f)
  | .ok p =>
    Act.log .info .policy
      ["Loaded policy ", path.shown, " with ", Text.decimal p.specific.length, " specific scopes"]
    return p

end Policy

end ImageTrust
