/-
# Evaluating requirements

Each requirement answers two questions: is the author of this signature to be trusted,
and may this image run.  A demand for signatures answers the second by the first, one
signature after the other; a demand for a signed base layer leaves it to a check that the
caller brings along.
-/
import ImageTrust.Image
import ImageTrust.Policy.Basic
import ImageTrust.Verdict
import ImageTrust.Verifier

namespace ImageTrust

/-- What a requirement may use. -/
structure Environment (σ : Type) where
  verifier : Verifier σ
  baseLayerCheck : Option (MatchRule → Image σ → Act σ Decision)

namespace MatchRule

variable {σ : Type}

/-- Whether the rule takes the signed text for an image; a text that is no reference is
reported. -/
def judge (rule : MatchRule) (image : Option Reference) (signed : Text) : Act σ Bool := do
  match image, Reference.parse signed with
  | some _, .error why =>
    Act.log .debug .matching ["Unparseable signed reference ", signed.quoted, ": ", why.message]
  | _, _ => pure ()
  return rule.accepts image signed

end MatchRule

namespace SignedBy

variable {σ : Type}

/-- The trusted key material. -/
def keyMaterial (s : SignedBy) : Act σ Bytes :=
  match s.keys with
  | .data t =>
    match t.toUtf8? with
    | some bytes => pure bytes
    | none => Act.fail (.unencodable t)
  | .path p => do
    match (← Act.host).disk.read (Path.ofText p) with
    | .ok bytes => return bytes
    | .error (.system reason path) => Act.fail (.keysUnreadable p (.system reason path))
    | .error why => Act.fail (.disk why)

/-- The claims of a signature, if it is by a trusted key, for this image's manifest, and for
an acceptable name. -/
def verified (s : SignedBy) (image : Image σ) (raw : Bytes) (env : Environment σ) :
    Act σ Signature := do
  let signature ← match ← Act.outcome (do env.verifier.verify raw (← s.keyMaterial)) with
    | .ok signature => pure signature
    | .error f => Act.fail (.unverified f)
  let digest ← match ← Act.outcome image.manifestDigest with
    | .ok digest => pure digest
    | .error f => Act.fail (.noManifestDigest image.reference.shown f)
  if signature.manifestDigest ≠ digest then
    Act.fail (.otherDigest signature.manifestDigest)
  else if ← s.identity.judge image.reference.docker signature.reference then
    return signature
  else
    Act.fail (.otherIdentity signature.reference)

/-- The verdict on one signature. -/
def judge (s : SignedBy) (image : Image σ) (raw : Bytes) (env : Environment σ) : Act σ Verdict := do
  match ← Act.outcome (s.verified image raw env) with
  | .ok signature => return .accepted signature
  | .error f =>
    if f.isA .policyRequirement then
      Act.log .debug .requirements
        ["signedBy rejected a signature of ", image.reference.shown, ": ", f.message]
      return .rejected f
    else Act.fail f

/-- Whether a verdict lets an image run, and the reason if not. -/
def refusal? : Verdict → Option Fault
  | .accepted _ => none
  | .rejected f => some f
  | _ => some .noneAccepted

/-- Judges signatures until one is accepted; without one, the reasons against all. -/
def refusals (s : SignedBy) (image : Image σ) (env : Environment σ) :
    List Bytes → Act σ (Option (List Fault))
  | [] => pure (some [])
  | raw :: rest => do
    match refusal? (← s.judge image raw env) with
    | none => return none
    | some f => return (← refusals s image env rest).map (f :: ·)

/-- The denial for signatures that were all refused. -/
def denial : List Fault → Fault
  | [f] => f
  | fs => .allRejected (fs.map Fault.message)

/-- Whether the image may run: one accepted signature is enough. -/
def run (s : SignedBy) (image : Image σ) (env : Environment σ) : Act σ Decision := do
  match ← Act.outcome image.readSignatures with
  | .error f => if f.isA .signatureFetch then return .deny f else Act.fail f
  | .ok [] => return .deny .unsigned
  | .ok raws =>
    match ← s.refusals image env raws with
    | none => return .allow
    | some fs => return .deny (denial fs)

end SignedBy

namespace Requirement

variable {σ : Type}

/-- The verdict on one signature of an image. -/
def judge (r : Requirement) (image : Image σ) (raw : Bytes) (env : Environment σ) : Act σ Verdict :=
  match r with
  | .reject => pure (.rejected (.signaturesRejected image.reference.shown))
  | .insecureAcceptAnything => pure .unknown
  | .signedBy s => s.judge image raw env
  | .signedBaseLayer _ => pure .unknown

/-- Whether an image may run by a check of its base layer. A denial may also come as a fault
of the policy's own kind. -/
def runBaseLayer (identity : MatchRule) (image : Image σ) (env : Environment σ) : Act σ Decision :=
  match env.baseLayerCheck with
  | none => pure (.deny .noBaseLayerCheck)
  | some check => do
    match ← Act.outcome (check identity image) with
    | .ok decision => return decision
    | .error f => if f.isA .imagePolicy then return .deny f else Act.fail f

/-- Whether an image may run. -/
def run (r : Requirement) (image : Image σ) (env : Environment σ) : Act σ Decision :=
  match r with
  | .reject => pure (.deny (.imageRejected image.reference.shown))
  | .insecureAcceptAnything => pure .allow
  | .signedBy s => s.run image env
  | .signedBaseLayer identity => runBaseLayer identity image env

end Requirement

end ImageTrust
