/-
# Contexts

A context applies a policy to images.  It serves one decision at a time: a decision checks
the context out, and a second one that begins meanwhile fails at once instead of waiting.
When a decision ends the context is checked in again; if somebody has moved it in the
meantime, that fault takes the place of whatever the decision came to.  A context that is
destroyed stays so.
-/
import ImageTrust.Evaluation

namespace ImageTrust

/-- A policy and what it is applied with. The number tells contexts apart. -/
structure Context (σ : Type) where
  number : Nat
  policy : Policy
  environment : Environment σ

namespace Context

variable {σ α : Type}

/-! ## The life of a context -/

/-- The stage that the context is in. -/
def stage (c : Context σ) : Act σ Stage := Act.stage c.number

/-- Moves the context from one stage to another; from any other stage it does not move. -/
def changeStage (c : Context σ) (expected new : Stage) : Act σ Unit := do
  let actual ← c.stage
  if actual = expected then Act.setStage c.number new
  else Act.fail (.contextState expected.name actual.name new.name)

/-- An action while the context is checked out. -/
def checkedOut (c : Context σ) (body : Act σ α) : Act σ α := do
  c.changeStage .ready .inUse
  let result ← Act.outcome body
  c.changeStage .inUse .ready
  Act.ofExcept result

/-- Ends the life of the context and closes its verifier. -/
def destroy (c : Context σ) : Act σ Unit := do
  c.changeStage .ready .destroyed
  c.environment.verifier.close

/-- An action after which the context is destroyed, whether the action fails or not. -/
def disposing (c : Context σ) (body : Act σ α) : Act σ α := do
  let result ← Act.outcome body
  c.destroy
  Act.ofExcept result

end Context

/-! ## Scopes -/

namespace Policy

variable {σ : Type}

/-- The section for an image with this identity, reported. Without an identity there is none. -/
def resolve (p : Policy) (identity : Text) (namespaces : List Text) : Act σ Section := do
  if identity = [] then Act.fail .noIdentity
  else
    let found := p.sectionFor identity namespaces
    match found with
    | .default => Act.log .debug .policy ["Using default policy section for ", identity]
    | .specific scope =>
      if scope = identity then Act.log .debug .policy ["Using specific policy section ", identity]
      else Act.log .debug .policy ["Using specific policy section ", scope, " for ", identity]
    return found

end Policy

namespace Context

variable {σ : Type}

/-- The section of the policy that an image falls under. -/
def sectionOf (c : Context σ) (r : ImageReference σ) : Act σ Policy.Section := do
  let identity ← match ← Act.outcome r.identity with
    | .ok identity => pure identity
    | .error f =>
      if f.isA .value then Act.fail (.unidentifiable r.shown f) else Act.fail f
  if identity = [] then Act.fail (.unreferenced r.shown)
  else c.policy.resolve identity (← r.namespaces)

/-- The requirements that an image falls under. -/
def requirementsOf (c : Context σ) (r : ImageReference σ) : Act σ (List Requirement) := do
  return c.policy.requirements (← c.sectionOf r)

/-! ## Signatures with an accepted author -/

/-- The claims of a signature that some requirement accepts and none rejects: those of the
first that accepts. `found` is what was accepted so far. -/
def acceptedClaims (c : Context σ) (image : Image σ) (raw : Bytes) (found : Option Signature) :
    List Requirement → Act σ (Option Signature)
  | [] => pure found
  | r :: rest => do
    match ← r.judge image raw c.environment with
    | .rejected f =>
      Act.log .debug .context
        ["Signature of ", image.reference.shown, " rejected by ", r.typeName, ": ", f.message]
      return none
    | .accepted s => c.acceptedClaims image raw (some (found.getD s)) rest
    | _ => c.acceptedClaims image raw found rest

/-- The claims of the signatures that are accepted, in order. -/
def acceptedAmong (c : Context σ) (image : Image σ) (requirements : List Requirement) :
    List Bytes → Act σ (List Signature)
  | [] => pure []
  | raw :: rest => do
    match ← c.acceptedClaims image raw none requirements with
    | none => c.acceptedAmong image requirements rest
    | some s => return s :: (← c.acceptedAmong image requirements rest)

/-- The signatures of an image with an accepted author, under no lock. -/
def acceptedSignatures (c : Context σ) (image : Image σ) : Act σ (List Signature) := do
  let requirements ← c.requirementsOf image.reference
  let raws ← image.readSignatures
  if requirements = [] then return []
  else
    let accepted ← c.acceptedAmong image requirements raws
    Act.log .debug .context
      [image.reference.shown, ": ", Text.decimal accepted.length, " of ", Text.decimal raws.length,
        " signatures have an accepted author"]
    return accepted

/-- The claims of the signatures of an image whose author the policy accepts. -/
def signaturesWithAcceptedAuthor (c : Context σ) (image : Image σ) : Act σ (List Signature) :=
  c.checkedOut (c.acceptedSignatures image)

/-! ## Permission to run -/

/-- The first denial among requirements, or none. -/
def firstDenial (c : Context σ) (image : Image σ) : List Requirement → Act σ Decision
  | [] => pure .allow
  | r :: rest => do
    match ← r.run image c.environment with
    | .allow => c.firstDenial image rest
    | .deny f => return .deny f

/-- The decision on an image, under no lock: every requirement has to allow it, and there has
to be one. -/
def runningDecision (c : Context σ) (image : Image σ) : Act σ Decision := do
  let requirements ← c.requirementsOf image.reference
  if requirements = [] then return .deny .noRequirements
  else c.firstDenial image requirements

/-- Whether an image may run. Every fault of the policy's own kind is a denial. -/
def isRunningAllowed (c : Context σ) (image : Image σ) : Act σ Decision := do
  let denied (f : Fault) : Act σ Decision := do
    Act.log .info .context
      ["Running image ", image.reference.shown, " denied: ", f.message]
    return .deny f
  match ← Act.outcome (c.checkedOut (c.runningDecision image)) with
  | .ok .allow =>
    Act.log .debug .context ["Running image ", image.reference.shown, " allowed"]
    return .allow
  | .ok (.deny f) => denied f
  | .error f => if f.isA .imagePolicy then denied f else Act.fail f

end Context

end ImageTrust
