/-
# Lookaside stores

A web server beside the registry keeps the signatures of a manifest under numbered
addresses.  They are asked for one after the other until one is not found.  Every other
answer than that and a success makes the whole listing fail: signatures are never listed
in part.
-/
import ImageTrust.Backoff
import ImageTrust.Image

namespace ImageTrust

/-- What a server answers. -/
structure Response where
  status : Int
  body : Bytes

/-- A store and the means to reach it. -/
structure Lookaside (σ : Type) where
  baseUrl : Text
  get : Text → Act σ Response
  sleep : Number → Act σ Unit
  backoff : Backoff
  /-- The most signatures of a manifest; below zero there is no such limit. -/
  maxSignatures : Int
  /-- More signatures than the server has, where there is no limit. -/
  reach : Nat

namespace Lookaside

variable {σ : Type}

/-- The most signatures of a manifest, unless another number is given. -/
def standardMaxSignatures : Int := 128

/-- A store's address without slashes at its end. -/
def trimmedUrl (url : Text) : Text := Text.dropTrailing '/' url

/-- Algorithm and digits of a manifest's digest; neither can be empty. -/
def digestParts (digest : Text) : Except Fault (Text × Text) :=
  match digest.cutFirst? ':' with
  | some (algorithm, hex) =>
    if algorithm = [] ∨ hex = [] then .error (.invalidDigest digest) else .ok (algorithm, hex)
  | none => .error (.invalidDigest digest)

/-- The address of a signature, counted from zero. -/
def signatureUrl (baseUrl : Text) (r : Reference) (digest : Text) (index : Int) : Except Fault Text := do
  let (algorithm, hex) ← digestParts digest
  return Text.sentence
    [baseUrl, "/", r.path, "@", algorithm, "=", hex, "/signature-", Text.integer (index + 1)]

/-- The manifest as messages name it. -/
def manifestName (r : Reference) (digest : Text) : Text := Text.sentence [r.name, "@", digest]

/-- The signature under an address, or nothing if it is not found. -/
def fetch (store : Lookaside σ) (url : Text) : Act σ (Option Bytes) := do
  let passes : FaultKind → Bool := fun k => k.isA .transport
  match ← Act.outcome (store.backoff.run store.sleep passes (store.get url)) with
  | .ok r =>
    if r.status = 404 then return none
    else if 200 ≤ r.status ∧ r.status < 300 then return some r.body
    else
      Act.log .error .lookaside
        ["Lookaside store returned ", Text.integer r.status, " for ", url]
      Act.fail (.badStatus url r.status)
  | .error f =>
    if f.isA .transport then
      Act.log .warning .lookaside
        ["Lookaside store not reachable at ", url, ": ", f.message]
      Act.fail (.unreachable url f)
    else Act.fail f

/-- The signatures from this number on; `fuel` is one more than the number still allowed. -/
def signaturesFrom (store : Lookaside σ) (r : Reference) (digest : Text) (index : Nat) :
    Nat → Act σ (List Bytes)
  | 0 => Act.fail (.tooManySignatures store.maxSignatures (manifestName r digest))
  | fuel + 1 => do
    let url ← Act.ofExcept (signatureUrl store.baseUrl r digest index)
    match ← store.fetch url with
    | none => return []
    | some raw =>
      if Int.ofNat index = store.maxSignatures then
        Act.fail (.tooManySignatures store.maxSignatures (manifestName r digest))
      else
        let more ← signaturesFrom store r digest (index + 1) fuel
        return raw :: more

/-- All signatures of a manifest in the repository of a reference. -/
def signatures (store : Lookaside σ) (r : Reference) (digest : Text) : Act σ (List Bytes) := do
  let fuel := if store.maxSignatures < 0 then store.reach else store.maxSignatures.toNat + 1
  let raws ← store.signaturesFrom r digest 0 fuel
  Act.log .debug .lookaside
    ["Read ", Text.decimal raws.length, " signatures for ", manifestName r digest]
  return raws

/-- The image with this digest whose signatures are in the store. -/
def image (store : Lookaside σ) (reference : ImageReference σ) (digest : Text) : Image σ where
  reference := reference
  manifestDigest := pure digest
  signatures :=
    match reference.docker with
    | none => Act.fail (.noReference reference.shown)
    | some r => store.signatures r digest

end Lookaside

end ImageTrust
