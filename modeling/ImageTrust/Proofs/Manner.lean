/-
# Manners — what is true of a decision because it is true of its parts

A decision is put together from a few kinds of steps: it looks at files, reports, goes on
with what an action came to, and takes a fault for a result.  A manner is a property of
actions that these steps have and preserve.  Then a decision has it as soon as the questions
do that it leaves to others: those to the image, to the verifier, and to the check of base
layers.

  keeping g    not to lead out of a ground

The other manners are where they are used.  Nothing is said here of checking a context out:
that moves it, and whether a manner allows that is its own affair.
-/
import ImageTrust.Directory
import ImageTrust.Lookaside
import ImageTrust.Proofs.Judgement

namespace ImageTrust

variable {σ α β : Type}

/-- A property of actions that holds of the steps decisions are made of, and of what is made
of such steps. -/
structure Manner (σ : Type) where
  of : {α : Type} → Act σ α → Prop
  read : ∀ {α : Type} (f : Disk → Except Fault α), of fun h => (f h.disk, h)
  log : ∀ (level : Level) (channel : Channel) (parts : List Text),
    of (Act.log level channel parts : Act σ Unit)
  bind : ∀ {α β : Type} {x : Act σ α} {f : α → Act σ β}, of x → (∀ a, of (f a)) → of (x >>= f)
  outcome : ∀ {α : Type} {x : Act σ α}, of x → of (Act.outcome x)

/-- The manner of not leading out of a ground. -/
def Manner.keeping (g : Ground σ) : Manner σ where
  of := g.Keeps
  read _ _ hh := hh
  log := .log
  bind := .bind
  outcome := .outcome

/-- All that a decision asks an image is in this manner. -/
structure Image.In (m : Manner σ) (image : Image σ) : Prop where
  identity : m.of image.reference.identity
  namespaces : m.of image.reference.namespaces
  manifestDigest : m.of image.manifestDigest
  signatures : m.of image.signatures

/-- All that a requirement on this image asks its collaborators is in this manner. -/
structure Environment.In (m : Manner σ) (env : Environment σ) (image : Image σ) : Prop where
  verify : ∀ raw material, m.of (env.verifier.verify raw material)
  check : ∀ check, env.baseLayerCheck = some check → ∀ identity, m.of (check identity image)

namespace Manner

variable {m : Manner σ}

/-! ## Steps -/

theorem of.ofExcept (e : Except Fault α) : m.of (Act.ofExcept e : Act σ α) := m.read fun _ => e

theorem of.pure (a : α) : m.of (pure a : Act σ α) := of.ofExcept (.ok a)

theorem of.fail (f : Fault) : m.of (Act.fail f : Act σ α) := of.ofExcept (.error f)

theorem of.log (level : Level) (channel : Channel) (parts : List Text) :
    m.of (Act.log level channel parts : Act σ Unit) := m.log level channel parts

theorem of.bind {x : Act σ α} {f : α → Act σ β} (hx : m.of x) (hf : ∀ a, m.of (f a)) :
    m.of (x >>= f) := m.bind hx hf

theorem of.outcome {x : Act σ α} (hx : m.of x) : m.of (Act.outcome x) := m.outcome hx

theorem of.ite {p : Prop} [Decidable p] {x y : Act σ α} (hx : m.of x) (hy : m.of y) :
    m.of (if p then x else y) := by
  split
  · exact hx
  · exact hy

theorem of.readFile (path : Path) : m.of (Act.readFile path : Act σ Bytes) :=
  m.read fun disk => (disk.read path).mapError .disk

theorem of.exists? (path : Path) : m.of (Act.exists? path : Act σ Bool) :=
  m.read fun disk => (disk.exists? path).mapError .disk

/-! ## Judging -/

variable {image : Image σ} {env : Environment σ}

theorem of_judge_name (rule : MatchRule) (docker : Option Reference) (signed : Text) :
    m.of (rule.judge docker signed : Act σ Bool) := by
  unfold MatchRule.judge
  dsimp only
  split
  · exact .bind (.log _ _ _) fun _ => .pure _
  · exact .pure _

theorem of_keyMaterial (s : SignedBy) : m.of (s.keyMaterial : Act σ Bytes) := by
  have hread : (s.keyMaterial : Act σ Bytes) = fun h => (s.materialOn h.disk, h) :=
    funext s.keyMaterial_apply
  rw [hread]
  exact m.read s.materialOn

theorem of_verified (s : SignedBy) (raw : Bytes) (hi : image.In m)
    (hv : ∀ raw material, m.of (env.verifier.verify raw material)) :
    m.of (s.verified image raw env) := by
  have hasked : m.of (do env.verifier.verify raw (← s.keyMaterial)) :=
    .bind (of_keyMaterial s) fun material => hv raw material
  refine .bind hasked.outcome fun result => ?_
  cases result with
  | error f => exact .fail _
  | ok signature =>
      dsimp only [Act.pure_bind]
      refine .bind hi.manifestDigest.outcome fun result => ?_
      cases result with
      | error f => exact .fail _
      | ok digest =>
          dsimp only [Act.pure_bind]
          refine .ite (.fail _) (.bind (of_judge_name _ _ _) fun accepted => ?_)
          exact .ite (.pure _) (.fail _)

theorem of_judge_signedBy (s : SignedBy) (raw : Bytes) (hi : image.In m)
    (hv : ∀ raw material, m.of (env.verifier.verify raw material)) :
    m.of (s.judge image raw env) := by
  refine .bind (of_verified s raw hi hv).outcome fun result => ?_
  cases result with
  | ok signature => exact .pure _
  | error f => exact .ite (.bind (.log _ _ _) fun _ => .pure _) (.fail _)

theorem of_judge (r : Requirement) (raw : Bytes) (hi : image.In m)
    (hv : ∀ raw material, m.of (env.verifier.verify raw material)) :
    m.of (r.judge image raw env) := by
  cases r with
  | reject => exact .pure _
  | insecureAcceptAnything => exact .pure _
  | signedBy s => exact of_judge_signedBy s raw hi hv
  | signedBaseLayer identity => exact .pure _

/-! ## Running -/

theorem of_readSignatures (hraws : m.of image.signatures) : m.of image.readSignatures := by
  refine .bind hraws.outcome fun result => ?_
  cases result with
  | ok raws => exact .pure _
  | error f => exact .ite (.fail _) (.bind (.log _ _ _) fun _ => .fail _)

theorem of_refusals (s : SignedBy) (hi : image.In m)
    (hv : ∀ raw material, m.of (env.verifier.verify raw material)) (raws : List Bytes) :
    m.of (s.refusals image env raws) := by
  induction raws with
  | nil => exact .pure _
  | cons raw raws ih =>
      refine .bind (of_judge_signedBy s raw hi hv) fun verdict => ?_
      cases SignedBy.refusal? verdict with
      | none => exact .pure _
      | some f => exact .bind ih fun _ => .pure _

theorem of_run_signedBy (s : SignedBy) (hi : image.In m)
    (hv : ∀ raw material, m.of (env.verifier.verify raw material)) :
    m.of (s.run image env) := by
  refine .bind (of_readSignatures hi.signatures).outcome fun result => ?_
  cases result with
  | error f => exact .ite (.pure _) (.fail _)
  | ok raws =>
      cases raws with
      | nil => exact .pure _
      | cons raw raws =>
          refine .bind (of_refusals s hi hv (raw :: raws)) fun reasons => ?_
          cases reasons with
          | none => exact .pure _
          | some fs => exact .pure _

theorem of_runBaseLayer (identity : MatchRule) (he : env.In m image) :
    m.of (Requirement.runBaseLayer identity image env) := by
  unfold Requirement.runBaseLayer
  cases hcheck : env.baseLayerCheck with
  | none => exact .pure _
  | some check =>
      refine .bind (he.check check hcheck identity).outcome fun result => ?_
      cases result with
      | ok d => exact .pure _
      | error f => exact .ite (.pure _) (.fail _)

theorem of_run (r : Requirement) (hi : image.In m) (he : env.In m image) :
    m.of (r.run image env) := by
  cases r with
  | reject => exact .pure _
  | insecureAcceptAnything => exact .pure _
  | signedBy s => exact of_run_signedBy s hi he.verify
  | signedBaseLayer identity => exact of_runBaseLayer identity he

/-! ## Deciding -/

theorem of_resolve (policy : Policy) (identity : Text) (namespaces : List Text) :
    m.of (policy.resolve identity namespaces : Act σ Policy.Section) := by
  unfold Policy.resolve
  refine .ite (.fail _) ?_
  cases policy.sectionFor identity namespaces with
  | default => exact .bind (.log _ _ _) fun _ => .pure _
  | specific scope =>
      exact .ite (.bind (.log _ _ _) fun _ => .pure _) (.bind (.log _ _ _) fun _ => .pure _)

variable {c : Context σ}

theorem of_requirementsOf {r : ImageReference σ} (hid : m.of r.identity)
    (hns : m.of r.namespaces) : m.of (c.requirementsOf r) := by
  refine .bind (.bind hid.outcome fun result => ?_) fun _ => .pure _
  cases result with
  | error f => exact .ite (.fail _) (.fail _)
  | ok identity => exact .ite (.fail _) (.bind hns fun _ => of_resolve _ _ _)

section Signatures

variable (hi : image.In m)
  (hv : ∀ raw material, m.of (c.environment.verifier.verify raw material))

include hi hv

theorem of_acceptedClaims (raw : Bytes) (rs : List Requirement) (found : Option Signature) :
    m.of (c.acceptedClaims image raw found rs) := by
  induction rs generalizing found with
  | nil => exact .pure _
  | cons r rest ih =>
      refine .bind (of_judge r raw hi hv) fun verdict => ?_
      cases verdict with
      | accepted s => exact ih _
      | rejected f => exact .bind (.log _ _ _) fun _ => .pure _
      | unknown => exact ih _
      | unnamed t => exact ih _

theorem of_acceptedAmong (rs : List Requirement) (raws : List Bytes) :
    m.of (c.acceptedAmong image rs raws) := by
  induction raws with
  | nil => exact .pure _
  | cons raw raws ih =>
      refine .bind (of_acceptedClaims hi hv raw rs none) fun found => ?_
      cases found with
      | none => exact ih
      | some s => exact .bind ih fun _ => .pure _

theorem of_acceptedSignatures : m.of (c.acceptedSignatures image) := by
  refine .bind (of_requirementsOf hi.identity hi.namespaces) fun rs => ?_
  refine .bind (of_readSignatures hi.signatures) fun raws => .ite (.pure _) ?_
  exact .bind (of_acceptedAmong hi hv rs raws) fun _ => .bind (.log _ _ _) fun _ => .pure _

end Signatures

theorem of_firstDenial (hi : image.In m) (he : c.environment.In m image) (rs : List Requirement) :
    m.of (c.firstDenial image rs) := by
  induction rs with
  | nil => exact .pure _
  | cons r rest ih =>
      refine .bind (of_run r hi he) fun decision => ?_
      cases decision with
      | allow => exact ih
      | deny f => exact .pure _

theorem of_runningDecision (hi : image.In m) (he : c.environment.In m image) :
    m.of (c.runningDecision image) :=
  .bind (of_requirementsOf hi.identity hi.namespaces) fun rs =>
    .ite (.pure _) (of_firstDenial hi he rs)

/-- What a decision to run comes to is only reported besides. -/
theorem of_isRunningAllowed (hdecided : m.of (c.checkedOut (c.runningDecision image))) :
    m.of (c.isRunningAllowed image) := by
  refine .bind hdecided.outcome fun result => ?_
  cases result with
  | ok d => cases d <;> exact .bind (.log _ _ _) fun _ => .pure _
  | error f => exact .ite (.bind (.log _ _ _) fun _ => .pure _) (.fail _)

/-! ## Images in a directory -/

theorem of_signaturesFrom (root : Path) (fuel index : Nat) :
    m.of (Directory.signaturesFrom root index fuel : Act σ (List Bytes)) := by
  induction fuel generalizing index with
  | zero => exact .pure _
  | succ fuel ih =>
      refine .bind (.exists? _) fun found => .ite ?_ (.pure _)
      exact .bind (.readFile _) fun raw => .bind (ih _) fun more => .pure _

theorem of_signatures (root : Path) : m.of (Directory.signatures root : Act σ (List Bytes)) := by
  have henough : m.of (Directory.enough : Act σ Nat) :=
    m.read fun disk => .ok (disk.entries.length + 1)
  refine .bind henough fun fuel => .bind (of_signaturesFrom root fuel 0) fun raws => ?_
  exact .bind (.log _ _ _) fun _ => .pure _

theorem of_manifestDigest (root : Path) : m.of (Directory.manifestDigest root : Act σ Text) :=
  .bind (.readFile _) fun _ => .pure _

/-! ## Images of a lookaside store -/

theorem of_report (total number : Nat) (f : Fault) (d : Number) :
    m.of (Backoff.report total number f d : Act σ Unit) := by
  unfold Backoff.report
  cases d.toBinary64? with
  | none => exact .pure _
  | some seconds => exact .log _ _ _

theorem of_attempt (b : Backoff) (total : Nat) {sleep : Number → Act σ Unit}
    (passes : FaultKind → Bool) {call : Act σ α} (hsleep : ∀ d, m.of (sleep d)) (hcall : m.of call)
    (more number : Nat) : m.of (b.attempt total sleep passes call number more) := by
  induction more generalizing number with
  | zero =>
      refine .bind hcall.outcome fun result => ?_
      cases result with
      | ok a => exact .pure _
      | error f => exact .ite (.bind (.log _ _ _) fun _ => .fail _) (.fail _)
  | succ more ih =>
      refine .bind hcall.outcome fun result => ?_
      cases result with
      | ok a => exact .pure _
      | error f =>
          refine .ite (.bind (.ofExcept _) fun d => ?_) (.fail _)
          exact .bind (of_report _ _ _ _) fun _ => .bind (hsleep d) fun _ => ih _

theorem of_backoff (b : Backoff) {sleep : Number → Act σ Unit} (passes : FaultKind → Bool)
    {call : Act σ α} (hsleep : ∀ d, m.of (sleep d)) (hcall : m.of call) :
    m.of (b.run sleep passes call) :=
  .bind (.ofExcept _) fun _ => of_attempt b _ passes hsleep hcall _ _

section Stores

variable {store : Lookaside σ} (hget : ∀ url, m.of (store.get url))
  (hsleep : ∀ d, m.of (store.sleep d))

include hget hsleep

theorem of_fetch (url : Text) : m.of (store.fetch url) := by
  refine .bind (of_backoff store.backoff _ hsleep (hget url)).outcome fun result => ?_
  cases result with
  | ok r =>
      refine .ite (.pure _) (.ite (.pure _) ?_)
      exact .bind (.log _ _ _) fun _ => .fail _
  | error f => exact .ite (.bind (.log _ _ _) fun _ => .fail _) (.fail _)

theorem of_storeSignaturesFrom (r : Reference) (digest : Text) (fuel index : Nat) :
    m.of (store.signaturesFrom r digest index fuel) := by
  induction fuel generalizing index with
  | zero => exact .fail _
  | succ fuel ih =>
      refine .bind (.ofExcept _) fun url => .bind (of_fetch hget hsleep url) fun found => ?_
      cases found with
      | none => exact .pure _
      | some raw => exact .ite (.fail _) (.bind (ih _) fun more => .pure _)

theorem of_storeSignatures (r : Reference) (digest : Text) :
    m.of (store.signatures r digest) :=
  .bind (of_storeSignaturesFrom hget hsleep r digest _ 0) fun _ =>
    .bind (.log _ _ _) fun _ => .pure _

end Stores

end Manner

/-! ## Both kinds of images -/

/-- An image in a directory or of a lookaside store, asked for by an address; what the store
asks the network is in this manner. -/
inductive Image.Addressed (m : Manner σ) : Image σ → Prop
  | directory (root : Path) (a : Address) : Addressed m (Directory.image root a.toImageReference)
  | lookaside (store : Lookaside σ) (a : Address) (digest : Text)
      (get : ∀ url, m.of (store.get url)) (sleep : ∀ d, m.of (store.sleep d)) :
      Addressed m (store.image a.toImageReference digest)

theorem Image.In.directory {m : Manner σ} (root : Path) {r : ImageReference σ}
    (hid : m.of r.identity) (hns : m.of r.namespaces) : (Directory.image root r).In m where
  identity := hid
  namespaces := hns
  manifestDigest := Manner.of_manifestDigest root
  signatures := Manner.of_signatures root

theorem Image.In.lookaside {m : Manner σ} {store : Lookaside σ} {r : ImageReference σ}
    (digest : Text) (hid : m.of r.identity) (hns : m.of r.namespaces)
    (hget : ∀ url, m.of (store.get url)) (hsleep : ∀ d, m.of (store.sleep d)) :
    (store.image r digest).In m where
  identity := hid
  namespaces := hns
  manifestDigest := .pure _
  signatures := by
    unfold Lookaside.image
    dsimp only
    cases r.docker with
    | none => exact .fail _
    | some d => exact Manner.of_storeSignatures hget hsleep d digest

theorem Image.Addressed.within {m : Manner σ} {image : Image σ} (hi : image.Addressed m) :
    image.In m := by
  cases hi with
  | directory root a => exact .directory root (.ofExcept _) (.pure _)
  | lookaside store a digest hget hsleep =>
      exact .lookaside digest (.ofExcept _) (.pure _) hget hsleep

end ImageTrust
