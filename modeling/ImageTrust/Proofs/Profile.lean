/-
# Profiles — what a decision depends on

A profile is what an image answers when a decision asks: how it was addressed, the digest of
its manifest, its stored signatures.  On a ground on which the image answers by its profile,
and a check of base layers comes to the same each time, both operations of a context are
functions of the policy and the profile (`Policy.trustedOf`, `Policy.permissionOf`).

So two decisions that differ in one respect are compared as values.  What a host keeps, the
cache of keys above all, has no place in the comparison.
-/
import ImageTrust.Proofs.Permission
import ImageTrust.Proofs.Scope

namespace ImageTrust

variable {σ : Type}

/-- What an image answers. The signatures are as a decision reads them, so a failure among
them is one to fetch them. -/
structure Profile where
  facts : Facts
  identity : Except Fault Text
  namespaces : Except Fault (List Text)
  signatures : Except Fault (List Bytes)

/-- On the ground the image answers by this profile. -/
structure Image.Fits (g : Ground σ) (image : Image σ) (p : Profile) : Prop
    extends image.Shows g p.facts where
  identity : g.Answers image.reference.identity p.identity
  namespaces : g.Answers image.reference.namespaces p.namespaces
  signatures : g.Answers image.readSignatures p.signatures

/-- On the ground the check of base layers comes to these decisions on the image, if there is
a check. -/
def Environment.ChecksBy (g : Ground σ) (env : Environment σ) (image : Image σ)
    (check : MatchRule → Decision) : Prop :=
  ∀ hook, env.baseLayerCheck = some hook → ∀ rule, g.Answers (hook rule image) (.ok (check rule))

/-- What a requirement of a base layer comes to, if the check comes to these decisions. -/
def Environment.layerDecision (env : Environment σ) (check : MatchRule → Decision) :
    MatchRule → Decision :=
  if env.baseLayerCheck.isSome then check else fun _ => .deny .noBaseLayerCheck

/-- The profile of an image that is asked for by an address. -/
def Address.profile (a : Address) (room : Room) (disk : Disk) (digest : Except Fault Text)
    (signatures : Except Fault (List Bytes)) : Profile where
  facts := ⟨disk, a.reference, a.shown, digest, room⟩
  identity := a.identity.mapError .ambiguous
  namespaces := .ok a.namespaces
  signatures := signatures

theorem Image.fits_of_address {g : Ground σ} {image : Image σ} {a : Address} {room : Room}
    {disk : Disk} {digest : Except Fault Text} {signatures : Except Fault (List Bytes)}
    (ha : image.reference = a.toImageReference) (hdisk : ∀ h, g.holds h → h.disk = disk)
    (hdigest : g.Answers image.manifestDigest digest)
    (hsignatures : g.Answers image.readSignatures signatures) :
    image.Fits g (a.profile room disk digest signatures) where
  disk := hdisk
  docker := by rw [ha]; rfl
  shown := by rw [ha]; rfl
  digest := hdigest
  identity := by rw [ha]; exact .ofExcept _
  namespaces := by rw [ha]; exact .pure _
  signatures := hsignatures

/-- On this host the context is ready, and checking it out leads onto the ground, on all of
which it is in use. -/
structure Context.BeginsOn (c : Context σ) (g : Ground σ) (h : Host σ) : Prop where
  ready : h.stages c.number = .ready
  within : g.holds (h.moved c.number .inUse)
  inUse : c.InUseOn g

/-- A decision that finds its context ready begins on the ground of its files. -/
theorem Context.beginsOn_still {c : Context σ} {h : Host σ} (hready : h.stages c.number = .ready) :
    c.BeginsOn (Ground.still c.number h.disk .inUse) h where
  ready := hready
  within := ⟨rfl, Host.moved_stage h c.number .inUse⟩
  inUse _ hh := hh.2

/-! ## The governing requirements -/

namespace Policy

/-- The requirements that an image with this profile falls under. -/
def listFor (policy : Policy) (p : Profile) : Except Fault (List Requirement) :=
  match p.identity with
  | .error f => .error (if f.isA .value then .unidentifiable p.facts.shown f else f)
  | .ok identity =>
    if identity = [] then .error (.unreferenced p.facts.shown)
    else p.namespaces.map (policy.governing identity)

theorem answers_resolve (g : Ground σ) (policy : Policy) {identity : Text} (hid : identity ≠ [])
    (namespaces : List Text) :
    g.Answers (policy.resolve identity namespaces)
      (.ok (policy.sectionFor identity namespaces)) := by
  intro h hh
  obtain ⟨report, hres⟩ := policy.resolve_apply hid namespaces h
  rw [hres]
  exact ⟨rfl, g.report _ hh⟩

end Policy

namespace Context

variable {c : Context σ} {g : Ground σ} {image : Image σ} {p : Profile}

theorem answers_sectionOf_of_identity (hi : image.Fits g p) {identity : Text}
    (hid : p.identity = .ok identity) (hne : identity ≠ []) :
    g.Answers (c.sectionOf image.reference)
      (p.namespaces.map (c.policy.sectionFor identity)) := by
  have hasked : g.Answers image.reference.identity (.ok identity) := hid ▸ hi.identity
  refine hasked.outcome.bind ?_
  simp only [Act.pure_bind, if_neg hne]
  have hlater := hi.namespaces.bind_except fun namespaces =>
    Policy.answers_resolve g c.policy hne namespaces
  cases hns : p.namespaces with
  | ok namespaces =>
      rw [hns] at hlater
      exact hlater
  | error f =>
      rw [hns] at hlater
      exact hlater

theorem answers_requirementsOf (hi : image.Fits g p) :
    g.Answers (c.requirementsOf image.reference) (c.policy.listFor p) := by
  have hshown : image.reference.shown = p.facts.shown := hi.shown
  unfold Policy.listFor
  cases hid : p.identity with
  | error f =>
      have hasked : g.Answers image.reference.identity (.error f) := hid ▸ hi.identity
      have hsection : g.Answers (c.sectionOf image.reference)
          (.error (if f.isA .value then .unidentifiable p.facts.shown f else f)) := by
        refine hasked.outcome.bind ?_
        rw [hshown]
        dsimp only
        by_cases hf : f.isA .value
        · simp only [if_pos hf]
          exact Ground.Answers.bind_error (.fail _)
        · simp only [if_neg hf]
          exact Ground.Answers.bind_error (.fail _)
      exact hsection.bind_error
  | ok identity =>
      by_cases hne : identity = []
      · have hasked : g.Answers image.reference.identity (.ok identity) := hid ▸ hi.identity
        have hsection : g.Answers (c.sectionOf image.reference)
            (.error (.unreferenced p.facts.shown)) := by
          refine hasked.outcome.bind ?_
          rw [hshown]
          simp only [Act.pure_bind, if_pos hne]
          exact .fail _
        simp only [if_pos hne]
        exact hsection.bind_error
      · have hsection := answers_sectionOf_of_identity (c := c) hi hid hne
        simp only [if_neg hne]
        cases hns : p.namespaces with
        | error f =>
            rw [hns] at hsection
            exact hsection.bind_error
        | ok namespaces =>
            rw [hns] at hsection
            exact hsection.bind (.pure _)

end Context

/-! ## Both operations -/

namespace Policy

/-- The signatures of an image with this profile that the policy trusts. -/
def trustedOf (policy : Policy) (p : Profile) : Except Fault (List Signature) := do
  let rs ← policy.listFor p
  let raws ← p.signatures
  return Context.trustedAmong p.facts rs raws

/-- Whether an image with this profile may run by the policy; `check` answers for base layers. -/
def permissionOf (policy : Policy) (check : MatchRule → Decision) (p : Profile) :
    Except Fault Decision :=
  match policy.listFor p with
  | .error f => if f.isA .imagePolicy then .ok (.deny f) else .error f
  | .ok rs => .ok (Context.permission p.facts check p.signatures rs)

end Policy

theorem Environment.answers_runBaseLayer_of_checksBy {g : Ground σ} {env : Environment σ}
    {image : Image σ} {check : MatchRule → Decision} (hcheck : env.ChecksBy g image check)
    (rule : MatchRule) :
    g.Answers (Requirement.runBaseLayer rule image env) (.ok (env.layerDecision check rule)) := by
  unfold Environment.layerDecision
  cases hhook : env.baseLayerCheck with
  | none =>
      unfold Requirement.runBaseLayer
      rw [hhook]
      exact .pure _
  | some hook => exact Requirement.answers_runBaseLayer hhook (hcheck hook hhook rule)

namespace Context

variable {c : Context σ} {g : Ground σ} {image : Image σ} {p : Profile} {v : Nat} {h : Host σ}

/-- A decision that fails fails as such, unless the fault is of the policy's own kind: then it
is a denial. -/
theorem isRunningAllowed_of_error (c : Context σ) (image : Image σ) {f : Fault}
    (hf : (c.checkedOut (c.runningDecision image) h).1 = .error f) :
    (c.isRunningAllowed image h).1 =
      if f.isA .imagePolicy then .ok (.deny f) else .error f := by
  by_cases hkind : f.isA .imagePolicy
  · rw [if_pos hkind, isRunningAllowed_denies (Prod.ext hf rfl) hkind]
  · rw [if_neg hkind, isRunningAllowed_raises (Prod.ext hf rfl) hkind]

/-- On its ground the signatures with an accepted author are those that the policy trusts. -/
theorem signaturesWithAcceptedAuthor_of_fits (hi : image.Fits g p)
    (hv : c.environment.verifier = Verifier.ed25519 p.facts.room v) (hb : c.BeginsOn g h) :
    (c.signaturesWithAcceptedAuthor image h).1 = c.policy.trustedOf p := by
  refine c.checkedOut_answers hb.inUse ?_ hb.ready hb.within
  have hrs := answers_requirementsOf (c := c) hi
  rw [acceptedSignatures_eq]
  unfold Policy.trustedOf
  refine hrs.bind_except fun rs => hi.signatures.bind_except fun raws => ?_
  exact answers_acceptedOf hi.toShows hv rs raws

/-- On its ground the permission to run is the policy's. -/
theorem isRunningAllowed_of_fits (hi : image.Fits g p)
    (hv : c.environment.verifier = Verifier.ed25519 p.facts.room v)
    {check : MatchRule → Decision} (hcheck : c.environment.ChecksBy g image check)
    (hb : c.BeginsOn g h) :
    (c.isRunningAllowed image h).1 =
      c.policy.permissionOf (c.environment.layerDecision check) p := by
  have hrs := answers_requirementsOf (c := c) hi
  unfold Policy.permissionOf
  cases hlist : c.policy.listFor p with
  | error f =>
      rw [hlist] at hrs
      have hbody : g.Answers (c.runningDecision image) (.error f) := hrs.bind_error
      exact c.isRunningAllowed_of_error image
        (c.checkedOut_answers hb.inUse hbody hb.ready hb.within)
  | ok rs =>
      rw [hlist] at hrs
      have hbody : g.Answers (c.runningDecision image)
          (.ok (permission p.facts (c.environment.layerDecision check) p.signatures rs)) :=
        answers_runningDecision hi.toShows hv hrs hi.signatures fun rule _ =>
          Environment.answers_runBaseLayer_of_checksBy hcheck rule
      exact c.isRunningAllowed_of_ok image
        (c.checkedOut_answers hb.inUse hbody hb.ready hb.within)

end Context

end ImageTrust
