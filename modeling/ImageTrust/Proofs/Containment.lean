/-
# Containment — what comes out of a decision when something fails

Files may be missing, sealed or directories, keys and stored signatures any bytes, a server
may answer anything or nothing, and a check of base layers is a program of its own.  This
is what can become of it:

  keys, stored signature, manifest      a rejection of the one signature
  reading the signatures                a failure to fetch them
  no identity for the policy            a failure of the configuration
  check of base layers                  a denial if the fault is the policy's own kind,
                                        and otherwise the fault itself

Nothing else comes out (`decisions_contained`), and whatever comes out, the context is ready
again.  The second half needs that nobody else moves the context while it is in use: the
collaborators may use contexts, this one included, by their operations (`Act.Orderly`).
-/
import ImageTrust.Proofs.Manner
import ImageTrust.Proofs.Trust

namespace ImageTrust

variable {σ α β : Type} {room : Room}

/-! ## Failing with certain faults only -/

/-- Whenever the action fails, it is with such a fault. -/
def Act.FailsOnly (x : Act σ α) (K : Fault → Prop) : Prop := ∀ h f, (x h).1 = .error f → K f

namespace Act.FailsOnly

variable {K K' : Fault → Prop} {x y : Act σ α}

theorem pure (a : α) : (pure a : Act σ α).FailsOnly K := by
  intro h f hf
  cases hf

theorem fail {f : Fault} (hK : K f) : (Act.fail f : Act σ α).FailsOnly K := by
  intro h e he
  cases he
  exact hK

theorem log (level : Level) (channel : Channel) (parts : List Text) :
    (Act.log level channel parts : Act σ Unit).FailsOnly K := by
  intro h f hf
  cases hf

theorem bind {f : α → Act σ β} (hx : x.FailsOnly K) (hf : ∀ a, (f a).FailsOnly K) :
    (x >>= f).FailsOnly K := by
  intro h e he
  rw [Act.bind_apply] at he
  cases hxh : x h with
  | mk result h' =>
      rw [hxh] at he
      cases result with
      | error e' =>
          cases he
          exact hx h e (by rw [hxh])
      | ok a => exact hf a h' e he

/-- An action that looks at an outcome fails as it does after a result and after the faults
that there may be. -/
theorem outcome_bind {k : Except Fault α → Act σ β} (hx : x.FailsOnly K')
    (hok : ∀ a, (k (.ok a)).FailsOnly K) (herror : ∀ f, K' f → (k (.error f)).FailsOnly K) :
    (Act.outcome x >>= k).FailsOnly K := by
  intro h e he
  rw [Act.outcome_bind_apply] at he
  cases hresult : (x h).1 with
  | ok a =>
      rw [hresult] at he
      exact hok a _ e he
  | error f =>
      rw [hresult] at he
      exact herror f (hx h f hresult) _ e he

theorem ite {p : Prop} [Decidable p] (hx : x.FailsOnly K) (hy : y.FailsOnly K) :
    (if p then x else y).FailsOnly K := by
  split
  · exact hx
  · exact hy

/-- Of an action of which nothing is known. -/
theorem any (x : Act σ α) : x.FailsOnly fun _ => True := fun _ _ _ => trivial

theorem mono (hx : x.FailsOnly K) (hK : ∀ f, K f → K' f) : x.FailsOnly K' :=
  fun h f hf => hK f (hx h f hf)

/-- A handler that passes on what is of no such kind passes on just that. -/
theorem unless_isA_eq_error_iff (hx : x.FailsOnly fun _ => False) {e f : Fault}
    {group : FaultKind} {h : Host σ} :
    ((if e.isA group then x else Act.fail e) h).1 = .error f ↔ e = f ∧ ¬ f.isA group := by
  by_cases he : e.isA group
  · rw [if_pos he]
    constructor
    · intro hf
      exact (hx h f hf).elim
    · rintro ⟨rfl, hno⟩
      exact absurd he hno
  · rw [if_neg he]
    constructor
    · intro hf
      cases hf
      exact ⟨rfl, he⟩
    · rintro ⟨rfl, -⟩
      rfl

end Act.FailsOnly

theorem Fault.isA_of_kind {f : Fault} {k group : FaultKind} (hf : f.kind = k)
    (hk : k.isA group) : f.isA group := by
  rw [Fault.isA, hf]
  exact hk

/-! ## Judging never fails -/

namespace SignedBy

/-- The faults for which a demand refuses a signature. -/
inductive Rejection : Fault → Prop
  | unverified (cause : Fault) : Rejection (.unverified cause)
  | noManifestDigest (shown : Text) (cause : Fault) : Rejection (.noManifestDigest shown cause)
  | otherDigest (digest : Text) : Rejection (.otherDigest digest)
  | otherIdentity (reference : Text) : Rejection (.otherIdentity reference)

theorem Rejection.kind_eq {f : Fault} (hf : Rejection f) : f.kind = .policyRequirement := by
  cases hf <;> rfl

variable {K : Fault → Prop}

theorem failsOnly_judge_name (rule : MatchRule) (docker : Option Reference) (signed : Text) :
    (rule.judge docker signed : Act σ Bool).FailsOnly K := by
  unfold MatchRule.judge
  dsimp only
  split
  · exact .bind (.log _ _ _) fun _ => .pure _
  · exact .pure _

theorem failsOnly_verified (s : SignedBy) (image : Image σ) (raw : Bytes) (env : Environment σ) :
    (s.verified image raw env).FailsOnly Rejection := by
  refine .outcome_bind (.any _) (fun signature => ?_) fun f _ => .fail (.unverified f)
  dsimp only [Act.pure_bind]
  refine .outcome_bind (.any _) (fun digest => ?_) fun f _ => .fail (.noManifestDigest _ f)
  dsimp only [Act.pure_bind]
  refine .ite (.fail (.otherDigest _)) (.bind (failsOnly_judge_name _ _ _) fun accepted => ?_)
  exact .ite (.pure _) (.fail (.otherIdentity _))

theorem judge_never_fails (s : SignedBy) (image : Image σ) (raw : Bytes) (env : Environment σ) :
    (s.judge image raw env).FailsOnly K := by
  refine .outcome_bind (s.failsOnly_verified image raw env) (fun _ => .pure _) fun f hf => ?_
  dsimp only
  rw [if_pos (Fault.isA_of_kind hf.kind_eq rfl)]
  exact .bind (.log _ _ _) fun _ => .pure _

theorem refusals_never_fails (s : SignedBy) (image : Image σ) (env : Environment σ)
    (raws : List Bytes) : (s.refusals image env raws).FailsOnly K := by
  induction raws with
  | nil => exact .pure _
  | cons raw raws ih =>
      refine .bind (s.judge_never_fails image raw env) fun verdict => ?_
      cases refusal? verdict with
      | none => exact .pure _
      | some f => exact .bind ih fun _ => .pure _

theorem failsOnly_readSignatures (image : Image σ) :
    image.readSignatures.FailsOnly fun f => f.isA .signatureFetch :=
  fun _ _ hf => Image.isA_signatureFetch_of_readSignatures hf

theorem run_never_fails (s : SignedBy) (image : Image σ) (env : Environment σ) :
    (s.run image env).FailsOnly K := by
  refine .outcome_bind (failsOnly_readSignatures image) (fun raws => ?_) fun f hf => ?_
  · cases raws with
    | nil => exact .pure _
    | cons raw raws =>
        refine .bind (s.refusals_never_fails image env (raw :: raws)) fun reasons => ?_
        cases reasons with
        | none => exact .pure _
        | some fs => exact .pure _
  · dsimp only
    rw [if_pos hf]
    exact .pure _

end SignedBy

namespace Requirement

variable {K : Fault → Prop} {image : Image σ} {env : Environment σ} {h : Host σ} {f : Fault}

theorem judge_never_fails (r : Requirement) (image : Image σ) (raw : Bytes)
    (env : Environment σ) : (r.judge image raw env).FailsOnly K := by
  cases r with
  | reject => exact .pure _
  | insecureAcceptAnything => exact .pure _
  | signedBy s => exact s.judge_never_fails image raw env
  | signedBaseLayer identity => exact .pure _

theorem runBaseLayer_eq_error_iff {identity : MatchRule} :
    (runBaseLayer identity image env h).1 = .error f ↔
      ∃ check, env.baseLayerCheck = some check ∧ (check identity image h).1 = .error f ∧
        ¬ f.isA .imagePolicy := by
  unfold runBaseLayer
  cases env.baseLayerCheck with
  | none => simp
  | some check =>
      have hcheck : (∃ other, some check = some other ∧ (other identity image h).1 = .error f ∧
          ¬ f.isA .imagePolicy) ↔ (check identity image h).1 = .error f ∧ ¬ f.isA .imagePolicy := by
        simp
      rw [hcheck]
      dsimp only
      rw [Act.outcome_bind_apply]
      cases (check identity image h).1 with
      | ok d => simp
      | error e =>
          dsimp only
          rw [Act.FailsOnly.unless_isA_eq_error_iff (.pure _), Except.error.injEq]

/-- Of all requirements only one for a signed base layer fails. -/
theorem run_eq_error_iff {r : Requirement} :
    (r.run image env h).1 = .error f ↔
      ∃ identity check, r = .signedBaseLayer identity ∧ env.baseLayerCheck = some check ∧
        (check identity image h).1 = .error f ∧ ¬ f.isA .imagePolicy := by
  cases r with
  | reject => simp [run]
  | insecureAcceptAnything => simp [run]
  | signedBy s =>
      constructor
      · intro hf
        exact (s.run_never_fails (K := fun _ => False) image env h f hf).elim
      · rintro ⟨_, _, hr, -⟩
        cases hr
  | signedBaseLayer identity =>
      show (runBaseLayer identity image env h).1 = .error f ↔ _
      rw [runBaseLayer_eq_error_iff]
      constructor
      · rintro ⟨check, hcheck, hraised⟩
        exact ⟨identity, check, rfl, hcheck, hraised⟩
      · rintro ⟨_, check, hr, hcheck, hraised⟩
        cases hr
        exact ⟨check, hcheck, hraised⟩

end Requirement

/-! ## The bodies of decisions -/

namespace Context

variable {c : Context σ} {image : Image σ} {h : Host σ} {f : Fault}

theorem failsOnly_resolve (policy : Policy) (identity : Text) (namespaces : List Text) :
    (policy.resolve identity namespaces : Act σ Policy.Section).FailsOnly fun f =>
      f.kind = .policyConfiguration := by
  unfold Policy.resolve
  refine .ite (.fail rfl) ?_
  cases policy.sectionFor identity namespaces with
  | default => exact .bind (.log _ _ _) fun _ => .pure _
  | specific scope =>
      exact .ite (.bind (.log _ _ _) fun _ => .pure _) (.bind (.log _ _ _) fun _ => .pure _)

/-- An address has an identity, or is a matter for whoever wrote the policy. -/
theorem failsOnly_requirementsOf (c : Context σ) (a : Address) :
    (c.requirementsOf a.toImageReference).FailsOnly fun f => f.kind = .policyConfiguration := by
  have hidentity : (a.toImageReference : ImageReference σ).identity.FailsOnly fun f =>
      f.isA .value := by
    intro h f hf
    have hlift : a.identity.mapError Fault.ambiguous = .error f := hf
    cases hwhy : a.identity with
    | ok identity =>
        rw [hwhy] at hlift
        cases hlift
    | error why =>
        rw [hwhy] at hlift
        cases hlift
        rfl
  refine .bind (.outcome_bind hidentity (fun identity => ?_) fun f hf => ?_) fun _ => .pure _
  · exact .ite (.fail rfl) (.bind (.pure _) fun namespaces => failsOnly_resolve _ _ _)
  · dsimp only
    rw [if_pos hf]
    exact .fail rfl

theorem acceptedClaims_never_fails (c : Context σ) (image : Image σ) (raw : Bytes)
    (rs : List Requirement) (found : Option Signature) {K : Fault → Prop} :
    (c.acceptedClaims image raw found rs).FailsOnly K := by
  induction rs generalizing found with
  | nil => exact .pure _
  | cons r rest ih =>
      refine .bind (r.judge_never_fails image raw c.environment) fun verdict => ?_
      cases verdict with
      | accepted s => exact ih _
      | rejected f => exact .bind (.log _ _ _) fun _ => .pure _
      | unknown => exact ih _
      | unnamed t => exact ih _

theorem acceptedAmong_never_fails (c : Context σ) (image : Image σ) (rs : List Requirement)
    (raws : List Bytes) {K : Fault → Prop} : (c.acceptedAmong image rs raws).FailsOnly K := by
  induction raws with
  | nil => exact .pure _
  | cons raw raws ih =>
      refine .bind (c.acceptedClaims_never_fails image raw rs none) fun found => ?_
      cases found with
      | none => exact ih
      | some s => exact .bind ih fun _ => .pure _

theorem failsOnly_acceptedSignatures (c : Context σ) {a : Address}
    (ha : image.reference = a.toImageReference) :
    (c.acceptedSignatures image).FailsOnly fun f =>
      f.isA .policyConfiguration ∨ f.isA .signatureFetch := by
  have hconfigured : (c.requirementsOf a.toImageReference).FailsOnly fun f =>
      f.isA .policyConfiguration ∨ f.isA .signatureFetch :=
    (c.failsOnly_requirementsOf a).mono fun f hf => .inl (Fault.isA_of_kind hf rfl)
  rw [acceptedSignatures_eq, ha]
  refine .bind hconfigured fun rs => ?_
  refine .bind ((SignedBy.failsOnly_readSignatures image).mono fun f => Or.inr) fun raws => ?_
  refine .ite (.pure _) (.bind (c.acceptedAmong_never_fails image rs raws) fun accepted => ?_)
  exact .bind (.log _ _ _) fun _ => .pure _

/-- The requirements up to here allow the image, so that the rest decide. -/
theorem firstDenial_append {before : List Requirement} (rest : List Requirement) {h₁ : Host σ}
    (hbefore : c.firstDenial image before h = (.ok .allow, h₁)) :
    c.firstDenial image (before ++ rest) h = c.firstDenial image rest h₁ := by
  induction before generalizing h with
  | nil =>
      cases hbefore
      rfl
  | cons r before ih =>
      rw [firstDenial, Act.bind_apply] at hbefore
      rw [List.cons_append, firstDenial, Act.bind_apply]
      cases hrun : r.run image c.environment h with
      | mk result h' =>
          rw [hrun] at hbefore
          cases result with
          | error e => cases hbefore
          | ok d =>
              cases d with
              | allow => exact ih hbefore
              | deny f => cases hbefore

/-- A walk through the requirements that fails does so at one for a signed base layer, of
which the check fails. -/
theorem firstDenial_eq_error_iff {rs : List Requirement} :
    (c.firstDenial image rs h).1 = .error f ↔
      ∃ before identity after h₁ check, rs = before ++ .signedBaseLayer identity :: after ∧
        c.firstDenial image before h = (.ok .allow, h₁) ∧
        c.environment.baseLayerCheck = some check ∧ (check identity image h₁).1 = .error f ∧
        ¬ f.isA .imagePolicy := by
  constructor
  · intro hf
    induction rs generalizing h with
    | nil => cases hf
    | cons r rest ih =>
        rw [firstDenial, Act.bind_apply] at hf
        cases hrun : r.run image c.environment h with
        | mk result h' =>
            rw [hrun] at hf
            cases result with
            | error e =>
                cases hf
                obtain ⟨identity, check, rfl, hcheck, hraised, hno⟩ :=
                  Requirement.run_eq_error_iff.mp (congrArg Prod.fst hrun)
                exact ⟨[], identity, rest, h, check, rfl, rfl, hcheck, hraised, hno⟩
            | ok d =>
                cases d with
                | deny f => cases hf
                | allow =>
                    obtain ⟨before, identity, after, h₁, check, rfl, hbefore, hraised⟩ := ih hf
                    refine ⟨r :: before, identity, after, h₁, check, rfl, ?_, hraised⟩
                    rw [firstDenial, Act.bind_ok hrun]
                    exact hbefore
  · rintro ⟨before, identity, after, h₁, check, rfl, hbefore, hcheck, hraised, hno⟩
    rw [firstDenial_append _ hbefore, firstDenial, Act.bind_apply]
    have hrun : ((Requirement.signedBaseLayer identity).run image c.environment h₁).1 = .error f :=
      Requirement.run_eq_error_iff.mpr ⟨identity, check, rfl, hcheck, hraised, hno⟩
    cases hresult : (Requirement.signedBaseLayer identity).run image c.environment h₁ with
    | mk result h' =>
        rw [hresult] at hrun
        cases hrun
        rfl

/-- The decision whether an image may run, begun on this host, comes as far as the check of
base layers, and the check raises this fault. -/
inductive CheckRaises (c : Context σ) (image : Image σ) (h : Host σ) (f : Fault) : Prop
  | intro {h₀ h₁ : Host σ} {before after : List Requirement} {identity : MatchRule}
      {check : MatchRule → Image σ → Act σ Decision}
      (governed : c.requirementsOf image.reference (h.moved c.number .inUse) =
        (.ok (before ++ .signedBaseLayer identity :: after), h₀))
      (allowed : c.firstDenial image before h₀ = (.ok .allow, h₁))
      (brought : c.environment.baseLayerCheck = some check)
      (raised : (check identity image h₁).1 = .error f) : CheckRaises c image h f

theorem runningDecision_eq_error_iff {a : Address} (ha : image.reference = a.toImageReference)
    (hno : ¬ f.isA .imagePolicy) :
    (c.runningDecision image (h.moved c.number .inUse)).1 = .error f ↔
      c.CheckRaises image h f := by
  unfold runningDecision
  rw [Act.bind_apply]
  constructor
  · intro hf
    cases hrs : c.requirementsOf image.reference (h.moved c.number .inUse) with
    | mk result h₀ =>
        rw [hrs] at hf
        cases result with
        | error e =>
            cases hf
            have hkind : f.kind = .policyConfiguration :=
              c.failsOnly_requirementsOf a _ f (by rw [← ha, hrs])
            exact absurd (Fault.isA_of_kind hkind rfl) hno
        | ok rs =>
            by_cases hnil : rs = []
            · simp only [if_pos hnil] at hf
              cases hf
            · simp only [if_neg hnil] at hf
              obtain ⟨before, identity, after, h₁, check, rfl, hbefore, hcheck, hraised, -⟩ :=
                firstDenial_eq_error_iff.mp hf
              exact .intro hrs hbefore hcheck hraised
  · rintro ⟨hrs, hbefore, hcheck, hraised⟩
    rw [hrs]
    simp only [List.append_ne_nil_of_right_ne_nil _ (List.cons_ne_nil _ _), if_false]
    exact firstDenial_eq_error_iff.mpr ⟨_, _, _, _, _, rfl, hbefore, hcheck, hraised, hno⟩

end Context

/-! ## Collaborators that use contexts by their operations -/

/-- The actions that move contexts by their operations only, whatever else they do. -/
inductive Act.Orderly : {α : Type} → Act σ α → Prop
  | still {α : Type} {x : Act σ α} (hx : ∀ h, (x h).2.stages = h.stages) : Orderly x
  | bind {α β : Type} {x : Act σ α} {f : α → Act σ β} (first : Orderly x)
      (next : ∀ a, Orderly (f a)) : Orderly (x >>= f)
  | outcome {α : Type} {x : Act σ α} (inner : Orderly x) : Orderly (Act.outcome x)
  | signatures {c : Context σ} {image : Image σ} (identity : Orderly image.reference.identity)
      (namespaces : Orderly image.reference.namespaces)
      (manifestDigest : Orderly image.manifestDigest) (stored : Orderly image.signatures)
      (verify : ∀ raw material, Orderly (c.environment.verifier.verify raw material)) :
      Orderly (c.signaturesWithAcceptedAuthor image)
  | running {c : Context σ} {image : Image σ} (identity : Orderly image.reference.identity)
      (namespaces : Orderly image.reference.namespaces)
      (manifestDigest : Orderly image.manifestDigest) (stored : Orderly image.signatures)
      (verify : ∀ raw material, Orderly (c.environment.verifier.verify raw material))
      (check : ∀ f, c.environment.baseLayerCheck = some f → ∀ rule, Orderly (f rule image)) :
      Orderly (c.isRunningAllowed image)
  | destroy {c : Context σ} (close : Orderly c.environment.verifier.close) : Orderly c.destroy

def Manner.orderly : Manner σ where
  of := Act.Orderly
  read _ := .still fun _ => rfl
  log _ _ _ := .still fun _ => rfl
  bind := .bind
  outcome := .outcome

/-- The hosts on which the context with this number is in use. -/
def Ground.inUse (n : Nat) : Ground σ where
  holds h := h.stages n = .inUse
  report _ hh := hh
  remember _ hh := hh

section Kept

variable {n : Nat}

theorem Ground.inUse_keeps_changeStage {c : Context σ} (hc : c.number ≠ n) (expected new : Stage) :
    (Ground.inUse n).Keeps (c.changeStage expected new) := by
  intro h hh
  rw [Context.changeStage_apply]
  split
  · show Act.replace h.stages c.number new n = .inUse
    rw [Act.replace_other _ _ (Ne.symm hc)]
    exact hh
  · exact hh

theorem Ground.not_ready_of_inUse {c : Context σ} {h : Host σ} (hc : c.number = n)
    (hh : (Ground.inUse n).holds h) : h.stages c.number ≠ .ready := by
  rw [hc, show h.stages n = .inUse from hh]
  exact Stage.noConfusion

/-- A decision of a context in use is refused, and one of another context moves only that. -/
theorem Ground.inUse_keeps_checkedOut (c : Context σ) {body : Act σ α}
    (hbody : (Ground.inUse n).Keeps body) : (Ground.inUse n).Keeps (c.checkedOut body) := by
  by_cases hc : c.number = n
  · intro h hh
    rw [Context.checkedOut_of_not_ready c body (not_ready_of_inUse hc hh)]
    exact hh
  · refine .bind (inUse_keeps_changeStage hc _ _) fun _ => .bind hbody.outcome fun result => ?_
    exact .bind (inUse_keeps_changeStage hc _ _) fun _ h hh => hh

theorem Ground.inUse_keeps_destroy {c : Context σ}
    (hclose : (Ground.inUse n).Keeps c.environment.verifier.close) :
    (Ground.inUse n).Keeps c.destroy := by
  by_cases hc : c.number = n
  · intro h hh
    rw [Context.destroy_of_not_ready c (not_ready_of_inUse hc hh)]
    exact hh
  · exact .bind (inUse_keeps_changeStage hc _ _) fun _ => hclose

/-- While a context is in use, orderly actions leave it so. -/
theorem Act.Orderly.keeps_inUse {x : Act σ α} (hx : x.Orderly) : (Ground.inUse n).Keeps x := by
  induction hx with
  | still hx =>
      intro h hh
      show (_ : Host σ).stages n = .inUse
      rw [hx h]
      exact hh
  | bind _ _ first next => exact .bind first next
  | outcome _ inner => exact .outcome inner
  | signatures _ _ _ _ _ identity namespaces manifestDigest stored verify =>
      refine Ground.inUse_keeps_checkedOut _ ?_
      exact Manner.of_acceptedSignatures (m := .keeping (Ground.inUse n))
        ⟨identity, namespaces, manifestDigest, stored⟩ verify
  | running _ _ _ _ _ _ identity namespaces manifestDigest stored verify check =>
      refine Manner.of_isRunningAllowed (m := .keeping (Ground.inUse n)) ?_
      refine Ground.inUse_keeps_checkedOut _ ?_
      exact Manner.of_runningDecision (m := .keeping (Ground.inUse n))
        ⟨identity, namespaces, manifestDigest, stored⟩ ⟨verify, check⟩
  | destroy _ close => exact Ground.inUse_keeps_destroy close

end Kept

/-! ## Decisions -/

namespace Context

variable {c : Context σ} {image : Image σ} {v : Nat} {h : Host σ}

/-- A body that leaves its context in use ends with the context ready. -/
theorem checkedOut_of_keeps {body : Act σ α} (hbody : (Ground.inUse c.number).Keeps body)
    (hready : h.stages c.number = .ready) :
    c.checkedOut body h = ((body (h.moved c.number .inUse)).1,
      (body (h.moved c.number .inUse)).2.moved c.number .ready) := by
  have hend : (body (h.moved c.number .inUse)).2.stages c.number = .inUse :=
    hbody _ (Host.moved_stage h c.number .inUse)
  rw [checkedOut_of_ready c body hready]
  simp only [if_pos hend]

theorem isRunningAllowed_stages (c : Context σ) (image : Image σ) (h : Host σ) :
    (c.isRunningAllowed image h).2.stages =
      (c.checkedOut (c.runningDecision image) h).2.stages := by
  rcases hchecked : c.checkedOut (c.runningDecision image) h with ⟨f | d, h'⟩
  · by_cases hkind : f.isA .imagePolicy
    · rw [isRunningAllowed_denies hchecked hkind]
    · rw [isRunningAllowed_raises hchecked hkind]
  · rw [isRunningAllowed_reports hchecked]

theorem isRunningAllowed_eq_error_iff {f : Fault} :
    (c.isRunningAllowed image h).1 = .error f ↔
      (c.checkedOut (c.runningDecision image) h).1 = .error f ∧ ¬ f.isA .imagePolicy := by
  rcases hchecked : c.checkedOut (c.runningDecision image) h with ⟨e | d, h'⟩
  · by_cases hkind : e.isA .imagePolicy
    · rw [isRunningAllowed_denies hchecked hkind]
      refine iff_of_false nofun ?_
      rintro ⟨he, hno⟩
      cases he
      exact hno hkind
    · rw [isRunningAllowed_raises hchecked hkind]
      refine ⟨fun he => ?_, And.left⟩
      cases he
      exact ⟨rfl, hkind⟩
  · rw [isRunningAllowed_reports hchecked]
    exact iff_of_false nofun fun hf => nomatch hf.1

/-- From a ready context a decision about an addressed image comes back as a list, as a
decision, or as one of the faults that belong to it, and the context is ready again. The
decision to run fails just when the check of base layers raises a fault that is not of the
policy's own kind, and then with this fault. -/
theorem decisions_contained (hv : c.environment.verifier = Verifier.ed25519 room v)
    (hi : image.Addressed .orderly)
    (hcheck : ∀ check, c.environment.baseLayerCheck = some check →
      ∀ identity, (check identity image).Orderly)
    (hready : h.stages c.number = .ready) :
    ((∃ list, (c.signaturesWithAcceptedAuthor image h).1 = .ok list) ∨
      ∃ f, (c.signaturesWithAcceptedAuthor image h).1 = .error f ∧
        (f.isA .policyConfiguration ∨ f.isA .signatureFetch)) ∧
      (c.signaturesWithAcceptedAuthor image h).2.stages c.number = .ready ∧
      (∀ f, (c.isRunningAllowed image h).1 = .error f ↔
        c.CheckRaises image h f ∧ ¬ f.isA .imagePolicy) ∧
      (c.isRunningAllowed image h).2.stages c.number = .ready := by
  have hverify : ∀ raw material,
      (Manner.orderly : Manner σ).of (c.environment.verifier.verify raw material) := by
    intro raw material
    rw [hv]
    refine .still fun h => ?_
    obtain ⟨k, hk⟩ := Verifier.verify_apply room v raw material h
    rw [hk]
  obtain ⟨a, ha⟩ : ∃ a : Address, image.reference = a.toImageReference := by
    cases hi with
    | directory root a => exact ⟨a, rfl⟩
    | lookaside store a => exact ⟨a, rfl⟩
  have hlist := checkedOut_of_keeps (c := c)
    (Act.Orderly.keeps_inUse (Manner.of_acceptedSignatures hi.within hverify)) hready
  have hrun := checkedOut_of_keeps (c := c)
    (Act.Orderly.keeps_inUse (Manner.of_runningDecision hi.within ⟨hverify, hcheck⟩)) hready
  refine ⟨?_, ?_, fun f => ?_, ?_⟩
  · rw [signaturesWithAcceptedAuthor, hlist]
    cases hresult : (c.acceptedSignatures image (h.moved c.number .inUse)).1 with
    | ok list => exact .inl ⟨list, rfl⟩
    | error f => exact .inr ⟨f, rfl, c.failsOnly_acceptedSignatures ha _ f hresult⟩
  · rw [signaturesWithAcceptedAuthor, hlist]
    exact Host.moved_stage _ _ _
  · rw [isRunningAllowed_eq_error_iff, hrun]
    constructor
    · rintro ⟨hf, hno⟩
      exact ⟨(runningDecision_eq_error_iff ha hno).mp hf, hno⟩
    · rintro ⟨hraises, hno⟩
      exact ⟨(runningDecision_eq_error_iff ha hno).mpr hraises, hno⟩
  · rw [isRunningAllowed_stages, hrun]
    exact Host.moved_stage _ _ _

end Context

namespace Specimen

/-- A context that the check below asks, while it is in use itself. -/
def unlayered : Context Unit :=
  ⟨0, ⟨[.insecureAcceptAnything], []⟩, ⟨Verifier.ed25519 .standard 0, none⟩⟩

def interrupted : Fault := .given .os "no such registry"

/-- A check of base layers that asks for permission itself, is refused, and fails. -/
def probe : MatchRule → Image Unit → Act Unit Decision := fun _ image => do
  let _ ← unlayered.isRunningAllowed image
  Act.fail interrupted

def probing : Context Unit :=
  ⟨0, ⟨[.insecureAcceptAnything, .signedBaseLayer .exact], []⟩,
    ⟨Verifier.ed25519 .standard 0, some probe⟩⟩

end Specimen

open Specimen in
/-- The check is refused the context that waits for it, and its own fault comes out. -/
theorem decisions_contained_probing :
    host.stages probing.number = .ready ∧ probing.CheckRaises image host interrupted ∧
      (probing.isRunningAllowed image host).1 = .error interrupted ∧
      (probing.isRunningAllowed image host).2.stages probing.number = .ready ∧
      (probing.signaturesWithAcceptedAuthor image host).2.stages probing.number = .ready := by
  have hi : image.Addressed .orderly := .directory _ address
  have hverify : ∀ raw material,
      (unlayered.environment.verifier.verify raw material).Orderly := by
    intro raw material
    refine .still fun h => ?_
    obtain ⟨k, hk⟩ := Verifier.verify_apply .standard 0 raw material h
    rw [show unlayered.environment.verifier = Verifier.ed25519 .standard 0 from rfl, hk]
  have hcheck : ∀ check, probing.environment.baseLayerCheck = some check →
      ∀ identity, (check identity image).Orderly := by
    intro check hbrought identity
    cases hbrought
    refine .bind (.running hi.within.identity hi.within.namespaces hi.within.manifestDigest
      hi.within.signatures hverify ?_) fun _ => .still fun _ => rfl
    intro check hnone
    cases hnone
  have hgoverned : probing.requirementsOf image.reference (host.moved probing.number .inUse) =
      (.ok ([.insecureAcceptAnything] ++ .signedBaseLayer .exact :: []),
        (probing.requirementsOf image.reference (host.moved probing.number .inUse)).2) := rfl
  have hraises : probing.CheckRaises image host interrupted := .intro hgoverned rfl rfl rfl
  have hready : host.stages probing.number = .ready := rfl
  obtain ⟨-, hlist, hrun, hend⟩ := Context.decisions_contained rfl hi hcheck hready
  have hno : ¬ interrupted.isA .imagePolicy := by decide
  exact ⟨rfl, hraises, (hrun interrupted).mpr ⟨hraises, hno⟩, hend, hlist⟩

end ImageTrust
