/-
# Judgements without a host

The verdict of a requirement on a signature, and its decision on an image, as functions
of what they depend on: the files, how the image was addressed, the digest of its
manifest, its signatures, and the check of base layers.  On a ground where these stay the
same, the actions that judge come to just these values (`Requirement.answers_judge`,
`Requirement.answers_run`, and through them whole decisions).  The cache of keys does not
occur: what it remembers is what the keys read as.
-/
import ImageTrust.Context
import ImageTrust.Proofs.Ground

namespace ImageTrust

variable {σ : Type}

/-- What a judgement depends on besides the signatures. -/
structure Facts where
  disk : Disk
  docker : Option Reference
  shown : Text
  digest : Except Fault Text
  room : Room

/-- On the ground these are the facts about an image. -/
structure Image.Shows (g : Ground σ) (image : Image σ) (facts : Facts) : Prop where
  disk : ∀ h, g.holds h → h.disk = facts.disk
  docker : image.reference.docker = facts.docker
  shown : image.reference.shown = facts.shown
  digest : g.Answers image.manifestDigest facts.digest

/-! ## Verifying -/

namespace Verifier

/-- The claims of a stored signature that keys of this material vouch for. -/
def claims (room : Room) (material raw : Bytes) : Except Fault Signature := do
  let keys ← (KeyBundle.load material).mapError .unusableKeys
  openEnvelope room keys raw

/-- A ring comes from the cache or from a reading, and either way only the cache changes. -/
theorem ring_apply (v : Nat) (material : Bytes) (h : Host σ) :
    ring v material h = match (h.caches v).ring material with
      | .error why => (.error (.unusableKeys why), h)
      | .ok (ring, cache) => (.ok ring, { h with caches := Act.replace h.caches v cache }) := by
  simp only [ring, Act.bind_apply, Act.host_apply, Act.lift, Act.ofExcept_apply]
  cases (h.caches v).ring material with
  | error why => rfl
  | ok found => rfl

theorem verify_eq (room : Room) (v : Nat) (raw material : Bytes) :
    (ed25519 room v : Verifier σ).verify raw material =
      (ring v material >>= fun ring => Act.ofExcept (openEnvelope room ring.keys raw)) := rfl

/-- Verifying comes to the claims, whatever is remembered, and changes at most that. -/
theorem verify_apply (room : Room) (v : Nat) (raw material : Bytes) (h : Host σ) :
    ∃ k, (ed25519 room v : Verifier σ).verify raw material h =
      (claims room material raw, { h with caches := Act.replace h.caches v k }) := by
  have hload := (h.caches v).ring_keys material
  rw [verify_eq, Act.bind_apply, ring_apply, claims, ← hload]
  cases (h.caches v).ring material with
  | ok found => exact ⟨found.2, rfl⟩
  | error why =>
      refine ⟨h.caches v, ?_⟩
      rw [Act.replace_eq_self]
      rfl

theorem answers_verify (g : Ground σ) (room : Room) (v : Nat) (raw material : Bytes) :
    g.Answers ((ed25519 room v).verify raw material) (claims room material raw) := by
  intro h hh
  obtain ⟨k, hverify⟩ := verify_apply room v raw material h
  rw [hverify]
  exact ⟨rfl, g.remember _ hh⟩

end Verifier

namespace SignedBy

/-- The trusted key material, with these files. -/
def materialOn (s : SignedBy) (disk : Disk) : Except Fault Bytes :=
  match s.keys with
  | .data t =>
    match t.toUtf8? with
    | some bytes => .ok bytes
    | none => .error (.unencodable t)
  | .path p =>
    match disk.read (Path.ofText p) with
    | .ok bytes => .ok bytes
    | .error (.system reason path) => .error (.keysUnreadable p (.system reason path))
    | .error why => .error (.disk why)

/-- The claims of a signature, if it is by a trusted key, with these files. -/
def claimsOn (s : SignedBy) (room : Room) (disk : Disk) (raw : Bytes) : Except Fault Signature := do
  Verifier.claims room (← s.materialOn disk) raw

/-- The claims of a signature, if it is by a trusted key, for this image's manifest, and for
an acceptable name. -/
def verifiedOn (s : SignedBy) (facts : Facts) (raw : Bytes) : Except Fault Signature :=
  match s.claimsOn facts.room facts.disk raw with
  | .error f => .error (.unverified f)
  | .ok signature =>
    match facts.digest with
    | .error f => .error (.noManifestDigest facts.shown f)
    | .ok digest =>
      if signature.manifestDigest ≠ digest then .error (.otherDigest signature.manifestDigest)
      else if s.identity.accepts facts.docker signature.reference then .ok signature
      else .error (.otherIdentity signature.reference)

/-- The verdict on one signature. -/
def verdict (s : SignedBy) (facts : Facts) (raw : Bytes) : Verdict :=
  match s.verifiedOn facts raw with
  | .ok signature => .accepted signature
  | .error f => .rejected f

variable {g : Ground σ} {image : Image σ} {facts : Facts} {env : Environment σ} {v : Nat}

theorem keyMaterial_apply (s : SignedBy) (h : Host σ) :
    s.keyMaterial h = (s.materialOn h.disk, h) := by
  unfold keyMaterial materialOn
  cases s.keys with
  | data t =>
      dsimp only
      cases t.toUtf8? <;> rfl
  | path p =>
      simp only [Act.bind_apply, Act.host_apply]
      cases h.disk.read (Path.ofText p) with
      | ok bytes => rfl
      | error why => cases why <;> rfl

theorem answers_judge_name (g : Ground σ) (rule : MatchRule) (docker : Option Reference)
    (signed : Text) : g.Answers (rule.judge docker signed) (.ok (rule.accepts docker signed)) := by
  unfold MatchRule.judge
  dsimp only
  split
  · exact .bind (.log _ _ _) (.pure _)
  · exact .pure _

theorem answers_claims (s : SignedBy) (raw : Bytes) (hi : image.Shows g facts)
    (hv : env.verifier = Verifier.ed25519 facts.room v) :
    g.Answers (do env.verifier.verify raw (← s.keyMaterial))
      (s.claimsOn facts.room facts.disk raw) := by
  have hkeys : g.Answers s.keyMaterial (s.materialOn facts.disk) := fun h hh => by
    rw [keyMaterial_apply, hi.disk h hh]
    exact ⟨rfl, hh⟩
  rw [hv]
  exact hkeys.bind_except fun material => Verifier.answers_verify g _ v raw material

theorem answers_verified (s : SignedBy) (raw : Bytes) (hi : image.Shows g facts)
    (hv : env.verifier = Verifier.ed25519 facts.room v) :
    g.Answers (s.verified image raw env) (s.verifiedOn facts raw) := by
  refine (answers_claims s raw hi hv).outcome.bind ?_
  unfold verifiedOn
  cases s.claimsOn facts.room facts.disk raw with
  | error f => exact .fail _
  | ok signature =>
      dsimp only [Act.pure_bind]
      refine hi.digest.outcome.bind ?_
      rw [hi.docker, hi.shown]
      cases facts.digest with
      | error f => exact .fail _
      | ok digest =>
          dsimp only [Act.pure_bind]
          by_cases hsame : signature.manifestDigest ≠ digest
          · simp only [if_pos hsame]
            exact .fail _
          · simp only [if_neg hsame]
            refine (answers_judge_name g _ _ _).bind ?_
            split
            · exact .pure _
            · exact .fail _

/-- A refusal is always a matter of the requirement, whoever failed. -/
theorem isA_policyRequirement_of_verifiedOn {s : SignedBy} {raw : Bytes} {f : Fault}
    (h : s.verifiedOn facts raw = .error f) : f.isA .policyRequirement := by
  unfold verifiedOn at h
  split at h
  · cases h; rfl
  · split at h
    · cases h; rfl
    · split at h
      · cases h; rfl
      · split at h <;> cases h; rfl

theorem answers_judge (s : SignedBy) (raw : Bytes) (hi : image.Shows g facts)
    (hv : env.verifier = Verifier.ed25519 facts.room v) :
    g.Answers (s.judge image raw env) (.ok (s.verdict facts raw)) := by
  refine (answers_verified s raw hi hv).outcome.bind ?_
  unfold verdict
  cases hres : s.verifiedOn facts raw with
  | ok signature => exact .pure _
  | error f =>
      simp only [isA_policyRequirement_of_verifiedOn hres, if_true]
      exact .bind (.log _ _ _) (.pure _)

/-! ## Running -/

/-- The reasons against all signatures, or nothing if one is accepted. -/
def refusalsOn (s : SignedBy) (facts : Facts) (raws : List Bytes) : Option (List Fault) :=
  raws.mapM fun raw => refusal? (s.verdict facts raw)

/-- Whether an image with these signatures may run. -/
def decision (s : SignedBy) (facts : Facts) : Except Fault (List Bytes) → Decision
  | .error f => .deny f
  | .ok [] => .deny .unsigned
  | .ok (raw :: raws) =>
    match s.refusalsOn facts (raw :: raws) with
    | none => .allow
    | some fs => .deny (denial fs)

theorem answers_refusals (s : SignedBy) (hi : image.Shows g facts)
    (hv : env.verifier = Verifier.ed25519 facts.room v) (raws : List Bytes) :
    g.Answers (s.refusals image env raws) (.ok (s.refusalsOn facts raws)) := by
  induction raws with
  | nil => exact .pure _
  | cons raw raws ih =>
      refine (answers_judge s raw hi hv).bind ?_
      unfold refusalsOn at ih ⊢
      rw [List.mapM_cons]
      cases refusal? (s.verdict facts raw) with
      | none => exact .pure _
      | some f =>
          refine ih.bind ?_
          cases raws.mapM fun raw => refusal? (s.verdict facts raw) <;> exact .pure _

end SignedBy

namespace Image

variable {g : Ground σ} {image : Image σ}

/-- Whatever keeps signatures from being read is told as a failure to fetch them. -/
theorem isA_signatureFetch_of_readSignatures {h : Host σ} {f : Fault}
    (hf : (image.readSignatures h).1 = .error f) : f.isA .signatureFetch := by
  unfold readSignatures at hf
  rw [Act.bind_ok (Act.outcome_apply _ _)] at hf
  cases hraws : (image.signatures h).1 with
  | ok raws => simp [hraws] at hf
  | error e =>
      by_cases he : e.isA .signatureFetch
      · simp only [hraws, he, if_true, Act.fail_apply, Except.error.injEq] at hf
        exact hf ▸ he
      · simp only [hraws, he] at hf
        cases hf
        rfl

end Image

theorem SignedBy.answers_run (s : SignedBy) {g : Ground σ} {image : Image σ} {facts : Facts}
    {env : Environment σ} {v : Nat} {raws : Except Fault (List Bytes)} (hi : image.Shows g facts)
    (hv : env.verifier = Verifier.ed25519 facts.room v)
    (hraws : g.Answers image.readSignatures raws) :
    g.Answers (s.run image env) (.ok (s.decision facts raws)) := by
  intro h hh
  refine Ground.Answers.bind hraws.outcome ?_ h hh
  cases raws with
  | error f =>
      simp only [Image.isA_signatureFetch_of_readSignatures (hraws h hh).1, if_true]
      exact .pure _
  | ok raws =>
      cases raws with
      | nil => exact .pure _
      | cons raw raws =>
          refine (answers_refusals s hi hv (raw :: raws)).bind ?_
          unfold decision
          dsimp only
          cases s.refusalsOn facts (raw :: raws) <;> exact .pure _

/-! ## Requirements -/

namespace Requirement

/-- The verdict on one signature of an image. -/
def verdict (r : Requirement) (facts : Facts) (raw : Bytes) : Verdict :=
  match r with
  | .reject => .rejected (.signaturesRejected facts.shown)
  | .signedBy s => s.verdict facts raw
  | .insecureAcceptAnything | .signedBaseLayer _ => .unknown

/-- Whether an image with these signatures may run; `check` answers for base layers. -/
def decision (r : Requirement) (facts : Facts) (check : MatchRule → Decision)
    (raws : Except Fault (List Bytes)) : Decision :=
  match r with
  | .reject => .deny (.imageRejected facts.shown)
  | .insecureAcceptAnything => .allow
  | .signedBy s => s.decision facts raws
  | .signedBaseLayer identity => check identity

variable {g : Ground σ} {image : Image σ} {facts : Facts} {env : Environment σ} {v : Nat}

theorem answers_judge (r : Requirement) (raw : Bytes) (hi : image.Shows g facts)
    (hv : env.verifier = Verifier.ed25519 facts.room v) :
    g.Answers (r.judge image raw env) (.ok (r.verdict facts raw)) := by
  cases r with
  | reject =>
      unfold verdict
      rw [← hi.shown]
      exact .pure _
  | insecureAcceptAnything => exact .pure _
  | signedBy s => exact s.answers_judge raw hi hv
  | signedBaseLayer identity => exact .pure _

theorem answers_run (r : Requirement) {check : MatchRule → Decision}
    {raws : Except Fault (List Bytes)} (hi : image.Shows g facts)
    (hv : env.verifier = Verifier.ed25519 facts.room v)
    (hraws : g.Answers image.readSignatures raws)
    (hcheck : ∀ identity, r = .signedBaseLayer identity →
      g.Answers (runBaseLayer identity image env) (.ok (check identity))) :
    g.Answers (r.run image env) (.ok (r.decision facts check raws)) := by
  cases r with
  | reject =>
      unfold decision
      rw [← hi.shown]
      exact .pure _
  | insecureAcceptAnything => exact .pure _
  | signedBy s => exact s.answers_run hi hv hraws
  | signedBaseLayer identity => exact hcheck identity rfl

end Requirement

end ImageTrust
