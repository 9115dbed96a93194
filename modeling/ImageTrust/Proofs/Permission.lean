/-
# Permission — when the two operations of a context agree

Whether an image may run is asked requirement by requirement, each over all signatures;
which signatures have an accepted author is asked signature by signature, each of all
requirements.  A signature that passes the second loop is one that every demand of the
first finds, so an image with such a signature may run.  The other way around each demand
may have found a signature of its own, and that there is one for all of them follows only
where there is one demand (`decisions_agree`).

The two operations are called on hosts of their own.  What they have in common is a ground
on which the image answers steadily, and on which a check of base layers has nothing
against it.
-/
import ImageTrust.Proofs.Trust

namespace ImageTrust

variable {σ : Type}

/-! ## One demand for signatures -/

namespace SignedBy

variable {s : SignedBy} {facts : Facts} {raws : List Bytes}

theorem refusal?_verdict_eq_none_iff {raw : Bytes} :
    refusal? (s.verdict facts raw) = none ↔ ∃ signature, s.Admits facts raw signature := by
  simp only [← verdict_eq_accepted_iff]
  cases s.verdict facts raw <;> simp [refusal?]

/-- There is no list of reasons just when one signature is admitted. -/
theorem refusalsOn_eq_none_iff :
    s.refusalsOn facts raws = none ↔
      ∃ raw ∈ raws, ∃ signature, s.Admits facts raw signature := by
  simp only [← refusal?_verdict_eq_none_iff]
  unfold refusalsOn
  induction raws with
  | nil => simp
  | cons raw raws ih =>
      rw [List.mapM_cons]
      simp only [List.mem_cons, exists_eq_or_imp, ← ih]
      cases refusal? (s.verdict facts raw) with
      | none => simp
      | some f => cases raws.mapM fun raw => refusal? (s.verdict facts raw) <;> simp

theorem decision_eq_allow_iff :
    s.decision facts (.ok raws) = .allow ↔
      ∃ raw ∈ raws, ∃ signature, s.Admits facts raw signature := by
  rw [← refusalsOn_eq_none_iff]
  unfold decision
  cases raws with
  | nil => simp [refusalsOn]
  | cons raw raws =>
      dsimp only
      cases s.refusalsOn facts (raw :: raws) <;> simp

end SignedBy

/-! ## Base layers -/

namespace Requirement

/-- Whether the requirement is a demand for signatures. -/
def isSignedBy : Requirement → Bool
  | .signedBy _ => true
  | _ => false

theorem eq_of_countP_isSignedBy {rs : List Requirement} (hone : rs.countP isSignedBy = 1)
    {s t : SignedBy} (hs : .signedBy s ∈ rs) (ht : .signedBy t ∈ rs) : s = t := by
  rw [List.countP_eq_length_filter] at hone
  obtain ⟨r, hr⟩ := List.length_eq_one_iff.mp hone
  have hmem : ∀ u, .signedBy u ∈ rs → signedBy u = r := fun u hu => by
    have hfilter : signedBy u ∈ rs.filter isSignedBy := List.mem_filter.mpr ⟨hu, rfl⟩
    rw [hr] at hfilter
    exact List.mem_singleton.mp hfilter
  exact signedBy.inj ((hmem s hs).trans (hmem t ht).symm)

variable {g : Ground σ} {image : Image σ} {env : Environment σ}

theorem answers_runBaseLayer {identity : MatchRule}
    {check : MatchRule → Image σ → Act σ Decision} (hcheck : env.baseLayerCheck = some check)
    {d : Decision} (hd : g.Answers (check identity image) (.ok d)) :
    g.Answers (runBaseLayer identity image env) (.ok d) := by
  unfold runBaseLayer
  rw [hcheck]
  exact hd.outcome.bind (.pure _)

end Requirement

/-! ## Both operations -/

namespace Context

section Values

variable {facts : Facts} {rs : List Requirement} {raws : List Bytes}

/-- The signatures among these that the requirements trust. -/
def trustedAmong (facts : Facts) (rs : List Requirement) (raws : List Bytes) : List Signature :=
  raws.filterMap (accepted facts · none rs)

theorem trustedAmong_ne_nil_iff :
    trustedAmong facts rs raws ≠ [] ↔
      ∃ raw ∈ raws, ∃ signature, Trusted facts rs raw signature := by
  unfold trustedAmong
  rw [ne_eq, List.filterMap_eq_nil_iff]
  simp only [← accepted_eq_some_iff_trusted, ← Option.isSome_iff_exists]
  simp [Option.isSome_iff_ne_none]

/-- A check of base layers that has nothing against any image. -/
abbrev noObjection : MatchRule → Decision := fun _ => .allow

/-- A trusted signature is one that every demand finds. -/
theorem permission_of_trusted {raw : Bytes} {signature : Signature} (hraw : raw ∈ raws)
    (htrusted : Trusted facts rs raw signature) :
    permission facts noObjection (.ok raws) rs = .allow := by
  obtain ⟨s, hs⟩ := htrusted.demanded
  refine permission_eq_allow_iff.mpr ⟨List.ne_nil_of_mem hs, fun r hr => ?_⟩
  cases r with
  | reject => exact absurd hr htrusted.unrejected
  | insecureAcceptAnything => rfl
  | signedBy t =>
      exact SignedBy.decision_eq_allow_iff.mpr ⟨raw, hraw, signature, htrusted.admitted t hr⟩
  | signedBaseLayer identity => rfl

/-- What a single demand finds is trusted. -/
theorem exists_trusted_of_permission (hone : rs.countP Requirement.isSignedBy = 1)
    (hno : .reject ∉ rs) (hallow : permission facts noObjection (.ok raws) rs = .allow) :
    ∃ raw ∈ raws, ∃ signature, Trusted facts rs raw signature := by
  obtain ⟨r, hr, hsigned⟩ := List.countP_pos_iff.mp (hone ▸ Nat.one_pos)
  cases r with
  | signedBy s =>
      have hs := (permission_eq_allow_iff.mp hallow).2 _ hr
      obtain ⟨raw, hraw, signature, hadmits⟩ := SignedBy.decision_eq_allow_iff.mp hs
      refine ⟨raw, hraw, signature, hno, ⟨s, hr⟩, fun t ht => ?_⟩
      -- With a second demand the argument ends here: it may have found another signature.
      exact Requirement.eq_of_countP_isSignedBy hone hr ht ▸ hadmits
  | reject => cases hsigned
  | insecureAcceptAnything => cases hsigned
  | signedBaseLayer identity => cases hsigned

theorem trustedAmong_of_reject (hreject : .reject ∈ rs) : trustedAmong facts rs raws = [] := by
  by_cases hnil : trustedAmong facts rs raws = []
  · exact hnil
  · obtain ⟨raw, -, signature, htrusted⟩ := trustedAmong_ne_nil_iff.mp hnil
    exact absurd hreject htrusted.unrejected

theorem permission_of_reject {check : MatchRule → Decision} {raws : Except Fault (List Bytes)}
    (hreject : .reject ∈ rs) : ∃ f, permission facts check raws rs = .deny f := by
  cases hd : permission facts check raws rs with
  | deny f => exact ⟨f, rfl⟩
  | allow => cases (permission_eq_allow_iff.mp hd).2 _ hreject

/-- Signatures that cannot be read deny at the first demand for them. -/
theorem permission_of_unreadable {check : MatchRule → Decision} {f : Fault} (hne : rs ≠ [])
    (hall : ∀ r ∈ rs, ∃ s, r = .signedBy s) :
    permission facts check (.error f) rs = .deny f := by
  cases rs with
  | nil => exact absurd rfl hne
  | cons r rest =>
      obtain ⟨s, rfl⟩ := hall r List.mem_cons_self
      rfl

end Values

variable {c : Context σ} {g : Ground σ} {image : Image σ} {facts : Facts} {v : Nat}
  {rs : List Requirement} {raws : Except Fault (List Bytes)} {h h' : Host σ}

theorem signaturesWithAcceptedAuthor_answers
    (hv : c.environment.verifier = Verifier.ed25519 facts.room v) (hg : c.InUseOn g)
    (hi : image.Shows g facts) (hrs : g.Answers (c.requirementsOf image.reference) (.ok rs))
    (hraws : g.Answers image.readSignatures raws)
    (hready : h.stages c.number = .ready) (hh : g.holds (h.moved c.number .inUse)) :
    (c.signaturesWithAcceptedAuthor image h).1 = raws.map (trustedAmong facts rs) :=
  c.checkedOut_answers hg (answers_acceptedSignatures hi hv hrs hraws) hready hh

theorem isRunningAllowed_answers (hv : c.environment.verifier = Verifier.ed25519 facts.room v)
    (hg : c.InUseOn g) (hi : image.Shows g facts)
    (hrs : g.Answers (c.requirementsOf image.reference) (.ok rs))
    (hraws : g.Answers image.readSignatures raws)
    (hbase : ∀ identity, .signedBaseLayer identity ∈ rs →
      ∃ check, c.environment.baseLayerCheck = some check ∧
        g.Answers (check identity image) (.ok .allow))
    (hready : h.stages c.number = .ready) (hh : g.holds (h.moved c.number .inUse)) :
    (c.isRunningAllowed image h).1 = .ok (permission facts noObjection raws rs) := by
  refine c.isRunningAllowed_of_ok image (c.checkedOut_answers hg ?_ hready hh)
  refine answers_runningDecision hi hv hrs hraws fun identity hmem => ?_
  obtain ⟨check, hcheck, hallow⟩ := hbase identity hmem
  exact Requirement.answers_runBaseLayer hcheck hallow

/-- How the signatures with an accepted author, asked for on one host, and the permission to
run, asked for on another, are related. -/
theorem decisions_agree (hv : c.environment.verifier = Verifier.ed25519 facts.room v)
    (hg : c.InUseOn g) (hi : image.Shows g facts)
    (hrs : g.Answers (c.requirementsOf image.reference) (.ok rs))
    (hraws : g.Answers image.readSignatures raws)
    (hbase : ∀ identity, .signedBaseLayer identity ∈ rs →
      ∃ check, c.environment.baseLayerCheck = some check ∧
        g.Answers (check identity image) (.ok .allow))
    (hready : h.stages c.number = .ready) (hh : g.holds (h.moved c.number .inUse))
    (hready' : h'.stages c.number = .ready) (hh' : g.holds (h'.moved c.number .inUse)) :
    (∀ list, raws = .ok list → ∃ signatures,
      (c.signaturesWithAcceptedAuthor image h).1 = .ok signatures ∧
        ((∃ s, .signedBy s ∈ rs) → signatures ≠ [] →
          (c.isRunningAllowed image h').1 = .ok .allow) ∧
        (rs.countP Requirement.isSignedBy = 1 → .reject ∉ rs →
          ((c.isRunningAllowed image h').1 = .ok .allow ↔ signatures ≠ [])) ∧
        (.reject ∈ rs →
          signatures = [] ∧ ∃ f, (c.isRunningAllowed image h').1 = .ok (.deny f))) ∧
    ∀ f, raws = .error f → rs ≠ [] → (∀ r ∈ rs, ∃ s, r = .signedBy s) →
      f.isA .signatureFetch ∧ (c.signaturesWithAcceptedAuthor image h).1 = .error f ∧
        (c.isRunningAllowed image h').1 = .ok (.deny f) := by
  have hlist := signaturesWithAcceptedAuthor_answers hv hg hi hrs hraws hready hh
  have hrun := isRunningAllowed_answers hv hg hi hrs hraws hbase hready' hh'
  constructor
  · rintro list rfl
    rw [hrun]
    refine ⟨_, hlist, fun _ hne => ?_, fun hone hno => ⟨fun hallow => ?_, fun hne => ?_⟩,
      fun hreject => ⟨trustedAmong_of_reject hreject, ?_⟩⟩
    · obtain ⟨raw, hraw, signature, htrusted⟩ := trustedAmong_ne_nil_iff.mp hne
      exact congrArg _ (permission_of_trusted hraw htrusted)
    · exact trustedAmong_ne_nil_iff.mpr
        (exists_trusted_of_permission hone hno (Except.ok.inj hallow))
    · obtain ⟨raw, hraw, signature, htrusted⟩ := trustedAmong_ne_nil_iff.mp hne
      exact congrArg _ (permission_of_trusted hraw htrusted)
    · obtain ⟨f, hf⟩ : ∃ f, permission facts noObjection (.ok list) rs = .deny f :=
        permission_of_reject hreject
      exact ⟨f, congrArg _ hf⟩
  · rintro f rfl hne hall
    refine ⟨Image.isA_signatureFetch_of_readSignatures (hraws _ hh).1, hlist, ?_⟩
    rw [hrun, permission_of_unreadable hne hall]

end Context

namespace Specimen

/-- The context with a demand for a signed base layer besides, and a check that allows all. -/
def layered : Context Unit :=
  ⟨0, ⟨[.signedBy demand, .insecureAcceptAnything, .signedBaseLayer .exact], []⟩,
    ⟨Verifier.ed25519 .standard 0, some fun _ _ => pure .allow⟩⟩

/-- The host after something was reported. -/
def later : Host Unit := { host with journal := [⟨.info, .context, "asked before"⟩] }

theorem layered_requirements :
    (Ground.still 0 disk .inUse).Answers (layered.requirementsOf image.reference)
      (.ok [.signedBy demand, .insecureAcceptAnything, .signedBaseLayer .exact]) := by
  rintro h ⟨hdisk, hstage⟩
  exact ⟨rfl, hdisk, hstage⟩

theorem image_signatures :
    (Ground.still 0 disk .inUse).Answers image.readSignatures (.ok [stored, []]) := by
  rintro ⟨there, stages, caches, journal, beyond⟩ ⟨hdisk, hstage⟩
  cases hdisk
  exact ⟨rfl, rfl, hstage⟩

end Specimen

open Specimen in
/-- The one demand finds a signature, so the image may run. -/
theorem decisions_agree_specimen :
    host.stages layered.number = .ready ∧ later.stages layered.number = .ready ∧
      ∃ signatures, (layered.signaturesWithAcceptedAuthor image host).1 = .ok signatures ∧
        signatures ≠ [] ∧ (layered.isRunningAllowed image later).1 = .ok .allow := by
  have hshows := stored_image.shows_factsOn .standard host .inUse
  have hg : layered.InUseOn (Ground.still 0 disk .inUse) := fun _ hh => hh.2
  have hhost : (Ground.still 0 disk .inUse).holds (host.moved layered.number .inUse) := ⟨rfl, rfl⟩
  have hlater : (Ground.still 0 disk .inUse).holds (later.moved layered.number .inUse) :=
    ⟨rfl, rfl⟩
  obtain ⟨signatures, hlist, -, hiff, -⟩ :=
    (Context.decisions_agree rfl hg hshows layered_requirements image_signatures
      (fun identity _ => ⟨_, rfl, .pure _⟩) rfl hhost rfl hlater).1 _ rfl
  have hvalue := Context.signaturesWithAcceptedAuthor_answers rfl hg hshows layered_requirements
    image_signatures rfl hhost
  have hne : signatures ≠ [] := by
    rw [hlist, Except.map] at hvalue
    rw [Except.ok.inj hvalue, Context.trustedAmong_ne_nil_iff]
    exact ⟨stored, List.mem_cons_self, signature, trusted_stored (by simp) (by simp)⟩
  exact ⟨rfl, rfl, signatures, hlist, hne, (hiff rfl (by simp)).mpr hne⟩

end ImageTrust
