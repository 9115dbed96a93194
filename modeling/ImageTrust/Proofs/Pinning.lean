/-
# Pinning — images asked for by digest

Who asks for `name@digest` means one manifest.  The rule for such images compares names
only and leaves the digest to the demand for signatures, and the demand compares what was
signed with the digest that the image reports.  An image in a directory reports the digest
of the file that is there, and an image of a lookaside store the digest that it was made
with; neither looks at the digest it is asked for by.

So an accepted signature is about the digest that was asked for just when the image reports
that one (`accepted_digest_eq_iff`), and `stray_accepted` is an image that does not.
-/
import ImageTrust.Proofs.Trust

namespace ImageTrust

variable {σ : Type}

/-- A rule that takes a signed text for an image has read the text as a reference. -/
theorem MatchRule.name_eq_of_accepts {r : Reference} {digest signed : Text}
    (htag : r.tag = none) (hdigest : r.digest = some digest)
    (hacc : repoDigestOrExact.accepts (some r) signed = true) :
    ∃ named, Reference.parse signed = .ok named ∧ named.name = r.name := by
  unfold accepts at hacc
  cases hparse : Reference.parse signed with
  | error why =>
      rw [hparse] at hacc
      cases hacc
  | ok named =>
      rw [hparse] at hacc
      refine ⟨named, rfl, ?_⟩
      simpa [holds, htag, hdigest] using hacc

/-- All hosts. -/
def Ground.anywhere : Ground σ := ⟨fun _ => True, fun _ h => h, fun _ h => h⟩

namespace SignedBy

variable {s : SignedBy} {image : Image σ} {raw : Bytes} {env : Environment σ} {h : Host σ}
  {signature : Signature}

/-- Asking the verifier for the claims of a signature. -/
def verification (s : SignedBy) (raw : Bytes) (env : Environment σ) : Act σ Signature := do
  env.verifier.verify raw (← s.keyMaterial)

/-- Comparing names comes to the rule's answer on every host. -/
theorem judge_name_apply (rule : MatchRule) (docker : Option Reference) (signed : Text)
    (h : Host σ) : rule.judge docker signed h =
      (.ok (rule.accepts docker signed), (rule.judge docker signed h).2) := by
  have hanswers := answers_judge_name Ground.anywhere rule docker signed h trivial
  exact Prod.ext hanswers.1 rfl

/-- A signature that is accepted has the digest that the image reports once the verifier has
answered, and a name that the rule takes. -/
theorem of_verified_eq_ok (hver : (s.verified image raw env h).1 = .ok signature) :
    (image.manifestDigest (s.verification raw env h).2).1 = .ok signature.manifestDigest ∧
      s.identity.accepts image.reference.docker signature.reference = true := by
  unfold verified at hver
  rw [Act.outcome_bind_apply] at hver
  unfold verification
  cases hclaims : (do env.verifier.verify raw (← s.keyMaterial) : Act σ Signature) h with
  | mk result h₁ =>
      rw [hclaims] at hver
      cases result with
      | error f => cases hver
      | ok claimed =>
          dsimp only [Act.pure_bind] at hver
          rw [Act.outcome_bind_apply] at hver
          cases hdigest : image.manifestDigest h₁ with
          | mk reported h₂ =>
              rw [hdigest] at hver
              cases reported with
              | error f => cases hver
              | ok digest =>
                  dsimp only [Act.pure_bind] at hver
                  by_cases hother : claimed.manifestDigest ≠ digest
                  · rw [if_pos hother] at hver
                    cases hver
                  · rw [if_neg hother, Act.bind_ok (judge_name_apply _ _ _ h₂)] at hver
                    have hsame : claimed.manifestDigest = digest := Decidable.not_not.mp hother
                    split at hver
                    · rename_i haccepts
                      cases hver
                      exact ⟨congrArg Except.ok hsame.symm ▸ rfl, haccepts⟩
                    · cases hver

theorem of_judge_eq_accepted
    (hacc : (s.judge image raw env h).1 = .ok (.accepted signature)) :
    (s.verified image raw env h).1 = .ok signature := by
  unfold judge at hacc
  rw [Act.outcome_bind_apply] at hacc
  cases hver : (s.verified image raw env h).1 with
  | ok found =>
      rw [hver] at hacc
      cases hacc
      rfl
  | error f =>
      rw [hver] at hacc
      dsimp only at hacc
      split at hacc
      · cases hacc
      · cases hacc

/-- For an image that is asked for by digest, an accepted signature is about that digest just
when it is the one that the image reports. The name in the signature is the image's. -/
theorem accepted_digest_eq_iff {r : Reference} {digest : Text}
    (hrule : s.identity = .repoDigestOrExact) (hdocker : image.reference.docker = some r)
    (htag : r.tag = none) (hdigest : r.digest = some digest)
    (hacc : (s.judge image raw env h).1 = .ok (.accepted signature)) :
    (signature.manifestDigest = digest ↔
        (image.manifestDigest (s.verification raw env h).2).1 = .ok digest) ∧
      ∃ named, Reference.parse signature.reference = .ok named ∧ named.name = r.name := by
  obtain ⟨hreported, haccepts⟩ := of_verified_eq_ok (of_judge_eq_accepted hacc)
  rw [hrule, hdocker] at haccepts
  refine ⟨?_, MatchRule.name_eq_of_accepts htag hdigest haccepts⟩
  rw [hreported, Except.ok.injEq]

end SignedBy

namespace Specimen

/-- The image in the directory, asked for by a digest. -/
def askedFor (digest : Text) : Image Unit :=
  Directory.image (Path.ofText ".") (Address.toImageReference ⟨some ⟨"a.b", "c", none, some digest⟩⟩)

/-- A demand for the name of the repository, from an image that is asked for by digest. -/
def pinned : SignedBy := ⟨.ed25519, .data keys, .repoDigestOrExact⟩

/-- A digest that is not the manifest's. -/
def zeros : Text := Text.sentence ["sha256:", List.replicate 64 '0']

/-- The stored signature is accepted whatever digest the image is asked for by. -/
theorem judge_askedFor (digest : Text) :
    (pinned.judge (askedFor digest) stored context.environment host).1 =
      .ok (.accepted signature) := by
  have hdemand : demand.Admits (image.factsOn .standard host) stored signature :=
    SignedBy.verdict_eq_accepted_iff.mp verdict_stored
  have hpinned : pinned.Admits ((askedFor digest).factsOn .standard host) stored signature := by
    constructor
    · obtain ⟨material, keys, hmaterial, hload, hvouches⟩ := hdemand.vouched
      refine ⟨material, keys, ?_, hload, hvouches⟩
      cases hmaterial with
      | inline t hkeys hwritten => exact .inline t hkeys hwritten
      | file p hkeys => cases hkeys
    · exact hdemand.manifest
    · rfl
  have hstored : (askedFor digest).Stored 0 :=
    .directory _ _ (fun h => by cases h; exact ⟨rfl, rfl⟩) (fun h => ⟨rfl, rfl⟩)
  have hanswers := pinned.answers_judge stored (hstored.shows_factsOn .standard host .ready)
    (show context.environment.verifier = Verifier.ed25519 .standard 0 from rfl)
  rw [(hanswers host ⟨rfl, rfl⟩).1, SignedBy.verdict_eq_accepted_iff.mpr hpinned]

end Specimen

open Specimen in
/-- Asked for by the digest of the manifest that is there, the image is what was signed. -/
theorem accepted_digest_specimen :
    pinned.identity = .repoDigestOrExact ∧
      (pinned.judge (askedFor signature.manifestDigest) stored context.environment host).1 =
        .ok (.accepted signature) ∧
      ((askedFor signature.manifestDigest).manifestDigest
        (pinned.verification stored context.environment host).2).1 =
          .ok signature.manifestDigest := by
  have hacc := judge_askedFor signature.manifestDigest
  have hiff := (SignedBy.accepted_digest_eq_iff rfl rfl rfl rfl hacc).1
  exact ⟨rfl, hacc, hiff.mp rfl⟩

open Specimen in
/-- Asked for by another digest, the image is taken for what was signed as well. -/
theorem stray_accepted :
    (askedFor zeros).reference.docker = some ⟨"a.b", "c", none, some zeros⟩ ∧
      pinned.identity = .repoDigestOrExact ∧
      (pinned.judge (askedFor zeros) stored context.environment host).1 =
        .ok (.accepted signature) ∧
      signature.manifestDigest ≠ zeros := by
  exact ⟨rfl, rfl, judge_askedFor zeros, by decide⟩

end ImageTrust
