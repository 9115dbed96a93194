/-
# Matching — names are compared as references

A match rule compares how two references are written: all of it, or the repository alone.
References that were read are determined by how they are written, and their repositories by
host and path, so a rule says something about the parts of the two references and nothing
about the spelling of either (`MatchRule.holds_iff_fits`).  Each rule then asks for more than
the next one does: the same reference, the same one unless the image is asked for by digest,
the same repository (`MatchRule.Fits.weaken`).

The image's reference has to be one that was read.  Of references put together by hand, with a
colon in the path or a slash in the host, two may well be written alike.
-/
import ImageTrust.Proofs.Entries
import ImageTrust.Proofs.Judgement

namespace ImageTrust

/-! ## Repositories -/

namespace Reference

variable {p r : Reference} {s t : Text}

/-- Two references are of one repository: host and path are the same. -/
def SameRepository (p r : Reference) : Prop := p.host = r.host ∧ p.path = r.path

theorem shown_eq_iff (hp : parse s = .ok p) (hr : parse t = .ok r) :
    p.shown = r.shown ↔ p = r :=
  ⟨eq_of_shown_eq hp hr, congrArg shown⟩

/-- No host has a slash, so the first slash of a name is the one that ends the host. -/
theorem name_eq_iff (hp : parse s = .ok p) (hr : parse t = .ok r) :
    p.name = r.name ↔ p.SameRepository r := by
  constructor
  · intro hname
    have hcut : some (p.host, p.path) = some (r.host, r.path) := by
      rw [← Text.cutFirst?_append (admissible_of_parse hp).slash_not_mem_host,
        ← Text.cutFirst?_append (admissible_of_parse hr).slash_not_mem_host]
      exact congrArg _ hname
    exact Prod.mk.inj (Option.some.inj hcut)
  · rintro ⟨hhost, hpath⟩
    rw [name, name, hhost, hpath]

theorem isNameOnly_eq_true_iff : r.isNameOnly = true ↔ r.tag = none ∧ r.digest = none := by
  simp [isNameOnly]

end Reference

/-! ## Rules -/

namespace MatchRule

open Reference

variable {σ : Type} {p r : Reference} {s t : Text} {rule : MatchRule}

/-- What a rule asks of the parts of the image's reference and of the signed one. -/
def Fits (rule : MatchRule) (image signed : Reference) : Prop :=
  match rule with
  | .exact => signed = image ∧ ¬ image.isNameOnly
  | .repoDigestOrExact =>
    (image.tag ≠ none ∧ signed = image) ∨
      (image.tag = none ∧ image.digest ≠ none ∧ signed.SameRepository image)
  | .repository => signed.SameRepository image

theorem holds_iff_fits (hp : Reference.parse s = .ok p) (hr : Reference.parse t = .ok r) :
    rule.holds r p = true ↔ rule.Fits r p := by
  cases rule with
  | exact =>
      simp only [holds, Fits, Bool.and_eq_true, Bool.not_eq_true', beq_iff_eq, shown_eq_iff hp hr,
        Bool.not_eq_true]
      constructor
      · rintro ⟨⟨himage, -⟩, hsame⟩
        exact ⟨hsame, himage⟩
      · rintro ⟨rfl, himage⟩
        exact ⟨⟨himage, himage⟩, rfl⟩
  | repoDigestOrExact =>
      unfold holds Fits
      cases htag : r.tag with
      | some tag => simp [shown_eq_iff hp hr]
      | none =>
          cases hdigest : r.digest with
          | some digest => simp [name_eq_iff hp hr]
          | none => simp
  | repository =>
      simp only [holds, Fits, beq_iff_eq]
      exact name_eq_iff hp hr

theorem accepts_of_parse (hp : Reference.parse s = .ok p) (image : Reference) :
    rule.accepts (some image) s = rule.holds image p := by
  unfold accepts
  rw [hp]

theorem accepts_of_malformed {why : Malformed} (hs : Reference.parse s = .error why)
    (image : Option Reference) : rule.accepts image s = false := by
  unfold accepts
  rw [hs]
  cases image <;> rfl

/-! ### From strict to lax -/

/-- The rule that asks for a little less. -/
def weaker : MatchRule → MatchRule
  | .exact => .repoDigestOrExact
  | .repoDigestOrExact | .repository => .repository

theorem Fits.weaken (h : rule.Fits r p) : rule.weaker.Fits r p := by
  cases rule with
  | exact =>
      obtain ⟨rfl, hversion⟩ := h
      cases htag : p.tag with
      | some tag => exact .inl ⟨by simp [htag], rfl⟩
      | none =>
          refine .inr ⟨htag, fun hdigest => ?_, rfl, rfl⟩
          exact hversion (isNameOnly_eq_true_iff.mpr ⟨htag, hdigest⟩)
  | repoDigestOrExact =>
      rcases h with ⟨-, rfl⟩ | ⟨-, -, hrepository⟩
      · exact ⟨rfl, rfl⟩
      · exact hrepository
  | repository => exact h

theorem accepts_weaker (hr : Reference.parse t = .ok r) (h : rule.accepts (some r) s = true) :
    rule.weaker.accepts (some r) s = true := by
  cases hs : Reference.parse s with
  | error why =>
      rw [accepts_of_malformed hs] at h
      cases h
  | ok p =>
      rw [accepts_of_parse hs] at h ⊢
      exact (holds_iff_fits hs hr).mpr ((holds_iff_fits hs hr).mp h).weaken

/-- For an image whose reference was read, a signed text that is no reference matches by no
rule, and a signed reference matches as its parts say: by the first rule if it is the image's
and picks a version, by the second if it is the image's and has a tag or the image is asked for
by digest and has the same repository, by the third if it has the same repository.  So what
matches by one rule matches by the next, and asking a rule never fails. -/
theorem accepts_compares_parts (hr : Reference.parse t = .ok r) (s : Text) :
    (∀ why, Reference.parse s = .error why → ∀ rule : MatchRule, rule.accepts (some r) s = false) ∧
    (∀ p, Reference.parse s = .ok p →
      (exact.accepts (some r) s = true ↔ p = r ∧ ¬ (r.tag = none ∧ r.digest = none)) ∧
      (repoDigestOrExact.accepts (some r) s = true ↔
        (r.tag ≠ none ∧ p = r) ∨
          (r.tag = none ∧ r.digest ≠ none ∧ p.host = r.host ∧ p.path = r.path)) ∧
      (repository.accepts (some r) s = true ↔ p.host = r.host ∧ p.path = r.path)) ∧
    (exact.accepts (some r) s = true → repoDigestOrExact.accepts (some r) s = true) ∧
    (repoDigestOrExact.accepts (some r) s = true → repository.accepts (some r) s = true) ∧
    ∀ (rule : MatchRule) (h : Host σ), (rule.judge (some r) s h).1 = .ok (rule.accepts (some r) s) := by
  refine ⟨fun why hs rule => accepts_of_malformed hs _, ?_, accepts_weaker hr, accepts_weaker hr, ?_⟩
  · intro p hs
    simp only [accepts_of_parse hs, holds_iff_fits hs hr, ← isNameOnly_eq_true_iff]
    exact ⟨Iff.rfl, Iff.rfl, Iff.rfl⟩
  · intro rule h
    exact (SignedBy.answers_judge_name (Ground.still 0 h.disk (h.stages 0)) rule _ s h ⟨rfl, rfl⟩).1

/-- An image that is asked for by digest, and a signature for a tag of the same repository under
its other spelling: the first rule refuses what the other two take. -/
theorem accepts_compares_parts_spelled :
    ∃ r p : Reference,
      Reference.parse "busybox@sha256:00112233445566778899aabbccddeeff" = .ok r ∧
      Reference.parse "index.docker.io/library/busybox:1.36" = .ok p ∧ p ≠ r ∧
      ¬ exact.accepts (some r) "index.docker.io/library/busybox:1.36" ∧
      repoDigestOrExact.accepts (some r) "index.docker.io/library/busybox:1.36" ∧
      repository.accepts (some r) "index.docker.io/library/busybox:1.36" := by
  have hr : Reference.parse "busybox@sha256:00112233445566778899aabbccddeeff" =
      .ok ⟨"docker.io", "library/busybox", none, some "sha256:00112233445566778899aabbccddeeff"⟩ :=
    rfl
  have hp : Reference.parse "index.docker.io/library/busybox:1.36" =
      .ok ⟨"docker.io", "library/busybox", some "1.36", none⟩ := rfl
  have hne : (⟨"docker.io", "library/busybox", some "1.36", none⟩ : Reference) ≠
      ⟨"docker.io", "library/busybox", none, some "sha256:00112233445566778899aabbccddeeff"⟩ := by
    decide
  obtain ⟨-, hparts, -, hweaken, -⟩ :=
    accepts_compares_parts (σ := Unit) hr "index.docker.io/library/busybox:1.36"
  obtain ⟨hexact, hdigested, -⟩ := hparts _ hp
  have htaken := hdigested.mpr (.inr ⟨rfl, by decide, rfl, rfl⟩)
  exact ⟨_, _, hr, hp, hne, fun h => hne (hexact.mp h).1, htaken, hweaken htaken⟩

end MatchRule

end ImageTrust
