/-
# Independence — each signature is judged by itself

Whoever can write to where signatures are stored can add any bytes to them.  What is added
goes through the same reading, decoding and checking as a genuine signature, with the same
cache of keys, and none of it shows in the judgement of another one: the signatures with an
accepted author of a longer list are those of its parts, one after the other, and an image
that may run for some of its signatures may run for all of them
(`signatures_judged_independently`).

The three images that are compared may lie on three disks, say one directory at three times.
They have in common how they were addressed, the digest of the manifest, and the files of the
keys that the policy names.
-/
import ImageTrust.Proofs.Rearrangement

namespace ImageTrust

variable {σ : Type}

/-! ## Other files with the same keys -/

/-- With the other files these demands find the same keys, and all else is the same. -/
structure Facts.SameFor (rs : List Requirement) (facts facts' : Facts) : Prop where
  docker : facts.docker = facts'.docker
  shown : facts.shown = facts'.shown
  digest : facts.digest = facts'.digest
  room : facts.room = facts'.room
  keys : ∀ s, .signedBy s ∈ rs → s.materialOn facts.disk = s.materialOn facts'.disk

section Facts

variable {facts facts' : Facts} {rs : List Requirement}

theorem Facts.SameFor.symm (hf : facts.SameFor rs facts') : facts'.SameFor rs facts where
  docker := hf.docker.symm
  shown := hf.shown.symm
  digest := hf.digest.symm
  room := hf.room.symm
  keys s hs := (hf.keys s hs).symm

theorem SignedBy.Admits.of_sameFor (hf : facts.SameFor rs facts') {s : SignedBy}
    (hs : .signedBy s ∈ rs) {raw : Bytes} {signature : Signature}
    (ha : s.Admits facts raw signature) : s.Admits facts' raw signature := by
  obtain ⟨material, keys, hmaterial, hload, hvouches⟩ := ha.vouched
  have hmaterial' : s.Material facts'.disk material := by
    rw [← SignedBy.materialOn_eq_ok_iff, ← hf.keys s hs]
    exact SignedBy.materialOn_eq_ok_iff.mpr hmaterial
  constructor
  · exact ⟨material, keys, hmaterial', hload, hf.room ▸ hvouches⟩
  · rw [← hf.digest]
    exact ha.manifest
  · rw [← hf.docker]
    exact ha.name

theorem Trusted.of_sameFor (hf : facts.SameFor rs facts') {raw : Bytes} {signature : Signature}
    (ht : Trusted facts rs raw signature) : Trusted facts' rs raw signature where
  unrejected := ht.unrejected
  demanded := ht.demanded
  admitted s hs := (ht.admitted s hs).of_sameFor hf hs

end Facts

/-! ## More signatures -/

namespace Context

variable {facts facts' : Facts} {rs : List Requirement}

theorem trustedAmong_of_sameFor (hf : facts.SameFor rs facts') (raws : List Bytes) :
    trustedAmong facts rs raws = trustedAmong facts' rs raws := by
  unfold trustedAmong
  refine List.filterMap_congr fun raw _ => Option.ext fun signature => ?_
  rw [accepted_eq_some_iff_trusted, accepted_eq_some_iff_trusted]
  exact ⟨fun ht => ht.of_sameFor hf, fun ht => ht.of_sameFor hf.symm⟩

theorem trustedAmong_append (raws raws' : List Bytes) :
    trustedAmong facts rs (raws ++ raws') =
      trustedAmong facts rs raws ++ trustedAmong facts rs raws' := List.filterMap_append

/-- A demand that some signature satisfies is satisfied however many others there are. -/
theorem permission_of_subset (hf : facts.SameFor rs facts') {check : MatchRule → Decision}
    {raws raws' : List Bytes} (hsub : raws ⊆ raws')
    (hallow : permission facts check (.ok raws) rs = .allow) :
    permission facts' check (.ok raws') rs = .allow := by
  obtain ⟨hne, hall⟩ := permission_eq_allow_iff.mp hallow
  refine permission_eq_allow_iff.mpr ⟨hne, fun r hr => ?_⟩
  have hr' := hall r hr
  cases r with
  | reject => cases hr'
  | insecureAcceptAnything => rfl
  | signedBaseLayer rule => exact hr'
  | signedBy s =>
      obtain ⟨raw, hraw, signature, ha⟩ := SignedBy.decision_eq_allow_iff.mp hr'
      exact SignedBy.decision_eq_allow_iff.mpr
        ⟨raw, hsub hraw, signature, ha.of_sameFor hf hr⟩

end Context

/-! ## Profiles that differ in their signatures -/

/-- The profile with these signatures, on this disk. -/
def Profile.carrying (p : Profile) (disk : Disk) (raws : List Bytes) : Profile :=
  { p with facts := { p.facts with disk := disk }, signatures := .ok raws }

namespace Policy

/-- Some list of the policy has this demand. -/
def Demands (policy : Policy) (s : SignedBy) : Prop :=
  ∃ place, .signedBy s ∈ policy.requirements place

variable {policy : Policy} {p : Profile} {disk disk' : Disk}

theorem listFor_carrying (raws : List Bytes) :
    policy.listFor (p.carrying disk raws) = policy.listFor p := rfl

/-- The governing list is one of the policy's. -/
theorem exists_place_of_listFor {rs : List Requirement} (hrs : policy.listFor p = .ok rs) :
    ∃ place, rs = policy.requirements place := by
  unfold listFor at hrs
  cases hid : p.identity with
  | error f =>
      rw [hid] at hrs
      cases hrs
  | ok identity =>
      rw [hid] at hrs
      by_cases hne : identity = []
      · simp [hne] at hrs
      · simp only [if_neg hne] at hrs
        cases hns : p.namespaces with
        | error f =>
            rw [hns] at hrs
            cases hrs
        | ok namespaces =>
            rw [hns] at hrs
            cases hrs
            exact ⟨_, rfl⟩

theorem sameFor_carrying (hkeys : ∀ s, policy.Demands s → s.materialOn disk = s.materialOn disk')
    {rs : List Requirement} (hrs : policy.listFor p = .ok rs) (raws raws' : List Bytes) :
    (p.carrying disk raws).facts.SameFor rs (p.carrying disk' raws').facts where
  docker := rfl
  shown := rfl
  digest := rfl
  room := rfl
  keys s hs := by
    obtain ⟨place, rfl⟩ := exists_place_of_listFor hrs
    exact hkeys s ⟨place, hs⟩

theorem trustedOf_carrying (raws : List Bytes) :
    policy.trustedOf (p.carrying disk raws) =
      (policy.listFor p).map fun rs =>
        Context.trustedAmong (p.carrying disk raws).facts rs raws := by
  unfold trustedOf
  rw [listFor_carrying]
  cases policy.listFor p <;> rfl

variable {disk₁ disk₂ : Disk} {raws₁ raws₂ : List Bytes}

theorem trustedOf_append
    (hkeys₁ : ∀ s, policy.Demands s → s.materialOn disk₁ = s.materialOn disk)
    (hkeys₂ : ∀ s, policy.Demands s → s.materialOn disk₂ = s.materialOn disk) :
    policy.trustedOf (p.carrying disk (raws₁ ++ raws₂)) = do
      let signatures₁ ← policy.trustedOf (p.carrying disk₁ raws₁)
      let signatures₂ ← policy.trustedOf (p.carrying disk₂ raws₂)
      return signatures₁ ++ signatures₂ := by
  rw [trustedOf_carrying, trustedOf_carrying, trustedOf_carrying]
  cases hrs : policy.listFor p with
  | error f => rfl
  | ok rs =>
      have hsame₁ := sameFor_carrying hkeys₁ hrs raws₁ (raws₁ ++ raws₂)
      have hsame₂ := sameFor_carrying hkeys₂ hrs raws₂ (raws₁ ++ raws₂)
      have happend : Context.trustedAmong (p.carrying disk (raws₁ ++ raws₂)).facts rs
            (raws₁ ++ raws₂) =
          Context.trustedAmong (p.carrying disk₁ raws₁).facts rs raws₁ ++
            Context.trustedAmong (p.carrying disk₂ raws₂).facts rs raws₂ := by
        rw [Context.trustedAmong_append, Context.trustedAmong_of_sameFor hsame₁,
          Context.trustedAmong_of_sameFor hsame₂]
      exact congrArg Except.ok happend

/-- Whoever may run for some signatures may run for more. -/
theorem permissionOf_of_subset
    (hkeys : ∀ s, policy.Demands s → s.materialOn disk' = s.materialOn disk)
    {check : MatchRule → Decision} {raws raws' : List Bytes} (hsub : raws ⊆ raws')
    (hallow : policy.permissionOf check (p.carrying disk' raws) = .ok .allow) :
    policy.permissionOf check (p.carrying disk raws') = .ok .allow := by
  unfold permissionOf at hallow ⊢
  rw [listFor_carrying] at hallow ⊢
  cases hrs : policy.listFor p with
  | error f =>
      rw [hrs] at hallow
      dsimp only at hallow
      split at hallow <;> cases hallow
  | ok rs =>
      rw [hrs] at hallow
      have hsame := sameFor_carrying hkeys hrs raws raws'
      exact congrArg Except.ok (Context.permission_of_subset hsame hsub (Except.ok.inj hallow))

end Policy

/-! ## Images that differ in their signatures -/

namespace Context

variable {c : Context σ} {v : Nat} {p : Profile} {check : MatchRule → Decision}
  {g g₁ g₂ : Ground σ} {h h₁ h₂ : Host σ} {image image₁ image₂ : Image σ}
  {disk disk₁ disk₂ : Disk} {raws₁ raws₂ : List Bytes}

/-- An image with the signatures of two others, one after the other, has the signatures with an
accepted author of both, in the same way, and may run if one of them may. -/
theorem signatures_judged_independently
    (hv : c.environment.verifier = Verifier.ed25519 p.facts.room v)
    (hi : image.Fits g (p.carrying disk (raws₁ ++ raws₂)))
    (hi₁ : image₁.Fits g₁ (p.carrying disk₁ raws₁)) (hi₂ : image₂.Fits g₂ (p.carrying disk₂ raws₂))
    (hkeys₁ : ∀ s, c.policy.Demands s → s.materialOn disk₁ = s.materialOn disk)
    (hkeys₂ : ∀ s, c.policy.Demands s → s.materialOn disk₂ = s.materialOn disk)
    (hcheck : c.environment.ChecksBy g image check)
    (hcheck₁ : c.environment.ChecksBy g₁ image₁ check)
    (hcheck₂ : c.environment.ChecksBy g₂ image₂ check)
    (hb : c.BeginsOn g h) (hb₁ : c.BeginsOn g₁ h₁) (hb₂ : c.BeginsOn g₂ h₂) :
    ((c.signaturesWithAcceptedAuthor image h).1 = do
        let signatures₁ ← (c.signaturesWithAcceptedAuthor image₁ h₁).1
        let signatures₂ ← (c.signaturesWithAcceptedAuthor image₂ h₂).1
        return signatures₁ ++ signatures₂) ∧
      ((c.isRunningAllowed image₁ h₁).1 = .ok .allow ∨
          (c.isRunningAllowed image₂ h₂).1 = .ok .allow →
        (c.isRunningAllowed image h).1 = .ok .allow) := by
  constructor
  · rw [signaturesWithAcceptedAuthor_of_fits hi hv hb,
      signaturesWithAcceptedAuthor_of_fits hi₁ hv hb₁,
      signaturesWithAcceptedAuthor_of_fits hi₂ hv hb₂]
    exact Policy.trustedOf_append hkeys₁ hkeys₂
  · rw [isRunningAllowed_of_fits hi hv hcheck hb, isRunningAllowed_of_fits hi₁ hv hcheck₁ hb₁,
      isRunningAllowed_of_fits hi₂ hv hcheck₂ hb₂]
    rintro (hallow | hallow)
    · exact Policy.permissionOf_of_subset hkeys₁ (List.subset_append_left raws₁ raws₂) hallow
    · exact Policy.permissionOf_of_subset hkeys₂ (List.subset_append_right raws₁ raws₂) hallow

end Context

namespace Specimen

/-- A disk with the manifest `{}` and one signature. -/
def diskWith (raw : Bytes) : Disk :=
  ⟨[(["manifest.json"], .file (Text.utf8Bytes "\x7b\x7d")), (["signature-1"], .file raw)], []⟩

theorem image_signatures_of_one (raw : Bytes) :
    (Ground.still 0 (diskWith raw) .inUse).Answers image.readSignatures (.ok [raw]) := by
  rintro ⟨there, stages, caches, journal, beyond⟩ ⟨hdisk, hstage⟩
  cases hdisk
  exact ⟨rfl, rfl, hstage⟩

/-- No demand of the policy has its keys in a file. -/
theorem materialOn_of_demands {s : SignedBy} (hs : layered.policy.Demands s) (d d' : Disk) :
    s.materialOn d = s.materialOn d' := by
  obtain ⟨place, hmem⟩ := hs
  have hdemand : s = demand := by
    cases place with
    | default => simpa [layered, Policy.requirements] using hmem
    | specific scope => simp [layered, Policy.requirements] at hmem
  rw [hdemand]
  rfl

end Specimen

open Specimen in
/-- The genuine signature counts as much beside an empty one as it does alone. -/
theorem signatures_judged_independently_specimen :
    host.stages layered.number = .ready ∧
      ((layered.signaturesWithAcceptedAuthor image host).1 = do
        let signatures₁ ←
          (layered.signaturesWithAcceptedAuthor image (Host.fresh (diskWith stored) ())).1
        let signatures₂ ←
          (layered.signaturesWithAcceptedAuthor image (Host.fresh (diskWith []) ())).1
        return signatures₁ ++ signatures₂) ∧
      ((layered.isRunningAllowed image (Host.fresh (diskWith stored) ())).1 = .ok .allow →
        (layered.isRunningAllowed image host).1 = .ok .allow) := by
  have hcheck : ∀ g : Ground Unit, layered.environment.ChecksBy g image Context.noObjection := by
    intro g hook hbrought rule
    cases hbrought
    exact .pure _
  obtain ⟨hlist, hrun⟩ := Context.signatures_judged_independently
    (p := address.profile .standard disk (.ok signature.manifestDigest) (.ok [])) rfl
    (image_fits rfl image_signatures)
    (image_fits (d := diskWith stored) rfl (image_signatures_of_one stored))
    (image_fits (d := diskWith []) rfl (image_signatures_of_one []))
    (fun s hs => materialOn_of_demands hs _ _) (fun s hs => materialOn_of_demands hs _ _)
    (hcheck _) (hcheck _) (hcheck _) (Context.beginsOn_still (h := host) rfl)
    (Context.beginsOn_still (h := Host.fresh (diskWith stored) ()) rfl)
    (Context.beginsOn_still (h := Host.fresh (diskWith []) ()) rfl)
  exact ⟨rfl, hlist, fun hallow => hrun (.inl hallow)⟩

end ImageTrust
