/-
# Rearrangement — a list of requirements counts as a set

The loops of a decision go through the requirements in order: the first acceptance is kept,
the first rejection ends the judgement of a signature, the first denial is the answer.  Yet
what is trusted depends on which requirements there are and on nothing else.  A signature is
trusted if no requirement rejects everything and every demand admits it, and two demands that
admit it read the same claims off it; an image may run if every requirement allows it.

So a policy whose lists are put in another order, with requirements repeated or repetitions
left out, gives back the same signatures and lets the same images run
(`decisions_of_rearranged`).  The reason of a denial is not covered: it is the first one's.
-/
import Mathlib.Data.List.Forall2
import ImageTrust.Proofs.Profile

namespace ImageTrust

variable {σ : Type}

/-- The lists have the same members, in any order and each any number of times. -/
def SameMembers {α : Type} (xs ys : List α) : Prop := ∀ x, x ∈ xs ↔ x ∈ ys

theorem SameMembers.symm {α : Type} {xs ys : List α} (hs : SameMembers xs ys) :
    SameMembers ys xs := fun x => (hs x).symm

theorem SameMembers.eq_nil {α : Type} {xs ys : List α} (hs : SameMembers xs ys) (hx : xs = []) :
    ys = [] := by
  refine List.eq_nil_iff_forall_not_mem.mpr fun y hy => ?_
  have hmem : y ∈ xs := (hs y).mpr hy
  rw [hx] at hmem
  cases hmem

/-! ## One list -/

section Lists

variable {facts : Facts} {rs rs' : List Requirement}

theorem Trusted.of_sameMembers (hs : SameMembers rs rs') {raw : Bytes} {signature : Signature}
    (ht : Trusted facts rs raw signature) : Trusted facts rs' raw signature := by
  obtain ⟨s, hdemand⟩ := ht.demanded
  refine ⟨fun hreject => ht.unrejected ((hs _).mpr hreject), ⟨s, (hs _).mp hdemand⟩, ?_⟩
  intro t hmem
  exact ht.admitted t ((hs _).mpr hmem)

namespace Context

/-- Which demand accepts first makes no difference to the claims. -/
theorem accepted_of_sameMembers (hs : SameMembers rs rs') (raw : Bytes) :
    accepted facts raw none rs = accepted facts raw none rs' := by
  refine Option.ext fun signature => ?_
  rw [accepted_eq_some_iff_trusted, accepted_eq_some_iff_trusted]
  exact ⟨fun ht => ht.of_sameMembers hs, fun ht => ht.of_sameMembers hs.symm⟩

theorem trustedAmong_of_sameMembers (hs : SameMembers rs rs') (raws : List Bytes) :
    trustedAmong facts rs raws = trustedAmong facts rs' raws := by
  unfold trustedAmong
  exact List.filterMap_congr fun raw _ => accepted_of_sameMembers hs raw

theorem permission_eq_allow_of_sameMembers (hs : SameMembers rs rs')
    {check : MatchRule → Decision} {raws : Except Fault (List Bytes)}
    (hallow : permission facts check raws rs = .allow) :
    permission facts check raws rs' = .allow := by
  obtain ⟨hne, hall⟩ := permission_eq_allow_iff.mp hallow
  refine permission_eq_allow_iff.mpr ⟨fun hnil => hne (hs.symm.eq_nil hnil), ?_⟩
  intro r hr
  exact hall r ((hs r).mpr hr)

theorem allowed_of_sameMembers (hs : SameMembers rs rs') (check : MatchRule → Decision)
    (raws : Except Fault (List Bytes)) :
    (permission facts check raws rs).allowed = (permission facts check raws rs').allowed := by
  cases hd : permission facts check raws rs with
  | allow => rw [permission_eq_allow_of_sameMembers hs hd]
  | deny f =>
      cases hd' : permission facts check raws rs' with
      | deny f' => rfl
      | allow =>
          rw [permission_eq_allow_of_sameMembers hs.symm hd'] at hd
          cases hd

end Context

end Lists

/-! ## Whole policies -/

namespace Policy

/-- The policies have the same scopes, with lists of the same requirements. -/
structure Rearranged (p p' : Policy) : Prop where
  default : SameMembers p.default p'.default
  specific : List.Forall₂ (fun e e' => e.1 = e'.1 ∧ SameMembers e.2 e'.2) p.specific p'.specific

section Scopes

variable {entries entries' : List (Text × List Requirement)}

/-- A scope stands in both or in none, and where it stands it has the same requirements. -/
theorem lookup_of_rearranged
    (hs : List.Forall₂ (fun e e' => e.1 = e'.1 ∧ SameMembers e.2 e'.2) entries entries')
    (scope : Text) :
    (entries.lookup scope = none ∧ entries'.lookup scope = none) ∨
      ∃ rs rs', entries.lookup scope = some rs ∧ entries'.lookup scope = some rs' ∧
        SameMembers rs rs' := by
  induction hs with
  | nil => exact .inl ⟨rfl, rfl⟩
  | @cons e e' entries entries' he _ ih =>
      obtain ⟨name, rs⟩ := e
      obtain ⟨name', rs'⟩ := e'
      obtain ⟨rfl, hsame⟩ := he
      rw [List.lookup_cons, List.lookup_cons]
      by_cases hscope : scope == name
      · simp only [hscope]
        exact .inr ⟨rs, rs', rfl, rfl, hsame⟩
      · simp only [hscope]
        exact ih

end Scopes

variable {p p' : Policy}

theorem sectionFor_of_rearranged (hp : p.Rearranged p') (identity : Text)
    (namespaces : List Text) :
    p.sectionFor identity namespaces = p'.sectionFor identity namespaces := by
  have hknown : ∀ scope, (p.specific.lookup scope).isSome = (p'.specific.lookup scope).isSome := by
    intro scope
    rcases lookup_of_rearranged hp.specific scope with ⟨hno, hno'⟩ | ⟨rs, rs', hrs, hrs', -⟩
    · rw [hno, hno']
    · rw [hrs, hrs']
      rfl
  unfold sectionFor
  simp only [hknown]

theorem requirements_of_rearranged (hp : p.Rearranged p') (place : Section) :
    SameMembers (p.requirements place) (p'.requirements place) := by
  cases place with
  | default => exact hp.default
  | specific scope =>
      show SameMembers ((p.specific.lookup scope).getD []) ((p'.specific.lookup scope).getD [])
      rcases lookup_of_rearranged hp.specific scope with ⟨hno, hno'⟩ | ⟨rs, rs', hrs, hrs', hsame⟩
      · rw [hno, hno']
        exact fun r => Iff.rfl
      · rw [hrs, hrs']
        exact hsame

theorem governing_of_rearranged (hp : p.Rearranged p') (identity : Text)
    (namespaces : List Text) :
    SameMembers (p.governing identity namespaces) (p'.governing identity namespaces) := by
  unfold governing
  rw [sectionFor_of_rearranged hp identity namespaces]
  exact requirements_of_rearranged hp _

/-- An image falls under rearranged lists, or under none for the same reason. -/
theorem listFor_of_rearranged (hp : p.Rearranged p') (profile : Profile) :
    (∃ rs rs', p.listFor profile = .ok rs ∧ p'.listFor profile = .ok rs' ∧ SameMembers rs rs') ∨
      ∃ f, p.listFor profile = .error f ∧ p'.listFor profile = .error f := by
  unfold listFor
  cases profile.identity with
  | error f => exact .inr ⟨_, rfl, rfl⟩
  | ok identity =>
      by_cases hne : identity = []
      · simp only [if_pos hne]
        exact .inr ⟨_, rfl, rfl⟩
      · simp only [if_neg hne]
        cases profile.namespaces with
        | error f => exact .inr ⟨f, rfl, rfl⟩
        | ok namespaces => exact .inl ⟨_, _, rfl, rfl, governing_of_rearranged hp _ _⟩

theorem trustedOf_of_rearranged (hp : p.Rearranged p') (profile : Profile) :
    p.trustedOf profile = p'.trustedOf profile := by
  unfold trustedOf
  rcases listFor_of_rearranged hp profile with ⟨rs, rs', hrs, hrs', hsame⟩ | ⟨f, hf, hf'⟩
  · rw [hrs, hrs']
    show (do let raws ← profile.signatures; return Context.trustedAmong profile.facts rs raws) = _
    simp only [Context.trustedAmong_of_sameMembers hsame]
    rfl
  · rw [hf, hf']

theorem allowed_permissionOf_of_rearranged (hp : p.Rearranged p') (check : MatchRule → Decision)
    (profile : Profile) :
    (p.permissionOf check profile).map Decision.allowed =
      (p'.permissionOf check profile).map Decision.allowed := by
  unfold permissionOf
  rcases listFor_of_rearranged hp profile with ⟨rs, rs', hrs, hrs', hsame⟩ | ⟨f, hf, hf'⟩
  · rw [hrs, hrs']
    exact congrArg Except.ok (Context.allowed_of_sameMembers hsame check profile.signatures)
  · rw [hf, hf']

end Policy

/-! ## Contexts -/

namespace Context

/-- The context, applying another policy. -/
def under (c : Context σ) (policy : Policy) : Context σ := { c with policy := policy }

theorem BeginsOn.under {c : Context σ} {g : Ground σ} {h : Host σ} (hb : c.BeginsOn g h)
    (policy : Policy) : (c.under policy).BeginsOn g h := ⟨hb.ready, hb.within, hb.inUse⟩

variable {c : Context σ} {g : Ground σ} {image : Image σ} {p : Profile} {v : Nat}
  {check : MatchRule → Decision} {policy : Policy} {h h' : Host σ}

/-- A context gives back the same signatures, or the same fault, under a policy whose lists are
rearranged, and lets the same images run. -/
theorem decisions_of_rearranged (hv : c.environment.verifier = Verifier.ed25519 p.facts.room v)
    (hi : image.Fits g p) (hcheck : c.environment.ChecksBy g image check)
    (hp : c.policy.Rearranged policy) (hb : c.BeginsOn g h) (hb' : c.BeginsOn g h') :
    (c.signaturesWithAcceptedAuthor image h).1 =
        ((c.under policy).signaturesWithAcceptedAuthor image h').1 ∧
      (c.isRunningAllowed image h).1.map Decision.allowed =
        ((c.under policy).isRunningAllowed image h').1.map Decision.allowed := by
  have hv' : (c.under policy).environment.verifier = Verifier.ed25519 p.facts.room v := hv
  have hcheck' : (c.under policy).environment.ChecksBy g image check := hcheck
  constructor
  · rw [signaturesWithAcceptedAuthor_of_fits hi hv hb,
      signaturesWithAcceptedAuthor_of_fits hi hv' (hb'.under policy)]
    exact Policy.trustedOf_of_rearranged hp p
  · rw [isRunningAllowed_of_fits hi hv hcheck hb,
      isRunningAllowed_of_fits hi hv' hcheck' (hb'.under policy)]
    exact Policy.allowed_permissionOf_of_rearranged hp _ p

end Context

namespace Specimen

/-- The policy with a demand for a signed base layer in another order, the key asked for twice. -/
def shuffled : Policy :=
  ⟨[.signedBaseLayer .exact, .signedBy demand, .insecureAcceptAnything, .signedBy demand], []⟩

theorem shuffled_rearranged : layered.policy.Rearranged shuffled where
  default := by
    intro r
    simp only [layered, shuffled, List.mem_cons, List.not_mem_nil]
    tauto
  specific := .nil

/-- On any disk with the manifest `{}` the image has the profile of its signatures there. -/
theorem image_fits {d : Disk} {raws : List Bytes}
    (hmanifest : d.read ((Path.ofText ".").child Directory.manifestName) =
      disk.read ((Path.ofText ".").child Directory.manifestName))
    (hraws : (Ground.still 0 d .inUse).Answers image.readSignatures (.ok raws)) :
    image.Fits (Ground.still 0 d .inUse)
      (address.profile .standard d (.ok signature.manifestDigest) (.ok raws)) := by
  have hdigest : ∀ h : Host Unit,
      (image.factsOn .standard h).digest = Directory.digestOn (Path.ofText ".") h.disk := fun h =>
    congrArg Prod.fst (Directory.manifestDigest_apply _ h)
  have hthere : (image.factsOn .standard host).digest = .ok signature.manifestDigest :=
    (SignedBy.verdict_eq_accepted_iff.mp verdict_stored).manifest
  have hhere : (image.factsOn .standard (Host.fresh d ())).digest =
      .ok signature.manifestDigest := by
    rw [hdigest] at hthere ⊢
    rw [← hthere]
    unfold Directory.digestOn
    exact congrArg (fun found => found.mapError Fault.disk >>= _) hmanifest
  refine Image.fits_of_address rfl (fun h hh => hh.1) ?_ hraws
  exact hhere ▸ (stored_image.shows_factsOn .standard (Host.fresh d ()) .inUse).digest

end Specimen

open Specimen in
/-- The key is asked for twice and the base layer first, and nothing changes. -/
theorem decisions_of_rearranged_specimen :
    layered.policy.Rearranged shuffled ∧ host.stages layered.number = .ready ∧
      later.stages layered.number = .ready ∧
      (layered.signaturesWithAcceptedAuthor image host).1 =
        ((layered.under shuffled).signaturesWithAcceptedAuthor image later).1 ∧
      (layered.isRunningAllowed image host).1.map Decision.allowed =
        ((layered.under shuffled).isRunningAllowed image later).1.map Decision.allowed := by
  have hcheck : layered.environment.ChecksBy (Ground.still 0 disk .inUse) image
      Context.noObjection := by
    intro hook hbrought rule
    cases hbrought
    exact .pure _
  refine ⟨shuffled_rearranged, rfl, rfl, ?_⟩
  exact Context.decisions_of_rearranged
    (p := address.profile .standard disk (.ok signature.manifestDigest) (.ok [stored, []])) rfl
    (image_fits rfl image_signatures) hcheck shuffled_rearranged
    (Context.beginsOn_still (h := host) rfl)
    (Context.beginsOn_still (h := later) rfl)

end ImageTrust
