/-
# History — a decision does not depend on those before it

Between two decisions a context keeps nothing but the keys its verifier has read, and these
are what the key material reads as.  So after any number of decisions, with the files
changed in between, the next decision comes to what it comes to on a host on which nothing
was done yet and the files are the same.  A key file that was replaced takes effect at once.

Two hosts are alike for a context if they have the same files, the context is in the same
stage, and the collaborators keep the same; journals and remembered keys may differ.  A
decision is steady: from alike hosts it comes to the same result, and leaves alike hosts.
That asks of the image and of the check of base layers that they are steady themselves.
-/
import ImageTrust.Proofs.Manner
import ImageTrust.Proofs.Rings
import ImageTrust.Proofs.Trust

namespace ImageTrust

variable {σ α β : Type} {room : Room}

/-- The hosts are the same for the context with this number. -/
structure Host.Alike (n : Nat) (h h' : Host σ) : Prop where
  disk : h.disk = h'.disk
  beyond : h.beyond = h'.beyond
  stage : h.stages n = h'.stages n

/-- From alike hosts the action comes to the same result, and leaves alike hosts. -/
def Act.Steady (n : Nat) (x : Act σ α) : Prop :=
  ∀ h h', Host.Alike n h h' → (x h).1 = (x h').1 ∧ Host.Alike n (x h).2 (x h').2

variable {n : Nat}

theorem Act.Steady.bind {x : Act σ α} {f : α → Act σ β} (hx : Act.Steady n x)
    (hf : ∀ a, Act.Steady n (f a)) : Act.Steady n (x >>= f) := by
  intro h h' halike
  obtain ⟨hresult, hend⟩ := hx h h' halike
  rw [Act.bind_apply, Act.bind_apply]
  cases hxh : x h with
  | mk result h₁ =>
      cases hxh' : x h' with
      | mk result' h₁' =>
          rw [hxh, hxh'] at hresult hend
          cases hresult
          cases result with
          | error e => exact ⟨rfl, hend⟩
          | ok a => exact hf a h₁ h₁' hend

/-- The manner of being steady. -/
def Manner.steady (n : Nat) : Manner σ where
  of := Act.Steady n
  read f h h' halike := ⟨congrArg f halike.disk, halike⟩
  log _ _ _ h h' halike := ⟨rfl, halike.disk, halike.beyond, halike.stage⟩
  bind := .bind
  outcome hx h h' halike := by
    obtain ⟨hresult, hend⟩ := hx h h' halike
    exact ⟨congrArg Except.ok hresult, hend⟩

/-- What is remembered makes no difference to a verification. -/
theorem Verifier.steady_verify (room : Room) (v : Nat) (raw material : Bytes) :
    Act.Steady n ((ed25519 room v : Verifier σ).verify raw material) := by
  intro h h' halike
  obtain ⟨k, hverify⟩ := verify_apply room v raw material h
  obtain ⟨k', hverify'⟩ := verify_apply room v raw material h'
  rw [hverify, hverify']
  exact ⟨rfl, halike.disk, halike.beyond, halike.stage⟩

namespace Context

variable {c : Context σ} {image : Image σ} {v : Nat}

theorem steady_changeStage (c : Context σ) (expected new : Stage) :
    Act.Steady c.number (c.changeStage expected new) := by
  intro h h' halike
  rw [changeStage_apply, changeStage_apply, halike.stage]
  split
  · refine ⟨rfl, halike.disk, halike.beyond, ?_⟩
    exact (Host.moved_stage h c.number new).trans (Host.moved_stage h' c.number new).symm
  · exact ⟨rfl, halike⟩

theorem steady_checkedOut {body : Act σ α} (hbody : Act.Steady c.number body) :
    Act.Steady c.number (c.checkedOut body) := by
  refine (c.steady_changeStage _ _).bind fun _ => ?_
  refine ((Manner.steady c.number).outcome hbody).bind fun result => ?_
  exact (c.steady_changeStage _ _).bind fun _ => Manner.of.ofExcept (m := .steady c.number) result

section Decisions

variable (hv : c.environment.verifier = Verifier.ed25519 room v) (hi : image.In (.steady c.number))
  (hcheck : ∀ check, c.environment.baseLayerCheck = some check →
    ∀ identity, Act.Steady c.number (check identity image))

include hv hi

theorem steady_signaturesWithAcceptedAuthor :
    Act.Steady c.number (c.signaturesWithAcceptedAuthor image) := by
  refine steady_checkedOut (Manner.of_acceptedSignatures hi fun raw material => ?_)
  rw [hv]
  exact Verifier.steady_verify room v raw material

include hcheck

theorem steady_isRunningAllowed : Act.Steady c.number (c.isRunningAllowed image) := by
  refine Manner.of_isRunningAllowed (m := .steady c.number) (steady_checkedOut ?_)
  refine Manner.of_runningDecision hi ⟨fun raw material => ?_, hcheck⟩
  rw [hv]
  exact Verifier.steady_verify room v raw material

end Decisions

end Context

/-! ## Histories -/

/-- What can happen between two decisions: another decision, or other files. -/
inductive Deed (σ : Type) where
  | signatures (image : Image σ)
  | running (image : Image σ)
  | files (disk : Disk)

namespace Context

variable {c : Context σ} {v : Nat}

/-- The host after a deed. -/
def afterDeed (c : Context σ) (h : Host σ) : Deed σ → Host σ
  | .signatures image => (c.signaturesWithAcceptedAuthor image h).2
  | .running image => (c.isRunningAllowed image h).2
  | .files disk => { h with disk := disk }

/-- The host after these deeds. -/
def after (c : Context σ) (h : Host σ) (deeds : List (Deed σ)) : Host σ :=
  deeds.foldl c.afterDeed h

/-- What a verifier remembers does not show in its answers, and not in decisions: after any
decisions and any changes of files, a context that is ready decides as it does on a host on
which nothing was done yet, where the context is new. -/
theorem history_invisible (hv : c.environment.verifier = Verifier.ed25519 room v) {h₀ : Host σ}
    (hnew : h₀.caches v = .empty) :
    Verifier.Transparent v h₀ ∧
      ∀ deeds h, c.after h₀ deeds = h → h.stages c.number = .ready →
        ∀ image, image.In (.steady c.number) →
          (∀ check, c.environment.baseLayerCheck = some check →
            ∀ identity, Act.Steady c.number (check identity image)) →
          (c.signaturesWithAcceptedAuthor image h).1 =
              (c.signaturesWithAcceptedAuthor image (Host.fresh h.disk h.beyond)).1 ∧
            (c.isRunningAllowed image h).1 =
              (c.isRunningAllowed image (Host.fresh h.disk h.beyond)).1 := by
  refine ⟨Verifier.transparent_of_new hnew, ?_⟩
  rintro deeds h - hready image hi hcheck
  have halike : Host.Alike c.number h (Host.fresh h.disk h.beyond) := ⟨rfl, rfl, hready⟩
  constructor
  · exact (steady_signaturesWithAcceptedAuthor hv hi _ _ halike).1
  · exact (steady_isRunningAllowed hv hi hcheck _ _ halike).1

end Context

namespace Specimen

/-- The host before the signatures are stored. -/
def unsigned : Host Unit :=
  Host.fresh ⟨[(["manifest.json"], .file (Text.utf8Bytes "\x7b\x7d"))], []⟩ ()

/-- Both questions are asked in vain, and then the signatures are stored. -/
def past : List (Deed Unit) := [.signatures image, .running image, .files disk]

def material : Bytes := Text.utf8Bytes keys

theorem exists_ring : ∃ r, (Verifier.ring 0 material unsigned).1 = .ok r := by
  have hreadable : (KeyBundle.load material).toBool = true := by decide +kernel
  have hkeys := Verifier.ring_keys 0 material unsigned
  cases hring : (Verifier.ring 0 material unsigned).1 with
  | ok r => exact ⟨r, rfl⟩
  | error f =>
      rw [hring] at hkeys
      cases hload : KeyBundle.load material with
      | ok keys =>
          rw [hload] at hkeys
          cases hkeys
      | error why =>
          rw [hload] at hreadable
          cases hreadable

end Specimen

open Specimen in
/-- A ring lasts until the verifier is closed, and the signatures are seen once they are there. -/
theorem history_invisible_specimen :
    unsigned.caches 0 = .empty ∧ (context.after unsigned past).stages context.number = .ready ∧
      (∃ r, (Verifier.ring 0 material unsigned).1 = .ok r ∧
        (Verifier.ring 0 material (Verifier.after 0 unsigned [.keys material])).1 = .ok r ∧
        ∀ r', (Verifier.ring 0 material
          (Verifier.after 0 unsigned [.keys material, .close])).1 = .ok r' →
            r'.serial ≠ r.serial) ∧
      (context.isRunningAllowed image (context.after unsigned past)).1 =
        (context.isRunningAllowed image host).1 := by
  have hv : context.environment.verifier = Verifier.ed25519 .standard 0 := rfl
  have hnew : unsigned.caches 0 = .empty := rfl
  have hready : (context.after unsigned past).stages context.number = .ready := rfl
  obtain ⟨hkeys, hdecisions⟩ := Context.history_invisible hv hnew
  obtain ⟨r, hring⟩ := exists_ring
  refine ⟨hnew, hready, ⟨r, hring, ?_, ?_⟩, ?_⟩
  · exact hkeys.unclosed [] material r hring [] (by simp)
  · exact hkeys.closed [] material r hring [.close] (by simp)
  · have hi : image.In (.steady context.number) :=
      Image.Addressed.within (.directory _ address)
    exact (hdecisions past _ rfl hready image hi (by simp [context])).2

end ImageTrust
