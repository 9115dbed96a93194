/-
# Stored images, and what reading them leaves alone

The library has two kinds of images, those in a directory and those of a lookaside store.
Reading either changes no file and moves no context, provided that the calls it makes do
not: the requests and the waiting of a store, and the identity of a reference that somebody
else wrote (`Image.Stored`).

So a decision about a stored image stays on the ground `still` on which it began, and the
digest of the manifest is the same all through it.
-/
import ImageTrust.Proofs.Decision
import ImageTrust.Proofs.Manner

namespace ImageTrust

variable {σ α : Type}

/-- The action leaves the files as they are and the context with this number where it is. -/
def Act.Spares (n : Nat) (x : Act σ α) : Prop :=
  ∀ h, (x h).2.disk = h.disk ∧ (x h).2.stages n = h.stages n

theorem Act.Spares.keeps {n : Nat} {x : Act σ α} (hx : Act.Spares n x) (disk : Disk) (s : Stage) :
    (Ground.still n disk s).Keeps x := by
  rintro h ⟨hdisk, hstage⟩
  obtain ⟨hdisk', hstage'⟩ := hx h
  exact ⟨hdisk'.trans hdisk, hstage'.trans hstage⟩

/-! ## Directories -/

namespace Directory

/-- The digest of the manifest, with these files. -/
def digestOn (root : Path) (disk : Disk) : Except Fault Text := do
  let bytes ← (disk.read (root.child manifestName)).mapError Fault.disk
  return Text.sentence ["sha256:", Text.ofHexBytes (Sha2.digest Sha2.sha256 bytes)]

theorem manifestDigest_apply (root : Path) (h : Host σ) :
    manifestDigest root h = (digestOn root h.disk, h) := by
  unfold manifestDigest manifest Act.readFile digestOn
  simp only [Act.bind_apply, Act.host_apply, Act.lift, Act.ofExcept_apply]
  cases h.disk.read (root.child manifestName) with
  | ok bytes => rfl
  | error why => rfl

end Directory

/-! ## Stored images -/

namespace Image

/-- An image in a directory or in a lookaside store, whose foreign parts spare the files and
the context with this number. -/
inductive Stored (n : Nat) : Image σ → Prop
  | directory (root : Path) (r : ImageReference σ) (identity : Act.Spares n r.identity)
      (namespaces : Act.Spares n r.namespaces) : Stored n (Directory.image root r)
  | lookaside (store : Lookaside σ) (r : ImageReference σ) (digest : Text)
      (identity : Act.Spares n r.identity) (namespaces : Act.Spares n r.namespaces)
      (get : ∀ url, Act.Spares n (store.get url)) (sleep : ∀ d, Act.Spares n (store.sleep d)) :
      Stored n (store.image r digest)

/-- What a judgement of an image depends on, on this host and with this room. -/
def factsOn (image : Image σ) (room : Room) (h : Host σ) : Facts :=
  ⟨h.disk, image.reference.docker, image.reference.shown, (image.manifestDigest h).1, room⟩

namespace Stored

variable {n : Nat} {c : Context σ} {image : Image σ}

/-- All questions to a stored image stay on the ground they are asked on. -/
theorem within (hi : image.Stored n) (disk : Disk) (s : Stage) :
    image.In (.keeping (Ground.still n disk s)) := by
  cases hi with
  | directory root r hid hns => exact .directory root (hid.keeps disk s) (hns.keeps disk s)
  | lookaside store r digest hid hns hget hsleep =>
      exact .lookaside digest (hid.keeps disk s) (hns.keeps disk s)
        (fun url => (hget url).keeps disk s) fun d => (hsleep d).keeps disk s

/-- A stored image shows the same facts as long as nobody touches the files. -/
theorem shows_factsOn (hi : image.Stored n) (room : Room) (h : Host σ) (s : Stage) :
    image.Shows (Ground.still n h.disk s) (image.factsOn room h) where
  disk _ hh := hh.1
  docker := rfl
  shown := rfl
  digest := by
    cases hi with
    | directory root r =>
        rintro h' ⟨hdisk, hstage⟩
        have hthere : (Directory.image root r).manifestDigest h' =
            (Directory.digestOn root h'.disk, h') := Directory.manifestDigest_apply root h'
        have hhere : ((Directory.image root r).factsOn room h).digest =
            Directory.digestOn root h.disk :=
          congrArg Prod.fst (Directory.manifestDigest_apply root h)
        rw [hthere, hhere, hdisk]
        exact ⟨rfl, hdisk, hstage⟩
    | lookaside store r digest => exact .pure _

end Stored

end Image

end ImageTrust
