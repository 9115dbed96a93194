/-
# Images

What a decision may ask of an image: how it was addressed, the digest of its manifest,
and its stored signatures.  Where these come from is up to the image, and each question
may fail.
-/
import ImageTrust.Host

namespace ImageTrust

/-- How an image was addressed, and what the policy goes by. -/
structure ImageReference (σ : Type) where
  docker : Option Reference
  identity : Act σ Text
  namespaces : Act σ (List Text)
  shown : Text

/-- An image whose signatures are still to be judged. -/
structure Image (σ : Type) where
  reference : ImageReference σ
  manifestDigest : Act σ Text
  signatures : Act σ (List Bytes)

variable {σ : Type}

/-- The reference that an address is. -/
def Address.toImageReference (a : Address) : ImageReference σ where
  docker := a.reference
  identity := Act.lift .ambiguous a.identity
  namespaces := pure a.namespaces
  shown := a.shown

namespace Image

/-- The stored signatures of an image. Whatever keeps them from being read is told as a
failure to fetch them. -/
def readSignatures (image : Image σ) : Act σ (List Bytes) := do
  match ← Act.outcome image.signatures with
  | .ok raws => return raws
  | .error f =>
    if f.isA .signatureFetch then Act.fail f
    else
      Act.log .warning .image
        ["Reading signatures of ", image.reference.shown, " failed: ", f.message]
      Act.fail (.fetchFailed image.reference.shown f)

end Image

end ImageTrust
