/-
# Images in a directory

A directory holds the manifest of an image and its signatures, numbered from one without
a gap.  Reading goes on to the first number that is missing; there are only finitely many
entries on a disk, so it ends.
-/
import ImageTrust.Image

namespace ImageTrust

namespace Directory

variable {σ : Type}

/-- The name of the manifest. -/
def manifestName : Text := "manifest.json"

/-- The path of a signature, counted from zero. -/
def signaturePath (root : Path) (index : Int) : Path :=
  root.child (Text.sentence ["signature-", Text.integer (index + 1)])

/-- The bytes of the manifest. -/
def manifest (root : Path) : Act σ Bytes := Act.readFile (root.child manifestName)

/-- The digest of the manifest. -/
def manifestDigest (root : Path) : Act σ Text := do
  let bytes ← manifest root
  return Text.sentence ["sha256:", Text.ofHexBytes (Sha2.digest Sha2.sha256 bytes)]

/-- One more than there are entries on the disk: enough numbers to find one missing. -/
def enough : Act σ Nat := do return (← Act.host).disk.entries.length + 1

/-- The signatures from this number on, at most `fuel` of them. -/
def signaturesFrom (root : Path) (index : Nat) : Nat → Act σ (List Bytes)
  | 0 => pure []
  | fuel + 1 => do
    let path := signaturePath root index
    if ← Act.exists? path then
      let raw ← Act.readFile path
      let more ← signaturesFrom root (index + 1) fuel
      return raw :: more
    else return []

/-- The stored signatures, in order. -/
def signatures (root : Path) : Act σ (List Bytes) := do
  let raws ← signaturesFrom root 0 (← enough)
  Act.log .debug .directory ["Read ", Text.decimal raws.length, " signatures from ", root.shown]
  return raws

/-- Removes the signatures from this number on, at most `fuel` of them. -/
def clearFrom (root : Path) (index : Nat) : Nat → Act σ Unit
  | 0 => pure ()
  | fuel + 1 => do
    let path := signaturePath root index
    if ← Act.exists? path then
      Act.changeDisk fun d => d.unlink path
      clearFrom root (index + 1) fuel

/-- Writes signatures from this number on. -/
def writeFrom (root : Path) (index : Nat) : List Bytes → Act σ Unit
  | [] => pure ()
  | raw :: rest => do
    Act.changeDisk fun d => d.write (signaturePath root index) raw
    writeFrom root (index + 1) rest

/-- Puts these signatures in the place of the stored ones. -/
def putSignatures (root : Path) (raws : List Bytes) : Act σ Unit := do
  clearFrom root 0 (← enough)
  writeFrom root 0 raws

/-- The image in a directory, under an address from elsewhere. -/
def image (root : Path) (reference : ImageReference σ) : Image σ where
  reference := reference
  manifestDigest := manifestDigest root
  signatures := signatures root

end Directory

end ImageTrust
