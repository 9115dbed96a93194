/-
# Actions on a host

A decision reads files, parses keys, reports what it does, and asks collaborators that it
knows nothing about.  All of that is state of one host: the disk, the stage of each
context, the keys that each verifier has read, the journal, and whatever the collaborators
keep.  An action turns a host into a result or a fault, and the host after it; a fault
does not undo what was done before it.

A collaborator is an action too, and may do anything to the host that an action can do.
So a decision that is begun while another one waits for a collaborator needs no extra
machinery.
-/
import ImageTrust.Fault.Basic
import ImageTrust.Journal
import ImageTrust.Keys.Cache

namespace ImageTrust

/-- The stages in the life of a context. -/
inductive Stage where
  | ready
  | inUse
  | destroyed
deriving DecidableEq, Repr

/-- The name of a stage. -/
def Stage.name : Stage → Text
  | .ready => "ready"
  | .inUse => "in_use"
  | .destroyed => "destroyed"

/-- Everything an action can read or change. Contexts and verifiers are numbered; `beyond`
is what collaborators keep. -/
structure Host (σ : Type) where
  disk : Disk
  stages : Nat → Stage
  caches : Nat → KeyCache
  journal : List Entry
  beyond : σ

/-- A step that may fail. -/
def Act (σ α : Type) : Type := Host σ → Except Fault α × Host σ

namespace Act

variable {σ α β : Type}

/-- The action that does nothing and has this result. -/
protected def pure (a : α) : Act σ α := fun h => (.ok a, h)

/-- One action and then the next; a fault of the first is the fault of both. -/
protected def bind (x : Act σ α) (f : α → Act σ β) : Act σ β := fun h =>
  match x h with
  | (.ok a, h) => f a h
  | (.error e, h) => (.error e, h)

instance : Monad (Act σ) where
  pure := Act.pure
  bind := Act.bind

/-- The action that fails. -/
def fail (f : Fault) : Act σ α := fun h => (.error f, h)

/-- The outcome of an action, whether it fails or not. -/
def outcome (x : Act σ α) : Act σ (Except Fault α) := fun h =>
  let (result, h) := x h
  (.ok result, h)

/-- The action with this outcome. -/
def ofExcept (e : Except Fault α) : Act σ α := fun h => (e, h)

/-- The action with this outcome, its error told as a fault. -/
def lift {ε : Type} (wrap : ε → Fault) (e : Except ε α) : Act σ α := ofExcept (e.mapError wrap)

/-- The host as it is. -/
def host : Act σ (Host σ) := fun h => (.ok h, h)

/-- A change of the host. -/
def modify (f : Host σ → Host σ) : Act σ Unit := fun h => (.ok (), f h)

/-- A record for the journal. -/
def log (level : Level) (channel : Channel) (parts : List Text) : Act σ Unit :=
  modify fun h => { h with journal := h.journal ++ [⟨level, channel, Text.sentence parts⟩] }

/-! ## Files -/

/-- The content of a file. -/
def readFile (path : Path) : Act σ Bytes := do lift .disk ((← host).disk.read path)

/-- Whether a path leads anywhere. -/
def exists? (path : Path) : Act σ Bool := do lift .disk ((← host).disk.exists? path)

/-- A change of the disk that may fail. -/
def changeDisk (f : Disk → Except Disk.Failure Disk) : Act σ Unit := fun h =>
  match f h.disk with
  | .ok d => (.ok (), { h with disk := d })
  | .error why => (.error (.disk why), h)

/-! ## Numbered state -/

/-- A function with another value at one argument. -/
def replace {γ : Type} (f : Nat → γ) (i : Nat) (c : γ) : Nat → γ := fun j => if j = i then c else f j

/-- The stage of a context. -/
def stage (context : Nat) : Act σ Stage := fun h => (.ok (h.stages context), h)

/-- Another stage for a context. -/
def setStage (context : Nat) (s : Stage) : Act σ Unit :=
  modify fun h => { h with stages := replace h.stages context s }

/-- Another cache for a verifier. -/
def setCache (verifier : Nat) (c : KeyCache) : Act σ Unit :=
  modify fun h => { h with caches := replace h.caches verifier c }

end Act

end ImageTrust
