/-
# Disk — the files a decision reads

A tree of files and directories, as a finite list of entries, and the directory in it where
paths start that are not rooted.  Only the root is there without an entry.  An operation
follows its path from directory to directory, and up again at two dots, and fails at the
first step that cannot be made.
-/
import ImageTrust.Disk.Path
import ImageTrust.Text.Utf8

namespace ImageTrust

/-- What an entry of a directory is. -/
inductive Node where
  | file (content : Bytes)
  | directory
  /-- A file that the process may not open. -/
  | sealedFile
  /-- A directory that the process may not look into. -/
  | sealedDirectory
deriving DecidableEq

/-- A place in the tree: the names that lead to it from the root. -/
abbrev Place := List Text

/-- One name further, from a directory. Above the root is the root. -/
def Place.next (p : Place) (name : Text) : Place :=
  if name = ".." then p.dropLast else p ++ [name]

/-- The entries of the tree, each at its place, and the place of the working directory. -/
structure Disk where
  entries : List (Place × Node)
  workdir : Place
deriving DecidableEq

namespace Disk

/-- The reasons of the system for which an operation fails. -/
inductive Reason where
  | noEntry
  | noPermission
  | notDirectory
  | isDirectory
  | nameTooLong
deriving DecidableEq, Repr

/-- Number and wording of a reason. -/
def Reason.message : Reason → Text
  | .noEntry => "[Errno 2] No such file or directory"
  | .noPermission => "[Errno 13] Permission denied"
  | .notDirectory => "[Errno 20] Not a directory"
  | .isDirectory => "[Errno 21] Is a directory"
  | .nameTooLong => "[Errno 36] File name too long"

/-- Why an operation fails: the system says so, or the path is none for the system. -/
inductive Failure where
  | system (reason : Reason) (path : Path)
  | zeroByte
  | surrogate (path : Path)
deriving DecidableEq

/-- The place of the first surrogate of a text, and the surrogates from there on. -/
def surrogateRun (t : Text) : Nat × Text :=
  let before := t.takeWhile fun c => !c.isSurrogate
  (before.length, (t.drop before.length).takeWhile CodePoint.isSurrogate)

/-- The complaint about a text that has no UTF-8 form. -/
def noUtf8Message (t : Text) : Text :=
  let (start, run) := surrogateRun t
  match run with
  | [c] =>
    Text.sentence ["'utf-8' codec can't encode character '\\u", Text.hexadecimal 4 c.val,
      "' in position ", Text.decimal start, ": surrogates not allowed"]
  | _ =>
    Text.sentence ["'utf-8' codec can't encode characters in position ", Text.decimal start, "-",
      Text.decimal (start + run.length - 1), ": surrogates not allowed"]

/-- The wording of a failure. -/
def Failure.message : Failure → Text
  | .system reason path => Text.sentence [reason.message, ": ", path.shown.quoted]
  | .zeroByte => "embedded null byte"
  | .surrogate path => noUtf8Message path.shown

/-! ## Following a path -/

/-- What is at a place. -/
def node? (d : Disk) (p : Place) : Option Node :=
  if p = [] then some .directory else d.entries.lookup p

/-- The most bytes of a name. -/
def maxNameBytes : Nat := 255

/-- The most bytes of a path. -/
def maxPathBytes : Nat := 4095

/-- The place that the names lead to; each has to be looked up in a directory. -/
def follow (d : Disk) : Place → List Text → Except Reason Place
  | p, [] => .ok p
  | p, name :: rest =>
    match d.node? p with
    | none => .error .noEntry
    | some (.file _) | some .sealedFile => .error .notDirectory
    | some .sealedDirectory => .error .noPermission
    | some .directory =>
      if maxNameBytes < name.utf8Bytes.length then .error .nameTooLong
      else follow d (p.next name) rest

/-- Whether the system has bytes for a code point of a path. The low surrogates from `0xDC80`
on stand for single bytes that are no UTF-8. -/
def isEncodable (c : CodePoint) : Bool := !c.isSurrogate || c.within 0xDC80 0xDCFF

/-- The place where a path starts. -/
def start (d : Disk) (path : Path) : Place := if path.anchor = [] then d.workdir else []

/-- The place that a path leads to. -/
def locate (d : Disk) (path : Path) : Except Failure Place :=
  let shown := path.shown
  if !shown.all isEncodable then .error (.surrogate path)
  else if shown.any fun c => c.val == 0 then .error .zeroByte
  else if maxPathBytes < shown.utf8Bytes.length then .error (.system .nameTooLong path)
  else (d.follow (d.start path) path.names).mapError (.system · path)

/-! ## Operations -/

/-- The content of a file. -/
def read (d : Disk) (path : Path) : Except Failure Bytes := do
  match d.node? (← d.locate path) with
  | some (.file content) => .ok content
  | some .directory => .error (.system .isDirectory path)
  | some .sealedFile | some .sealedDirectory => .error (.system .noPermission path)
  | none => .error (.system .noEntry path)

/-- Whether the path leads anywhere. A name that is too long and a directory that is sealed
give no answer to that. -/
def exists? (d : Disk) (path : Path) : Except Failure Bool :=
  match d.locate path with
  | .ok p => .ok (d.node? p).isSome
  | .error (.system .nameTooLong path) => .error (.system .nameTooLong path)
  | .error (.system .noPermission path) => .error (.system .noPermission path)
  | .error _ => .ok false

/-- The disk with an entry. -/
def put (d : Disk) (p : Place) (node : Node) : Disk :=
  { d with entries := (p, node) :: d.entries.filter fun e => e.1 ≠ p }

/-- The disk without an entry. -/
def erase (d : Disk) (p : Place) : Disk :=
  { d with entries := d.entries.filter fun e => e.1 ≠ p }

/-- The disk after a file is written, over the old content if there is one. -/
def write (d : Disk) (path : Path) (content : Bytes) : Except Failure Disk := do
  let p ← d.locate path
  match d.node? p with
  | some .directory | some .sealedDirectory => .error (.system .isDirectory path)
  | some .sealedFile => .error (.system .noPermission path)
  | _ => .ok (d.put p (.file content))

/-- The disk after a file is removed. -/
def unlink (d : Disk) (path : Path) : Except Failure Disk := do
  let p ← d.locate path
  match d.node? p with
  | some (.file _) | some .sealedFile => .ok (d.erase p)
  | some .directory | some .sealedDirectory => .error (.system .isDirectory path)
  | none => .error (.system .noEntry path)

/-! ## Whole trees -/

/-- The disk with nothing on it but the root, where the process works. -/
def empty : Disk := ⟨[], []⟩

/-- The disk with a directory and the directories on the way to it. -/
def makeDirectories (d : Disk) (p : Place) : Disk :=
  (List.range p.length).foldl
    (fun d n =>
      let upper := p.take (n + 1)
      if (d.node? upper).isSome then d else d.put upper .directory)
    d

/-- The place that a path means, whatever is on the way. -/
def placeOf (d : Disk) (path : Path) : Place := path.names.foldl Place.next (d.start path)

/-- The disk with a node where a path leads, and the directories on the way there. -/
def plant (d : Disk) (path : Path) (node : Node) : Disk :=
  let p := d.placeOf path
  match node with
  | .directory => d.makeDirectories p
  | _ => (d.makeDirectories p.dropLast).put p node

/-- The disk without the entry at a path and everything below it. -/
def prune (d : Disk) (path : Path) : Disk :=
  let p := d.placeOf path
  { d with entries := d.entries.filter fun e => !p.isPrefixOf e.1 }

/-- The names in a directory, in order. -/
def names (d : Disk) (path : Path) : List Text :=
  let p := d.placeOf path
  let inside := d.entries.filterMap fun e =>
    if e.1.length = p.length + 1 ∧ p.isPrefixOf e.1 then e.1.getLast? else none
  inside.mergeSort Text.le

end Disk

end ImageTrust
