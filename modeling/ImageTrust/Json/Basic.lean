/-
# JSON values

Policies, signature envelopes and claims are JSON documents.  A value keeps whole and
fractional numbers apart, because a schema may ask for the one or the other, and an
object keeps its members in the order of their first appearance.
-/
import ImageTrust.Number.Literal
import ImageTrust.Number.Shown

namespace ImageTrust

/-- A JSON document. -/
inductive Json where
  | null
  | bool (b : Bool)
  | int (i : Int)
  | float (x : Binary64)
  | text (t : Text)
  | array (items : List Json)
  | object (members : List (Text × Json))

namespace Json

instance : Inhabited Json := ⟨.null⟩

/-- A list of named values in which `name` holds `v`: in the place where it stood, or else
at the end. -/
def insertMember {α : Type} (name : Text) (v : α) : List (Text × α) → List (Text × α)
  | [] => [(name, v)]
  | (n, w) :: rest => if n = name then (n, v) :: rest else (n, w) :: insertMember name v rest

/-- The members of an object as they were read: of several with one name the last one
counts, in the place of the first. -/
def collect {α : Type} (members : List (Text × α)) : List (Text × α) :=
  members.foldl (fun done (name, v) => insertMember name v done) []

/-- The value of a member, where the object has it. -/
def member? (name : Text) : Json → Option Json
  | .object members => members.lookup name
  | _ => none

/-- The text, of a text. -/
def text? : Json → Option Text
  | .text t => some t
  | _ => none

mutual

/-- Whether every text in the document, names included, is free of surrogates. -/
def isScalar : Json → Bool
  | .text t => t.isScalar
  | .array items => areScalar items
  | .object members => areScalarMembers members
  | _ => true

/-- The same for the items of an array. -/
def areScalar : List Json → Bool
  | [] => true
  | v :: rest => isScalar v && areScalar rest

/-- The same for the members of an object. -/
def areScalarMembers : List (Text × Json) → Bool
  | [] => true
  | (name, v) :: rest => name.isScalar && isScalar v && areScalarMembers rest

end

end Json

end ImageTrust
