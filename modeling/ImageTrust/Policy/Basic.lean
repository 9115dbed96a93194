/-
# Policies

A policy has a list of requirements for each of its scopes, and one for everything else.
The most specific scope decides alone: first the identity of the image, then the scopes
around it from the inside out, then the default.  A scope with no requirements decides
too.
-/
import ImageTrust.Text.Quoted
import ImageTrust.Policy.Requirement
import ImageTrust.Json.Writer

namespace ImageTrust

/-- A signing policy. -/
structure Policy where
  default : List Requirement
  specific : List (Text × List Requirement)
deriving DecidableEq

namespace Policy

/-- Which list of a policy decides. -/
inductive Section where
  | default
  | specific (scope : Text)
deriving DecidableEq

/-- The section for an image with this identity inside these scopes, the innermost first. -/
def sectionFor (p : Policy) (identity : Text) (namespaces : List Text) : Section :=
  match (identity :: namespaces).find? fun scope => (p.specific.lookup scope).isSome with
  | some scope => .specific scope
  | none => .default

/-- The requirements of a section. -/
def requirements (p : Policy) : Section → List Requirement
  | .default => p.default
  | .specific scope => (p.specific.lookup scope).getD []

/-- The requirements for an image with this identity inside these scopes. -/
def governing (p : Policy) (identity : Text) (namespaces : List Text) : List Requirement :=
  p.requirements (p.sectionFor identity namespaces)

/-! ## Reading -/

/-- A list of requirements. -/
def checkRequirements : Datum → Checked (List Requirement) := Datum.checkList Requirement.check

/-- The requirements for everything else; there has to be one at least. -/
def checkDefault (d : Datum) : Checked (List Requirement) := do
  let rs ← checkRequirements d
  if rs.isEmpty then .fail .tooShort else .ok rs

/-- A mapping's key as a step into the mapping. Numbers that fit into sixty-four bits are kept,
anything else is shown. -/
def stepOf : Datum → Step
  | .null => .name "None"
  | .bool b => .index (if b then 1 else 0)
  | .int i => if -2 ^ 63 ≤ i ∧ i < 2 ^ 63 then .index i else .name (Text.integer i)
  | .float x => .name x.shortest
  | .text t => .name t.withoutSurrogates
  | .bytes b => .name (Text.quotedBytes b)
  | .moment shown => .name shown
  | _ => .name []

/-- One scope with its requirements. A key that is no text is a problem of its own. -/
def checkScope (entry : Datum × Datum) : Checked (Text × List Requirement) :=
  let (key, d) := entry
  Checked.within (stepOf key)
    (Checked.both (Checked.within (.name "[key]") key.checkText) (checkRequirements d))

/-- The scopes of a policy. -/
def checkSpecific : Datum → Checked (List (Text × List Requirement))
  | .mapping entries => (Checked.all (entries.map checkScope)).map Json.collect
  | _ => .fail .mappingType

/-- The policy that a document describes. -/
def check : Datum → Checked Policy
  | .mapping entries => do
    let (default, specific) ←
      Checked.both (Datum.checkMember "default" "default" checkDefault entries)
        (Datum.checkDefaulted "specific" "specific" [] checkSpecific entries)
    return { default, specific }
  | _ => .fail .modelType

/-! ## Writing -/

/-- A list of requirements as a document. -/
def listToJson (rs : List Requirement) : Json := .array (rs.map Requirement.toJson)

/-- The policy as a document. -/
def toJson (p : Policy) : Json :=
  .object
    [("default", listToJson p.default),
     ("specific", .object (p.specific.map fun (scope, rs) => (scope, listToJson rs)))]

/-- The policy as a text. A surrogate in it has no written form. -/
def toText? (p : Policy) : Option Text :=
  if p.toJson.isScalar then some (p.toJson.toText Json.Layout.indented) else none

end Policy

end ImageTrust
