/-
# Checking data against a schema

A check turns a datum into a value of a domain type, or says everything that is wrong
with it: each problem has a kind and the place where it was found.  The parts of a
structure are all checked, so the problems of several parts come together, in the order
of the parts.

Values are taken leniently: bytes count as the text they write, a set as a list, and
numbers and texts as integers where they denote one.
-/
import ImageTrust.Datum.Basic
import ImageTrust.Text.Blank
import ImageTrust.Text.Utf8

namespace ImageTrust

/-- The kinds of problems. -/
inductive ProblemKind where
  | missing
  | stringType
  | stringUnicode
  | stringTooShort
  | enumeration
  | literal
  | listType
  | mappingType
  | tooShort
  | modelType
  | modelAttributesType
  | tagNotFound
  | tagInvalid
  | rule (message : Text)
  | jsonInvalid
  | extraForbidden
  | intType
  | intParsing
  | intParsingSize
  | intFromFloat
  | finiteNumber
  | floatType
  | floatParsing
deriving DecidableEq

/-- The name under which a kind of problem is reported. -/
def ProblemKind.name : ProblemKind → Text
  | .missing => "missing"
  | .stringType => "string_type"
  | .stringUnicode => "string_unicode"
  | .stringTooShort => "string_too_short"
  | .enumeration => "enum"
  | .literal => "literal_error"
  | .listType => "list_type"
  | .mappingType => "dict_type"
  | .tooShort => "too_short"
  | .modelType => "model_type"
  | .modelAttributesType => "model_attributes_type"
  | .tagNotFound => "union_tag_not_found"
  | .tagInvalid => "union_tag_invalid"
  | .rule _ => "value_error"
  | .jsonInvalid => "json_invalid"
  | .extraForbidden => "extra_forbidden"
  | .intType => "int_type"
  | .intParsing => "int_parsing"
  | .intParsingSize => "int_parsing_size"
  | .intFromFloat => "int_from_float"
  | .finiteNumber => "finite_number"
  | .floatType => "float_type"
  | .floatParsing => "float_parsing"

/-- One step from a datum into it. -/
inductive Step where
  | name (t : Text)
  | index (i : Int)
deriving DecidableEq

/-- What is wrong, and where. -/
structure Problem where
  kind : ProblemKind
  place : List Step
deriving DecidableEq

/-- A checked value, or its problems. -/
abbrev Checked (α : Type) := Except (List Problem) α

namespace Checked

/-- A problem with the datum itself. -/
def fail {α : Type} (kind : ProblemKind) : Checked α := .error [⟨kind, []⟩]

/-- The check of a part: its problems lie one step further in. -/
def within {α : Type} (step : Step) (c : Checked α) : Checked α :=
  c.mapError fun problems => problems.map fun p => { p with place := step :: p.place }

/-- Two checks together; both report. -/
def both {α β : Type} : Checked α → Checked β → Checked (α × β)
  | .ok a, .ok b => .ok (a, b)
  | .error p, .ok _ => .error p
  | .ok _, .error q => .error q
  | .error p, .error q => .error (p ++ q)

/-- The checks of a list of parts. -/
def all {α : Type} : List (Checked α) → Checked (List α)
  | [] => .ok []
  | c :: rest => (both c (all rest)).map fun (a, more) => a :: more

/-- The checks of the items of a list, each under its index. -/
def items {α : Type} (check : Datum → Checked α) (ds : List Datum) : Checked (List α) :=
  all (ds.zipIdx.map fun (d, i) => (check d).within (.index i))

end Checked

namespace Datum

/-- A text, or bytes that write one. -/
def checkText : Datum → Checked Text
  | .text t => .ok t
  | .bytes b =>
    match Text.ofUtf8? false b with
    | some t => .ok t
    | none => .fail .stringUnicode
  | _ => .fail .stringType

/-- A text with at least one code point, and no surrogate. -/
def checkFullText (d : Datum) : Checked Text := do
  let t ← d.checkText
  if !t.isScalar then .fail .stringUnicode
  else if t.isEmpty then .fail .stringTooShort
  else .ok t

/-- A value that may be absent. -/
def checkOptional {α : Type} (check : Datum → Checked α) : Datum → Checked (Option α)
  | .null => .ok none
  | d => (check d).map some

/-- A list, or a set. -/
def checkList {α : Type} (check : Datum → Checked α) : Datum → Checked (List α)
  | .list ds | .set ds => .items check ds
  | _ => .fail .listType

/-- The most code points of a text that is read as an integer. -/
def maxIntegerText : Nat := 4300

/-- An integer: a whole number, a truth value, or a text that writes a whole number. -/
def checkInteger : Datum → Checked Int
  | .int i => .ok i
  | .bool b => .ok (if b then 1 else 0)
  | .float x =>
    match x with
    | .nan | .infinite _ => .fail .finiteNumber
    | .finite .. =>
      match x.whole? with
      | none => .fail .intFromFloat
      | some i => if i.natAbs < 2 ^ 63 then .ok i else .fail .intParsingSize
  | .text t =>
    let t := t.trimmed CodePoint.isBlank
    if maxIntegerText < t.length then .fail .intParsingSize
    else
      match Text.toInteger? t with
      | some i => .ok i
      | none => .fail .intParsing
  | _ => .fail .intType

/-- A double: a number, a truth value, or a text that writes a number. -/
def checkFloat : Datum → Checked Binary64
  | .float x => .ok x
  | .int i =>
    match (Number.whole i).toBinary64? with
    | some x => .ok x
    | none => .fail .floatType
  | .bool b => .ok (Binary64.ofInt (if b then 1 else 0))
  | .text t =>
    match Binary64.ofText? (t.trimmed CodePoint.isBlank) with
    | some x => .ok x
    | none => .fail .floatParsing
  | _ => .fail .floatType

/-! ## Members -/

/-- The value of a member that may be spelled in two ways, with the spelling found; the
first spelling wins. -/
def member? (name other : Text) (entries : List (Datum × Datum)) : Option (Text × Datum) :=
  match find? name entries with
  | some d => some (name, d)
  | none => (find? other entries).map fun d => (other, d)

/-- A member that has to be there. -/
def checkMember {α : Type} (name other : Text) (check : Datum → Checked α)
    (entries : List (Datum × Datum)) : Checked α :=
  match member? name other entries with
  | some (spelling, d) => (check d).within (.name spelling)
  | none => Checked.within (.name name) (.fail .missing)

/-- A member with a value to take where it is missing. -/
def checkDefaulted {α : Type} (name other : Text) (value : α) (check : Datum → Checked α)
    (entries : List (Datum × Datum)) : Checked α :=
  match member? name other entries with
  | some (spelling, d) => (check d).within (.name spelling)
  | none => .ok value

end Datum

end ImageTrust
