/-
# Data — documents of any format

A policy is written in JSON or in YAML, and YAML knows kinds of values that JSON does
not: bytes, moments, sets, and mappings whose keys are no texts.  A datum is a value of
either format; checking a document against a schema starts from here.
-/
import ImageTrust.Json.Basic

namespace ImageTrust

/-- A value of a document, as far as a schema can tell values apart. -/
inductive Datum where
  | null
  | bool (b : Bool)
  | int (i : Int)
  | float (x : Binary64)
  | text (t : Text)
  | bytes (b : Bytes)
  /-- A date, with or without a time, and its text. -/
  | moment (shown : Text)
  | list (items : List Datum)
  | set (items : List Datum)
  | pair (first second : Datum)
  | mapping (entries : List (Datum × Datum))

namespace Datum

instance : Inhabited Datum := ⟨.null⟩

mutual

/-- The datum that a JSON document is. -/
def ofJson : Json → Datum
  | .null => .null
  | .bool b => .bool b
  | .int i => .int i
  | .float x => .float x
  | .text t => .text t
  | .array items => .list (ofItems items)
  | .object members => .mapping (ofMembers members)

/-- The items of an array. -/
def ofItems : List Json → List Datum
  | [] => []
  | v :: rest => ofJson v :: ofItems rest

/-- The members of an object. -/
def ofMembers : List (Text × Json) → List (Datum × Datum)
  | [] => []
  | (name, v) :: rest => (.text name, ofJson v) :: ofMembers rest

end

/-- The value under a name in a mapping's entries. -/
def find? (name : Text) : List (Datum × Datum) → Option Datum
  | [] => none
  | (.text t, v) :: rest => if t = name then some v else find? name rest
  | _ :: rest => find? name rest

/-! ## Keys of mappings -/

/-- Whether two data are one key: numbers and truth values go by their value. -/
def isSameKey (a b : Datum) : Bool :=
  match a, b with
  | .null, .null => true
  | .text s, .text t => s = t
  | .bytes s, .bytes t => s = t
  | .moment s, .moment t => s = t
  | a, b =>
    match number? a, number? b with
    | some x, some y => isSameNumber x y
    | _, _ => false
where
  /-- The number that a key is. -/
  number? : Datum → Option Number
    | .bool b => some (.whole (if b then 1 else 0))
    | .int i => some (.whole i)
    | .float x => some (.binary x)
    | _ => none
  /-- Whether two numbers are equal, or both are no number. -/
  isSameNumber : Number → Number → Bool
    | .binary .nan, y => y = .binary .nan
    | x, .binary .nan => x = .binary .nan
    | x, y => !x.lt y && !y.lt x

/-- Entries in which a key has a value: in the place where it stood, or else at the end. -/
def put (key value : Datum) : List (Datum × Datum) → List (Datum × Datum)
  | [] => [(key, value)]
  | (k, v) :: rest =>
    if k.isSameKey key then (k, value) :: rest else (k, v) :: put key value rest

end Datum

end ImageTrust
