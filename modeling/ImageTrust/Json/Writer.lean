/-
# Writing JSON

One printer with a layout: claims are written without any blank, envelopes with a blank
behind each separator, policies on indented lines.  Only what JSON demands is escaped,
so a text that holds a surrogate has to be refused before its bytes are made.
-/
import ImageTrust.Json.Basic

namespace ImageTrust

namespace Json

/-- Where blanks go. -/
structure Layout where
  itemSeparator : Text
  nameSeparator : Text
  /-- How far a line is indented for each open container; without it there is one line. -/
  indentation : Option Nat

/-- No blanks. -/
def Layout.compact : Layout := ⟨",", ":", none⟩

/-- A blank behind each separator. -/
def Layout.spaced : Layout := ⟨", ", ": ", none⟩

/-- A line for each item, two blanks further in than its container. -/
def Layout.indented : Layout := ⟨",", ": ", some 2⟩

/-- One code point of a text. -/
def escaped (c : CodePoint) : Text :=
  if c = '"' then "\\\""
  else if c = '\\' then "\\\\"
  else if c = '\x08' then "\\b"
  else if c = '\x0c' then "\\f"
  else if c = '\n' then "\\n"
  else if c = '\r' then "\\r"
  else if c = '\t' then "\\t"
  else if c.val < 0x20 then "\\u" ++ Text.hexadecimal 4 c.val
  else [c]

/-- A text in quotes. -/
def writeText (t : Text) : Text := (CodePoint.ofChar '"' :: t.flatMap escaped) ++ [CodePoint.ofChar '"']

/-- The break before an item inside `depth` containers. -/
def Layout.newline (l : Layout) (depth : Nat) : Text :=
  match l.indentation with
  | none => []
  | some n => CodePoint.ofChar '\n' :: List.replicate (n * depth) ' '

/-- A container: its items, broken from the brackets unless there are none. -/
def bracketed (l : Layout) (depth : Nat) (opening closing : CodePoint) (items : List Text) : Text :=
  match items with
  | [] => [opening, closing]
  | _ =>
    let lines := items.map fun item => l.newline (depth + 1) ++ item
    opening :: Text.joined l.itemSeparator lines ++ l.newline depth ++ [closing]

mutual

/-- A document inside `depth` containers. -/
def write (l : Layout) (depth : Nat) : Json → Text
  | .null => "null"
  | .bool true => "true"
  | .bool false => "false"
  | .int i => Text.integer i
  | .float x => x.shortest
  | .text t => writeText t
  | .array items => bracketed l depth '[' ']' (writeItems l (depth + 1) items)
  | .object members => bracketed l depth '{' '}' (writeMembers l (depth + 1) members)

/-- The items of an array. -/
def writeItems (l : Layout) (depth : Nat) : List Json → List Text
  | [] => []
  | v :: rest => write l depth v :: writeItems l depth rest

/-- The members of an object. -/
def writeMembers (l : Layout) (depth : Nat) : List (Text × Json) → List Text
  | [] => []
  | (name, v) :: rest =>
    (writeText name ++ l.nameSeparator ++ write l depth v) :: writeMembers l depth rest

end

/-- The document as a text. -/
def toText (l : Layout) (v : Json) : Text := v.write l 0

end Json

end ImageTrust
