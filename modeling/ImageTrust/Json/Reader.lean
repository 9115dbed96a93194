/-
# Reading JSON

A document is read from its tokens, one at a time, by a machine whose state says what
may come next and which containers are still open.  What is wrong with a document is
the first thing wrong with it: a token out of place, a text or a number that cannot be
read, or a container too deep inside others.

Three readers share the machine.  Policies are texts; envelopes are bytes in any of the
Unicode encodings; claims are UTF-8, in which no lone surrogate may be escaped, be it in a
member that another one of the same name replaces.
-/
import ImageTrust.Json.Token
import ImageTrust.Room
import ImageTrust.Text.Utf8
import ImageTrust.Text.Wide

namespace ImageTrust

namespace Json

/-- The kinds of containers. -/
inductive Container where
  | array
  | object
deriving DecidableEq, Repr

/-- The reasons for which a text is no document. -/
inductive Defect where
  | syntaxError (what : Complaint) (line column offset : Nat)
  | longInteger (digits : Nat)
  | tooDeep (container : Container)
deriving DecidableEq, Repr

/-- The wording of a defect. -/
def Defect.message : Defect → Text
  | .syntaxError what line column offset =>
    Text.sentence [what.message, ": line ", Text.decimal line, " column ", Text.decimal column,
      " (char ", Text.decimal offset, ")"]
  | .longInteger digits => Number.tooLong digits
  | .tooDeep .array =>
    "maximum recursion depth exceeded while decoding a JSON array from a unicode string"
  | .tooDeep .object =>
    "maximum recursion depth exceeded while decoding a JSON object from a unicode string"

/-- What stops the machine: a complaint about the text from `here` on, or a limit. -/
inductive Stop where
  | complaint (what : Complaint) (here : Text)
  | longInteger (digits : Nat)
  | tooDeep (container : Container)

/-- An open container with what it holds so far, the last first. An object waits for the
value of the member `name`. -/
inductive Frame where
  | array (items : List Json)
  | object (members : List (Text × Json)) (name : Text)

/-- What the machine waits for. The frames are the containers around it, the innermost
first. -/
inductive State where
  | value (outer : List Frame)
  | firstItem (outer : List Frame)
  | moreItems (items : List Json) (outer : List Frame)
  | firstName (outer : List Frame)
  | nextName (members : List (Text × Json)) (outer : List Frame)
  | colon (members : List (Text × Json)) (name : Text) (outer : List Frame)
  | moreMembers (members : List (Text × Json)) (outer : List Frame)
  | finished (v : Json)

/-- The state after a whole value. -/
def State.after (v : Json) : List Frame → State
  | [] => .finished v
  | .array items :: outer => .moreItems (v :: items) outer
  | .object members name :: outer => .moreMembers ((name, v) :: members) outer

/-- A value begins: a scalar is whole at once, a container opens unless too many are open. -/
def State.begin (depth : Nat) (outer : List Frame) (l : Lexeme) : Except Stop State :=
  match l.token with
  | .scalar v => .ok (.after v outer)
  | .text t => .ok (.after (.text t) outer)
  | .openArray => if depth ≤ outer.length then .error (.tooDeep .array) else .ok (.firstItem outer)
  | .openObject => if depth ≤ outer.length then .error (.tooDeep .object) else .ok (.firstName outer)
  | .longInteger digits => .error (.longInteger digits)
  | .brokenText what here => .error (.complaint what here)
  | _ => .error (.complaint .expectingValue l.here)

/-- A member begins with its name. -/
def State.beginMember (members : List (Text × Json)) (outer : List Frame) (l : Lexeme) :
    Except Stop State :=
  match l.token with
  | .text t => .ok (.colon members t outer)
  | .brokenText what here => .error (.complaint what here)
  | _ => .error (.complaint .expectingName l.here)

/-- One token. `depth` is the number of containers that may be open at once. -/
def State.step (depth : Nat) : State → Lexeme → Except Stop State
  | .value outer, l => begin depth outer l
  | .firstItem outer, l =>
    match l.token with
    | .closeArray => .ok (.after (.array []) outer)
    | _ => begin depth (.array [] :: outer) l
  | .moreItems items outer, l =>
    match l.token with
    | .comma => .ok (.value (.array items :: outer))
    | .closeArray => .ok (.after (.array items.reverse) outer)
    | _ => .error (.complaint .expectingComma l.here)
  | .firstName outer, l =>
    match l.token with
    | .closeObject => .ok (.after (.object []) outer)
    | _ => beginMember [] outer l
  | .nextName members outer, l => beginMember members outer l
  | .colon members name outer, l =>
    match l.token with
    | .colon => .ok (.value (.object members name :: outer))
    | _ => .error (.complaint .expectingColon l.here)
  | .moreMembers members outer, l =>
    match l.token with
    | .comma => .ok (.nextName members outer)
    | .closeObject => .ok (.after (.object (collect members.reverse)) outer)
    | _ => .error (.complaint .expectingComma l.here)
  | .finished _, l => .error (.complaint .extraData l.here)

/-- The answer when the text ends. -/
def State.close : State → Except Stop Json
  | .finished v => .ok v
  | .value _ | .firstItem _ => .error (.complaint .expectingValue [])
  | .firstName _ | .nextName .. => .error (.complaint .expectingName [])
  | .colon .. => .error (.complaint .expectingColon [])
  | .moreItems .. | .moreMembers .. => .error (.complaint .expectingComma [])

/-- The whole run of the machine. -/
def State.run (depth : Nat) : State → List Lexeme → Except Stop Json
  | s, [] => s.close
  | s, l :: rest => do run depth (← s.step depth l) rest

/-- The defect of a text at the place where the rest `here` starts. Lines and columns count
from one. -/
def Defect.at (whole : Text) (what : Complaint) (here : Text) : Defect :=
  let offset := whole.length - here.length
  let before := whole.take offset
  let column := (before.reverse.takeWhile fun c : CodePoint => c ≠ '\n').length + 1
  .syntaxError what (before.count (CodePoint.ofChar '\n') + 1) column offset

/-- What a stop means for the whole text. -/
def Stop.toDefect (whole : Text) : Stop → Defect
  | .complaint what here => .at whole what here
  | .longInteger digits => .longInteger digits
  | .tooDeep container => .tooDeep container

/-- The document that a text writes, with at most `depth` containers inside each other. -/
def read (depth : Nat) (t : Text) : Except Defect Json :=
  ((State.value []).run depth (tokens t)).mapError (Stop.toDefect t)

/-- The document that a decoded file writes. A byte order mark is not part of a document. -/
def ofText (room : Room) (t : Text) : Except Defect Json :=
  match t with
  | [] => read room.json t
  | c :: _ =>
    if c = '\ufeff' then .error (.at t .byteOrderMark t) else read room.json t

/-! ## Documents in bytes -/

/-- The text that a document's bytes write. A byte order mark tells the encoding, and is
dropped; without one the zero bytes among the first four do. -/
def decode? (bytes : Bytes) : Option Text :=
  match bytes with
  | 0x00 :: 0x00 :: 0xFE :: 0xFF :: rest => Text.ofUtf32? .big rest
  | 0xFF :: 0xFE :: 0x00 :: 0x00 :: rest => Text.ofUtf32? .little rest
  | 0xFE :: 0xFF :: rest => Text.ofUtf16? .big rest
  | 0xFF :: 0xFE :: rest => Text.ofUtf16? .little rest
  | 0xEF :: 0xBB :: 0xBF :: rest => Text.ofUtf8? true rest
  | a :: b :: c :: d :: _ =>
    if a = 0 then
      if b = 0 then Text.ofUtf32? .big bytes else Text.ofUtf16? .big bytes
    else if b = 0 then
      if c = 0 && d = 0 then Text.ofUtf32? .little bytes else Text.ofUtf16? .little bytes
    else Text.ofUtf8? true bytes
  | [a, b] =>
    if a = 0 then Text.ofUtf16? .big bytes
    else if b = 0 then Text.ofUtf16? .little bytes
    else Text.ofUtf8? true bytes
  | _ => Text.ofUtf8? true bytes

/-! ## Strict documents -/

/-- The containers that may be open at once in claims. -/
def maxStrictDepth : Nat := 200

/-- Whether the token holds no lone surrogate. -/
def Token.isScalar : Token → Bool
  | .scalar v => v.isScalar
  | .text t => t.isScalar
  | _ => true

/-- The document that bytes write, if they are UTF-8 and no token holds a lone surrogate. -/
def ofStrictBytes? (bytes : Bytes) : Option Json := do
  let t ← Text.ofUtf8? false bytes
  if (tokens t).all fun l => l.token.isScalar then (read maxStrictDepth t).toOption else none

end Json

end ImageTrust
