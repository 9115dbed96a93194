/-
# Documents

A document is read from its tokens: directives first, where there are any, then one node with
all that is in it.  Each rule looks at the next token and nothing else; a defect of the text
shows when its token is looked at.
-/
import ImageTrust.Room
import ImageTrust.Yaml.Lexer
import ImageTrust.Yaml.Literal
import ImageTrust.Yaml.Node

namespace ImageTrust

namespace Yaml

/-- What is left of the tokens, and what has been declared so far. -/
structure Reading where
  tokens : List Token
  handles : List (Text × Text)
  anchors : List (Text × Node)

/-- A step of the reading of a document. -/
abbrev Read (α : Type) := StateT Reading (Except Defect) α

namespace Read

/-- The text is no document. -/
def malformed {α : Type} : Read α := throw .malformed

/-- The next token. A defect of the text shows here. -/
def peek : Read Token := do
  match (← get).tokens with
  | .fault why :: _ => throw why
  | t :: _ => return t
  | [] => malformed

/-- The reading goes on behind the next token. -/
def advance : Read Unit := modify fun s => { s with tokens := s.tokens.tail }

/-- Whether this token comes next; if so, the reading goes on behind it. -/
def accept (t : Token) : Read Bool := do
  if (← peek) = t then
    advance
    return true
  else return false

/-- This token comes next. -/
def expect (t : Token) : Read Unit := do
  if !(← accept t) then malformed

/-- The scalar that stands where nothing is written. -/
def nothing : Node := .scalar .null []

/-- What may stand in the place of a node. -/
inductive Place where
  /-- Inside brackets or braces. -/
  | flow
  /-- Outside of them. -/
  | block
  /-- Behind the sign of a key or value, where the items of a list need not be indented. -/
  | entry
deriving DecidableEq, Repr

/-- The anchor and the tag before a node, in either order. -/
def properties : Read (Option Text × Option TagSpelling) := do
  match ← peek with
  | .anchor name =>
    advance
    match ← peek with
    | .tag spelling =>
      advance
      return (some name, some spelling)
    | _ => return (some name, none)
  | .tag spelling =>
    advance
    match ← peek with
    | .anchor name =>
      advance
      return (some name, some spelling)
    | _ => return (none, some spelling)
  | _ => return (none, none)

/-- The whole tag of a node. The lone exclamation mark is as good as none, but for a scalar in
quotes, which is then read as if it had no quotes. -/
def resolved : Option TagSpelling → Read (Option Text)
  | none => return none
  | some spelling => do
    match spelling.uri? (← get).handles with
    | some uri => return some uri
    | none => malformed

/-- The kind of a list's or mapping's value, where no tag says it. -/
def kindOr (kind : Tag) : Option Text → Tag
  | none => kind
  | some uri => if uri = "!" then kind else .ofUri uri

/-- The node of a scalar. -/
def scalarNode (uri : Option Text) (plain : Bool) (text : Text) : Node :=
  match uri with
  | none => .scalar (if plain then Literal.kind text else .text) text
  | some uri => .scalar (if uri = "!" then Literal.kind text else .ofUri uri) text

/-- An anchor is declared; it must be the first of its name. -/
def declare (anchor : Option Text) : Read Unit := do
  match anchor with
  | none => pure ()
  | some name =>
    if ((← get).anchors.lookup name).isSome then malformed
    else modify fun s => { s with anchors := (name, .ring name) :: s.anchors }

/-- A node is complete, and what its anchor stands for is known, inside of other nodes too. -/
def define (anchor : Option Text) (node : Node) : Read Node := do
  match anchor with
  | none => return node
  | some name =>
    let node := node.closed name
    let known (entry : Text × Node) : Text × Node :=
      if entry.2.hasRing name then (entry.1, entry.2.fill name node) else entry
    modify fun s => { s with anchors := (name, node) :: s.anchors.map known }
    return node

/-- Whether nothing is written where a key or value could be: one of these signs follows. -/
def isEmptyBefore (ends : List Token) : Read Bool := do return ends.contains (← peek)

mutual

/-- The next node, with room for `depth` lists and mappings inside one another. -/
def node (depth : Nat) (place : Place) : Read Node := do
  match ← peek with
  | .alias name =>
    advance
    match (← get).anchors.lookup name with
    | some n => return n
    | none => malformed
  | _ =>
    let (anchor, spelling) ← properties
    let uri ← resolved spelling
    let t ← peek
    let fuel := (← get).tokens.length + 1
    let opens : Bool := match t with
      | .flowListStart | .flowMappingStart => true
      | .listStart | .mappingStart => place ≠ .flow
      | .item => place = .entry
      | _ => false
    if opens then
      declare anchor
      match depth with
      | 0 => throw .tooDeep
      | depth + 1 =>
        if t = .item then
          define anchor (.list (kindOr .list uri) (← bareItems depth fuel))
        else
          advance
          if t = .flowListStart then
            define anchor (.list (kindOr .list uri) (← flowItems depth true fuel))
          else if t = .listStart then
            define anchor (.list (kindOr .list uri) (← items depth fuel))
          else if t = .flowMappingStart then
            define anchor (.mapping (kindOr .mapping uri) (← flowEntries depth true fuel))
          else define anchor (.mapping (kindOr .mapping uri) (← entries depth fuel))
    else
      match t with
      | .scalar text plain =>
        advance
        declare anchor
        define anchor (scalarNode uri plain text)
      | _ =>
        if anchor.isNone && uri.isNone then malformed
        else
          declare anchor
          define anchor (scalarNode uri true [])
termination_by (depth, 0)

/-- The rest of the items in brackets. A key and a value stand for a mapping of the two. -/
def flowItems (depth : Nat) (first : Bool) : Nat → Read (List Node)
  | 0 => malformed
  | fuel + 1 => do
    if ← accept .flowListEnd then return []
    else
      if !first then expect .comma
      let t ← peek
      if t = .flowListEnd then
        advance
        return []
      else if t = .key then
        advance
        let key ←
          if ← isEmptyBefore [.value, .comma, .flowListEnd] then pure nothing
          else node depth .flow
        let value ←
          if ← accept .value then
            if ← isEmptyBefore [.comma, .flowListEnd] then pure nothing else node depth .flow
          else pure nothing
        return .mapping .mapping [(key, value)] :: (← flowItems depth false fuel)
      else
        let n ← node depth .flow
        return n :: (← flowItems depth false fuel)
termination_by fuel => (depth, fuel)

/-- The rest of the entries in braces. -/
def flowEntries (depth : Nat) (first : Bool) : Nat → Read (List (Node × Node))
  | 0 => malformed
  | fuel + 1 => do
    if ← accept .flowMappingEnd then return []
    else
      if !first then expect .comma
      let t ← peek
      if t = .flowMappingEnd then
        advance
        return []
      else if t = .key then
        advance
        let key ←
          if ← isEmptyBefore [.value, .comma, .flowMappingEnd] then pure nothing
          else node depth .flow
        let value ←
          if ← accept .value then
            if ← isEmptyBefore [.comma, .flowMappingEnd] then pure nothing else node depth .flow
          else pure nothing
        return (key, value) :: (← flowEntries depth false fuel)
      else
        let key ← node depth .flow
        let _ ← peek
        return (key, nothing) :: (← flowEntries depth false fuel)
termination_by fuel => (depth, fuel)

/-- The rest of the items of an indented list. -/
def items (depth : Nat) : Nat → Read (List Node)
  | 0 => malformed
  | fuel + 1 => do
    if ← accept .item then
      let n ←
        if ← isEmptyBefore [.item, .blockEnd] then pure nothing else node depth .block
      return n :: (← items depth fuel)
    else
      expect .blockEnd
      return []
termination_by fuel => (depth, fuel)

/-- The rest of the items of a list that is not indented. -/
def bareItems (depth : Nat) : Nat → Read (List Node)
  | 0 => malformed
  | fuel + 1 => do
    if ← accept .item then
      let n ←
        if ← isEmptyBefore [.item, .key, .value, .blockEnd] then pure nothing
        else node depth .block
      return n :: (← bareItems depth fuel)
    else return []
termination_by fuel => (depth, fuel)

/-- The rest of the entries of a mapping outside of braces. -/
def entries (depth : Nat) : Nat → Read (List (Node × Node))
  | 0 => malformed
  | fuel + 1 => do
    if ← accept .key then
      let key ←
        if ← isEmptyBefore [.key, .value, .blockEnd] then pure nothing else node depth .entry
      let value ←
        if ← accept .value then
          if ← isEmptyBefore [.key, .value, .blockEnd] then pure nothing else node depth .entry
        else pure nothing
      return (key, value) :: (← entries depth fuel)
    else
      expect .blockEnd
      return []
termination_by fuel => (depth, fuel)

end

/-! ## Documents -/

/-- The directives in front of a document; whether the version has been given already. -/
def directives (versioned : Bool) : Nat → Read Unit
  | 0 => malformed
  | fuel + 1 => do
    match ← peek with
    | .version major =>
      if versioned || major != 1 then malformed
      else
        advance
        directives true fuel
    | .handle name stem =>
      if ((← get).handles.lookup name).isSome then malformed
      else
        modify fun s => { s with handles := (name, stem) :: s.handles }
        advance
        directives versioned fuel
    | .otherDirective =>
      advance
      directives versioned fuel
    | _ => modify fun s => { s with handles := s.handles ++ Tag.handles }

/-- Whether the next token is a directive or the start of a document. -/
def isAtDocument : Read Bool := do
  match ← peek with
  | .version _ | .handle .. | .otherDirective | .documentStart => return true
  | _ => return false

/-- The markers behind a document are passed over. -/
def skipEnds : Nat → Read Unit
  | 0 => malformed
  | fuel + 1 => do
    if ← accept .documentEnd then skipEnds fuel

/-- The one document of a text; an empty text has none. -/
def document (room : Room) : Read (Option Node) := do
  let fuel := (← get).tokens.length + 1
  if (← peek) = .textEnd then return none
  else
    let root ←
      if ← isAtDocument then
        directives false fuel
        expect .documentStart
        if (← isAtDocument) || (← isEmptyBefore [.documentEnd, .textEnd]) then pure nothing
        else node room.yaml .block
      else
        modify fun s => { s with handles := Tag.handles }
        node room.yaml .block
    skipEnds fuel
    if (← peek) = .textEnd then return some root
    else
      modify fun s => { s with handles := [] }
      directives false fuel
      malformed

end Read

/-- The root of the document that a text of YAML writes, where there is one. -/
def Node.ofText? (room : Room) (t : Text) : Except Defect (Option Node) := do
  match t.toYaml? with
  | none => throw .malformed
  | some t =>
    let start := { tokens := Token.ofText t, handles := [], anchors := [] }
    let (root, _) ← (Read.document room).run start
    return root

end Yaml

end ImageTrust
