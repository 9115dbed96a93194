/-
# Block scalars

Behind `|` the lines of a scalar follow as they are, behind `>` they are folded.  The header
may say how far the lines are indented, and whether the line ends at the end are kept (`+`),
dropped (`-`) or made one.  Without a number the first line that is not empty tells the
indentation.
-/
import ImageTrust.Yaml.Cursor
import ImageTrust.Yaml.Defect

namespace ImageTrust

namespace Yaml

namespace Block

/-- What becomes of the line ends at the end of a block scalar. -/
inductive Chomping where
  | strip
  | clip
  | keep
deriving DecidableEq, Repr

/-- What the header of a block scalar says. -/
structure Header where
  chomping : Chomping
  increment : Option Nat

/-- The sign for the line ends, if the text starts with one, and what follows. -/
def takeChomping (t : Text) : Option Chomping × Text :=
  match t with
  | [] => (none, [])
  | c :: rest =>
    if c = '+' then (some .keep, rest)
    else if c = '-' then (some .strip, rest)
    else (none, t)

/-- The digit for the indentation, if the text starts with one, and what follows. It may not be
zero. -/
def takeIncrement (t : Text) : Except Defect (Option Nat × Text) :=
  match t with
  | [] => .ok (none, [])
  | c :: rest =>
    if c = '0' then .error .malformed
    else if c.isDigit then .ok (some (c.val - 0x30), rest)
    else .ok (none, t)

/-- The header, and the text from the next line on. The two signs may come in either order. -/
def header (t : Text) : Except Defect (Header × Text) := do
  let (early, t) := takeChomping t
  let (increment, t) ← takeIncrement t
  let (late, t) := if early = none ∧ increment ≠ none then takeChomping t else (none, t)
  if !t.startsSpaceOrBreak then .error .malformed
  else
    match t.afterComment? with
    | some rest => .ok ({ chomping := (early.or late).getD .clip, increment }, rest)
    | none => .error .malformed

/-- The longest row of spaces before a line end, or at the end, in a run of spaces and line
ends; `n` of them have come already. -/
def deepest : Nat → Text → Nat
  | n, [] => n
  | n, c :: t => if c.isLineBreak then max n (deepest 0 t) else deepest (n + 1) t

/-- The spaces at the end of a run of spaces and line ends. -/
def lastColumn (run : Text) : Nat := (run.reverse.takeWhile CodePoint.isSpace).length

/-- The empty lines at the start of a line, and how far the first other line is indented, as
far as `indent` reaches. -/
structure Gap where
  breaks : Text
  column : Nat
  rest : Text

/-- The gap here, where lines are indented by `indent` and this one by `column` so far. -/
def gapFrom (indent : Nat) : Nat → Text → Gap
  | column, [] => { breaks := [], column, rest := [] }
  | column, c :: t =>
    if c = ' ' ∧ column < indent then gapFrom indent (column + 1) t
    else if c.isLineBreak then
      let more := gapFrom indent 0 t
      { more with breaks := c :: more.breaks }
    else { breaks := [], column, rest := c :: t }

/-- The gap before the first line, and the indentation that the lines have: at least `least`,
and as deep as the deepest of the empty lines and the first other one. -/
def firstGap (least : Nat) (t : Text) : Gap × Nat :=
  let run : Text := t.takeWhile CodePoint.isSpaceOrBreak
  ({ breaks := run.breaks, column := lastColumn run, rest := t.drop run.length },
    max least (deepest 0 run))

/-- Whether a line starts with a space or a tab. -/
def isDeeper (line : Text) : Bool := (line.head?.map CodePoint.isGap).getD false

/-- What stands between two lines, of which the first has the end `close` and the empty lines
`between` behind it. -/
def joint (folds : Bool) (close between above below : Text) : Text :=
  if folds ∧ close = ("\n" : Text) ∧ !isDeeper above ∧ !isDeeper below then
    (if between = [] then [' '] else between)
  else close ++ between

/-- The lines from a gap on, with what they end in, and the text behind them. -/
def linesFrom (folds : Bool) (chomping : Chomping) (indent : Nat) : Nat → Text → Text × Text
  | 0, t => ([], t)
  | fuel + 1, t =>
    let line := t.takeWhile fun c => !c.isLineBreak
    let rest : Text := t.dropWhile fun c => !c.isLineBreak
    let close := rest.take 1
    let gap := gapFrom indent 0 rest.afterBreak
    if gap.column = indent ∧ gap.rest ≠ [] then
      let (more, behind) := linesFrom folds chomping indent fuel gap.rest
      (line ++ joint folds close gap.breaks line gap.rest ++ more, behind)
    else
      let ending := match chomping with
        | .strip => []
        | .clip => close
        | .keep => close ++ gap.breaks
      (line ++ ending, gap.rest)

/-- The value of a block scalar and what follows it, from behind its sign, where the lines are
indented by at least `least`. -/
def body (folds : Bool) (least : Nat) (t : Text) : Except Defect (Text × Text) := do
  let (header, t) ← header t
  let (gap, indent) := match header.increment with
    | some n => (gapFrom (least + n - 1) 0 t, least + n - 1)
    | none => firstGap least t
  if gap.column = indent ∧ gap.rest ≠ [] then
    let (lines, rest) := linesFrom folds header.chomping indent (t.length + 1) gap.rest
    return (gap.breaks ++ lines, rest)
  else return (if header.chomping = .keep then gap.breaks else [], gap.rest)

end Block

end Yaml

end ImageTrust
