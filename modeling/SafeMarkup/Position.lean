/-
# Reading and writing positions

In the dict form of a tree a position is a mapping with the two points `start` and `end`, and a
point a mapping with `line`, `column` and perhaps `offset`.  The readers treat a broken position
as absent.  Truth values are no integers here.

A position is treated by the readers as a whole: if a line is missing from one of its points, there
is no position, but a broken offset costs the offset only.  What is written is always well-formed,
because a position that was read is a record of integers and no longer a value.

Nothing asks whether a stretch makes sense, that is, whether it ends after it begins or lies in any
text.  Positions are carried along for the one who reports on a tree, and cleaning hands them on
unseen.  That a position is read back as it was written is `Position.ofValue?_toValue` in
`Proofs/DictForm.lean`.
-/
import SafeMarkup.Value.Key

namespace SafeMarkup

def Value.int? : Value → Option Int
  | .int n => some n
  | _ => none

/-- Reads a point.  A broken offset is treated as absent, a broken line or column breaks the
point. -/
def Point.ofValue? : Value → Option Point
  | .map entries => do
    let line ← (Value.field "line" entries).int?
    let column ← (Value.field "column" entries).int?
    some ⟨line, column, (Value.field "offset" entries).int?⟩
  | _ => none

/-- Reads a position; both ends have to be points. -/
def Position.ofValue? : Value → Option Position
  | .map entries => do
    let start ← Point.ofValue? (Value.field "start" entries)
    let stop ← Point.ofValue? (Value.field "end" entries)
    some ⟨start, stop⟩
  | _ => none

/-- The dict form of a point; an absent offset is left out. -/
def Point.toValue (p : Point) : Value :=
  .map ([(.str "line", .int p.line), (.str "column", .int p.column)]
    ++ (match p.offset with | some n => [(.str "offset", .int n)] | none => []))

def Position.toValue (p : Position) : Value :=
  .map [(.str "start", p.start.toValue), (.str "end", p.stop.toValue)]

/-- A position as a field of a node; a position that is absent gives the absent value. -/
def Position.asField : Option Position → Value
  | some p => .position p
  | none => .null

end SafeMarkup
