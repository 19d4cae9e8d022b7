/-
# Writing JSON

The text is ASCII only: every other character is written by its number, in UTF-16, with small
hexadecimal digits.  The keys of an object are sorted, so the text does not depend on the order in
which a mapping was filled.  There are two layouts: on one line, or one item a line, indented.

Keys need not be texts.  If all keys are numbers or truth values, they are sorted as numbers and
written as texts; an absent value can be a key if it is the only one; keys of different sorts
cannot be sorted.  Sets, byte strings, nodes and the like have no JSON form at all.

Which of several faults comes out is part of what is modelled.  Keys are put in order before any of
them is written; then the members follow in that order, and of each the key is written before the
value.  So what becomes of the values is collected as results (`writeMembers`), and the first fault
is taken only when the order is known (`memberTexts`).

For values whose keys are texts, `Proofs/JsonText.lean` proves that the text does not depend on the
order of entries, and that reading it gives the value back.
-/
import SafeMarkup.Fault
import SafeMarkup.Json.NumberKeys

namespace SafeMarkup.Json

/-! ## Texts -/

def fourDigits (unit : Nat) : List Char :=
  let digits := Nat.toDigits 16 unit
  List.replicate (4 - digits.length) '0' ++ digits

def unitEscape (unit : Nat) : List Char :=
  '\\' :: 'u' :: fourDigits unit

def escaped (c : Char) : List Char :=
  if c = '"' then ['\\', '"']
  else if c = '\\' then ['\\', '\\']
  else if c = '\n' then ['\\', 'n']
  else if c = '\r' then ['\\', 'r']
  else if c = '\t' then ['\\', 't']
  else if c = '\x08' then ['\\', 'b']
  else if c = '\x0c' then ['\\', 'f']
  else
    let code := c.toNat
    if 0x20 ≤ code ∧ code < 0x7F then [c]
    else if code < 0x10000 then unitEscape code
    else
      let rest := code - 0x10000
      unitEscape (0xD800 + rest / 0x400) ++ unitEscape (0xDC00 + rest % 0x400)

def quoted (s : String) : String :=
  String.ofList ('"' :: s.toList.flatMap escaped ++ ['"'])

/-! ## Keys -/

/-- The members of an object in their order, each under the text of its key, if the key has one. -/
def arrange {α : Type} (limit : DigitLimit) (members : List (Value × α)) :
    Except Fault (List (Except Fault String × α)) :=
  match members.mapM fun member => member.1.str?.map fun key => (key, member.2) with
  | some named =>
    .ok ((named.mergeSort fun a b => a.1 ≤ b.1).map fun member => (.ok member.1, member.2))
  | none =>
    match members.mapM fun member =>
        (numberKey? member.1 limit).map fun key => (key, member.2) with
    | some numbered =>
      .ok ((sortItems (fun a b => a.1.1.before b.1.1) numbered).map fun member =>
        (member.1.2, member.2))
    | none =>
      match members with
      | [(.null, text)] => .ok [(.ok "null", text)]
      | _ => .error .notJson

/-! ## Layout -/

/-- How the items of an array or object are set: on one line, or each on a line of its own with
this many blanks for every level. -/
inductive Layout where
  | line
  | block (blanks : Nat)
deriving DecidableEq, Repr

/-- The layout for an indentation; a negative one gives lines without blanks. -/
def Layout.ofIndent : Option Int → Layout
  | none => line
  | some indent => block indent.toNat

def lineStart (blanks level : Nat) : String :=
  String.ofList ('\n' :: List.replicate (blanks * level) ' ')

/-- Items between brackets; `level` is that of the items. -/
def Layout.enclose (layout : Layout) (level : Nat) (opening closing : String)
    (items : List String) : String :=
  match layout, items with
  | _, [] => opening ++ closing
  | line, items => opening ++ String.intercalate ", " items ++ closing
  | block blanks, items =>
    opening ++ lineStart blanks level
      ++ String.intercalate ("," ++ lineStart blanks level) items
      ++ lineStart blanks (level - 1) ++ closing

/-! ## Values -/

/-- The texts of the members of an object, from those of their keys and values; the first of these
that is not there is the fault. -/
def memberTexts : List (Except Fault String × Except Fault String) → Except Fault (List String)
  | [] => .ok []
  | (key, value) :: rest => do
    let key ← key
    let value ← value
    let others ← memberTexts rest
    return (quoted key ++ ": " ++ value) :: others

mutual

/-- The text of a value at this level.  Integers may have as many digits as the limit allows. -/
def writeAt (limit : DigitLimit) (layout : Layout) (level : Nat) : Value → Except Fault String
  | .null => .ok "null"
  | .bool b => .ok (if b then "true" else "false")
  | .int n => limit.text n
  | .float x => .ok (number x)
  | .str s => .ok (quoted s)
  | .list items | .tuple items =>
    (writeItems limit layout (level + 1) items).map (layout.enclose (level + 1) "[" "]")
  | .map entries => do
    let members ← arrange limit (writeMembers limit layout (level + 1) entries)
    let texts ← memberTexts members
    return layout.enclose (level + 1) "\x7b" "\x7d" texts
  | .bytes _ | .set _ | .position _ | .node _ | .foreign => .error .notJson
termination_by structural value => value

def writeItems (limit : DigitLimit) (layout : Layout) (level : Nat) :
    List Value → Except Fault (List String)
  | [] => .ok []
  | item :: rest => do
    let first ← writeAt limit layout level item
    let others ← writeItems limit layout level rest
    return first :: others
termination_by structural items => items

/-- The keys of an object with the texts of their values, or with what is wrong with these.  Which
of several faults is reported depends on the order of the keys, so none is singled out here. -/
def writeMembers (limit : DigitLimit) (layout : Layout) (level : Nat) :
    List (Value × Value) → List (Value × Except Fault String)
  | [] => []
  | (key, value) :: rest =>
    (key, writeAt limit layout level value) :: writeMembers limit layout level rest
termination_by structural entries => entries

end

def write (layout : Layout) (value : Value) (limit : DigitLimit := .standard) :
    Except Fault String :=
  writeAt limit layout 0 value

end SafeMarkup.Json
