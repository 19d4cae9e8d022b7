/-
# Values in messages

A message shows the value it complains about.  Texts are quoted: with single quotes, unless they
hold a single quote and no double one.  What is not printable is shown by its number, in as few
hexadecimal digits as its block needs.  Collections are shown item by item, nodes field by field.

There are two ways to put a value into words.  `shown` quotes texts, and is used where a message
shows what it complains about; `plain` does not, and is used where a text node or a place in a
configuration is made of a value.  They differ on texts and on positions, which have a short form
of their own, and on nothing else.

An integer with too many digits cannot be put into words at all, at whatever depth it stands.
`worded` and `said` are the two ways with that taken into account; to say where an integer occurs
in what would be shown there is `shownInts`, which follows `shown` case by case.
-/
import SafeMarkup.Number.Digits
import SafeMarkup.Number.Shortest
import SafeMarkup.Text.Printable
import SafeMarkup.Value.Basic

namespace SafeMarkup

/-! ## Quoted texts -/

namespace Text

def hexDigits (width code : Nat) : List Char :=
  let digits := Nat.toDigits 16 code
  List.replicate (width - digits.length) '0' ++ digits

def quotedChar (quote c : Char) : List Char :=
  if c = quote ∨ c = '\\' then ['\\', c]
  else if c = '\t' then ['\\', 't']
  else if c = '\n' then ['\\', 'n']
  else if c = '\r' then ['\\', 'r']
  else if isPrintable c then [c]
  else if c.toNat < 0x100 then '\\' :: 'x' :: hexDigits 2 c.toNat
  else if c.toNat < 0x10000 then '\\' :: 'u' :: hexDigits 4 c.toNat
  else '\\' :: 'U' :: hexDigits 8 c.toNat

def quoteFor (cs : List Char) : Char :=
  if cs.contains '\'' && !cs.contains '"' then '"' else '\''

def quoted (s : String) : String :=
  let quote := quoteFor s.toList
  String.ofList (quote :: s.toList.flatMap (quotedChar quote) ++ [quote])

/-- A byte string between quotation marks: bytes outside ASCII are shown by number. -/
def quotedBytes (utf8 : String) : String :=
  let bytes := utf8.toUTF8.toList.map fun b => Char.ofNat b.toNat
  let quote := quoteFor bytes
  let shown := bytes.flatMap fun c =>
    if 0x7F ≤ c.toNat then '\\' :: 'x' :: hexDigits 2 c.toNat else quotedChar quote c
  String.ofList ('b' :: quote :: shown ++ [quote])

end Text

/-! ## Places -/

def Point.text (p : Point) : String :=
  toString p.line ++ ":" ++ toString p.column

def Position.text (p : Position) : String :=
  p.start.text ++ "-" ++ p.stop.text

def Point.shown (p : Point) : String :=
  "Point(line=" ++ toString p.line ++ ", column=" ++ toString p.column ++ ", offset="
    ++ (match p.offset with | some n => toString n | none => "None") ++ ")"

def Position.shown (p : Position) : String :=
  "Position(start=" ++ p.start.shown ++ ", end=" ++ p.stop.shown ++ ")"

/-- The integers that stand in the wording of a point. -/
def Point.shownInts (p : Point) : List Int :=
  p.line :: p.column :: p.offset.toList

def Position.shownInts (p : Position) : List Int :=
  p.start.shownInts ++ p.stop.shownInts

/-- The integers that stand in the plain text of a position; an offset is left out of it. -/
def Position.textInts (p : Position) : List Int :=
  [p.start.line, p.start.column, p.stop.line, p.stop.column]

/-! ## Values -/

namespace Value

/-- The items of a list with commas between them. -/
def commas : List String → String :=
  String.intercalate ", "

mutual

def shown : Value → String
  | null => "None"
  | bool b => if b then "True" else "False"
  | int n => toString n
  | float x => x.text
  | str s => Text.quoted s
  | bytes utf8 => Text.quotedBytes utf8
  | list items => "[" ++ commas (shownItems items) ++ "]"
  | tuple items =>
    match shownItems items with
    | [item] => "(" ++ item ++ ",)"
    | items => "(" ++ commas items ++ ")"
  | set items =>
    match shownItems items with
    | [] => "frozenset()"
    | items => "frozenset(\x7b" ++ commas items ++ "\x7d)"
  | map entries => "\x7b" ++ commas (shownEntries entries) ++ "\x7d"
  | position p => p.shown
  | node n => shownNode n
  | foreign => "<Opaque>"
termination_by structural v => v

/-- The items of a collection, each as a message shows it. -/
def shownItems : List Value → List String
  | [] => []
  | v :: rest => shown v :: shownItems rest
termination_by structural vs => vs

/-- The entries of a mapping, each as a message shows it. -/
def shownEntries : List (Value × Value) → List String
  | [] => []
  | (key, value) :: rest => (shown key ++ ": " ++ shown value) :: shownEntries rest
termination_by structural entries => entries

/-- A node as a message shows it: the name of its type and its fields. -/
def shownNode : Node → String
  | .bare data place =>
    "Node(data=" ++ shown data ++ ", position=" ++ shown place ++ ")"
  | .root children data place =>
    "Root(data=" ++ shown data ++ ", position=" ++ shown place ++ ", children="
      ++ shown children ++ ")"
  | .element tagName properties children data place =>
    "Element(data=" ++ shown data ++ ", position=" ++ shown place ++ ", tag_name="
      ++ shown tagName ++ ", properties=" ++ shown properties ++ ", children="
      ++ shown children ++ ")"
  | .text value data place =>
    "Text(data=" ++ shown data ++ ", position=" ++ shown place ++ ", value="
      ++ shown value ++ ")"
  | .comment value data place =>
    "Comment(data=" ++ shown data ++ ", position=" ++ shown place ++ ", value="
      ++ shown value ++ ")"
  | .doctype name data place =>
    "Doctype(data=" ++ shown data ++ ", position=" ++ shown place ++ ", name="
      ++ shown name ++ ")"
  | .raw value data place =>
    "Raw(data=" ++ shown data ++ ", position=" ++ shown place ++ ", value="
      ++ shown value ++ ")"
  | .unknown typeName value data place =>
    "Unknown(data=" ++ shown data ++ ", position=" ++ shown place ++ ", type_name="
      ++ shown typeName ++ ", value=" ++ shown value ++ ")"
termination_by structural n => n

end

/-- A value as plain text: a text is itself, a position its two ends, and everything else is
shown as in a message. -/
def plain : Value → String
  | str s => s
  | position p => p.text
  | v => shown v

/-! ## Wordings that fail

`shown` and `plain` are the wordings that a value would have if integers of any length had a text.
`worded` and `said` are what there is: the wording of a value fails if an integer in it is too
long, wherever it stands. -/

mutual

/-- The integers that stand in the wording of a value. -/
def shownInts : Value → List Int
  | int n => [n]
  | list items | tuple items | set items => shownIntsOfItems items
  | map entries => shownIntsOfEntries entries
  | position p => p.shownInts
  | node n => shownIntsOfNode n
  | null | bool _ | float _ | str _ | bytes _ | foreign => []
termination_by structural v => v

def shownIntsOfItems : List Value → List Int
  | [] => []
  | v :: rest => shownInts v ++ shownIntsOfItems rest
termination_by structural vs => vs

def shownIntsOfEntries : List (Value × Value) → List Int
  | [] => []
  | (key, value) :: rest => shownInts key ++ shownInts value ++ shownIntsOfEntries rest
termination_by structural entries => entries

/-- The integers in the wording of a node, which shows all its fields. -/
def shownIntsOfNode : Node → List Int
  | .bare data place => shownInts data ++ shownInts place
  | .root children data place => shownInts data ++ shownInts place ++ shownInts children
  | .element tagName properties children data place =>
    shownInts data ++ shownInts place ++ shownInts tagName ++ shownInts properties
      ++ shownInts children
  | .text value data place | .comment value data place | .doctype value data place
  | .raw value data place => shownInts data ++ shownInts place ++ shownInts value
  | .unknown typeName value data place =>
    shownInts data ++ shownInts place ++ shownInts typeName ++ shownInts value
termination_by structural n => n

end

/-- The value as a message shows it, if no integer in it is too long. -/
def worded (value : Value) : Except Fault String :=
  DigitLimit.standard.guard value.shownInts value.shown

/-- The value as plain text, if no integer in it is too long. -/
def said : Value → Except Fault String
  | str s => .ok s
  | position p => DigitLimit.standard.guard p.textInts p.text
  | value => value.worded

end Value

end SafeMarkup
