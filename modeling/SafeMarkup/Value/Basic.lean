/-
# Untyped values and the nodes of a tree

Everything that comes from outside is a `Value`: policies are configured from values, trees are
read from values, and the fields of a node hold values, since nobody has checked them.  A node
whose children are a text or whose tag name is a number can therefore be written down, and the
cleaner has to say what becomes of it.

A mapping is the list of its entries in the order in which they were first put in.  Its keys are
distinct; `Value.put` in `Value/Key.lean` keeps them so.

Values and nodes are one inductive type in two parts, because each holds the other: a node has
values for its fields, and a node is a value.  Definitions on them are by structural recursion
through both parts and the lists between them, and proofs follow the same pattern.

There is a value for every type that the library tells apart, and a last one, `foreign`, for
objects that answer no question.  What a value looks like in a message is in `Value/Display.lean`,
and when two values are the same key in `Value/Key.lean`.
-/
import SafeMarkup.Number.Binary64

namespace SafeMarkup

/-! ## Places in a source text -/

/-- One place in a source text: line and column count from one, the offset from zero. -/
structure Point where
  line : Int
  column : Int
  offset : Option Int
deriving DecidableEq, Repr

/-- The stretch of source text that a node was made from; `stop` is just past its last
character. -/
structure Position where
  start : Point
  stop : Point
deriving DecidableEq, Repr

/-! ## Values and nodes -/

mutual

/-- An untyped value.  `map` stands for mappings of every type, not for dictionaries alone: what is
asked of one is its entries, and only a message that names its type calls it a dictionary. -/
inductive Value where
  | null
  | bool (b : Bool)
  | int (n : Int)
  | float (x : Binary64)
  | str (s : String)
  /-- A byte string, given as the text whose UTF-8 form it is. -/
  | bytes (utf8 : String)
  | list (items : List Value)
  | tuple (items : List Value)
  | set (items : List Value)
  | map (entries : List (Value × Value))
  | position (p : Position)
  | node (n : Node)
  /-- An object that is none of the others and answers no question. -/
  | foreign

/-- A node of a markup tree, none of whose fields has been checked.  The last two fields, `data`
and `position`, belong to the one who built the tree and are never looked into. -/
inductive Node where
  /-- A node of no kind at all. -/
  | bare (data position : Value)
  | root (children data position : Value)
  | element (tagName properties children data position : Value)
  | text (value data position : Value)
  | comment (value data position : Value)
  | doctype (name data position : Value)
  | raw (value data position : Value)
  /-- A node of a kind that has no constructor of its own. -/
  | unknown (typeName value data position : Value)

end

instance : Inhabited Value := ⟨.null⟩
instance : Inhabited Node := ⟨.bare .null .null⟩

/-! ## Kinds of nodes -/

inductive Kind where
  | bare | root | element | text | comment | doctype | raw | unknown
deriving DecidableEq, Repr

namespace Kind

def all : List Kind := [bare, root, element, text, comment, doctype, raw, unknown]

/-- The word for a kind in the dict form of a tree; a bare node has none. -/
def word : Kind → String
  | bare => ""
  | root => "root"
  | element => "element"
  | text => "text"
  | comment => "comment"
  | doctype => "doctype"
  | raw => "raw"
  | unknown => "unknown"

def typeName : Kind → String
  | bare => "Node"
  | root => "Root"
  | element => "Element"
  | text => "Text"
  | comment => "Comment"
  | doctype => "Doctype"
  | raw => "Raw"
  | unknown => "Unknown"

/-- The kind that a word in the dict form stands for.  The words of the two kinds that are there
for everything else stand for no kind. -/
def ofWord? : String → Option Kind
  | "root" => some root
  | "element" => some element
  | "text" => some text
  | "comment" => some comment
  | "doctype" => some doctype
  | "raw" => some raw
  | _ => none

end Kind

namespace Node

def kind : Node → Kind
  | bare .. => .bare
  | root .. => .root
  | element .. => .element
  | text .. => .text
  | comment .. => .comment
  | doctype .. => .doctype
  | raw .. => .raw
  | unknown .. => .unknown

/-- What the builder of the tree attached to a node. -/
def data : Node → Value
  | bare data _ | root _ data _ | element _ _ _ data _ | text _ data _ | comment _ data _
  | doctype _ data _ | raw _ data _ | unknown _ _ data _ => data

def position : Node → Value
  | bare _ position | root _ _ position | element _ _ _ _ position | text _ _ position
  | comment _ _ position | doctype _ _ position | raw _ _ position
  | unknown _ _ _ position => position

def rootOf (children : List Node) : Node :=
  root (.tuple (children.map .node)) .null .null

def textOf (s : String) : Node :=
  text (.str s) .null .null

end Node

/-! ## Shapes of values -/

namespace Value

def typeName : Value → String
  | null => "NoneType"
  | bool _ => "bool"
  | int _ => "int"
  | float _ => "float"
  | str _ => "str"
  | bytes _ => "bytes"
  | list _ => "list"
  | tuple _ => "tuple"
  | set _ => "frozenset"
  | map _ => "dict"
  | position _ => "Position"
  | node n => n.kind.typeName
  | foreign => "Opaque"

def str? : Value → Option String
  | str s => some s
  | _ => none

def entries? : Value → Option (List (Value × Value))
  | map entries => some entries
  | _ => none

def items? : Value → Option (List Value)
  | list items | tuple items => some items
  | _ => none

def isNull : Value → Bool
  | null => true
  | _ => false

/-- The value is a node of some kind; a bare node does not count. -/
def isNode : Value → Bool
  | node n => n.kind != .bare
  | _ => false

def isText (s : String) : Value → Bool
  | str t => t == s
  | _ => false

/-- What a walk through the value yields, if it can be walked through: the items of a collection,
the keys of a mapping, the characters of a text, the numbers of a byte string. -/
def walk? : Value → Option (List Value)
  | str s => some (s.toList.map fun c => str (String.singleton c))
  | bytes utf8 => some (utf8.toUTF8.toList.map fun b => int b.toNat)
  | list items | tuple items | set items => some items
  | map entries => some (entries.map Prod.fst)
  | _ => none

/-- The value counts as false where only its presence is asked for: the absent value, false, a
zero, and whatever is empty. -/
def isVacant : Value → Bool
  | null => true
  | bool b => !b
  | int n => n == 0
  | float x => x.isZero
  | str s => s.isEmpty
  | bytes utf8 => utf8.isEmpty
  | list items | tuple items | set items => items.isEmpty
  | map entries => entries.isEmpty
  | position _ | node _ | foreign => false

end Value

end SafeMarkup
