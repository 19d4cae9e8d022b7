/-
# Building trees by hand

There are two constructors.  `Node.script` builds an element, or a root where no tag is given, from
a tag, properties and children; `Node.ofType` builds a node of any kind from its type and a mapping
of its fields.  Both take children as they come: nodes stay, texts and numbers become text nodes,
absent values are skipped, and lists and tuples are opened to any depth.  A truth value is not a
number here.  Neither constructor sanitizes anything.

Both let an argument be left out.  What stands where `Node.script` has its properties, but is
itself a child, counts as the first child; what stands where `Node.ofType` has its fields, but is
no mapping, counts as the value.

An integer can fail to become a text node: one with too many digits has no text
(`Number/Digits.lean`).  That is the one fault of a child that is of a sort to stand among
children.

What the first constructor makes of any arguments is told by their leaves, in `Proofs/Leaves.lean`.
For the second, `Proofs/Rebuilding.lean` says that a tree built node by node from its dict form is
the tree that the strict reader makes of it.
-/
import SafeMarkup.Interchange.Writer
import SafeMarkup.Value.Display

namespace SafeMarkup

/-! ## Children -/

namespace Value

/-- The value can stand among children: a node of any sort, a text, a number, a truth value, a
list, a tuple, or the absent value. -/
def standsAsChild : Value → Bool
  | node _ | str _ | int _ | float _ | bool _ | list _ | tuple _ | null => true
  | _ => false

mutual

def childNodes : Value → Except Fault (List Node)
  | null => .ok []
  | node n => .ok [n]
  | str s => .ok [Node.textOf s]
  | int n => (DigitLimit.standard.text n).map fun s => [Node.textOf s]
  | float x => .ok [Node.textOf x.text]
  | list items | tuple items => childrenNodes items
  | value => .error (.notChild value.typeName)
termination_by structural value => value

/-- The nodes that children make, one after the other. -/
def childrenNodes : List Value → Except Fault (List Node)
  | [] => .ok []
  | value :: rest => do
    let first ← childNodes value
    let others ← childrenNodes rest
    return first ++ others
termination_by structural values => values

end

/-- The nodes that the children in a field make.  Nothing is made of a vacant value; any other has
to be walked through. -/
def fieldNodes (value : Value) : Except Fault (List Node) :=
  if value.isVacant then .ok []
  else
    match value.walk? with
    | none => .error .notWalkable
    | some items => childrenNodes items

/-- The entries of a value that need not be there. -/
def entriesOrNone (value : Value) : Except Fault (List (Value × Value)) :=
  if value.isVacant then .ok []
  else
    match value.entries? with
    | none => .error .noEntries
    | some entries => .ok entries

/-- The entries that a collection of pairs makes, if it is there. -/
def pairsOrNone (value : Value) : Except Fault (List (Value × Value)) :=
  if value.isVacant then .ok [] else entriesOf value

end Value

namespace Node

def childTuple (nodes : List Node) : Value :=
  .tuple (nodes.map .node)

/-! ## Elements and roots -/

/-- The element with this tag, or the root if the tag is absent, around these children.
Properties without a value are left out. -/
def build (tag properties : Value) (children : List Value) : Except Fault Node :=
  if tag.isNull then
    (Value.childrenNodes children).map fun nodes => root (childTuple nodes) .null .null
  else do
    let entries ← properties.entriesOrNone
    let nodes ← Value.childrenNodes children
    return element tag (.map (entries.filter fun entry => !entry.2.isNull)) (childTuple nodes)
      .null .null

/-- The same, where the properties may have been left out. -/
def script (tag properties : Value) (children : List Value) : Except Fault Node :=
  if properties.standsAsChild then build tag .null (properties :: children)
  else build tag properties children

/-! ## Nodes of any type -/

/-- The position among these fields, as it is or in its dict form. -/
def positionIn (fields : List (Value × Value)) : Value :=
  match Value.field "position" fields with
  | .position p => .position p
  | value => Position.asField (Position.ofValue? value)

/-- The value, or an empty text in place of the absent value. -/
def orEmptyText : Value → Value
  | .null => .str ""
  | value => value

/-- The node of this type with these fields and this value. -/
def ofFields (type : Value) (fields : List (Value × Value)) (value : Value) :
    Except Fault Node :=
  let data := Value.field "data" fields
  let position := positionIn fields
  match type.str?.bind Kind.ofWord? with
  | some .root => do
    let nodes ← value.fieldNodes
    return root (childTuple nodes) data position
  | some .element => do
    let properties ← (Value.field "properties" fields).pairsOrNone
    let nodes ← value.fieldNodes
    return element (Value.field "tagName" fields) (.map properties) (childTuple nodes) data
      position
  | some .text => .ok (text value data position)
  | some .comment => .ok (comment (orEmptyText value) data position)
  | some .doctype => .ok (doctype (Value.field "name" fields) data position)
  | some .raw => .ok (raw (orEmptyText value) data position)
  | _ => .ok (unknown type value data position)

/-- The same, where the fields may have been left out. -/
def ofType (type fields value : Value) : Except Fault Node :=
  match fields with
  | .map fields => ofFields type fields value
  | other => ofFields type [] (if value.isNull then other else value)

end Node

end SafeMarkup
