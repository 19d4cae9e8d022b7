/-
# Reading the dict form of a tree

In its dict form a node is a mapping whose `type` is the word for its kind; the other keys hold its
fields.  There are two readers.  The strict one, `Node.ofValue`, refuses a broken tree and says
where the first fault is, in document order.  The lenient one, `Node.ofValue?`, never fails on a
mapping that has a type: children that cannot be read are skipped, and odd values are kept for the
cleaner to judge.  They read a tree alike where the strict one accepts it.

Only roots and elements have children.  A node's `data` counts only if it is a mapping and its
`position` only if it is well-formed, for both readers.

Both readers assemble a node from its entries by one function, `assemble`, once the children are
read; they differ in the children alone.  The strict one takes the path along and stops at the
first fault, the lenient one passes over what it cannot read.

Neither checks the fields themselves.  A tag name may be a number after reading, or a value a list;
`Cleaning.lean` is where that is judged.  What holds of every tree that comes out of a reader is
`Node.WellFormed` in `Proofs/RoundTrip.lean`, and how the two readers are related is the subject of
`Proofs/Pruning.lean`.
-/
import SafeMarkup.Fault
import SafeMarkup.Position

namespace SafeMarkup.Node

/-! ## One node -/

def typeIn? (entries : List (Value × Value)) : Option String :=
  (Value.field "type" entries).str?

/-- Nodes of this type have children. -/
def isParent (type : String) : Bool :=
  match Kind.ofWord? type with
  | some .root | some .element => true
  | _ => false

/-- A mapping as a field, and the absent value in place of anything else. -/
def mappingOrNull : Value → Value
  | .map entries => .map entries
  | _ => .null

/-- A mapping as a field, and the empty one in place of anything else. -/
def mappingOrEmpty : Value → Value
  | .map entries => .map entries
  | _ => .map []

/-- The node of this type with the fields of these entries and the children that were read. -/
def assemble (type : String) (entries : List (Value × Value)) (children : List Node) : Node :=
  let data := mappingOrNull (Value.field "data" entries)
  let position := Position.asField (Position.ofValue? (Value.field "position" entries))
  let children : Value := .tuple (children.map .node)
  match Kind.ofWord? type with
  | some .root => root children data position
  | some .element =>
    element (Value.field "tagName" entries)
      (mappingOrEmpty (Value.field "properties" entries)) children data position
  | some .text => text (Value.field "value" entries) data position
  | some .comment => comment ((Value.field? "value" entries).getD (.str "")) data position
  | some .doctype => doctype (Value.field "name" entries) data position
  | some .raw => raw ((Value.field? "value" entries).getD (.str "")) data position
  | _ => unknown (.str type) (Value.field "value" entries) data position

/-! ## The strict reader -/

mutual

/-- Reads a node at a place; `path` are the indices that led there. -/
def readAt (path : List Nat) : Value → Except Fault Node
  | .map entries =>
    match typeIn? entries with
    | none => .error (.format path .noType)
    | some type =>
      if isParent type then
        (readField path entries).map (assemble type entries)
      else .ok (assemble type entries [])
  | value => .error (.format path (.notMapping value.typeName))
termination_by structural value => value

/-- Reads the children of the node with these entries. -/
def readField (path : List Nat) : List (Value × Value) → Except Fault (List Node)
  | [] => .ok []
  | (key, value) :: rest =>
    if key.isText "children" then readChildren path value else readField path rest
termination_by structural entries => entries

/-- Reads the children in a field, which has to be a list or tuple. -/
def readChildren (path : List Nat) : Value → Except Fault (List Node)
  | .list items | .tuple items => readItems path 0 items
  | value => .error (.format path (.childrenNotList value.typeName))
termination_by structural value => value

/-- Reads the items of a list, the first of which has this index. -/
def readItems (path : List Nat) (index : Nat) : List Value → Except Fault (List Node)
  | [] => .ok []
  | item :: rest => do
    let node ← readAt (path ++ [index]) item
    let others ← readItems path (index + 1) rest
    return node :: others
termination_by structural items => items

end

/-- Reads a tree, or says what is wrong with it. -/
def ofValue (value : Value) : Except Fault Node :=
  readAt [] value

/-! ## The lenient reader -/

mutual

/-- Reads what can be read of a tree; only a mapping with a type is a tree at all. -/
def ofValue? : Value → Option Node
  | .map entries =>
    match typeIn? entries with
    | none => none
    | some type =>
      some (assemble type entries (if isParent type then coerceField entries else []))
  | _ => none
termination_by structural value => value

/-- What can be read of the children of the node with these entries. -/
def coerceField : List (Value × Value) → List Node
  | [] => []
  | (key, value) :: rest => if key.isText "children" then coerceChildren value else coerceField rest
termination_by structural entries => entries

/-- What can be read of the children in a field. -/
def coerceChildren : Value → List Node
  | .list items | .tuple items => coerceItems items
  | _ => []
termination_by structural value => value

/-- What can be read of the items of a list. -/
def coerceItems : List Value → List Node
  | [] => []
  | item :: rest =>
    match ofValue? item with
    | some node => node :: coerceItems rest
    | none => coerceItems rest
termination_by structural items => items

end

end SafeMarkup.Node
