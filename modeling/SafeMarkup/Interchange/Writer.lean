/-
# Writing the dict form of a tree

The dict form of a node has the word for its kind under `type` and its fields under the other
keys.  Tuples among the properties are written as lists.  `data` is written when it is there, and
`position` when it is a position.

A tree whose fields were never checked may have no dict form: children can be anything that can be
walked through, but what comes out of the walk has to be nodes; properties have to be a mapping;
and `data` has to be a mapping or a collection of keys with their values.

The order of the keys in a dict form is fixed: the type, the fields of the kind, then `data` and
`position`.  Nothing is said of a kind that has no word of its own beyond its type and its value,
and a node of no kind cannot be written at all.

Which trees can be written, and that reading gives them back, is in `Proofs/RoundTrip.lean`; the
equations that the proofs use in place of these definitions are in `Proofs/DictForm.lean`.
-/
import SafeMarkup.Fault
import SafeMarkup.Position

namespace SafeMarkup

/-! ## Fields -/

namespace Value

/-- Puts an item, which should be a key with its value, into a mapping. -/
def putPair (entries : List (Value × Value)) (item : Value) :
    Except Fault (List (Value × Value)) :=
  match item.walk? with
  | none => .error .notWalkable
  | some [key, value] => if key.isKey then .ok (put key value entries) else .error .notKey
  | some _ => .error .notPair

/-- The entries of a mapping, or those that a collection of pairs makes. -/
def entriesOf : Value → Except Fault (List (Value × Value))
  | map entries => .ok entries
  | value =>
    match value.walk? with
    | none => .error .notWalkable
    | some items => items.foldlM putPair []

def written : Value → Value
  | tuple items => list items
  | value => value

def writtenProperties : Value → Except Fault Value
  | map entries => .ok (map (entries.map fun entry => (entry.1, entry.2.written)))
  | _ => .error .noEntries

/-- An entry under a key that is a text. -/
def pair (name : String) (value : Value) : Value × Value := (str name, value)

end Value

namespace Node

/-- The entries for what is attached to a node. -/
def attachments (data position : Value) : Except Fault (List (Value × Value)) := do
  let data ←
    match data with
    | .null => pure []
    | data => (Value.entriesOf data).map fun entries => [Value.pair "data" (.map entries)]
  match position with
  | .position p => return data ++ [Value.pair "position" p.toValue]
  | _ => return data

/-- The dict form with these entries and what is attached to the node. -/
def withAttachments (entries : List (Value × Value)) (data position : Value) :
    Except Fault Value :=
  (attachments data position).map fun attached => .map (entries ++ attached)

/-! ## Trees -/

mutual

def toValue : Node → Except Fault Value
  | root children data position => do
    let children ← writtenChildren children
    withAttachments [Value.pair "type" (.str "root"), Value.pair "children" (.list children)]
      data position
  | element tagName properties children data position => do
    let properties ← properties.writtenProperties
    let children ← writtenChildren children
    withAttachments [Value.pair "type" (.str "element"), Value.pair "tagName" tagName,
      Value.pair "properties" properties, Value.pair "children" (.list children)] data position
  | text value data position =>
    withAttachments [Value.pair "type" (.str "text"), Value.pair "value" value] data position
  | comment value data position =>
    withAttachments [Value.pair "type" (.str "comment"), Value.pair "value" value] data position
  | raw value data position =>
    withAttachments [Value.pair "type" (.str "raw"), Value.pair "value" value] data position
  | doctype name data position =>
    withAttachments [Value.pair "type" (.str "doctype"), Value.pair "name" name] data position
  | unknown typeName value data position =>
    withAttachments
      (Value.pair "type" typeName :: if value.isNull then [] else [Value.pair "value" value])
      data position
  | bare .. => .error (.notWritable Kind.bare.typeName)
termination_by structural node => node

/-- The dict forms of the children in a field. -/
def writtenChildren : Value → Except Fault (List Value)
  | .list items | .tuple items | .set items => writtenItems items
  | .map entries => writtenKeys entries
  | .str s => if s.isEmpty then .ok [] else .error (.notWritable "str")
  | .bytes utf8 => if utf8.isEmpty then .ok [] else .error (.notWritable "int")
  | _ => .error .notWalkable
termination_by structural value => value

/-- The dict forms of the items of a collection. -/
def writtenItems : List Value → Except Fault (List Value)
  | [] => .ok []
  | item :: rest => do
    let first ← writtenItem item
    let others ← writtenItems rest
    return first :: others
termination_by structural items => items

/-- The dict forms of the keys of a mapping. -/
def writtenKeys : List (Value × Value) → Except Fault (List Value)
  | [] => .ok []
  | (key, _) :: rest => do
    let first ← writtenItem key
    let others ← writtenKeys rest
    return first :: others
termination_by structural entries => entries

/-- The dict form of a value that should be a node. -/
def writtenItem : Value → Except Fault Value
  | .node node => toValue node
  | value => .error (.notWritable value.typeName)
termination_by structural value => value

end

end Node

end SafeMarkup
