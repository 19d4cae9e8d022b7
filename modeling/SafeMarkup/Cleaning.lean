/-
# Cleaning a tree

Cleaning says which nodes take the place of a node: none, if it is dropped; one, if it stays,
rebuilt from its cleaned parts; or any number, if it is an element that is unwrapped, so that what
it enclosed moves up to where it stood.  The walk goes from the top down and knows the tags of the
elements that stay around a node, nearest last, since the rule about enclosing tags asks for them.

The tree is not trusted.  Children that are not in a list or tuple count as none, a child that is
no node is passed over, and a text whose value is not a text is dropped.  Nothing here fails.

The verdict on an element is a function of its tag and of the tags around it, `Policy.judge`, and
everything else follows the shape of the tree.

What is put on record goes along with the nodes (`Cleaned`), so that the audit trail cannot get out
of step with the walk; a reader of the nodes alone need not look at it.

The facts about one step of the walk, one for each kind of node and each verdict, are in
`Proofs/Cleaning.lean`, and no other proof opens the definitions.  What they add up to is that
whatever stays is allowed where it stands (`Proofs/Conformance.lean`), that it is all there was to
stay and in the same arrangement (`Proofs/Transfer.lean`), and that a second walk finds nothing
left to do (`Proofs/FixedPoint.lean`).
-/
import SafeMarkup.Audit
import SafeMarkup.Fault
import SafeMarkup.Policy.Query

namespace SafeMarkup

/-! ## Verdicts -/

/-- What becomes of an element. -/
inductive Verdict where
  /-- It vanishes with all that it encloses. -/
  | stripped (tag : String)
  /-- It is unwrapped because its tag may not stay. -/
  | disallowed
  /-- It is unwrapped because none of the tags that its own needs is around it. -/
  | misplaced (tag : String)
  | kept (tag : String)
deriving DecidableEq, Repr

/-- The verdict on an element with this tag inside these tags.  A tag that is to vanish vanishes
even if it may also stay. -/
def Policy.judge (policy : Policy) (enclosing : List Value) (tag : Value) : Verdict :=
  match tag with
  | .str tag =>
    if policy.strip.contains tag then .stripped tag
    else if policy.allowsName tag then
      if policy.allowsPlace tag enclosing then .kept tag else .misplaced tag
    else .disallowed
  | _ => .disallowed

/-! ## Results -/

/-- The nodes that take the place of a node, and what was put on record on the way. -/
structure Cleaned where
  nodes : List Node
  records : List Audit.Record

namespace Cleaned

def none : Cleaned := ⟨[], []⟩

instance : Append Cleaned := ⟨fun a b => ⟨a.nodes ++ b.nodes, a.records ++ b.records⟩⟩

@[simp] theorem nodes_append (a b : Cleaned) : (a ++ b).nodes = a.nodes ++ b.nodes := rfl

@[simp] theorem records_append (a b : Cleaned) : (a ++ b).records = a.records ++ b.records := rfl

/-- The same with records put first. -/
def after (records : List Audit.Record) (cleaned : Cleaned) : Cleaned :=
  ⟨cleaned.nodes, records ++ cleaned.records⟩

/-- One node, built from the nodes that were to be its children. -/
def gather (build : Value → Node) (children : Cleaned) : Cleaned :=
  ⟨[build (.tuple (children.nodes.map .node))], children.records⟩

end Cleaned

/-! ## Properties -/

/-- The properties of an element that stays, from the entries of a mapping, and what was put on
record. -/
def Policy.cleanEntries (policy : Policy) (tag : String) :
    List (Value × Value) → List (Value × Value) × List Audit.Record
  | [] => ([], [])
  | entry :: rest =>
    let (entries, records) := policy.cleanEntries tag rest
    match entry.1 with
    | .str name =>
      if policy.allowsAttribute tag name then
        match policy.sanitizeValue name entry.2 with
        | some value => ((.str name, value) :: entries, records)
        | none => (entries, .refused tag name :: records)
      else (entries, records)
    | _ => (entries, records)

/-- The properties of an element that stays; what is not a mapping holds none. -/
def Policy.cleanProperties (policy : Policy) (tag : String) (properties : Value) :
    List (Value × Value) × List Audit.Record :=
  policy.cleanEntries tag (properties.entries?.getD [])

/-- A text stays unless the nearest tag around it vanishes.  That tag can only be one from outside
the walk, since nothing is walked into below an element that vanishes. -/
def Policy.cleanText (policy : Policy) (enclosing : List Value) (value data position : Value) :
    Cleaned :=
  match value with
  | .str s =>
    if (enclosing.getLast?.map policy.isStripped).getD false then .none
    else ⟨[.text (.str s) data position], []⟩
  | _ => .none

/-! ## Nodes -/

mutual

/-- What takes the place of a node inside these tags, nearest last. -/
def Policy.clean (policy : Policy) (enclosing : List Value) : Node → Cleaned
  | .root children data position =>
    (policy.cleanChildren enclosing children).gather fun children => .root children data position
  | .element tag properties children data position =>
    match policy.judge enclosing tag with
    | .stripped tag => ⟨[], [.stripped tag]⟩
    | .disallowed => (policy.cleanChildren enclosing children).after [.disallowed tag]
    | .misplaced tag =>
      (policy.cleanChildren enclosing children).after
        [.misplaced tag (policy.requiredAncestors tag)]
    | .kept tag =>
      let (entries, records) := policy.cleanProperties tag properties
      let children := policy.cleanChildren (enclosing ++ [.str tag]) children
      (children.gather fun children =>
        .element (.str tag) (.map entries) children data position).after records
  | .text value data position => policy.cleanText enclosing value data position
  | .bare .. | .comment .. | .doctype .. | .raw .. | .unknown .. => .none
termination_by structural node => node

/-- What takes the place of the children in a field. -/
def Policy.cleanChildren (policy : Policy) (enclosing : List Value) : Value → Cleaned
  | .list items | .tuple items => policy.cleanItems enclosing items
  | _ => .none
termination_by structural value => value

/-- What takes the place of the items of a list, one after the other. -/
def Policy.cleanItems (policy : Policy) (enclosing : List Value) : List Value → Cleaned
  | [] => .none
  | item :: rest => policy.cleanItem enclosing item ++ policy.cleanItems enclosing rest
termination_by structural items => items

/-- What takes the place of a value that should be a node. -/
def Policy.cleanItem (policy : Policy) (enclosing : List Value) : Value → Cleaned
  | .node node => policy.clean enclosing node
  | _ => .none
termination_by structural value => value

end

/-! ## Unchecked surroundings

The walk itself only ever adds texts to the tags around a node.  A caller may hand in any values
to begin with, and one that cannot be a key is a fault if some rule has to look beyond it. -/

mutual

/-- The tags of the elements that are judged by their place, whatever the verdict. -/
def Policy.placedTags (policy : Policy) : Node → List String
  | .root children _ _ => policy.placedTagsIn children
  | .element tag _ children _ _ =>
    match tag with
    | .str tag =>
      if policy.strip.contains tag then []
      else if policy.allowsName tag then tag :: policy.placedTagsIn children
      else policy.placedTagsIn children
    | _ => policy.placedTagsIn children
  | _ => []
termination_by structural node => node

def Policy.placedTagsIn (policy : Policy) : Value → List String
  | .list items | .tuple items => policy.placedTagsAmong items
  | _ => []
termination_by structural value => value

/-- The same for the items of a list; only nodes count, so a list inside a list holds none. -/
def Policy.placedTagsAmong (policy : Policy) : List Value → List String
  | [] => []
  | .node node :: rest => policy.placedTags node ++ policy.placedTagsAmong rest
  | _ :: rest => policy.placedTagsAmong rest
termination_by structural items => items

end

/-- What takes the place of a value inside unchecked entries, nearest last. -/
def Policy.cleanInside (policy : Policy) (enclosing : List Value) (value : Value) :
    Except Fault Cleaned :=
  match value with
  | .node node => do
    for tag in policy.placedTags node do
      let _ ← policy.asksPlace (.str tag) enclosing
    return policy.clean enclosing node
  | _ => .ok .none

end SafeMarkup
