/-
# Sanitizing a tree

Sanitizing takes any value and answers with one node.  A mapping is read leniently as the dict form
of a tree first.  Then the tree is cleaned, and what stays is gathered into a node of the least
shape: a sole survivor stands by itself, several get a root around them, and where nothing stays, or
the value is no tree at all, there is an empty root.  A root always comes back as a root, because
cleaning keeps it.

There is nothing to fail here.  Reading is lenient, cleaning is total, and gathering counts only
how many nodes there are; a value that is no tree is answered like a tree of which nothing stays.

Gathering does not look at the nodes it gathers.  If the sole survivor is itself a root, which
stood below the top, then it comes back as it is, with whatever it encloses; so a value that is no
root can come back as a root around one node.  `Proofs/OutputShape.lean` says exactly when.

For a reader who follows the audit trail there is `sanitizeAt`, with the same tree and the records
that the level shows.
-/
import SafeMarkup.Cleaning
import SafeMarkup.Interchange.Reader

namespace SafeMarkup

/-- One of what is in a list: the only one, or what `wrap` makes of several or none. -/
def collapse {α : Type} (wrap : List α → α) : List α → α
  | [sole] => sole
  | several => wrap several

/-- The node that stands for several. -/
def Node.collapse (nodes : List Node) : Node :=
  SafeMarkup.collapse Node.rootOf nodes

/-- The same for values that should be nodes and were not checked. -/
def Value.collapse (values : List Value) : Value :=
  SafeMarkup.collapse (fun values => .node (.root (.tuple values) .null .null)) values

/-- A sanitized tree, and what was put on record on the way. -/
structure Sanitized where
  node : Node
  records : List Audit.Record

namespace Policy

/-- The tree in a value: a node, or what can be read of a mapping. -/
def treeIn? : Value → Option Node
  | .node node => some node
  | .map entries => Node.ofValue? (.map entries)
  | _ => none

/-- Sanitizes a value and keeps the records. -/
def sanitizeWithRecords (policy : Policy) (value : Value) : Sanitized :=
  match treeIn? value with
  | none => ⟨Node.rootOf [], []⟩
  | some node =>
    let cleaned := policy.clean [] node
    ⟨Node.collapse cleaned.nodes, cleaned.records⟩

/-- Sanitizes a value. -/
def sanitize (policy : Policy) (value : Value) : Node :=
  (policy.sanitizeWithRecords value).node

/-- Sanitizes a value and keeps the records that a reader at this level sees. -/
def sanitizeAt (policy : Policy) (level : Audit.Level) (value : Value) : Sanitized :=
  let result := policy.sanitizeWithRecords value
  ⟨result.node, Audit.visible level result.records⟩

theorem sanitize_node (policy : Policy) (node : Node) :
    policy.sanitize (.node node) = Node.collapse (policy.clean [] node).nodes :=
  rfl

end Policy

end SafeMarkup
