/-
# Going through a tree

There are two ways through a tree.  `Value.occurrences` lists every node that occurs in it, each
before what it encloses.  `Visitor.visit` calls a handler for every node: the handler of the
node's kind if there is one, else the default one if there is one, else none; the visit answers with
what was answered for the top.  Both go through the same occurrences in the same order, whatever
handlers there are.

Only roots and elements enclose anything.  Their children may be in anything that can be walked
through, and what comes out of it need not be nodes; such a value encloses nothing and is handled
like a node of no kind.  Where children cannot be walked through, the way ends: what came before
has been gone through by then, so it belongs to the result together with the fault.

A way is its own result: what was met, in order, and the fault that ended it, if one did.  Two ways
are put together so that the second is not begun after a fault, and the functions here are written
in these terms.

The handlers are not run for their effects.  A call is recorded by which handler it goes to and
with what, which is all that a visitor can rely on; what the handlers answer is used at the top
alone.  That the calls are those for the occurrences, each once and in the same order, is
`Visitor.visit_follows_occurrences` in `Proofs/Traversal.lean`.
-/
import SafeMarkup.Fault
import SafeMarkup.Value.Basic

namespace SafeMarkup

/-! ## Ways -/

/-- What was met on a way, in order, and the fault that ended it early, if one did. -/
structure Way (β : Type) where
  met : List β
  fault : Option Fault

namespace Way

variable {β : Type}

def of (met : List β) : Way β := ⟨met, none⟩

/-- A way that a fault ended at once. -/
def blocked (fault : Fault) : Way β := ⟨[], some fault⟩

/-- One way after the other; the second is not begun if the first ended early. -/
def andThen (first second : Way β) : Way β :=
  match first.fault with
  | none => ⟨first.met ++ second.met, second.fault⟩
  | some _ => first

end Way

/-! ## Listing -/

namespace Value

mutual

/-- Everything that occurs in a tree, each before what it encloses. -/
def occurrences : Value → Way Value
  | node n => (Way.of [node n]).andThen (enclosedBy n)
  | value => Way.of [value]
termination_by structural value => value

def enclosedBy : Node → Way Value
  | .root children _ _ | .element _ _ children _ _ => enclosedIn children
  | _ => Way.of []
termination_by structural node => node

def enclosedIn : Value → Way Value
  | list items | tuple items | set items => occurrencesAmong items
  | map entries => occurrencesOfKeys entries
  | str s => Way.of (s.toList.map fun c => str (String.singleton c))
  | bytes utf8 => Way.of (utf8.toUTF8.toList.map fun b => int b.toNat)
  | _ => Way.blocked .notWalkable
termination_by structural value => value

def occurrencesAmong : List Value → Way Value
  | [] => Way.of []
  | item :: rest => (occurrences item).andThen (occurrencesAmong rest)
termination_by structural items => items

def occurrencesOfKeys : List (Value × Value) → Way Value
  | [] => Way.of []
  | (key, _) :: rest => (occurrences key).andThen (occurrencesOfKeys rest)
termination_by structural entries => entries

end

end Value

/-! ## Visiting -/

/-- The handlers of a visitor.  There is none for nodes of no kind. -/
structure Visitor (α : Type) where
  handlerOf : Kind → Option (Value → α)
  /-- The handler of what has no handler of its own. -/
  default : Option (Value → α)

/-- Which handler was called. -/
inductive Handler where
  | ofKind (kind : Kind)
  | default
deriving DecidableEq, Repr

structure Call where
  handler : Handler
  visited : Value

/-- What a visit answers, and the calls that it made. -/
structure Visit (α : Type) where
  answer : Option α
  calls : Way Call

namespace Visitor

variable {α : Type}

/-- Calls the handler for a value, if there is one. -/
def dispatch (visitor : Visitor α) (value : Value) : Option α × List Call :=
  let own : Option (Handler × (Value → α)) :=
    match value with
    | .node n =>
      match n.kind with
      | .bare => none
      | kind => (visitor.handlerOf kind).map fun handle => (.ofKind kind, handle)
    | _ => none
  let standing : Option (Handler × (Value → α)) :=
    visitor.default.map fun handle => (.default, handle)
  match own.or standing with
  | some (handler, handle) => (some (handle value), [⟨handler, value⟩])
  | none => (none, [])

mutual

/-- The calls for a tree from the top down. -/
def calls (visitor : Visitor α) : Value → Way Call
  | .node n => (Way.of (visitor.dispatch (.node n)).2).andThen (visitor.callsBelow n)
  | value => Way.of (visitor.dispatch value).2
termination_by structural value => value

def callsBelow (visitor : Visitor α) : Node → Way Call
  | .root children _ _ | .element _ _ children _ _ => visitor.callsIn children
  | _ => Way.of []
termination_by structural node => node

def callsIn (visitor : Visitor α) : Value → Way Call
  | .list items | .tuple items | .set items => visitor.callsAmong items
  | .map entries => visitor.callsOfKeys entries
  | .str s => Way.of (s.toList.flatMap fun c => (visitor.dispatch (.str (String.singleton c))).2)
  | .bytes utf8 => Way.of (utf8.toUTF8.toList.flatMap fun b => (visitor.dispatch (.int b.toNat)).2)
  | _ => Way.blocked .notWalkable
termination_by structural value => value

def callsAmong (visitor : Visitor α) : List Value → Way Call
  | [] => Way.of []
  | item :: rest => (visitor.calls item).andThen (visitor.callsAmong rest)
termination_by structural items => items

def callsOfKeys (visitor : Visitor α) : List (Value × Value) → Way Call
  | [] => Way.of []
  | (key, _) :: rest => (visitor.calls key).andThen (visitor.callsOfKeys rest)
termination_by structural entries => entries

end

def visit (visitor : Visitor α) (value : Value) : Visit α :=
  ⟨(visitor.dispatch value).1, visitor.calls value⟩

end Visitor

end SafeMarkup
