/-
# Questions with unchecked arguments

The questions that a policy answers, put with values of any type.  Two of them accept everything:
what is not a text is neither a tag that may stay nor one that vanishes.  The others look their
argument up, which needs a value that can be a key; a key that is not a text is not found.

These are the borders of a policy.  The walk through a tree does not ask in this way: it has seen
that a tag is a text before it asks about the tag, and likewise for the names of properties.  Only
a walk that is begun inside tags which somebody else wrote down has to ask about them as they are
(`Policy.cleanInside` in `Cleaning.lean`).

A question with texts for its arguments is answered as in `Policy/Basic.lean`.  With anything else
the answer follows from what the look-up does, and the order of the look-ups is part of it, since
the first one that fails decides the fault.
-/
import SafeMarkup.Fault
import SafeMarkup.PropertyValue

namespace SafeMarkup.Policy

/-- A question to a policy. -/
inductive Query where
  | allowsTag (tag : Value)
  | isStripped (tag : Value)
  | allowsAttribute (tag name : Value)
  | protocolsFor (name : Value)
  | requiredAncestors (tag : Value)
  | isClobbered (name : Value)

/-- The answer to a question; `unchecked` stands for a property that is not scheme-checked. -/
inductive Answer where
  | truth (holds : Bool)
  | names (set : NameSet)
  | unchecked
deriving DecidableEq

/-- Looks a value up: what is not a text is not found, what cannot be a key is a fault. -/
def seek {α : Type} (value : Value) (found : String → α) (absent : α) : Except Fault α :=
  if value.isKey then .ok (match value.str? with | some name => found name | none => absent)
  else .error .notKey

/-- Asks whether a value that is not the name of a property begins with `data`.  A byte string or
a short collection does not; what has no length, and a long tuple, cannot be asked. -/
def dataNameOf : Value → Except Fault Bool
  | .str name => .ok (isDataName name)
  | .bytes _ => .ok false
  | .tuple items => if 4 < items.length then .error .noText else .ok false
  | .set items => if 4 < items.length then .error .notMeasurable else .ok false
  | _ => .error .notMeasurable

def asksAttribute (policy : Policy) (tag name : Value) : Except Fault Bool := do
  let own ← seek tag policy.attributes.get ∅
  let every := policy.attributes.get wildcard
  let listed ← seek name (fun name => own.contains name || every.contains name) false
  if listed then return true
  let isData ← dataNameOf name
  return isData && (own.contains dataWildcard || every.contains dataWildcard)

def answer (policy : Policy) : Query → Except Fault Answer
  | .allowsTag tag => .ok (.truth (policy.allowsTag tag))
  | .isStripped tag => .ok (.truth (policy.isStripped tag))
  | .allowsAttribute tag name => (policy.asksAttribute tag name).map .truth
  | .protocolsFor name =>
    seek name (fun name => (policy.protocolsFor name).elim .unchecked .names) .unchecked
  | .requiredAncestors tag => (seek tag policy.requiredAncestors ∅).map .names
  | .isClobbered name => seek name (fun name => .truth (policy.isClobbered name)) (.truth false)

/-! ## Values of properties -/

/-- The value holds a text, by itself or among the primitives of a list. -/
def holdsText (value : Value) : Bool :=
  match value.coerce? with
  | some (.str _) => true
  | some (.tuple items) => items.any fun item => item.str?.isSome
  | _ => false

/-- What does the value become under this name?  A name that is not a text is neither checked nor
given the prefix; one that cannot be a key is a fault as soon as a text has to be looked at. -/
def asksValue (policy : Policy) (name value : Value) : Except Fault (Option Value) :=
  match name with
  | .str name => .ok (policy.sanitizeValue name value)
  | name => if name.isKey || !holdsText value then .ok value.coerce? else .error .notKey

/-! ## Places -/

/-- Looks for a required tag among unchecked entries, from the outermost inward.  An entry that
cannot be a key is a fault, unless a required tag was found before it. -/
def scanPlace (required : NameSet) : List Value → Except Fault Bool
  | [] => .ok false
  | tag :: rest =>
    if (tag.str?.map required.contains).getD false then .ok true
    else if tag.isKey then scanPlace required rest
    else .error .notKey

/-- Is the rule of the tag met inside these unchecked entries? -/
def asksPlace (policy : Policy) (tag : Value) (enclosing : List Value) : Except Fault Bool := do
  let required ← seek tag policy.requiredAncestors ∅
  if required.isEmpty then return true
  scanPlace required enclosing

end SafeMarkup.Policy
