/-
# Faults

Cleaning a tree never fails.  What can fail is at the borders: configuring a policy from untyped
values, reading a tree strictly, writing a tree that holds what cannot be written, and reading
JSON text.  A fault is the cause; its wording is in `message`.

Two faults say where they arose: a fault of configuration names the key of the policy, and a fault
of a tree's dict form gives the way from the top of the tree down to the faulty place.

The constructors group by who meets them.  `configuration` and `format` are reports on what
somebody wrote, to be shown to that person.  `notWritable`, `notChild` and `notPolicy` tell a
caller that a value of the wrong type was handed in, and name its type.  The rest say that a value
was asked something that its type has no answer to, that a text is no JSON, or that an integer is
too long.  Nobody relies on how these are worded, and a plain description stands for each.

A fault is data.  So a proof can say which fault comes of an input and not only that one does: the
strict reader's is the first in document order (`Proofs/FirstFlaw.lean`), the configuration's that
of the first part (`Proofs/Acceptance.lean`), and a failed edit's cause decides what has become of
the draft (`Proofs/FailedEdit.lean`).
-/

namespace SafeMarkup

/-! ## Causes -/

/-- What is wrong with a value that configures a part of a policy.  `got` is the name of the
value's type, `shown` the value as a message shows it. -/
inductive ShapeFlaw where
  | notCollection (got : String)
  | notNameEntry (got shown : String)
  | notMapping (got : String)
  | notNameKey (got shown : String)
  | notText (got : String)
deriving DecidableEq, Repr

/-- What is wrong with a value that should be the dict form of a node. -/
inductive FormatFlaw where
  | notMapping (got : String)
  | noType
  | childrenNotList (got : String)
deriving DecidableEq, Repr

/-- Why an operation failed. -/
inductive Fault where
  /-- A part of a policy has the wrong shape. -/
  | configuration (key : String) (flaw : ShapeFlaw)
  /-- The dict form of a tree is broken; `path` are the indices that lead to the place. -/
  | format (path : List Nat) (flaw : FormatFlaw)
  /-- A value that is no node was to be written as one. -/
  | notWritable (got : String)
  | notChild (got : String)
  /-- A value that is no policy was to become the default. -/
  | notPolicy (got : String)
  /-- A value that cannot be walked through was walked through. -/
  | notWalkable
  /-- A value that cannot be a key was used as one. -/
  | notKey
  | notMeasurable
  /-- A value that has no entries was asked for them. -/
  | noEntries
  /-- A value that is not a text was treated as one. -/
  | noText
  /-- An item that should be a key with its value has not two parts. -/
  | notPair
  | notJson
  /-- The text is not JSON. -/
  | syntaxFlaw
  /-- An integer has more digits than are read or written. -/
  | tooManyDigits
deriving DecidableEq, Repr

/-! ## Wording -/

def ShapeFlaw.message : ShapeFlaw → String
  | notCollection got => "expected a collection of strings, got " ++ got
  | notNameEntry got shown => "expected string entries, got " ++ got ++ " (" ++ shown ++ ")"
  | notMapping got => "expected a mapping, got " ++ got
  | notNameKey got shown => "expected string keys, got " ++ got ++ " (" ++ shown ++ ")"
  | notText got => "expected a string, got " ++ got

/-- The wording of a flaw of a dict form. -/
def FormatFlaw.message : FormatFlaw → String
  | notMapping got => "Expected a node dict, got " ++ got
  | noType => "Missing 'type' field in serialized node"
  | childrenNotList got => "Expected 'children' to be a list, got " ++ got

namespace Fault

/-- A path down a tree, as one text; the top has none. -/
def pathText : List Nat → Option String
  | [] => none
  | path =>
    some (String.intercalate "." (path.map fun i => "children[" ++ toString i ++ "]"))

/-- The wording of a fault under a key of a policy. -/
def keyed (key detail : String) : String :=
  "Schema '" ++ key ++ "': " ++ detail

/-- The wording of a fault at a place; an empty place is left unsaid. -/
def located (place : Option String) (detail : String) : String :=
  match place with
  | none => detail
  | some place => if place.isEmpty then detail else place ++ ": " ++ detail

def message : Fault → String
  | configuration key flaw => keyed key flaw.message
  | format path flaw => located (pathText path) flaw.message
  | notWritable got => "Cannot serialize " ++ got
  | notChild got => "Expected node, string, number or list as child, got " ++ got
  | notPolicy got => "expected a Schema, got " ++ got
  | notWalkable => "the value is not a collection"
  | notKey => "the value cannot be a key"
  | notMeasurable => "the value has no length"
  | noEntries => "the value has no entries"
  | noText => "the value is not a text"
  | notPair => "the item is not a key with its value"
  | notJson => "the value has no JSON form"
  | syntaxFlaw => "the text is not JSON"
  | tooManyDigits => "the integer has too many digits"

end Fault

end SafeMarkup
