/-
# Configuring a policy

A policy is configured from untyped values, one for each of its parts.  A part that is not given
takes its default; a part of the wrong shape is a fault that names the part's key, and inside a
map of names also the entry's key.  The parts are checked in a fixed order, that of `Part.all`, so
which of several faults is reported does not depend on how the values were supplied.

A set of names may be given as a list, a tuple, a set, or a mapping, of which the keys count.  A
single text is refused: it would be a collection of its characters, which nobody means.

A fault in a set or map shows the value that is to blame, and some values cannot be shown: an
integer with too many digits has no text.  Then there is no fault of configuration but that other
fault (`Value.refusal`).

The entries for URL schemes are taken in lower case on the way in, so that a policy never holds any
other; the comparison with the scheme of a URL relies on it.  Which configurations are accepted,
what the policy holds, and which fault is reported are settled together in
`Proofs/Acceptance.lean`.
-/
import SafeMarkup.Fault
import SafeMarkup.Policy.Basic
import SafeMarkup.Value.Display

namespace SafeMarkup

/-! ## Parts -/

/-- A part of a policy. -/
inductive Part where
  | tagNames | attributes | protocols | ancestors | clobber | strip | clobberPrefix
deriving DecidableEq, Repr

namespace Part

/-- The parts in the order in which they are checked. -/
def all : List Part := [tagNames, attributes, protocols, ancestors, clobber, strip, clobberPrefix]

/-- The key of a part, in faults and in exported policies. -/
def key : Part → String
  | tagNames => "tagNames"
  | attributes => "attributes"
  | protocols => "protocols"
  | ancestors => "ancestors"
  | clobber => "clobber"
  | strip => "strip"
  | clobberPrefix => "clobberPrefix"

/-- The other spelling of a part's key; most parts have one spelling only. -/
def plainKey : Part → String
  | tagNames => "tag_names"
  | clobberPrefix => "clobber_prefix"
  | part => part.key

/-- The value is one of the spellings of the part's key. -/
def isKeyedBy (part : Part) (key : Value) : Bool :=
  key.isText part.key || key.isText part.plainKey

def ofPlainKey? (name : String) : Option Part :=
  all.find? fun part => part.plainKey == name

/-- What a mapping gives for a part: the value of the last of its keys that names the part. -/
def given? (entries : List (Value × Value)) (part : Part) : Option Value :=
  (entries.reverse.find? fun entry => part.isKeyedBy entry.1).map Prod.snd

end Part

/-! ## Shapes -/

namespace Value

/-- The items of a collection that may stand for a set of names. -/
def collection? : Value → Option (List Value)
  | list items | tuple items | set items => some items
  | map entries => some (entries.map Prod.fst)
  | _ => none

/-- The fault of a value that is no name: the flaw shows it, and if it cannot be shown, then that is
the fault. -/
def refusal (key : String) (flaw : String → String → ShapeFlaw) (value : Value) : Fault :=
  match value.worded with
  | .ok shown => .configuration key (flaw value.typeName shown)
  | .error fault => fault

/-- Reads each item as a name; the first that is none is the fault. -/
def nameEntries (key : String) : List Value → Except Fault (List String)
  | [] => .ok []
  | item :: rest =>
    match item.str? with
    | none => .error (item.refusal key .notNameEntry)
    | some name => (nameEntries key rest).map (name :: ·)

def nameSet (key : String) (value : Value) : Except Fault NameSet :=
  match value.collection? with
  | none => .error (.configuration key (.notCollection value.typeName))
  | some items => (nameEntries key items).map NameSet.ofList

/-- Reads the entries of a map of names, in their order. -/
def nameMapEntries (key : String) :
    List (Value × Value) → Except Fault (List (String × NameSet))
  | [] => .ok []
  | entry :: rest =>
    match entry.1.str? with
    | none => .error (entry.1.refusal key .notNameKey)
    | some name => do
      let set ← nameSet (key ++ "." ++ name) entry.2
      let others ← nameMapEntries key rest
      return (name, set) :: others

def nameMap (key : String) (value : Value) : Except Fault NameMap :=
  match value.entries? with
  | none => .error (.configuration key (.notMapping value.typeName))
  | some entries => (nameMapEntries key entries).map NameMap.ofEntries

def nameText (key : String) (value : Value) : Except Fault String :=
  match value.str? with
  | none => .error (.configuration key (.notText value.typeName))
  | some s => .ok s

end Value

/-- The map with every set changed by a function on names. -/
def NameMap.mapNames (f : String → String) (map : NameMap) : NameMap :=
  .ofEntries (map.entries.map fun entry => (entry.1, entry.2.map f))

/-! ## Policies -/

namespace Policy

/-- Reads one part, or takes the default if it is not given. -/
def readPart {α : Type} (given : Part → Option Value) (part : Part)
    (read : String → Value → Except Fault α) (default : α) : Except Fault α :=
  match given part with
  | none => .ok default
  | some value => read part.key value

/-- The policy with the given parts.  URL schemes are taken in lower case. -/
def configure (given : Part → Option Value) : Except Fault Policy := do
  let standard : Policy := {}
  let tagNames ← readPart given .tagNames Value.nameSet standard.tagNames
  let attributes ← readPart given .attributes Value.nameMap standard.attributes
  let protocols ← readPart given .protocols Value.nameMap standard.protocols
  let ancestors ← readPart given .ancestors Value.nameMap standard.ancestors
  let clobber ← readPart given .clobber Value.nameSet standard.clobber
  let strip ← readPart given .strip Value.nameSet standard.strip
  let clobberPrefix ← readPart given .clobberPrefix Value.nameText standard.clobberPrefix
  return ⟨tagNames, attributes, protocols.mapNames Text.lowercase, ancestors, clobber,
    clobberPrefix, strip⟩

/-- The policy that a mapping describes, under either spelling of the keys.  Keys that name no
part are ignored. -/
def ofValue (value : Value) : Except Fault Policy :=
  match value.entries? with
  | none => .error (.configuration "schema" (.notMapping value.typeName))
  | some entries => configure (Part.given? entries)

end Policy

end SafeMarkup
