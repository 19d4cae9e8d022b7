/-
# The audit trail

Cleaning a tree leaves a record of every element that did not stay and of every property whose
value was refused.  The records go to a channel for debugging, which is silent at any coarser
level.  All channels of the library hang below one, so a reader can turn the trail on by that name
alone.

Four things are put on record, and nothing else (`Record`).  What stays leaves no trace, and
neither does what stands inside an element that vanishes, since the walk does not enter it, nor a
property that may not stand on its tag, since its value is never looked at.  Comments and the other
nodes that no policy lets stay go without a word.

A record holds what it is about and not its text.  The text, `Record.message`, is put together by
the channel and only if somebody reads along, so the level changes what is seen and never what is
done (`visible`).

That the records of a run are complete is proved in `Proofs/AuditTrail.lean`, and there it is also
proved that the texts tell the sorts of records apart.
-/
import SafeMarkup.Names.NameSet
import SafeMarkup.Value.Display

namespace SafeMarkup.Audit

/-- Why something did not stay. -/
inductive Record where
  /-- An element vanished with all that it enclosed. -/
  | stripped (tag : String)
  /-- The tag of an element may not stay; what it enclosed took its place. -/
  | disallowed (tag : Value)
  /-- An element stood outside the tags that its own needs; what it enclosed took its place. -/
  | misplaced (tag : String) (required : NameSet)
  /-- The value of a property was refused. -/
  | refused (tag name : String)

/-- The text of a record.  It is put together only when a channel writes the record down, and a
channel whose text cannot be had because an integer in it is too long leaves the record out; nothing
of that comes back to the cleaning. -/
def Record.message : Record → String
  | stripped tag => "Dropping <" ++ tag ++ "> and its subtree"
  | disallowed tag => "Unwrapping disallowed element " ++ tag.shown
  | misplaced tag required =>
    "Unwrapping <" ++ tag ++ "> outside of " ++ String.intercalate "/" required.names
  | refused tag name => "Dropping " ++ tag ++ "[" ++ name ++ "]: rejected value"

/-! ## Channels -/

def topChannel : String := "sanitree"

/-- The channel of this name; a name from elsewhere is put below the top one. -/
def channel (name : String) : String :=
  if name == topChannel || (topChannel ++ ".").toList.isPrefixOf name.toList then name
  else topChannel ++ "." ++ name

def cleanerChannel : String := channel "sanitree.cleaner"

/-- How much a reader wants to see. -/
inductive Level where
  | debug
  | info
deriving DecidableEq, Repr

def Level.name : Level → String
  | debug => "DEBUG"
  | info => "INFO"

/-- What a reader at this level sees of some records.  Every record is one for debugging. -/
def visible (level : Level) (records : List Record) : List Record :=
  match level with
  | .debug => records
  | .info => []

end SafeMarkup.Audit
