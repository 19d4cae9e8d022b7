/-
# Drafts of policies

A draft is a policy in the making.  An edit names exactly what it changes; when the draft is done,
`finish` makes a policy of it.  A draft made from a policy shares nothing with it, so the policy
stays as it was.

Arguments come unchecked.  An edit that adds names checks them all first and adds none if one is
not a text.  An edit that removes names does not check them: it goes through them one by one, a
value that is no text but could be a key is no member and changes nothing, and one that cannot be
a key ends the edit with a fault.  Tags and properties are likewise accepted under any key; a key
that is not a text comes to light when the draft is finished.

So an edit that fails has either changed nothing, or it is one that removes names and has taken out
those before the value at fault (`Proofs/FailedEdit.lean`).  What the edits of a whole sequence
come to, field by field, is in `Proofs/EditHistory.lean`: of those that say what something is, the
last one counts, and what was added since.

A key stands in the texts of the faults about its entry, and it is put into words before the entry
is looked at.  If it has none, because an integer in it is too long, the edit fails for that.
-/
import SafeMarkup.Policy.Configuration

namespace SafeMarkup

/-- A policy in the making.  The keys of its maps are any values that can be keys, in the order in
which they first came. -/
structure Draft where
  tagNames : NameSet
  attributes : List (Value × NameSet)
  protocols : List (Value × NameSet)
  ancestors : List (Value × NameSet)
  clobber : NameSet
  clobberPrefix : String
  strip : NameSet

/-- A change to a draft, with its unchecked arguments. -/
inductive Edit where
  | allowTags (names : List Value)
  | disallowTags (names : List Value)
  /-- Makes these tags vanish with all that they enclose. -/
  | stripTags (names : List Value)
  /-- Takes that back. -/
  | unstripTags (names : List Value)
  | allowAttributes (tag : Value) (names : List Value)
  /-- Takes these properties off the tag's own entry. -/
  | disallowAttributes (tag : Value) (names : List Value)
  /-- Replaces the URL schemes of the property; with none, only relative references pass. -/
  | setProtocols (name : Value) (schemes : List Value)
  | allowProtocols (name : Value) (schemes : List Value)
  | uncheckProtocols (name : Value)
  /-- Replaces the rule of the tag. -/
  | requireAncestors (tag : Value) (enclosing : List Value)
  | dropAncestorRule (tag : Value)
  | setClobber (names : List Value)
  | setClobberPrefix (text : Value)

namespace Draft

/-! ## Beginning and end -/

def fresh : Draft :=
  let standard : Policy := {}
  ⟨∅, [], [], [], standard.clobber, standard.clobberPrefix, standard.strip⟩

/-- The entries of a map of names, keyed by values. -/
def openMap (map : NameMap) : List (Value × NameSet) :=
  map.entries.map fun entry => (.str entry.1, entry.2)

def ofPolicy (policy : Policy) : Draft :=
  ⟨policy.tagNames, openMap policy.attributes, openMap policy.protocols,
    openMap policy.ancestors, policy.clobber, policy.clobberPrefix, policy.strip⟩

/-- The entries of a map with their keys as names; the first key that is no text is the fault. -/
def finishEntries (key : String) :
    List (Value × NameSet) → Except Fault (List (String × NameSet))
  | [] => .ok []
  | entry :: rest =>
    match entry.1.str? with
    | none => .error (entry.1.refusal key .notNameKey)
    | some name => (finishEntries key rest).map ((name, entry.2) :: ·)

/-- A map of names from the entries of a draft. -/
def finishMap (key : String) (entries : List (Value × NameSet)) : Except Fault NameMap :=
  (finishEntries key entries).map NameMap.ofEntries

/-- The policy that the draft has come to be.  The URL schemes are taken as they stand: the edits
put them there in lower case, and `ofPolicy` finds them so in every configured policy.  Whoever
builds a policy from what the draft hands over lower-cases them once more, which changes nothing
then; that the two ways agree is `configure_eq_finish`. -/
def finish (draft : Draft) : Except Fault Policy := do
  let attributes ← finishMap "attributes" draft.attributes
  let protocols ← finishMap "protocols" draft.protocols
  let ancestors ← finishMap "ancestors" draft.ancestors
  return ⟨draft.tagNames, attributes, protocols, ancestors, draft.clobber, draft.clobberPrefix,
    draft.strip⟩

/-! ## Edits -/

/-- A value fit to be a key. -/
def key (value : Value) : Except Fault Value :=
  if value.isKey then .ok value else .error .notKey

/-- Takes the values out of a set one by one, up to the first that cannot be a key. -/
def takeOut : List Value → NameSet → NameSet × Option Fault
  | [], set => (set, none)
  | value :: rest, set =>
    if value.isKey then
      takeOut rest (match value.str? with | some name => set.erase name | none => set)
    else (set, some .notKey)

def addUnder (key : Value) (names : List String) (entries : List (Value × NameSet)) :
    List (Value × NameSet) :=
  Value.put key (((Value.find? key entries).getD ∅).addAll names) entries

/-- The names that are to stand under a key, checked before the key is.  A fault in them would name
the key, so the key is put into words first of all, and has to have some. -/
def underKey (field : String) (value : Value) (names : List Value) :
    Except Fault (Value × List String) := do
  let place ← value.said
  let names ← Value.nameEntries (field ++ "." ++ place) names
  let key ← key value
  return (key, names)

/-- The entries without those of a key.  Where there are no entries, the key is not looked at. -/
def dropKey (value : Value) (entries : List (Value × NameSet)) :
    Except Fault (List (Value × NameSet)) :=
  if entries.isEmpty then .ok entries
  else (key value).map fun key => Value.remove key entries

/-- The draft after an edit that changes it as a whole or not at all. -/
def attempt (draft : Draft) (result : Except Fault Draft) : Draft × Option Fault :=
  match result with
  | .ok changed => (changed, none)
  | .error fault => (draft, some fault)

/-- The draft after an edit, and the fault if the edit failed. -/
def edit (draft : Draft) : Edit → Draft × Option Fault
  | .allowTags names => draft.attempt do
    let names ← Value.nameEntries "tagNames" names
    return { draft with tagNames := draft.tagNames.addAll names }
  | .disallowTags names =>
    let (tagNames, fault) := takeOut names draft.tagNames
    ({ draft with tagNames := tagNames }, fault)
  | .stripTags names => draft.attempt do
    let names ← Value.nameEntries "strip" names
    return { draft with strip := draft.strip.addAll names }
  | .unstripTags names =>
    let (strip, fault) := takeOut names draft.strip
    ({ draft with strip := strip }, fault)
  | .allowAttributes tag names => draft.attempt do
    let (tag, names) ← underKey "attributes" tag names
    return { draft with attributes := addUnder tag names draft.attributes }
  | .disallowAttributes tag names =>
    match key tag with
    | .error fault => (draft, some fault)
    | .ok tag =>
      match Value.find? tag draft.attributes with
      | none => (draft, none)
      | some own =>
        let (own, fault) := takeOut names own
        ({ draft with attributes := Value.put tag own draft.attributes }, fault)
  | .setProtocols name schemes => draft.attempt do
    let (name, schemes) ← underKey "protocols" name schemes
    let set := NameSet.ofList (schemes.map Text.lowercase)
    return { draft with protocols := Value.put name set draft.protocols }
  | .allowProtocols name schemes => draft.attempt do
    let (name, schemes) ← underKey "protocols" name schemes
    return { draft with protocols := addUnder name (schemes.map Text.lowercase) draft.protocols }
  | .uncheckProtocols name => draft.attempt do
    let protocols ← dropKey name draft.protocols
    return { draft with protocols := protocols }
  | .requireAncestors tag enclosing => draft.attempt do
    let (tag, enclosing) ← underKey "ancestors" tag enclosing
    return { draft with ancestors := Value.put tag (.ofList enclosing) draft.ancestors }
  | .dropAncestorRule tag => draft.attempt do
    let ancestors ← dropKey tag draft.ancestors
    return { draft with ancestors := ancestors }
  | .setClobber names => draft.attempt do
    let names ← Value.nameEntries "clobber" names
    return { draft with clobber := .ofList names }
  | .setClobberPrefix text => draft.attempt do
    let text ← Value.nameText "clobberPrefix" text
    return { draft with clobberPrefix := text }

/-- The draft after a sequence of edits; the first one that fails ends it. -/
def editAll (draft : Draft) : List Edit → Except Fault Draft
  | [] => .ok draft
  | change :: rest =>
    match draft.edit change with
    | (changed, none) => changed.editAll rest
    | (_, some fault) => .error fault

end Draft

end SafeMarkup
